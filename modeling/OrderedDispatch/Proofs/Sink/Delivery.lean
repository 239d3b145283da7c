/-
**Which bytes of an output reach the sink.**

A sink may take an output in portions, may be interrupted, and may refuse to go on at any byte.  The
loop that writes keeps one promise through all of this: at every write, what the sink has taken so
far and what it is offered now make up the whole output.  So no byte is lost, repeated or passed
over, wherever the sink stops; an interrupted write is simply made again; and the output is taken in
full exactly if no write made the loop stop.  Only then the sink is flushed, once.

Main definitions:

* `SinkCall.stops`, `SinkCall.flush?` — a write after which nothing more is written, and the answer
  to a flush;
* `Sink.accepted`, `Sink.flushes` — the bytes that calls moved into the sink, and the answers to the
  flushes among them;
* `Sink.Written`, `Sink.Delivery` — what the writes of an output do, and what its whole retirement
  does;
* `Sink.visits` — the calls for each output of a series.

Main results:

* `Sink.written_writeAll` — **every write offers what has not been taken**;
* `Sink.delivery_retire` — what comes of the output follows from the calls made for it;
* `Sink.calls_series` — a series is the visits of its outputs, one after the other;
* `ScriptedSink.data_series` — a scripted sink holds the bytes that the calls moved into it.
-/

import Mathlib.Data.List.Infix
import OrderedDispatch.Proofs.Sink.Series
import OrderedDispatch.Sink.Scripted

set_option relaxedAutoImplicit false
set_option autoImplicit false

namespace OrderedDispatch

/-! ### Calls -/

/-- Whether a call is a write after which nothing more of the output is written: one that took
nothing, failed or panicked. -/
def SinkCall.stops : SinkCall → Bool
  | .write _ (.took count) => count = 0
  | .write _ .interrupted => false
  | .write _ (.failed _) => true
  | .write _ .panicked => true
  | .flush _ => false

/-- The answer to a flush. -/
def SinkCall.flush? : SinkCall → Option FlushAnswer
  | .write _ _ => none
  | .flush answer => some answer

namespace Sink

variable {σ : Type}

/-- The bytes that some calls moved into the sink. -/
def accepted (calls : List SinkCall) : List UInt8 := calls.flatMap SinkCall.taken

/-- The answers to the flushes among some calls. -/
def flushes (calls : List SinkCall) : List FlushAnswer := calls.filterMap SinkCall.flush?

@[simp] theorem accepted_nil : accepted [] = [] := rfl

@[simp] theorem accepted_cons (c : SinkCall) (calls : List SinkCall) :
    accepted (c :: calls) = c.taken ++ accepted calls := rfl

@[simp] theorem accepted_append (calls later : List SinkCall) :
    accepted (calls ++ later) = accepted calls ++ accepted later :=
  List.flatMap_append

@[simp] theorem flushes_append (calls later : List SinkCall) :
    flushes (calls ++ later) = flushes calls ++ flushes later :=
  List.filterMap_append

/-! ### Writing an output -/

/-- What the writes of some bytes do. -/
structure Written (bytes : List UInt8) (calls : List SinkCall) (fault : Option Fault) : Prop where
  /-- the bytes taken are the first ones -/
  part : accepted calls <+: bytes
  /-- all bytes are taken exactly if no write makes the writing stop -/
  whole_iff : accepted calls = bytes ↔ ∀ c ∈ calls, c.stops = false
  /-- the fault tells whether they are -/
  fault_iff : fault = none ↔ accepted calls = bytes
  /-- nothing is flushed -/
  unflushed : flushes calls = []
  /-- each write offers what has not been taken, and there is something left to offer -/
  offers : ∀ before offered answer after, calls = before ++ .write offered answer :: after →
    accepted before ++ offered = bytes ∧ offered ≠ []
  /-- an interrupted write is made again -/
  again : ∀ before offered after, calls = before ++ .write offered .interrupted :: after →
    ∃ answer later, after = .write offered answer :: later

namespace Written

variable {bytes : List UInt8} {calls : List SinkCall} {fault : Option Fault}

theorem nil : Written [] [] none where
  part := List.prefix_rfl
  whole_iff := by simp
  fault_iff := by simp
  unflushed := rfl
  offers := by simp
  again := by simp

/-- A write that takes nothing and makes the writing stop. -/
theorem stopped {answer : WriteAnswer} {e : Fault} (hbytes : bytes ≠ [])
    (hstops : (SinkCall.write bytes answer).stops = true) :
    Written bytes [.write bytes answer] (some e) := by
  have htaken : (SinkCall.write bytes answer).taken = [] := by
    cases answer <;> simp_all [SinkCall.stops, SinkCall.taken]
  refine ⟨?_, ?_, ?_, rfl, ?_, ?_⟩
  · simp [htaken]
  · simp [htaken, hstops, Ne.symm hbytes]
  · simp [htaken, Ne.symm hbytes]
  · intro before offered answer' after hsplit
    obtain ⟨rfl, hsame⟩ | ⟨_, -, hnil⟩ := List.cons_eq_append_iff.1 hsplit
    · obtain ⟨rfl, -⟩ := SinkCall.write.inj (List.cons.inj hsame).1.symm
      exact ⟨rfl, hbytes⟩
    · simp at hnil
  · intro before offered after hsplit
    obtain ⟨rfl, hsame⟩ | ⟨_, -, hnil⟩ := List.cons_eq_append_iff.1 hsplit
    · obtain ⟨-, rfl⟩ := SinkCall.write.inj (List.cons.inj hsame).1.symm
      cases hstops
    · simp at hnil

/-- A write that takes some of the bytes, and the writes of the others. -/
theorem took {n : Nat} (hbytes : bytes ≠ []) (h : Written (bytes.drop (n + 1)) calls fault) :
    Written bytes (.write bytes (.took (n + 1)) :: calls) fault := by
  have htaken : (SinkCall.write bytes (.took (n + 1))).taken = bytes.take (n + 1) := rfl
  have hwhole : accepted (.write bytes (.took (n + 1)) :: calls) = bytes
      ↔ accepted calls = bytes.drop (n + 1) := by
    rw [accepted_cons, htaken]
    nth_rewrite 2 [← List.take_append_drop (n + 1) bytes]
    exact List.append_right_inj _
  refine ⟨?_, ?_, ?_, ?_, ?_, ?_⟩
  · rw [accepted_cons, htaken]
    nth_rewrite 2 [← List.take_append_drop (n + 1) bytes]
    exact (List.prefix_append_right_inj _).2 h.part
  · rw [hwhole, h.whole_iff, List.forall_mem_cons]
    simp [SinkCall.stops]
  · rw [hwhole, h.fault_iff]
  · exact h.unflushed
  · intro before offered answer after hsplit
    obtain ⟨rfl, hsame⟩ | ⟨before, rfl, hlater⟩ := List.cons_eq_append_iff.1 hsplit
    · obtain ⟨rfl, -⟩ := SinkCall.write.inj (List.cons.inj hsame).1.symm
      exact ⟨rfl, hbytes⟩
    · obtain ⟨hoffered, hne⟩ := h.offers before offered answer after hlater
      exact ⟨by rw [accepted_cons, htaken, List.append_assoc, hoffered, List.take_append_drop], hne⟩
  · intro before offered after hsplit
    obtain ⟨rfl, hsame⟩ | ⟨before, rfl, hlater⟩ := List.cons_eq_append_iff.1 hsplit
    · cases (List.cons.inj hsame).1
    · exact h.again before offered after hlater

/-- An interrupted write, which is made again. -/
theorem interrupted {answer : WriteAnswer} {later : List SinkCall} (hbytes : bytes ≠ [])
    (hnext : calls = .write bytes answer :: later) (h : Written bytes calls fault) :
    Written bytes (.write bytes .interrupted :: calls) fault := by
  have hwhole : accepted (.write bytes .interrupted :: calls) = accepted calls := rfl
  refine ⟨?_, ?_, ?_, ?_, ?_, ?_⟩
  · rw [hwhole]
    exact h.part
  · rw [hwhole, h.whole_iff, List.forall_mem_cons]
    simp [SinkCall.stops]
  · rw [hwhole, h.fault_iff]
  · exact h.unflushed
  · intro before offered answer after hsplit
    obtain ⟨rfl, hsame⟩ | ⟨before, rfl, hlater⟩ := List.cons_eq_append_iff.1 hsplit
    · obtain ⟨rfl, -⟩ := SinkCall.write.inj (List.cons.inj hsame).1.symm
      exact ⟨rfl, hbytes⟩
    · exact h.offers before offered answer after hlater
  · intro before offered after hsplit
    obtain ⟨rfl, hsame⟩ | ⟨before, rfl, hlater⟩ := List.cons_eq_append_iff.1 hsplit
    · obtain ⟨hfirst, rfl⟩ := List.cons.inj hsame
      obtain ⟨rfl, -⟩ := SinkCall.write.inj hfirst
      exact ⟨answer, later, hnext⟩
    · exact h.again before offered after hlater

end Written

/-- The first of some bytes are offered first. -/
theorem exists_writeAll_eq_cons (k : Sink σ) (s : σ) {bytes : List UInt8} (hbytes : bytes ≠ []) :
    ∃ answer later, (k.writeAll s bytes).calls = .write bytes answer :: later := by
  rw [writeAll, if_neg (by simpa using hbytes)]
  split <;> exact ⟨_, _, rfl⟩

/-- **Every write offers what has not been taken.** -/
theorem written_writeAll (k : Sink σ) (s : σ) (bytes : List UInt8) :
    Written bytes (k.writeAll s bytes).calls (k.writeAll s bytes).fault := by
  fun_induction k.writeAll s bytes with
  | case1 s bytes hempty =>
      obtain rfl := List.isEmpty_iff.1 hempty
      exact .nil
  | case2 s bytes hempty s' hwrite => exact .stopped (by simpa using hempty) rfl
  | case3 s bytes hempty n s' hwrite ih => exact ih.took (by simpa using hempty)
  | case4 s bytes hempty s' hwrite ih =>
      have hbytes : bytes ≠ [] := by simpa using hempty
      obtain ⟨answer, later, hnext⟩ := k.exists_writeAll_eq_cons s' hbytes
      exact ih.interrupted hbytes hnext
  | case5 s bytes hempty e s' hwrite => exact .stopped (by simpa using hempty) rfl
  | case6 s bytes hempty s' hwrite => exact .stopped (by simpa using hempty) rfl

/-! ### Retiring an output -/

/-- What the retirement of an output does. -/
structure Delivery (output : List UInt8) (calls : List SinkCall) (fault : Option Fault) :
    Prop where
  /-- the bytes taken are the first ones of the output -/
  part : accepted calls <+: output
  /-- the whole output is taken exactly if no write makes the writing stop -/
  whole_iff : accepted calls = output ↔ ∀ c ∈ calls, c.stops = false
  /-- the item is retired without a fault exactly if its whole output is taken and its one flush
  succeeds -/
  ok_iff : fault = none ↔ accepted calls = output ∧ flushes calls = [.done]
  /-- the sink is flushed exactly if the whole output is taken -/
  flushed_iff : flushes calls ≠ [] ↔ accepted calls = output
  /-- it is not flushed twice -/
  once : (flushes calls).length ≤ 1
  /-- each write offers what has not been taken, and there is something left to offer -/
  offers : ∀ before offered answer after, calls = before ++ .write offered answer :: after →
    accepted before ++ offered = output ∧ offered ≠ []
  /-- an interrupted write is made again -/
  again : ∀ before offered after, calls = before ++ .write offered .interrupted :: after →
    ∃ answer later, after = .write offered answer :: later

section Flushed

variable {output : List UInt8} {calls : List SinkCall} {fault : Option Fault}

/-- After a write that made the writing stop nothing is flushed. -/
theorem Written.unfinished (h : Written output calls fault) (hfault : fault ≠ none) :
    Delivery output calls fault where
  part := h.part
  whole_iff := h.whole_iff
  ok_iff := by simp [hfault, h.unflushed]
  flushed_iff := by simpa [h.unflushed] using fun hwhole => hfault (h.fault_iff.2 hwhole)
  once := by simp [h.unflushed]
  offers := h.offers
  again := h.again

/-- A write among calls that end with a flush is one of those before the flush. -/
theorem exists_of_concat_flush {answer : FlushAnswer} {before after : List SinkCall}
    {offered : List UInt8} {reply : WriteAnswer}
    (h : calls ++ [.flush answer] = before ++ .write offered reply :: after) :
    ∃ init, after = init ++ [.flush answer] ∧ calls = before ++ .write offered reply :: init := by
  rcases List.eq_nil_or_concat after with rfl | ⟨init, last, rfl⟩
  · have := (List.append_inj' h rfl).2
    simp at this
  · rw [List.concat_eq_append] at h ⊢
    rw [← List.cons_append, ← List.append_assoc] at h
    obtain ⟨hcalls, hlast⟩ := List.append_inj' h rfl
    exact ⟨init, by rw [hlast], hcalls⟩

/-- After writes without a fault the sink is flushed. -/
theorem Written.flushed (h : Written output calls none) (answer : FlushAnswer) :
    Delivery output (calls ++ [.flush answer]) (flushFault answer) := by
  have hwhole : accepted calls = output := h.fault_iff.1 rfl
  have haccepted : accepted (calls ++ [.flush answer]) = output := by
    simpa [SinkCall.taken] using hwhole
  have hflushes : flushes (calls ++ [.flush answer]) = [answer] := by
    rw [flushes_append, h.unflushed]
    rfl
  refine ⟨?_, ?_, ?_, ?_, ?_, ?_, ?_⟩
  · rw [haccepted]
  · refine iff_of_true haccepted ?_
    simpa [SinkCall.stops, or_imp, forall_and] using h.whole_iff.1 hwhole
  · rw [hflushes]
    cases answer <;> simp [flushFault, hwhole, SinkCall.taken]
  · simp [hflushes, hwhole, SinkCall.taken]
  · simp [hflushes]
  · intro before offered reply after hsplit
    obtain ⟨init, -, hcalls⟩ := exists_of_concat_flush hsplit
    exact h.offers before offered reply init hcalls
  · intro before offered after hsplit
    obtain ⟨init, rfl, hcalls⟩ := exists_of_concat_flush hsplit
    obtain ⟨reply, later, rfl⟩ := h.again before offered init hcalls
    exact ⟨reply, later ++ [.flush answer], rfl⟩

end Flushed

/-- **What comes of an output follows from the calls made for it.** -/
theorem delivery_retire (k : Sink σ) (s : σ) (output : List UInt8) :
    Delivery output (k.retire s output).calls (k.retire s output).fault := by
  have h := k.written_writeAll s output
  rw [retire]
  cases hfault : (k.writeAll s output).fault with
  | some e =>
      have := h.unfinished (by simp [hfault])
      simpa only [hfault] using this
  | none =>
      rw [hfault] at h
      exact h.flushed _

/-! ### The outputs of a series -/

/-- The calls for each output of a series. -/
def visits (k : Sink σ) (s : σ) : List (List UInt8) → List (List SinkCall)
  | [] => []
  | output :: rest => (k.retire s output).calls :: k.visits (k.retire s output).state rest

theorem length_visits (k : Sink σ) (s : σ) (outputs : List (List UInt8)) :
    (k.visits s outputs).length = outputs.length := by
  induction outputs generalizing s with
  | nil => rfl
  | cons output rest ih => rw [visits, List.length_cons, List.length_cons, ih]

/-- **A series is the visits of its outputs, one after the other.** -/
theorem calls_series (k : Sink σ) (s : σ) (outputs : List (List UInt8)) :
    (k.series s outputs).calls = (k.visits s outputs).flatten := by
  induction outputs generalizing s with
  | nil => rfl
  | cons output rest ih => rw [visits, List.flatten_cons, ← ih]; rfl

/-- Each output is retired where the ones before have left the sink. -/
theorem visits_getElem? (k : Sink σ) (s : σ) {outputs : List (List UInt8)} {i : Nat}
    {output : List UInt8} (h : outputs[i]? = some output) :
    (k.visits s outputs)[i]? = some (k.retire (k.series s (outputs.take i)).state output).calls := by
  induction outputs generalizing s i with
  | nil => simp at h
  | cons first rest ih =>
      cases i with
      | zero =>
          obtain rfl := Option.some.inj h
          rfl
      | succ i =>
          rw [visits, List.getElem?_cons_succ, ih _ (by simpa using h)]
          rfl

end Sink

/-! ### What a scripted sink holds -/

namespace ScriptedSink

open Sink

/-- A write adds what it took to what the sink holds. -/
theorem data_write (p : Script) (s : State) (offered : List UInt8) :
    (p.write s offered).2.data
      = s.data ++ (SinkCall.write offered (p.write s offered).1).taken := by
  rw [Script.write]
  cases p.faultAt .write (s.writes + 1) with
  | some kind => cases kind <;> simp [State.data, SinkCall.taken, Script.faultedWrite]
  | none =>
      have hportion : offered.take (p.portion offered).length = p.portion offered := by
        unfold Script.portion
        split <;> simp
      simp [State.data, SinkCall.taken, hportion]

theorem data_flush (p : Script) (s : State) : (p.flush s).2.data = s.data := by
  rw [Script.flush]
  cases p.faultAt .flush (s.flushes + 1) <;> rfl

theorem data_writeAll (p : Script) (s : State) (bytes : List UInt8) :
    ((machine p).writeAll s bytes).state.data
      = s.data ++ accepted ((machine p).writeAll s bytes).calls := by
  have hwrite : ∀ {s s' : State} {bytes : List UInt8} {answer : WriteAnswer},
      (machine p).write s bytes = (answer, s') →
        s'.data = s.data ++ (SinkCall.write bytes answer).taken := by
    intro s s' bytes answer h
    have := data_write p s bytes
    rwa [show p.write s bytes = (answer, s') from h] at this
  fun_induction (machine p).writeAll s bytes with
  | case1 s bytes hempty => simp
  | case2 s bytes hempty s' h => simpa using hwrite h
  | case3 s bytes hempty n s' h ih => simp [Outcome.after, ih, hwrite h]
  | case4 s bytes hempty s' h ih => simp [Outcome.after, ih, hwrite h]
  | case5 s bytes hempty e s' h => simpa using hwrite h
  | case6 s bytes hempty s' h => simpa using hwrite h

theorem data_retire (p : Script) (s : State) (output : List UInt8) :
    ((machine p).retire s output).state.data
      = s.data ++ accepted ((machine p).retire s output).calls := by
  have hwritten := data_writeAll p s output
  rw [Sink.retire]
  cases ((machine p).writeAll s output).fault with
  | some e => exact hwritten
  | none =>
      have hflush := data_flush p ((machine p).writeAll s output).state
      -- a flush moves nothing into the sink
      have haccepted : ∀ (calls : List SinkCall) (answer : FlushAnswer),
          accepted (calls ++ [.flush answer]) = accepted calls := by
        intro calls answer
        simp [SinkCall.taken]
      exact (hflush.trans hwritten).trans (congrArg (s.data ++ ·) (haccepted _ _).symm)

/-- **A scripted sink holds the bytes that the calls moved into it.** -/
theorem data_series (p : Script) (s : State) (outputs : List (List UInt8)) :
    ((machine p).series s outputs).state.data
      = s.data ++ (((machine p).visits s outputs).map accepted).flatten := by
  induction outputs generalizing s with
  | nil => simp [Sink.series, Sink.visits]
  | cons output rest ih =>
      rw [Sink.visits, List.map_cons, List.flatten_cons, ← List.append_assoc, ← data_retire, ← ih]
      rfl

end ScriptedSink

end OrderedDispatch

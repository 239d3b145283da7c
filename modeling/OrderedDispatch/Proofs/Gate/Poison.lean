/-
**Who reports that the mutex was poisoned.**

Along a run the mutex is poisoned and taken, again and again.  Whoever takes it clears its poison,
so that it is found poisoned exactly if the last thing that happened to it was that somebody
poisoned it.  A call that finds it poisoned, when it comes or on waking, carries that fault from
then on and reports it in the end, and no other call reports that fault, for the sink has none of
this kind.  So of several poisonings in a row the one call reports that takes the mutex next.

Main definitions:

* `LockEvent`, `Room.lockEvents` — what happens to the mutex during a run;
* `Room.Recorded` — whoever takes the mutex finds it poisoned if it was poisoned just before;
* `Room.mark`, `Room.Marked` — the fault of a call that has found the mutex poisoned, and that all
  calls carry it;
* `Poisonings` — poisonings in a row, as many as there are;
* `Room.FindsFirst`, `Room.Reports` — the call that has found them, and that it says so.

Main results:

* `Room.recorded`, `Room.marked` — **what the mutex and the calls show is what has happened to the
  mutex**;
* `Room.Marked.result_eq_poisoned_iff` — a call reports a poisoned mutex exactly if it has found
  one;
* `Room.Found.unique`, `Room.Found.exists_finds`, `Room.Marked.reports` — **poisonings in a row are
  reported by one call**, the one that takes the mutex next.
-/

import OrderedDispatch.Proofs.Gate.Line

set_option relaxedAutoImplicit false
set_option autoImplicit false

namespace OrderedDispatch

/-! ### Faults of the sink -/

namespace Sink

variable {σ : Type}

theorem writeAll_fault_ne_poisoned (k : Sink σ) (s : σ) (bytes : List UInt8) (lock : Lock) :
    (k.writeAll s bytes).fault ≠ some (.poisoned lock) := by
  fun_induction k.writeAll s bytes <;> simp_all [Outcome.after]

/-- The sink has no fault of the kind that a poisoned mutex has. -/
theorem retire_fault_ne_poisoned (k : Sink σ) (s : σ) (output : List UInt8) (lock : Lock) :
    (k.retire s output).fault ≠ some (.poisoned lock) := by
  have hwritten := k.writeAll_fault_ne_poisoned s output lock
  simp only [retire]
  split
  · exact hwritten
  · cases (k.flush (k.writeAll s output).state).1 <;> simp [flushFault]

/-- What comes of the output with a number when all are retired one after the other. -/
def seriesFault (k : Sink σ) (s : σ) (outputs : List (List UInt8)) (i : Nat) : Option Fault :=
  (k.series s outputs).faults[i]?.join

theorem seriesFault_eq (k : Sink σ) (s : σ) {outputs : List (List UInt8)} {i : Nat}
    {output : List UInt8} (h : outputs[i]? = some output) :
    k.seriesFault s outputs i = (k.retire (k.series s (outputs.take i)).state output).fault := by
  rw [seriesFault, faults_series_getElem? k s h]
  rfl

end Sink

/-! ### What happens to the mutex -/

/-- What happens to the mutex of a gate: somebody poisons it, or the call with a position takes it,
and finds it poisoned or not. -/
inductive LockEvent where
  | poisoned
  | acquired (position : Nat) (found : Bool)
  deriving DecidableEq

namespace Room

variable {σ : Type} {k : Sink σ} {sink : σ} {outputs : List (List UInt8)} {ms : List Moment}
  {es : List LockEvent} {r r' : Room σ} {m : Moment}

/-- What a moment does to the mutex, if anything. -/
def lockEvent? (r : Room σ) : Moment → Option LockEvent
  | .poison => some .poisoned
  | .advance p =>
      (r.calls[p]?.bind fun c => c.phase.wants?).map fun _ => .acquired p r.gate.poisoned
  | _ => none

/-- What happens to the mutex during a run. -/
def lockEvents (k : Sink σ) : Room σ → List Moment → List LockEvent
  | _, [] => []
  | r, m :: rest =>
      (r.lockEvent? m).toList ++ ((r.step? k m).map fun r' => lockEvents k r' rest).getD []

theorem lockEvents_concat {r₀ : Room σ} (hrun : r₀.run? k ms = some r) (m : Moment) :
    r₀.lockEvents k (ms ++ [m]) = r₀.lockEvents k ms ++ (r.lockEvent? m).toList := by
  induction ms generalizing r₀ with
  | nil =>
      obtain rfl := Option.some.inj hrun
      cases hstep : r₀.step? k m <;> simp [lockEvents, hstep]
  | cons first rest ih =>
      obtain ⟨e, hstep, hrest⟩ := Option.bind_eq_some_iff.1 hrun
      simp only [List.cons_append, lockEvents, hstep, Option.map_some, Option.getD_some,
        ih hrest, List.append_assoc]

/-- A call that wants the mutex takes it. -/
theorem Turn.lockEvent? {p : Nat} {c : RetireCall} {phase : CallPhase} {wakes : Bool}
    (turn : Turn r r' p c phase wakes) :
    r.lockEvent? (.advance p) = c.phase.wants?.map fun _ => .acquired p r.gate.poisoned := by
  simp only [Room.lockEvent?, turn.before, Option.bind_some]

/-- **What survives every change, together with what it does to the mutex**, holds after every
run. -/
theorem lock_invariant {P : List LockEvent → Room σ → Prop} (hstart : P [] (around sink))
    (hchange : ∀ ms es r r' m, (around sink).run? k ms = some r → P es r → Change k r r' m →
      P (es ++ (r.lockEvent? m).toList) r') (hrun : (around sink).run? k ms = some r) :
    P ((around sink).lockEvents k ms) r := by
  refine run_invariant (P := fun ms r => P ((around sink).lockEvents k ms) r) hstart ?_ hrun
  intro ms r r' m hrun he hc
  rw [lockEvents_concat hrun]
  exact hchange ms _ r r' m hrun he hc

/-! ### When the mutex is found poisoned -/

/-- Whoever takes the mutex finds it poisoned exactly if it was poisoned just before. -/
def Found (es : List LockEvent) : Prop :=
  ∀ before p found after, es = before ++ .acquired p found :: after →
    (found = true ↔ before.getLast? = some .poisoned)

/-- The mutex shows what has happened to it last. -/
structure Recorded (es : List LockEvent) (r : Room σ) : Prop where
  flag : r.gate.poisoned = true ↔ es.getLast? = some .poisoned
  found : Found es

theorem Found.concat (h : Found es) {e : LockEvent}
    (hnew : ∀ p found, e = .acquired p found → (found = true ↔ es.getLast? = some .poisoned)) :
    Found (es ++ [e]) := by
  intro before p found after hsplit
  rcases List.eq_nil_or_concat after with rfl | ⟨later, last, rfl⟩
  · -- it is the one that has been added
    obtain ⟨rfl, hlast⟩ := List.append_inj' hsplit rfl
    exact hnew p found (List.singleton_inj.1 hlast)
  · have hsplit' : es ++ [e] = (before ++ .acquired p found :: later) ++ [last] := by
      rw [hsplit, List.append_assoc, List.cons_append, List.concat_eq_append]
    exact h before p found later (List.append_inj' hsplit' rfl).1

/-- A moment that does nothing to the mutex. -/
theorem Recorded.keep (h : Recorded es r) (hevent : r.lockEvent? m = none)
    (hgate : r'.gate.poisoned = r.gate.poisoned) :
    Recorded (es ++ (r.lockEvent? m).toList) r' := by
  rw [hevent, Option.toList_none, List.append_nil]
  exact ⟨by rw [hgate]; exact h.flag, h.found⟩

/-- **The mutex shows what has happened to it last**, and so does whoever takes it. -/
theorem recorded (hrun : (around sink).run? k ms = some r) :
    Recorded ((around sink).lockEvents k ms) r := by
  refine lock_invariant (P := Recorded) ⟨by simp [around], ?_⟩ ?_ hrun
  · intro before p found after hsplit
    simp at hsplit
  · intro ms es r r' m _ he hc
    cases hc with
    | came calls gate log => exact he.keep rfl (by rw [gate])
    | acquired turn wants free gate log =>
        rw [turn.lockEvent?, wants]
        refine ⟨by simp [gate, Gate.taken], he.found.concat ?_⟩
        rintro q found hsame
        obtain ⟨-, rfl⟩ := LockEvent.acquired.inj hsame
        exact he.flag
    | slept turn holds notNext gate log =>
        exact he.keep (by rw [turn.lockEvent?, holds]; rfl) (by rw [gate]; rfl)
    | retired turn holds next gate log =>
        exact he.keep (by rw [turn.lockEvent?, holds]; rfl) (by rw [gate])
    | woke turn sleeps gate log => exact he.keep rfl (by rw [gate])
    | poisoned free calls gate log =>
        refine ⟨by simp [gate, Gate.poison, lockEvent?], he.found.concat fun p found hsame => ?_⟩
        cases hsame

/-! ### Who carries the fault -/

/-- The fault of a call that has found the mutex poisoned. -/
def mark (es : List LockEvent) (p : Nat) : Option Fault :=
  if .acquired p true ∈ es then some (.poisoned .retire) else none

/-- Taking the mutex marks the call if the mutex was poisoned. -/
theorem mark_acquired (es : List LockEvent) (p : Nat) (g : Gate σ) :
    mark (es ++ [.acquired p g.poisoned]) p = (mark es p).or g.poisonFault := by
  cases hg : g.poisoned <;> by_cases hes : LockEvent.acquired p true ∈ es <;>
    simp [mark, Gate.poisonFault, hg, hes]

/-- Other calls are marked as they were. -/
theorem mark_other (es : List LockEvent) {p q : Nat} (h : q ≠ p) (found : Bool) :
    mark (es ++ [.acquired p found]) q = mark es q := by
  simp [mark, h]

/-- Poisoning the mutex marks no call. -/
theorem mark_poisoned (es : List LockEvent) (p : Nat) :
    mark (es ++ [.poisoned]) p = mark es p := by
  simp [mark]

end Room

/-- Whether a call carries the fault `mark` of a poisoned mutex, and reports it before the fault
`sequential` of the sink. -/
def CallPhase.Carries (mark sequential : Option Fault) : CallPhase → Prop
  | arriving => mark = none
  | holding fault | asleep fault | woken fault => fault = mark
  | done fault => fault = mark.or sequential

namespace CallPhase

variable {mark sequential : Option Fault} {phase : CallPhase}

theorem Carries.notified (h : phase.Carries mark sequential) :
    phase.notified.Carries mark sequential := by
  cases phase <;> exact h

theorem Carries.of_wants? (h : phase.Carries mark sequential) {fault : Option Fault}
    (hwants : phase.wants? = some fault) : fault = mark := by
  cases phase with
  | arriving => exact (Option.some.inj hwants).symm.trans h.symm
  | woken carried => exact (Option.some.inj hwants).symm.trans h
  | _ => cases hwants

end CallPhase

namespace Room

variable {σ : Type} {k : Sink σ} {sink : σ} {outputs : List (List UInt8)} {ms : List Moment}
  {es : List LockEvent} {r r' : Room σ} {m : Moment}

/-- Every call carries the fault of a poisoned mutex if it has found one, and reports it. -/
structure Marked (k : Sink σ) (sink : σ) (outputs : List (List UInt8)) (es : List LockEvent)
    (r : Room σ) : Prop where
  within : ∀ p found, .acquired p found ∈ es → p < r.calls.length
  carries : ∀ (p : Nat) (c : RetireCall), r.calls[p]? = some c →
    c.phase.Carries (mark es p) (k.seriesFault sink outputs c.item)

/-- A turn that does nothing to the mutex. -/
theorem Marked.turn (h : Marked k sink outputs es r) {p : Nat} {c : RetireCall} {phase : CallPhase}
    {wakes : Bool} (turn : Turn r r' p c phase wakes) (hevent : r.lockEvent? m = none)
    (hphase : phase.Carries (mark es p) (k.seriesFault sink outputs c.item)) :
    Marked k sink outputs (es ++ (r.lockEvent? m).toList) r' := by
  rw [hevent, Option.toList_none, List.append_nil]
  refine ⟨by rw [turn.length]; exact h.within, turn.forall_calls hphase ?_ ?_⟩
  · exact fun _ q b _ hb => h.carries q b hb
  · exact fun _ q b _ hb => (h.carries q b hb).notified

/-- **Every call carries the fault of a poisoned mutex if it has found one**, and reports it before
any fault of the sink. -/
theorem marked (hrun : (around sink).run? k ms = some r) (hfits : Fits outputs r) :
    Marked k sink outputs ((around sink).lockEvents k ms) r := by
  refine lock_invariant (P := fun es r => Fits outputs r → Marked k sink outputs es r)
    (fun _ => ⟨nofun, nofun⟩) ?_ hrun hfits
  intro ms es r r' m hrun he hc hfits'
  have hfits := hfits'.before hc
  have h := he hfits
  cases hc with
  | @came thread item output calls gate log =>
      have hevent : r.lockEvent? (.arrive thread item output) = none := rfl
      rw [hevent, Option.toList_none, List.append_nil]
      refine ⟨fun p found hp => ?_, forall_calls_concat calls ?_ h.carries⟩
      · rw [calls, List.length_append]
        exact Nat.lt_add_right _ (h.within p found hp)
      · -- the new call has not yet taken the mutex
        refine if_neg fun hmem => ?_
        exact Nat.lt_irrefl _ (h.within _ _ hmem)
  | @acquired p c fault turn wants free gate log =>
      rw [turn.lockEvent?, wants, Option.map_some, Option.toList_some]
      refine ⟨fun q found hq => ?_, turn.forall_calls ?_ (fun _ q b hq hb => ?_) nofun⟩
      · rw [turn.length]
        rcases List.mem_append.1 hq with hq | hq
        · exact h.within q found hq
        · obtain ⟨rfl, -⟩ := LockEvent.acquired.inj (List.mem_singleton.1 hq)
          exact turn.lt_length
      · rw [mark_acquired, ← (h.carries p c turn.before).of_wants? wants]
        rfl
      · rw [mark_other es hq]
        exact h.carries q b hb
  | @slept p c fault turn holds notNext gate log =>
      have hcarried := h.carries p c turn.before
      rw [holds] at hcarried
      exact h.turn turn (by rw [turn.lockEvent?, holds]; rfl) hcarried
  | @retired p c fault turn holds next gate log =>
      have hcarried := h.carries p c turn.before
      rw [holds] at hcarried
      refine h.turn turn (by rw [turn.lockEvent?, holds]; rfl) ?_
      -- the sink is where the outputs before have left it
      have houtput := hfits.output (List.mem_of_getElem? turn.before)
      rw [(inOrder hrun hfits).state, next, ← k.seriesFault_eq sink houtput, ← hcarried]
      rfl
  | @woke p c fault turn sleeps gate log =>
      have hcarried := h.carries p c turn.before
      rw [sleeps] at hcarried
      exact h.turn turn rfl hcarried
  | poisoned free calls gate log =>
      rw [lockEvent?, Option.toList_some]
      refine ⟨fun p found hp => ?_, fun p c hc => ?_⟩
      · rw [calls]
        refine h.within p found ((List.mem_append.1 hp).resolve_right ?_)
        simp
      · rw [mark_poisoned]
        exact h.carries p c (calls ▸ hc)

/-! ### What is reported -/

/-- What the call with a position has returned, if it has. -/
def result? (r : Room σ) (p : Nat) : Option (Option Fault) :=
  r.calls[p]?.bind fun c => c.phase.result?

/-- What a call returns: the fault of a poisoned mutex if it has found one, and otherwise what comes
of its output when all are retired one after the other. -/
theorem Marked.result (h : Marked k sink outputs es r) {p : Nat} {c : RetireCall}
    (hc : r.calls[p]? = some c) (hdone : c.phase.isDone = true) :
    r.result? p = some ((mark es p).or (k.seriesFault sink outputs c.item)) := by
  have hcarried := h.carries p c hc
  rw [result?, hc, Option.bind_some]
  cases hphase : c.phase with
  | done fault =>
      rw [hphase] at hcarried
      exact congrArg some hcarried
  | _ => rw [hphase] at hdone; cases hdone

theorem seriesFault_ne_poisoned (k : Sink σ) (sink : σ) (outputs : List (List UInt8)) (i : Nat)
    (lock : Lock) : k.seriesFault sink outputs i ≠ some (.poisoned lock) := by
  cases h : outputs[i]? with
  | some output =>
      rw [k.seriesFault_eq sink h]
      exact k.retire_fault_ne_poisoned _ output lock
  | none =>
      have hnone : (k.series sink outputs).faults[i]? = none := by
        rw [List.getElem?_eq_none_iff, Sink.length_faults_series]
        exact List.getElem?_eq_none_iff.1 h
      rw [Sink.seriesFault, hnone]
      exact nofun

/-- **A call reports a poisoned mutex exactly if it has found one.** -/
theorem Marked.result_eq_poisoned_iff (h : Marked k sink outputs es r) {p : Nat} {c : RetireCall}
    (hc : r.calls[p]? = some c) (hdone : c.phase.isDone = true) :
    r.result? p = some (some (.poisoned .retire)) ↔ .acquired p true ∈ es := by
  rw [h.result hc hdone, mark]
  split
  · exact iff_of_true rfl ‹_›
  · refine iff_of_false (fun hsame => ?_) ‹_›
    exact seriesFault_ne_poisoned k sink outputs c.item .retire (Option.some.inj hsame)

end Room

/-! ### Poisonings in a row -/

/-- The mutex is poisoned `count + 1` times in a row, not more, between `before` and `after`. -/
structure Poisonings (es before : List LockEvent) (count : Nat) (after : List LockEvent) :
    Prop where
  split : es = before ++ List.replicate (count + 1) .poisoned ++ after
  first : before.getLast? ≠ some .poisoned
  last : after.head? ≠ some .poisoned

namespace Room

variable {σ : Type} {k : Sink σ} {sink : σ} {outputs : List (List UInt8)} {es : List LockEvent}
  {r : Room σ} {before after : List LockEvent} {count p q : Nat}

/-- The call has found the mutex poisoned after this, and before anything else has poisoned it. -/
def FindsFirst (after : List LockEvent) (p : Nat) : Prop :=
  ∃ between later, after = between ++ .acquired p true :: later ∧ .poisoned ∉ between

/-- The call reports the poisonings that come before this: it is the one that has found them, and it
returns their fault. -/
def Reports (r : Room σ) (after : List LockEvent) (p : Nat) : Prop :=
  FindsFirst after p ∧ r.result? p = some (some (.poisoned .retire))

/-- Whoever finds poisonings takes the mutex right after them. -/
theorem Found.between_eq_nil (h : Found es) (hes : Poisonings es before count after)
    {between later : List LockEvent} (hafter : after = between ++ .acquired p true :: later)
    (hbetween : .poisoned ∉ between) : between = [] := by
  have hsplit : es = (before ++ List.replicate (count + 1) .poisoned ++ between)
      ++ .acquired p true :: later := by
    rw [hes.split, hafter, List.append_assoc _ between]
  have hlast := (h _ p true later hsplit).1 rfl
  rcases List.eq_nil_or_concat between with rfl | ⟨init, x, rfl⟩
  · rfl
  · -- what happened just before was a poisoning, and there is none
    rw [List.concat_eq_append, ← List.append_assoc, List.getLast?_concat, Option.some.injEq] at hlast
    exact absurd (by simp [hlast]) hbetween

/-- **Poisonings in a row are found by one call at most.** -/
theorem Found.unique (h : Found es) (hes : Poisonings es before count after)
    (hp : FindsFirst after p) (hq : FindsFirst after q) : p = q := by
  obtain ⟨between, later, hafter, hbetween⟩ := hp
  obtain ⟨between', later', hafter', hbetween'⟩ := hq
  obtain rfl := h.between_eq_nil hes hafter hbetween
  obtain rfl := h.between_eq_nil hes hafter' hbetween'
  rw [hafter, List.nil_append, List.nil_append] at hafter'
  exact (LockEvent.acquired.inj (List.cons.inj hafter').1).1

/-- **Poisonings in a row are found by whoever takes the mutex next.** -/
theorem Found.exists_finds (h : Found es) (hes : Poisonings es before count after)
    (hafter : after ≠ []) : ∃ p, FindsFirst after p := by
  have hes' := hes
  obtain ⟨hsplit, -, hlast⟩ := hes'
  cases after with
  | nil => exact absurd rfl hafter
  | cons e later =>
      cases e with
      | poisoned => exact absurd rfl hlast
      | acquired p found =>
          -- what happened just before was a poisoning
          obtain rfl : found = true := by
            refine (h _ p found later hsplit).2 ?_
            rw [List.replicate_succ', ← List.append_assoc, List.getLast?_concat]
          exact ⟨p, [], later, rfl, nofun⟩

/-- **Poisonings in a row are reported by one call at most, and by one if any call takes the mutex
afterwards**, once all have returned. -/
theorem Marked.reports (h : Marked k sink outputs es r) (hfound : Found es)
    (hdone : r.allDone = true) (hes : Poisonings es before count after) :
    (∀ p q, r.Reports after p → r.Reports after q → p = q)
      ∧ ((∃ p found, .acquired p found ∈ after) → ∃! p, r.Reports after p) := by
  have hunique : ∀ p q, r.Reports after p → r.Reports after q → p = q :=
    fun p q hp hq => hfound.unique hes hp.1 hq.1
  refine ⟨hunique, fun ⟨q, found, hq⟩ => ?_⟩
  obtain ⟨p, hp⟩ := hfound.exists_finds hes (List.ne_nil_of_mem hq)
  have hmem : .acquired p true ∈ es := by
    obtain ⟨between, later, hafter, -⟩ := hp
    rw [hes.split, hafter]
    simp
  have hlt := h.within p true hmem
  have hc := List.getElem?_eq_getElem hlt
  have hresult := (h.result_eq_poisoned_iff hc (List.all_eq_true.1 hdone _ (List.getElem_mem hlt))).2
    hmem
  exact ⟨p, ⟨hp, hresult⟩, fun q hq => hunique q p hq ⟨hp, hresult⟩⟩

end Room

end OrderedDispatch

/-
**The order of arrival does not matter at the gate.**

The simplest way to retire some outputs is one after the other: each call comes when the one before
has returned, and nobody poisons the mutex.  In whatever order the calls come instead, however they
interleave and whenever the mutex is poisoned, the sink notices no difference: it receives the same
calls and ends in the same state.  The calls return what they return one after the other, except for
those that have found the mutex poisoned.

Main definitions:

* `Room.oneByOne` — the calls come one after the other;
* `Room.Transparent` — what another run shares with that one, and who reports a poisoned mutex.

Main results:

* `Room.exists_oneByOne` — one after the other, all calls retire;
* `Room.retire_in_any_order` — **in whatever order the calls come, and whatever poisons the mutex**,
  all calls retire, and the sink notices no difference.
-/

import OrderedDispatch.Proofs.Gate.Poison
import OrderedDispatch.Sink.Scripted

set_option relaxedAutoImplicit false
set_option autoImplicit false

namespace OrderedDispatch.Room

variable {σ : Type} {k : Sink σ} {sink : σ} {outputs : List (List UInt8)} {ms : List Moment}
  {r r' r₁ : Room σ}

/-! ### One after the other -/

/-- A call comes, takes the mutex and retires its item. -/
def visit (x : List UInt8 × Nat) : List Moment := [.arrive x.2 x.2 x.1, .advance x.2, .advance x.2]

/-- The calls come one after the other, each when the one before has returned. -/
def oneByOne (outputs : List (List UInt8)) : List Moment := outputs.zipIdx.flatMap visit

theorem arrivals_oneByOne (outputs : List (List UInt8)) :
    arrivals (oneByOne outputs) = outputs.zipIdx := by
  have hvisits : ∀ l : List (List UInt8 × Nat), arrivals (l.flatMap visit) = l := by
    intro l
    induction l with
    | nil => rfl
    | cons x rest ih =>
        simp only [List.flatMap_cons, arrivals, List.filterMap_append] at ih ⊢
        rw [ih]
        rfl
  exact hvisits _

theorem poison_notMem_oneByOne (outputs : List (List UInt8)) :
    Moment.poison ∉ oneByOne outputs := by
  simp [oneByOne, visit]

/-- So many calls have come and returned, and the next one has not come yet. -/
structure Idle (n : Nat) (r : Room σ) : Prop where
  next : r.gate.next = n
  free : r.gate.locked = false
  length : r.calls.length = n
  done : r.allDone = true

/-- A call that comes takes the free mutex. -/
theorem exists_acquired {p : Nat} {c : RetireCall} (k : Sink σ) (hc : r.calls[p]? = some c)
    (hphase : c.phase = .arriving) (hfree : r.gate.locked = false) :
    ∃ r', r.step? k (.advance p) = some r'
      ∧ Turn r r' p c (.holding r.gate.poisonFault) false ∧ r'.gate = r.gate.taken := by
  obtain ⟨r', hstep⟩ := exists_advance_of (k := k) hc
    ((Gate.advance?_isSome_iff _ _ _ _ _ _).2 (by rw [hphase]; exact hfree))
  refine ⟨r', hstep, ?_⟩
  cases change_of_step? hstep with
  | acquired turn wants free gate log =>
      obtain rfl := Option.some.inj (hc.symm.trans turn.before)
      rw [hphase] at wants
      obtain rfl := Option.some.inj wants
      exact ⟨turn, gate⟩
  | slept turn holds notNext gate log =>
      obtain rfl := Option.some.inj (hc.symm.trans turn.before)
      exact absurd (hphase.symm.trans holds) nofun
  | retired turn holds next gate log =>
      obtain rfl := Option.some.inj (hc.symm.trans turn.before)
      exact absurd (hphase.symm.trans holds) nofun

/-- A call that holds the mutex and is next retires its item. -/
theorem exists_retired {p : Nat} {c : RetireCall} {fault : Option Fault} (k : Sink σ)
    (hc : r.calls[p]? = some c) (hphase : c.phase = .holding fault)
    (hnext : r.gate.next = c.item) :
    ∃ r' fault', r.step? k (.advance p) = some r' ∧ Turn r r' p c (.done fault') true
      ∧ r'.gate.next = c.item + 1 ∧ r'.gate.locked = false := by
  obtain ⟨r', hstep⟩ := exists_advance_of (k := k) hc
    ((Gate.advance?_isSome_iff _ _ _ _ _ _).2 (by rw [hphase]; trivial))
  refine ⟨r', ?_⟩
  cases change_of_step? hstep with
  | acquired turn wants free gate log =>
      obtain rfl := Option.some.inj (hc.symm.trans turn.before)
      rw [hphase] at wants
      cases wants
  | slept turn holds notNext gate log =>
      obtain rfl := Option.some.inj (hc.symm.trans turn.before)
      exact absurd hnext notNext
  | retired turn holds next gate log =>
      obtain rfl := Option.some.inj (hc.symm.trans turn.before)
      exact ⟨_, hstep, turn, by rw [gate], by rw [gate]⟩

/-- A visit to an idle room leaves it idle. -/
theorem Idle.visit {n : Nat} (h : Idle n r) (k : Sink σ) (output : List UInt8) :
    ∃ r', r.run? k (visit (output, n)) = some r' ∧ Idle (n + 1) r' := by
  -- the room after the call has come
  obtain ⟨e, hcome, hcalls, hgate⟩ : ∃ e, r.step? k (.arrive n n output) = some e
      ∧ e.calls = r.calls ++ [⟨n, n, output, .arriving⟩] ∧ e.gate = r.gate := ⟨_, rfl, rfl, rfl⟩
  have hlast : e.calls[n]? = some ⟨n, n, output, .arriving⟩ := by simp [hcalls, ← h.length]
  have hlength : e.calls.length = n + 1 := by simp [hcalls, h.length]
  have hdone : ∀ (p : Nat) (c : RetireCall), e.calls[p]? = some c → p ≠ n →
      c.phase.isDone = true :=
    forall_calls_concat hcalls (fun hn => absurd h.length hn) fun _ c hc _ =>
      List.all_eq_true.1 h.done c (List.mem_of_getElem? hc)
  obtain ⟨e', htake, turn, hgate'⟩ := exists_acquired k hlast rfl (hgate ▸ h.free)
  have hlast' : e'.calls[n]? = some ⟨n, n, output, .holding e.gate.poisonFault⟩ := by
    rw [turn.calls]
    simp [hlength]
  obtain ⟨r', fault, hretire, turn', hnext, hfree⟩ := exists_retired k hlast' rfl
    (by rw [hgate', hgate]; exact h.next)
  refine ⟨r', ?_, hnext, hfree, by rw [turn'.length, turn.length, hlength], ?_⟩
  · simp only [Room.visit, run?, hcome, htake, hretire, Option.bind_some]
  · have hdone' : ∀ (p : Nat) (c : RetireCall), e'.calls[p]? = some c → p ≠ n →
        c.phase.isDone = true :=
      turn.forall_calls (fun hp => absurd rfl hp) (fun _ p c _ hc hp => hdone p c hc hp)
        fun hwakes => absurd hwakes Bool.false_ne_true
    have hall : ∀ (p : Nat) (c : RetireCall), r'.calls[p]? = some c → c.phase.isDone = true := by
      refine turn'.forall_calls rfl (fun hquiet => absurd hquiet Bool.noConfusion)
        fun _ p c hp hc => ?_
      rw [RetireCall.notified, CallPhase.notified_isDone]
      exact hdone' p c hc hp
    refine List.all_eq_true.2 fun c hmem => ?_
    obtain ⟨p, hc⟩ := List.getElem?_of_mem hmem
    exact hall p c hc

/-- **One after the other, all calls retire.** -/
theorem exists_oneByOne (k : Sink σ) (sink : σ) (outputs : List (List UInt8)) :
    ∃ r₁, (around sink).run? k (oneByOne outputs) = some r₁ ∧ Idle outputs.length r₁ := by
  induction outputs using List.reverseRecOn with
  | nil => exact ⟨_, rfl, rfl, rfl, rfl, rfl⟩
  | append_singleton outputs output ih =>
      obtain ⟨r, hrun, hidle⟩ := ih
      obtain ⟨r', hvisit, hidle'⟩ := hidle.visit k output
      have hsplit : oneByOne (outputs ++ [output])
          = oneByOne outputs ++ visit (output, outputs.length) := by
        simp [oneByOne, List.zipIdx_append]
      refine ⟨r', ?_, by rw [List.length_append]; exact hidle'⟩
      rw [hsplit, run?_append, hrun]
      exact hvisit

/-- A run in which nobody poisons the mutex has no call that finds it poisoned. -/
theorem mark_eq_none (hrun : (around sink).run? k ms = some r) (hms : .poison ∉ ms) (p : Nat) :
    mark ((around sink).lockEvents k ms) p = none := by
  have hquiet : LockEvent.poisoned ∉ (around sink).lockEvents k ms := by
    refine run_invariant (P := fun ms _ => .poison ∉ ms →
      LockEvent.poisoned ∉ (around sink).lockEvents k ms) (fun _ => nofun) ?_ hrun hms
    intro ms r r' m hrun he _ hms
    rw [List.mem_append, not_or] at hms
    rw [lockEvents_concat hrun, List.mem_append, not_or]
    refine ⟨he hms.1, ?_⟩
    cases m with
    | poison => exact absurd (List.mem_singleton.2 rfl) hms.2
    | advance p =>
        intro hmem
        obtain ⟨-, -, hsame⟩ := Option.map_eq_some_iff.1 (Option.mem_toList.1 hmem)
        cases hsame
    | arrive thread item output => exact nofun
    | wake p => exact nofun
  refine if_neg fun hmem => ?_
  obtain ⟨before, after, hsplit⟩ := List.append_of_mem hmem
  have hlast := ((recorded hrun).found before p true after hsplit).1 rfl
  exact hquiet (hsplit ▸ List.mem_append_left _ (List.mem_of_getLast? hlast))

/-! ### In any order -/

/-- What a run shares with the run in which the calls come one after the other, and who reports a
poisoned mutex. -/
structure Transparent (outputs : List (List UInt8)) (r₁ r : Room σ) (es : List LockEvent) :
    Prop where
  /-- the sink has received the same calls -/
  log : r.log = r₁.log
  /-- the sink is left in the same state -/
  state : r.gate.sink = r₁.gate.sink
  /-- all items have been retired, here and there -/
  next : r.gate.next = outputs.length ∧ r₁.gate.next = outputs.length
  /-- a call returns what the call with its item returns there, or the fault of a poisoned mutex -/
  result : ∀ (p : Nat) (c : RetireCall), r.calls[p]? = some c →
    ∃ (q : Nat) (b : RetireCall) (fault : Option Fault), r₁.calls[q]? = some b ∧ b.item = c.item
      ∧ r₁.result? q = some fault
      ∧ (r.result? p = some fault ∨ r.result? p = some (some (.poisoned .retire)))
  /-- it returns that fault exactly if it has found the mutex poisoned -/
  poisoned : ∀ p < r.calls.length,
    (r.result? p = some (some (.poisoned .retire)) ↔ .acquired p true ∈ es)
  /-- poisonings in a row are reported by one call at most, and by one if any call takes the mutex
  afterwards -/
  reported : ∀ before count after, Poisonings es before count after →
    (∀ p q, r.Reports after p → r.Reports after q → p = q)
      ∧ ((∃ p found, .acquired p found ∈ after) → ∃! p, r.Reports after p)

/-- Two runs with the same outputs whose calls have all returned, the one without any poisoning. -/
theorem transparent {ms₁ : List Moment} (hrun₁ : (around sink).run? k ms₁ = some r₁)
    (hcome₁ : r₁.parcels.Perm outputs.zipIdx) (hdone₁ : r₁.allDone = true) (hms₁ : .poison ∉ ms₁)
    (hrun : (around sink).run? k ms = some r) (hcome : r.parcels.Perm outputs.zipIdx)
    (hdone : r.allDone = true) : Transparent outputs r₁ r ((around sink).lockEvents k ms) := by
  have hfits : Fits outputs r := hcome.subperm
  have hfits₁ : Fits outputs r₁ := hcome₁.subperm
  have hnext := next_eq_of_allDone hrun hcome hdone
  have hnext₁ := next_eq_of_allDone hrun₁ hcome₁ hdone₁
  have horder := inOrder hrun hfits
  have horder₁ := inOrder hrun₁ hfits₁
  have hmarked := marked hrun hfits
  have hreturned : ∀ {p : Nat} {c : RetireCall}, r.calls[p]? = some c → c.phase.isDone = true :=
    fun hc => List.all_eq_true.1 hdone _ (List.mem_of_getElem? hc)
  refine ⟨?_, ?_, ⟨hnext, hnext₁⟩, fun p c hc => ?_, fun p hp => ?_, fun before count after hes => ?_⟩
  · rw [horder.log, horder₁.log, hnext, hnext₁]
  · rw [horder.state, horder₁.state, hnext, hnext₁]
  · -- the call with the same item in the other run
    have hmem : (c.output, c.item) ∈ r₁.parcels :=
      hcome₁.mem_iff.2 (hfits.subset (List.mem_map.2 ⟨c, List.mem_of_getElem? hc, rfl⟩))
    obtain ⟨b, hmem, hb⟩ := List.mem_map.1 hmem
    have hitem : b.item = c.item := congrArg Prod.snd hb
    obtain ⟨q, hq⟩ := List.getElem?_of_mem hmem
    have hresult₁ := (marked hrun₁ hfits₁).result hq (List.all_eq_true.1 hdone₁ b hmem)
    rw [mark_eq_none hrun₁ hms₁, Option.none_or, hitem] at hresult₁
    refine ⟨q, b, _, hq, hitem, hresult₁, ?_⟩
    rw [hmarked.result hc (hreturned hc), mark]
    split
    · exact Or.inr rfl
    · exact Or.inl rfl
  · have hc := List.getElem?_eq_getElem hp
    exact hmarked.result_eq_poisoned_iff hc (hreturned hc)
  · exact hmarked.reports (recorded hrun).found hdone hes

/-- **In whatever order the calls come, and whatever poisons the mutex**, the sink notices no
difference.  Once the calls for all outputs have come, the steps that they have taken are bounded
but for wake-ups for no reason, one of them can go on until all have returned, and then the run is
like the one in which they come one after the other; only the calls that have found the mutex
poisoned say so. -/
theorem retire_in_any_order (hcome : (arrivals ms).Perm outputs.zipIdx)
    (hrun : (around sink).run? k ms = some r) :
    ms.countP Moment.isAdvance ≤ 3 * outputs.length + 2 * outputs.length * outputs.length
        + 2 * ms.countP Moment.isWake
      ∧ (r.allDone = false → ∃ p r', r.step? k (.advance p) = some r')
      ∧ ∃ r₁, (around sink).run? k (oneByOne outputs) = some r₁ ∧ r₁.allDone = true
        ∧ (r.allDone = true → Transparent outputs r₁ r ((around sink).lockEvents k ms)) := by
  rw [← parcels_eq_arrivals hrun] at hcome
  obtain ⟨r₁, hrun₁, hidle⟩ := exists_oneByOne k sink outputs
  have hcome₁ : r₁.parcels.Perm outputs.zipIdx := by
    rw [parcels_eq_arrivals hrun₁, arrivals_oneByOne]
  refine ⟨?_, exists_advance hrun hcome, r₁, hrun₁, hidle.done, fun hdone => ?_⟩
  · have := advances_add_potential_le hrun hcome.subperm
    omega
  · exact transparent hrun₁ hcome₁ hidle.done (poison_notMem_oneByOne outputs) hrun hcome hdone

/-- A run with three calls.  The call for the last item comes first and finds the mutex poisoned,
and again when the first item has been retired. -/
def sampleRun : List Moment :=
  [.arrive 5 2 [4], .poison, .poison, .advance 0, .advance 0,
    .arrive 3 0 [1, 2], .advance 1, .advance 1, .poison, .advance 0, .advance 0,
    .arrive 7 1 [3], .advance 2, .advance 2, .advance 0, .advance 0]

/-- A sink that takes a byte at a time, fails at its second write and panics at its second flush. -/
def sampleSink : Sink ScriptedSink.State := ScriptedSink.machine
  { maxWrite := some 1, faults := [⟨.write, 2, .brokenPipe⟩, ⟨.flush, 2, .panic⟩] }

/-- In that run the sink notices no difference, and the first two poisonings are reported by the
first call. -/
theorem retire_in_any_order_sample : ∃ r₁ r : Room ScriptedSink.State,
    (around {}).run? sampleSink (oneByOne [[1, 2], [3], [4]]) = some r₁
      ∧ (around {}).run? sampleSink sampleRun = some r ∧ r.log = r₁.log
      ∧ r.gate.sink = r₁.gate.sink ∧ r.result? 0 = some (some (.poisoned .retire))
      ∧ r.result? 1 ≠ some (some (.poisoned .retire))
      ∧ ∃! p, r.Reports [.acquired 0 true, .acquired 1 false, .poisoned, .acquired 0 true,
        .acquired 2 false, .acquired 0 false] p := by
  have hevents : (around (σ := ScriptedSink.State) {}).lockEvents sampleSink sampleRun
      = [.poisoned, .poisoned, .acquired 0 true, .acquired 1 false, .poisoned, .acquired 0 true,
        .acquired 2 false, .acquired 0 false] := by decide +kernel
  have hend : ((around {}).run? sampleSink sampleRun).map
      (fun r => (r.allDone, r.calls.length)) = some (true, 3) := by decide +kernel
  obtain ⟨r, hrun, hseen⟩ := Option.map_eq_some_iff.1 hend
  obtain ⟨hdone, hlength⟩ := Prod.mk.inj hseen
  have hcome : (arrivals sampleRun).Perm ([[1, 2], [3], [4]] : List (List UInt8)).zipIdx := by
    decide
  obtain ⟨-, -, r₁, hrun₁, -, htransparent⟩ := retire_in_any_order hcome hrun
  obtain ⟨hlog, hstate, -, -, hpoisoned, hreported⟩ := htransparent hdone
  rw [hevents] at hpoisoned hreported
  refine ⟨r₁, r, hrun₁, hrun, hlog, hstate, (hpoisoned 0 (by omega)).2 (by decide), ?_, ?_⟩
  · exact fun hresult => absurd ((hpoisoned 1 (by omega)).1 hresult) (by decide)
  · exact (hreported [] 1 _ ⟨rfl, nofun, nofun⟩).2 ⟨0, true, List.mem_cons_self ..⟩

end OrderedDispatch.Room

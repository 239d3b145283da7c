/-
**The line at the gate.**

Calls come in any order, and the gate lets them through in the order of their items.  What the sink
has received is always what it receives for the first outputs one after the other; whoever has
retired its item is below the counter, and whoever has not is not.  A call never sleeps while its
item is next: it fell asleep when its item was not next, and whoever retires an item wakes all
sleepers.  So once all calls have come, one of them can go on until all have retired, and how long
that takes is bounded: each retirement wakes every call at most once.

Main definitions:

* `Room.Fits` — every call has come with one of the outputs, and no two with the same;
* `Room.InOrder` — what the sink has received, and who has retired;
* `Room.Guarded`, `Room.Vigilant` — one call holds the locked mutex, and nobody sleeps whose item is
  next;
* `Room.potential` — a bound on the steps that are left, if nobody wakes for no reason.

Main results:

* `Room.inOrder` — **the sink receives the outputs in order, in whatever order the calls come**;
* `Room.exists_advance` — **once all calls have come, one can go on until all have retired**;
* `Room.advances_add_potential_le` — the steps of a run are bounded.
-/

import OrderedDispatch.Dispatch.Schedule
import OrderedDispatch.Proofs.Count
import OrderedDispatch.Proofs.Gate.Change
import OrderedDispatch.Proofs.Sink.Series

set_option relaxedAutoImplicit false
set_option autoImplicit false

namespace OrderedDispatch

/-! ### Phases of a call -/

namespace CallPhase

/-- Whether the call has retired its item. -/
def isDone (phase : CallPhase) : Bool := phase.result?.isSome

@[simp] theorem notified_isDone (phase : CallPhase) : phase.notified.isDone = phase.isDone := by
  cases phase <;> rfl

@[simp] theorem notified_holds (phase : CallPhase) : phase.notified.holds = phase.holds := by
  cases phase <;> rfl

@[simp] theorem notified_sleeps (phase : CallPhase) : phase.notified.sleeps = false := by
  cases phase <;> rfl

theorem isDone_of_wants? {phase : CallPhase} {fault : Option Fault}
    (h : phase.wants? = some fault) : phase.isDone = false := by
  cases phase <;> first | rfl | cases h

theorem holds_of_wants? {phase : CallPhase} {fault : Option Fault}
    (h : phase.wants? = some fault) : phase.holds = false := by
  cases phase <;> first | rfl | cases h

/-- Waking a call adds two steps at most: it takes the mutex again and looks whose turn it is. -/
theorem weight_notified_le (phase : CallPhase) : phase.notified.weight ≤ phase.weight + 2 := by
  cases phase <;> simp [notified, weight]

/-- A call that wants the mutex is three steps away from sleeping or having retired. -/
theorem weight_of_wants? {phase : CallPhase} {fault : Option Fault}
    (h : phase.wants? = some fault) : phase.weight = 3 := by
  cases phase <;> first | rfl | cases h

end CallPhase

namespace Room

variable {σ : Type} {k : Sink σ} {sink : σ} {outputs : List (List UInt8)} {ms : List Moment}
  {r r' : Room σ} {m : Moment}

/-! ### What the calls come with -/

/-- Every call has come with one of the outputs, and no two with the same. -/
def Fits (outputs : List (List UInt8)) (r : Room σ) : Prop :=
  r.parcels.Subperm outputs.zipIdx

namespace Fits

theorem before (h : Fits outputs r') (hc : Change k r r' m) : Fits outputs r := by
  rw [Fits, hc.parcels] at h
  exact (List.sublist_append_left _ _).subperm.trans h

/-- A call brings the output of its item. -/
theorem output (h : Fits outputs r) {c : RetireCall} (hc : c ∈ r.calls) :
    outputs[c.item]? = some c.output :=
  List.mem_zipIdx_iff_getElem?.1 (h.subset (List.mem_map.2 ⟨c, hc, rfl⟩))

theorem item_lt (h : Fits outputs r) {c : RetireCall} (hc : c ∈ r.calls) :
    c.item < outputs.length :=
  (List.getElem?_eq_some_iff.1 (h.output hc)).1

theorem nodup (h : Fits outputs r) : (r.parcels.map Prod.snd).Nodup := by
  have hall : (outputs.zipIdx.map Prod.snd).Nodup := by
    rw [List.zipIdx_map_snd]
    exact List.nodup_range' ..
  obtain ⟨l, hperm, hsub⟩ := h
  exact (hperm.map Prod.snd).nodup_iff.1 (hall.sublist (hsub.map Prod.snd))

/-- No two calls have come with the same item. -/
theorem eq_of_item (h : Fits outputs r) {p q : Nat} {b c : RetireCall} (hp : r.calls[p]? = some c)
    (hq : r.calls[q]? = some b) (hitem : c.item = b.item) : p = q := by
  have hseen : ∀ {p : Nat} {c : RetireCall}, r.calls[p]? = some c →
      (r.parcels.map Prod.snd)[p]? = some c.item := by
    intro p c hp
    simp [parcels, hp]
  refine (List.getElem?_inj ?_ h.nodup).1 ?_
  · simpa [parcels] using (List.getElem?_eq_some_iff.1 hp).1
  · rw [hseen hp, hseen hq, hitem]

theorem length_le (h : Fits outputs r) : r.calls.length ≤ outputs.length := by
  simpa [parcels] using List.Subperm.length_le h

end Fits

/-! ### What the sink has received -/

/-- The sink has received the outputs below the counter, one after the other; the calls that have
retired are those below the counter, and all of these have come. -/
structure InOrder (k : Sink σ) (sink : σ) (outputs : List (List UInt8)) (r : Room σ) : Prop where
  state : r.gate.sink = (k.series sink (outputs.take r.gate.next)).state
  log : r.log = (k.series sink (outputs.take r.gate.next)).calls
  done_iff : ∀ (p : Nat) (c : RetireCall), r.calls[p]? = some c →
    (c.phase.isDone = true ↔ c.item < r.gate.next)
  come : ∀ i < r.gate.next, i ∈ r.parcels.map Prod.snd

namespace InOrder

/-- A turn without a retirement. -/
theorem turn (h : InOrder k sink outputs r) {p : Nat} {c : RetireCall} {phase : CallPhase}
    (turn : Turn r r' p c phase false) (hbefore : c.phase.isDone = false)
    (hafter : phase.isDone = false) (hnext : r'.gate.next = r.gate.next)
    (hsink : r'.gate.sink = r.gate.sink) (hlog : r'.log = r.log) : InOrder k sink outputs r' where
  state := by rw [hsink, hnext]; exact h.state
  log := by rw [hlog, hnext]; exact h.log
  done_iff := by
    rw [hnext]
    refine turn.forall_calls ?_ (fun _ q b _ hb => h.done_iff q b hb) nofun
    rw [← h.done_iff p c turn.before, hbefore]
    exact iff_of_false (by simp [hafter]) (by simp)
  come := by rw [turn.parcels, hnext]; exact h.come

/-- A retirement hands the next output to the sink. -/
theorem retired (h : InOrder k sink outputs r) (hfits : Fits outputs r) {p : Nat} {c : RetireCall}
    {fault : Option Fault} (turn : Turn r r' p c (.done fault) true) (hitem : r.gate.next = c.item)
    (hgate : r'.gate = { r.gate with
      next := c.item + 1
      sink := (k.retire r.gate.sink c.output).state
      locked := false })
    (hlog : r'.log = r.log ++ (k.retire r.gate.sink c.output).calls) :
    InOrder k sink outputs r' := by
  have hnext : r'.gate.next = r.gate.next + 1 := by rw [hgate, hitem]
  have htake : outputs.take (r.gate.next + 1) = outputs.take r.gate.next ++ [c.output] := by
    rw [List.take_add_one, hitem, hfits.output (List.mem_of_getElem? turn.before)]
    rfl
  refine ⟨?_, ?_, ?_, ?_⟩
  · rw [hnext, htake, Sink.series_concat, ← h.state, hgate]
  · rw [hnext, htake, Sink.series_concat, ← h.state, ← h.log, hlog]
  · rw [hnext]
    refine turn.forall_calls ?_ nofun fun _ q b hq hb => ?_
    · exact iff_of_true rfl (by rw [hitem]; exact Nat.lt_succ_self _)
    · have hother : b.item ≠ r.gate.next := by
        rw [hitem]
        exact fun heq => hq (hfits.eq_of_item hb turn.before heq)
      rw [RetireCall.notified, CallPhase.notified_isDone, h.done_iff q b hb]
      dsimp only
      omega
  · intro i hi
    rw [turn.parcels]
    rw [hnext] at hi
    rcases Nat.lt_succ_iff_lt_or_eq.1 hi with hlt | rfl
    · exact h.come i hlt
    · rw [hitem]
      exact List.mem_map.2 ⟨_, List.mem_map.2 ⟨c, List.mem_of_getElem? turn.before, rfl⟩, rfl⟩

end InOrder

/-- **The sink receives the outputs in order, in whatever order the calls come**, and whatever
poisons the mutex. -/
theorem inOrder (hrun : (around sink).run? k ms = some r) (hfits : Fits outputs r) :
    InOrder k sink outputs r := by
  refine run_invariant (P := fun _ r => Fits outputs r → InOrder k sink outputs r) ?_ ?_ hrun hfits
  · exact fun _ => ⟨rfl, rfl, nofun, nofun⟩
  · intro ms r r' m _ he hc hfits'
    have hfits := hfits'.before hc
    have h := he hfits
    cases hc with
    | @came thread item output calls gate log =>
        have hparcels : r'.parcels.map Prod.snd = r.parcels.map Prod.snd ++ [item] := by
          simp [parcels, calls]
        -- the item of the new call has not been retired, for it has not come before
        have hnew : ¬ item < r.gate.next := by
          intro hlt
          have hnodup := hfits'.nodup
          rw [hparcels] at hnodup
          exact (List.nodup_append.1 hnodup).2.2 item (h.come item hlt) item
            (List.mem_singleton.2 rfl) rfl
        refine ⟨by rw [gate]; exact h.state, by rw [gate, log]; exact h.log, ?_, ?_⟩
        · rw [gate]
          refine forall_calls_concat calls ?_ h.done_iff
          exact iff_of_false (by simp [CallPhase.isDone, CallPhase.result?]) hnew
        · rw [gate, hparcels]
          exact fun i hi => List.mem_append_left _ (h.come i hi)
    | acquired turn wants free gate log =>
        exact h.turn turn (CallPhase.isDone_of_wants? wants) rfl (by rw [gate]; rfl)
          (by rw [gate]; rfl) log
    | slept turn holds notNext gate log =>
        exact h.turn turn (by rw [holds]; rfl) rfl (by rw [gate]; rfl) (by rw [gate]; rfl) log
    | retired turn holds next gate log => exact h.retired hfits turn next gate log
    | woke turn sleeps gate log =>
        exact h.turn turn (by rw [sleeps]; rfl) rfl (by rw [gate]) (by rw [gate]) log
    | poisoned free calls gate log =>
        refine ⟨by rw [gate]; exact h.state, by rw [gate, log]; exact h.log, ?_, ?_⟩
        · rw [calls, gate]
          exact h.done_iff
        · rw [parcels, calls, gate]
          exact h.come

/-! ### The mutex -/

/-- One call holds the mutex if it is locked, and none if it is free. -/
def Guarded (r : Room σ) : Prop :=
  r.calls.countP (fun c => c.phase.holds) = r.gate.locked.toNat

/-- A turn changes the number of calls that hold the mutex by what it changes for one of them. -/
theorem Turn.countP_holds {p : Nat} {c : RetireCall} {phase : CallPhase} {wakes : Bool}
    (turn : Turn r r' p c phase wakes) :
    r'.calls.countP (fun c => c.phase.holds) + c.phase.holds.toNat
      = r.calls.countP (fun c => c.phase.holds) + phase.holds.toNat := by
  rw [turn.calls]
  split
  · have hmap : (r.calls.map RetireCall.notified).countP (fun c => c.phase.holds)
        = r.calls.countP fun c => c.phase.holds := by
      rw [List.countP_map]
      exact List.countP_congr fun b _ => by simp [RetireCall.notified]
    have hbefore : (r.calls.map RetireCall.notified)[p]? = some c.notified := by
      simp [turn.before]
    have hset := countP_set_add (p := fun c : RetireCall => c.phase.holds) hbefore
      { c with phase := phase }
    rwa [hmap, RetireCall.notified, CallPhase.notified_holds] at hset
  · exact countP_set_add turn.before { c with phase := phase }

/-- Taking the free mutex, or letting go of it, keeps the count. -/
theorem Guarded.turn (h : Guarded r) {p : Nat} {c : RetireCall} {phase : CallPhase} {wakes : Bool}
    (turn : Turn r r' p c phase wakes)
    (hlocked : r'.gate.locked.toNat + c.phase.holds.toNat
      = r.gate.locked.toNat + phase.holds.toNat) : Guarded r' := by
  have hcount := turn.countP_holds
  simp only [Guarded] at h ⊢
  omega

/-- Whoever holds the mutex has locked it. -/
theorem Guarded.locked (h : Guarded r) {p : Nat} {c : RetireCall} (hc : r.calls[p]? = some c)
    (hholds : c.phase.holds = true) : r.gate.locked = true := by
  have hpos : 0 < r.calls.countP (fun c => c.phase.holds) :=
    List.countP_pos_iff.2 ⟨c, List.mem_of_getElem? hc, hholds⟩
  rw [h] at hpos
  cases hl : r.gate.locked with
  | false => simp [hl] at hpos
  | true => rfl

/-- **At most one call holds the mutex, and one does if it is locked.** -/
theorem guarded (hrun : (around sink).run? k ms = some r) : Guarded r := by
  refine run_invariant (P := fun _ r => Guarded r) rfl ?_ hrun
  intro ms r r' m _ he hc
  cases hc with
  | came calls gate log =>
      rw [Guarded, calls, gate, List.countP_append, he]
      rfl
  | acquired turn wants free gate log =>
      exact he.turn turn (by rw [gate, free, CallPhase.holds_of_wants? wants]; rfl)
  | slept turn holds notNext gate log =>
      have hholds := congrArg CallPhase.holds holds
      exact he.turn turn (by rw [gate, he.locked turn.before hholds, hholds]; rfl)
  | retired turn holds next gate log =>
      have hholds := congrArg CallPhase.holds holds
      exact he.turn turn (by rw [gate, he.locked turn.before hholds, hholds]; rfl)
  | woke turn sleeps gate log => exact he.turn turn (by rw [gate, sleeps]; rfl)
  | poisoned free calls gate log =>
      rw [Guarded, calls, gate, he]
      rfl

/-! ### No lost wake-up -/

/-- Nobody sleeps whose item is next. -/
def Vigilant (r : Room σ) : Prop :=
  ∀ (p : Nat) (c : RetireCall), r.calls[p]? = some c → c.phase.sleeps = true →
    r.gate.next ≠ c.item

/-- **No wake-up is lost**: whoever sleeps, its item is not next. -/
theorem vigilant (hrun : (around sink).run? k ms = some r) : Vigilant r := by
  refine run_invariant (P := fun _ r => Vigilant r) nofun ?_ hrun
  intro ms r r' m _ he hc
  cases hc with
  | came calls gate log =>
      rw [Vigilant, gate]
      exact forall_calls_concat calls nofun he
  | acquired turn wants free gate log =>
      rw [Vigilant, gate]
      exact turn.forall_calls nofun (fun _ q b _ hb => he q b hb) nofun
  | slept turn holds notNext gate log =>
      rw [Vigilant, gate]
      exact turn.forall_calls (fun _ => notNext) (fun _ q b _ hb => he q b hb) nofun
  | retired turn holds next gate log =>
      -- the counter moves, but everybody else is woken
      refine turn.forall_calls nofun nofun fun _ q b _ _ hsleeps => ?_
      rw [RetireCall.notified, CallPhase.notified_sleeps] at hsleeps
      cases hsleeps
  | woke turn sleeps gate log =>
      rw [Vigilant, gate]
      exact turn.forall_calls nofun (fun _ q b _ hb => he q b hb) nofun
  | poisoned free calls gate log =>
      rw [Vigilant, calls, gate]
      exact he

/-! ### Somebody can always go on -/

/-- Whether all calls have retired their items. -/
def allDone (r : Room σ) : Bool := r.calls.all fun c => c.phase.isDone

theorem exists_advance_of {p : Nat} {c : RetireCall} (hc : r.calls[p]? = some c)
    (hcan : (r.gate.advance? k c.thread c.item c.output c.phase).isSome) :
    ∃ r', r.step? k (.advance p) = some r' := by
  obtain ⟨s, hs⟩ := Option.isSome_iff_exists.1 hcan
  simp only [step?, hc, Option.bind_eq_bind, Option.bind_some, hs]
  exact ⟨_, rfl⟩

/-- Once all calls have come, each item has a call. -/
theorem exists_call_of_lt (hcome : r.parcels.Perm outputs.zipIdx) {i : Nat}
    (hi : i < outputs.length) :
    ∃ (p : Nat) (c : RetireCall), r.calls[p]? = some c ∧ c.item = i := by
  have hmem : (outputs[i], i) ∈ r.parcels :=
    hcome.mem_iff.2 (List.mem_zipIdx_iff_getElem?.2 (List.getElem?_eq_getElem hi))
  obtain ⟨c, hmem, hc⟩ := List.mem_map.1 hmem
  obtain ⟨p, hp⟩ := List.getElem?_of_mem hmem
  exact ⟨p, c, hp, congrArg Prod.snd hc⟩

/-- **Once all calls have come, one of them can go on until all have retired.** -/
theorem exists_advance (hrun : (around sink).run? k ms = some r)
    (hcome : r.parcels.Perm outputs.zipIdx) (hleft : r.allDone = false) :
    ∃ p r', r.step? k (.advance p) = some r' := by
  cases hlocked : r.gate.locked with
  | true =>
      -- the one that holds the mutex looks whose turn it is
      have hpos : 0 < r.calls.countP (fun c => c.phase.holds) := by
        rw [guarded hrun, hlocked]
        exact Nat.one_pos
      obtain ⟨c, hmem, hholds⟩ := List.countP_pos_iff.1 hpos
      obtain ⟨p, hc⟩ := List.getElem?_of_mem hmem
      refine ⟨p, exists_advance_of hc ((Gate.advance?_isSome_iff _ _ _ _ _ _).2 ?_)⟩
      cases hp : c.phase with
      | holding fault => trivial
      | _ => rw [hp] at hholds; cases hholds
  | false =>
      have hfits : Fits outputs r := hcome.subperm
      have horder := inOrder hrun hfits
      -- some item has not been retired, so that there is a next one
      have hnext : r.gate.next < outputs.length := by
        obtain ⟨c, hmem, hc⟩ : ∃ c ∈ r.calls, c.phase.isDone = false := by
          simpa [allDone] using hleft
        obtain ⟨p, hp⟩ := List.getElem?_of_mem hmem
        have hge : ¬ c.item < r.gate.next := by
          rw [← horder.done_iff p c hp, hc]
          exact Bool.false_ne_true
        have := hfits.item_lt hmem
        omega
      -- the call with that item has come, has not retired and does not sleep
      obtain ⟨p, c, hp, hitem⟩ := exists_call_of_lt hcome hnext
      have hdone := horder.done_iff p c hp
      have hawake := vigilant hrun p c hp
      refine ⟨p, exists_advance_of hp ((Gate.advance?_isSome_iff _ _ _ _ _ _).2 ?_)⟩
      cases hphase : c.phase with
      | arriving => exact hlocked
      | woken fault => exact hlocked
      | holding fault => trivial
      | asleep fault => exact hawake (by rw [hphase]; rfl) hitem.symm
      | done fault =>
          have := hdone.1 (by rw [hphase]; rfl)
          omega

/-- When all calls have come and retired, so have all items. -/
theorem next_eq_of_allDone (hrun : (around sink).run? k ms = some r)
    (hcome : r.parcels.Perm outputs.zipIdx) (hdone : r.allDone = true) :
    r.gate.next = outputs.length := by
  have hfits : Fits outputs r := hcome.subperm
  have horder := inOrder hrun hfits
  refine Nat.le_antisymm (Nat.le_of_not_lt fun hlt => ?_) (Nat.le_of_not_lt fun hlt => ?_)
  · -- no item beyond the last has come
    obtain ⟨x, hx, hitem⟩ := List.mem_map.1 (horder.come _ hlt)
    obtain ⟨c, hc, rfl⟩ := List.mem_map.1 hx
    have hbelow := hfits.item_lt hc
    exact Nat.ne_of_lt hbelow hitem
  · -- the call with the next item would have retired it
    obtain ⟨p, c, hp, hitem⟩ := exists_call_of_lt hcome hlt
    have := (horder.done_iff p c hp).1 (List.all_eq_true.1 hdone c (List.mem_of_getElem? hp))
    omega

/-! ### How long it takes -/

/-- The steps that the calls may take until they sleep or have retired. -/
def stepsLeft (r : Room σ) : Nat := (r.calls.map fun c => c.phase.weight).sum

/-- The steps that are left, together with those of the calls to come and of the wake-ups that go
with the retirements to come. -/
def potential (outputs : List (List UInt8)) (r : Room σ) : Nat :=
  r.stepsLeft + 3 * (outputs.length - r.calls.length)
    + 2 * outputs.length * (outputs.length - r.gate.next)

/-- Waking all sleepers adds two steps for each call at most. -/
theorem sum_weight_notified_le (calls : List RetireCall) :
    ((calls.map RetireCall.notified).map fun c => c.phase.weight).sum
      ≤ (calls.map fun c => c.phase.weight).sum + 2 * calls.length := by
  induction calls with
  | nil => simp
  | cons c rest ih =>
      have := CallPhase.weight_notified_le c.phase
      simp only [List.map_cons, List.sum_cons, List.length_cons, RetireCall.notified] at ih ⊢
      omega

/-- A turn that wakes nobody changes the steps left by what it changes for its call. -/
theorem Turn.stepsLeft {p : Nat} {c : RetireCall} {phase : CallPhase}
    (turn : Turn r r' p c phase false) :
    r'.stepsLeft + c.phase.weight = r.stepsLeft + phase.weight := by
  rw [Room.stepsLeft, turn.calls]
  exact sum_map_set_add turn.before { c with phase := phase }

/-- A turn that wakes all sleepers adds two steps for each call at most. -/
theorem Turn.stepsLeft_le {p : Nat} {c : RetireCall} {phase : CallPhase}
    (turn : Turn r r' p c phase true) (hawake : c.phase.notified = c.phase) :
    r'.stepsLeft + c.phase.weight ≤ r.stepsLeft + phase.weight + 2 * r.calls.length := by
  have hbefore : (r.calls.map RetireCall.notified)[p]? = some c.notified := by simp [turn.before]
  have hset := sum_map_set_add (f := fun c : RetireCall => c.phase.weight) hbefore
    { c with phase := phase }
  have hwoken := sum_weight_notified_le r.calls
  rw [Room.stepsLeft, turn.calls, if_pos rfl]
  simp only [RetireCall.notified, hawake] at hset hwoken
  simp only [Room.stepsLeft]
  omega

/-- Whether a moment is a step of a call. -/
def Moment.isAdvance : Moment → Bool
  | advance _ => true
  | _ => false

/-- Whether a moment is a wake-up for no reason. -/
def Moment.isWake : Moment → Bool
  | wake _ => true
  | _ => false

/-- **What happens uses up the potential**: a step of a call brings it down, and waking for no
reason brings it up by two. -/
theorem potential_change (hfits : Fits outputs r') (hc : Change k r r' m) :
    r'.potential outputs + m.isAdvance.toNat ≤ r.potential outputs + 2 * m.isWake.toNat := by
  have hlength := hfits.length_le
  cases hc with
  | came calls gate log =>
      -- its three steps were counted among those of the calls to come
      have hsteps : r'.stepsLeft = r.stepsLeft + 3 := by simp [stepsLeft, calls, CallPhase.weight]
      rw [calls, List.length_append, List.length_singleton] at hlength
      simp only [potential, hsteps, calls, gate, Moment.isAdvance, Moment.isWake,
        List.length_append, List.length_singleton, Bool.toNat_false]
      omega
  | acquired turn wants free gate log =>
      have hsteps := turn.stepsLeft
      rw [CallPhase.weight_of_wants? wants] at hsteps
      simp only [potential, turn.length, gate, Gate.taken, Moment.isAdvance, Moment.isWake,
        CallPhase.weight, Bool.toNat_true, Bool.toNat_false] at hsteps ⊢
      omega
  | slept turn holds notNext gate log =>
      have hsteps := turn.stepsLeft
      simp only [potential, turn.length, gate, Gate.released, holds, Moment.isAdvance,
        Moment.isWake, CallPhase.weight, Bool.toNat_true, Bool.toNat_false] at hsteps ⊢
      omega
  | @retired p c fault turn holds next gate log =>
      have hsteps := turn.stepsLeft_le (by rw [holds]; rfl)
      have hitem := hfits.before (.retired (k := k) turn holds next gate log)
        |>.item_lt (List.mem_of_getElem? turn.before)
      rw [turn.length] at hlength
      -- one retirement less is to come, which pays for the calls that are woken
      have hqueue : 2 * outputs.length * (outputs.length - c.item)
          = 2 * outputs.length * (outputs.length - (c.item + 1)) + 2 * outputs.length := by
        rw [← Nat.mul_succ]
        congr 1
        omega
      simp only [potential, turn.length, gate, holds, next, Moment.isAdvance, Moment.isWake,
        CallPhase.weight, Bool.toNat_true, Bool.toNat_false] at hsteps ⊢
      omega
  | woke turn sleeps gate log =>
      have hsteps := turn.stepsLeft
      simp only [potential, turn.length, gate, sleeps, Moment.isAdvance, Moment.isWake,
        CallPhase.weight, Bool.toNat_true, Bool.toNat_false] at hsteps ⊢
      omega
  | poisoned free calls gate log =>
      have hsteps : r'.stepsLeft = r.stepsLeft := by rw [stepsLeft, calls, stepsLeft]
      simp only [potential, hsteps, calls, gate, Gate.poison, Moment.isAdvance, Moment.isWake,
        Bool.toNat_false]
      omega

/-- **The steps of a run are bounded** by the outputs, and by two more for each wake-up for no
reason. -/
theorem advances_add_potential_le (hrun : (around sink).run? k ms = some r)
    (hfits : Fits outputs r) :
    ms.countP Moment.isAdvance + r.potential outputs
      ≤ 3 * outputs.length + 2 * outputs.length * outputs.length
        + 2 * ms.countP Moment.isWake := by
  refine run_invariant (P := fun ms r => Fits outputs r →
    ms.countP Moment.isAdvance + r.potential outputs
      ≤ 3 * outputs.length + 2 * outputs.length * outputs.length
        + 2 * ms.countP Moment.isWake) (fun _ => ?_) ?_ hrun hfits
  · simp [potential, stepsLeft, around]
  · intro ms r r' m _ he hc hfits'
    have hhere := potential_change hfits' hc
    have hbefore := he (hfits'.before hc)
    have hcount : ∀ f : Moment → Bool, (ms ++ [m]).countP f = ms.countP f + (f m).toNat := by
      intro f
      rw [List.countP_append, List.countP_singleton]
      cases f m <;> rfl
    rw [hcount, hcount]
    omega

end Room

end OrderedDispatch

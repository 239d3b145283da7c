/-
**What can happen at the gate.**

Six kinds of things happen in a room: a further call comes; a call takes the mutex, for the first
time or on waking; a call that holds it falls asleep, or retires its item; a sleeping call wakes for
no reason; somebody poisons the mutex.  This module lists them, each with its guard and with
everything that it changes, so that no later proof opens the step function.  What is true of every
run is derived from the list along the run.

Main definitions:

* `CallPhase.wants?` — whether a call wants the mutex, and the fault that it has met so far;
* `Room.Turn` — one call goes from one phase to another;
* `Room.Change` — the six kinds of things that happen;
* `Room.parcels`, `Room.arrivals` — the outputs that the calls have brought, with their items.

Main results:

* `Room.change_of_step?` — **every moment is one of the six**;
* `Room.run_invariant` — **what holds at the start and survives every change holds after every
  run**;
* `Room.parcels_eq_arrivals` — calls keep what they have brought.
-/

import Mathlib.Data.List.Induction
import OrderedDispatch.Gate.Room

set_option relaxedAutoImplicit false
set_option autoImplicit false

namespace OrderedDispatch

/-- Whether the call wants the mutex, and then the fault that it has met so far. -/
def CallPhase.wants? : CallPhase → Option (Option Fault)
  | arriving => some none
  | woken fault => some fault
  | _ => none

namespace Room

variable {σ : Type} {k : Sink σ} {sink : σ} {r r' : Room σ}

/-! ### One call's turn -/

/-- The call `c` goes to another phase; the other calls stay where they are, or are woken if `wakes`
says so. -/
structure Turn (r r' : Room σ) (p : Nat) (c : RetireCall) (phase : CallPhase) (wakes : Bool) :
    Prop where
  before : r.calls[p]? = some c
  calls : r'.calls
    = (if wakes then r.calls.map RetireCall.notified else r.calls).set p { c with phase := phase }

/-- The outputs that the calls have brought, each with its item, in order of arrival. -/
def parcels (r : Room σ) : List (List UInt8 × Nat) := r.calls.map fun c => (c.output, c.item)

namespace Turn

variable {p : Nat} {c : RetireCall} {phase : CallPhase} {wakes : Bool}

theorem lt_length (h : Turn r r' p c phase wakes) : p < r.calls.length :=
  (List.getElem?_eq_some_iff.1 h.before).1

/-- No call comes or goes. -/
theorem length (h : Turn r r' p c phase wakes) : r'.calls.length = r.calls.length := by
  rw [h.calls]
  split <;> simp

/-- **What holds of every call** after a turn: what holds of the call whose turn it is, and what the
others have kept. -/
theorem forall_calls (h : Turn r r' p c phase wakes) {P : Nat → RetireCall → Prop}
    (hself : P p { c with phase := phase })
    (hkeep : wakes = false → ∀ q b, q ≠ p → r.calls[q]? = some b → P q b)
    (hwake : wakes = true → ∀ q b, q ≠ p → r.calls[q]? = some b → P q b.notified) :
    ∀ q b, r'.calls[q]? = some b → P q b := by
  have hlt := h.lt_length
  intro q b hb
  rw [h.calls] at hb
  by_cases hq : q = p
  · subst hq
    have hset : some { c with phase := phase } = some b := by
      rw [← hb]
      split <;> simp [hlt]
    exact Option.some.inj hset ▸ hself
  · rw [List.getElem?_set_ne (Ne.symm hq)] at hb
    cases wakes with
    | false => exact hkeep rfl q b hq hb
    | true =>
        rw [if_pos rfl, List.getElem?_map, Option.map_eq_some_iff] at hb
        obtain ⟨a, ha, rfl⟩ := hb
        exact hwake rfl q a hq ha

/-- Calls keep what they have brought. -/
theorem parcels (h : Turn r r' p c phase wakes) : r'.parcels = r.parcels := by
  obtain ⟨hlt, hc⟩ := List.getElem?_eq_some_iff.1 h.before
  have hself : (r.calls.map fun c => (c.output, c.item)).set p (c.output, c.item)
      = r.calls.map fun c => (c.output, c.item) := by
    rw [← hc, ← List.map_set (f := fun c : RetireCall => (c.output, c.item)),
      List.set_getElem_self]
  rw [Room.parcels, h.calls, List.map_set]
  split
  · rw [List.map_map]
    exact hself
  · exact hself

end Turn

/-- What holds of every call after a further one has come. -/
theorem forall_calls_concat {c₀ : RetireCall} (h : r'.calls = r.calls ++ [c₀])
    {P : Nat → RetireCall → Prop} (hnew : P r.calls.length c₀)
    (hkeep : ∀ q b, r.calls[q]? = some b → P q b) : ∀ q b, r'.calls[q]? = some b → P q b := by
  intro q b hb
  rw [h] at hb
  rcases Nat.lt_trichotomy q r.calls.length with hq | rfl | hq
  · rw [List.getElem?_append_left hq] at hb
    exact hkeep q b hb
  · rw [List.getElem?_concat_length] at hb
    exact Option.some.inj hb ▸ hnew
  · rw [List.getElem?_eq_none (by simp; omega)] at hb
    cases hb

/-! ### The six kinds -/

/-- **The six kinds of things that happen in a room**, each with its guard and with all that it
changes: a further call comes; a call takes the free mutex and clears its poison; it falls asleep
because its item is not next; it retires its item, lets go of the mutex and wakes all sleepers; it
wakes for no reason; or somebody takes the free mutex and panics. -/
inductive Change (k : Sink σ) (r r' : Room σ) : Moment → Prop
  | came {thread item : Nat} {output : List UInt8}
      (calls : r'.calls = r.calls ++ [(⟨thread, item, output, .arriving⟩ : RetireCall)])
      (gate : r'.gate = r.gate)
      (log : r'.log = r.log) : Change k r r' (.arrive thread item output)
  | acquired {p : Nat} {c : RetireCall} {fault : Option Fault}
      (turn : Turn r r' p c (.holding (fault.or r.gate.poisonFault)) false)
      (wants : c.phase.wants? = some fault) (free : r.gate.locked = false)
      (gate : r'.gate = r.gate.taken) (log : r'.log = r.log) : Change k r r' (.advance p)
  | slept {p : Nat} {c : RetireCall} {fault : Option Fault}
      (turn : Turn r r' p c (.asleep fault) false) (holds : c.phase = .holding fault)
      (notNext : r.gate.next ≠ c.item) (gate : r'.gate = r.gate.released)
      (log : r'.log = r.log) : Change k r r' (.advance p)
  | retired {p : Nat} {c : RetireCall} {fault : Option Fault}
      (turn : Turn r r' p c (.done (fault.or (k.retire r.gate.sink c.output).fault)) true)
      (holds : c.phase = .holding fault) (next : r.gate.next = c.item)
      (gate : r'.gate = { r.gate with
        next := c.item + 1
        sink := (k.retire r.gate.sink c.output).state
        locked := false })
      (log : r'.log = r.log ++ (k.retire r.gate.sink c.output).calls) :
      Change k r r' (.advance p)
  | woke {p : Nat} {c : RetireCall} {fault : Option Fault}
      (turn : Turn r r' p c (.woken fault) false) (sleeps : c.phase = .asleep fault)
      (gate : r'.gate = r.gate) (log : r'.log = r.log) : Change k r r' (.wake p)
  | poisoned (free : r.gate.locked = false) (calls : r'.calls = r.calls)
      (gate : r'.gate = r.gate.poison) (log : r'.log = r.log) : Change k r r' .poison

theorem change_of_advance {p : Nat} (h : r.step? k (.advance p) = some r') :
    Change k r r' (.advance p) := by
  simp only [step?, Option.bind_eq_bind, Option.bind_eq_some_iff, Option.some.injEq] at h
  obtain ⟨⟨thread, item, output, phase⟩, hc, s, hs, rfl⟩ := h
  cases phase with
  | arriving =>
      simp only [Gate.advance?, Option.ite_none_left_eq_some, Option.some.injEq,
        Bool.not_eq_true] at hs
      obtain ⟨hfree, rfl⟩ := hs
      exact .acquired ⟨hc, rfl⟩ rfl hfree rfl rfl
  | woken fault =>
      simp only [Gate.advance?, Option.ite_none_left_eq_some, Option.some.injEq,
        Bool.not_eq_true] at hs
      obtain ⟨hfree, rfl⟩ := hs
      exact .acquired ⟨hc, rfl⟩ rfl hfree rfl rfl
  | holding fault =>
      simp only [Gate.advance?] at hs
      split at hs
      · rename_i hnext
        obtain rfl := Option.some.inj hs
        refine .retired ⟨hc, ?_⟩ rfl hnext rfl ?_
        · simp only [wakeAll, if_true, List.map_set]
          rfl
        · simp [log]
      · rename_i hnext
        obtain rfl := Option.some.inj hs
        exact .slept ⟨hc, rfl⟩ rfl hnext rfl rfl
  | asleep fault => cases hs
  | done fault => cases hs

/-- **Every moment is one of the six.** -/
theorem change_of_step? {m : Moment} (h : r.step? k m = some r') : Change k r r' m := by
  cases m with
  | arrive thread item output =>
      obtain rfl := Option.some.inj h
      exact .came rfl rfl rfl
  | advance p => exact change_of_advance h
  | wake p =>
      simp only [step?, Option.bind_eq_bind, Option.bind_eq_some_iff] at h
      obtain ⟨⟨thread, item, output, phase⟩, hc, h⟩ := h
      cases phase with
      | asleep fault =>
          obtain rfl := Option.some.inj h
          exact .woke ⟨hc, rfl⟩ rfl rfl rfl
      | _ => cases h
  | poison =>
      simp only [step?, Option.ite_none_left_eq_some, Option.some.injEq, Bool.not_eq_true] at h
      obtain ⟨hfree, rfl⟩ := h
      exact .poisoned hfree rfl rfl rfl

/-! ### Along a run -/

theorem run?_append (ms later : List Moment) (r : Room σ) :
    r.run? k (ms ++ later) = (r.run? k ms).bind fun r' => r'.run? k later := by
  induction ms generalizing r with
  | nil => rfl
  | cons m rest ih =>
      simp only [List.cons_append, run?, Option.bind_assoc]
      exact congrArg _ (funext fun r' => ih r')

/-- A run with one moment more. -/
theorem run?_concat {ms : List Moment} {m : Moment} {r₀ : Room σ}
    (h : r₀.run? k (ms ++ [m]) = some r') :
    ∃ r, r₀.run? k ms = some r ∧ r.step? k m = some r' := by
  rw [run?_append, Option.bind_eq_some_iff] at h
  obtain ⟨r, hrun, hstep⟩ := h
  exact ⟨r, hrun, by simpa [run?] using hstep⟩

/-- **What holds at the start and survives every change holds after every run.** -/
theorem run_invariant {P : List Moment → Room σ → Prop} (hstart : P [] (around sink))
    (hchange : ∀ ms r r' m, (around sink).run? k ms = some r → P ms r → Change k r r' m →
      P (ms ++ [m]) r') {ms : List Moment} (hrun : (around sink).run? k ms = some r) : P ms r := by
  induction ms using List.reverseRecOn generalizing r with
  | nil =>
      obtain rfl := Option.some.inj hrun
      exact hstart
  | append_singleton ms m ih =>
      obtain ⟨e, he, hstep⟩ := run?_concat hrun
      exact hchange ms e r m he (ih he) (change_of_step? hstep)

/-! ### What the calls have brought -/

/-- The output and the item that a call comes with. -/
def Moment.arrival? : Moment → Option (List UInt8 × Nat)
  | arrive _ item output => some (output, item)
  | _ => none

/-- The outputs that come during a run, each with its item, in order of arrival. -/
def arrivals (ms : List Moment) : List (List UInt8 × Nat) := ms.filterMap Moment.arrival?

/-- What has been brought before a change is what comes first after it. -/
theorem Change.parcels {m : Moment} (h : Change k r r' m) :
    r'.parcels = r.parcels ++ m.arrival?.toList := by
  cases h with
  | came calls gate log => simp [Room.parcels, calls, Moment.arrival?]
  | acquired turn wants free gate log => simp [turn.parcels, Moment.arrival?]
  | slept turn holds notNext gate log => simp [turn.parcels, Moment.arrival?]
  | retired turn holds next gate log => simp [turn.parcels, Moment.arrival?]
  | woke turn sleeps gate log => simp [turn.parcels, Moment.arrival?]
  | poisoned free calls gate log => simp [Room.parcels, calls, Moment.arrival?]

/-- **Calls keep what they have brought.** -/
theorem parcels_eq_arrivals {ms : List Moment} (hrun : (around sink).run? k ms = some r) :
    r.parcels = arrivals ms := by
  refine run_invariant (P := fun ms r => r.parcels = arrivals ms) rfl ?_ hrun
  intro ms r r' m _ he hc
  rw [hc.parcels, he, arrivals, arrivals, List.filterMap_append]
  cases hm : m.arrival? <;> simp [hm]

end Room

end OrderedDispatch

/-
**Several calls at one gate.**

A room holds a gate and the calls that have come to it, each for its own thread.  At any moment one
of the calls may take its next step, a sleeping one may wake for no reason, a further call may come,
or a holder of the mutex may panic.  A run is any sequence of such moments.

Main definitions:

* `RetireCall`, `Room` — a call, and the gate with its calls in order of arrival;
* `Room.Moment`, `Room.step?`, `Room.run?` — what may happen, and any interleaving of it;
* `Room.settle` — the calls go on until none can.

Main results:

* `Room.step?_some_next` — the counter never falls.
-/

import OrderedDispatch.Gate.Basic

set_option relaxedAutoImplicit false
set_option autoImplicit false

namespace OrderedDispatch

/-- A call at the retire gate. -/
structure RetireCall where
  thread : Nat
  item : Nat
  output : List UInt8
  phase : CallPhase := .arriving
  deriving DecidableEq, Inhabited

/-- The call after all sleepers have been woken. -/
def RetireCall.notified (c : RetireCall) : RetireCall := { c with phase := c.phase.notified }

/-- A gate and the calls that have come to it, in order of arrival. -/
structure Room (σ : Type) where
  gate : Gate σ
  calls : List RetireCall := []
  /-- what the sink has been called for, the newest first -/
  reversedLog : List SinkCall := []

namespace Room

variable {σ : Type}

/-- A room around a sink to which nobody has come yet. -/
def around (sink : σ) : Room σ where
  gate := { sink := sink }

/-- What the sink has been called for, in order. -/
def log (r : Room σ) : List SinkCall := r.reversedLog.reverse

/-- What may happen next: a further call comes, the call with a position takes its next step or
wakes for no reason, or somebody takes the free mutex and panics. -/
inductive Moment where
  | arrive (thread item : Nat) (output : List UInt8)
  | advance (position : Nat)
  | wake (position : Nat)
  | poison
  deriving DecidableEq, Inhabited

/-- Waking all calls or none. -/
def wakeAll (wakes : Bool) (calls : List RetireCall) : List RetireCall :=
  if wakes then calls.map RetireCall.notified else calls

/-- The room after what may happen next, `none` where it cannot happen. -/
def step? (k : Sink σ) (r : Room σ) : Moment → Option (Room σ)
  | .arrive thread item output =>
      some { r with calls := r.calls ++ [{ thread, item, output }] }
  | .advance position => do
      let c ← r.calls[position]?
      let s ← r.gate.advance? k c.thread c.item c.output c.phase
      some {
        gate := s.gate
        calls := wakeAll s.wakesAll (r.calls.set position { c with phase := s.phase })
        reversedLog := s.calls.reverse ++ r.reversedLog }
  | .wake position => do
      let c ← r.calls[position]?
      if c.phase.sleeps then
        some { r with calls := r.calls.set position c.notified }
      else none
  | .poison => if r.gate.locked then none else some { r with gate := r.gate.poison }

/-- Any sequence of moments. -/
def run? (k : Sink σ) : Room σ → List Moment → Option (Room σ)
  | r, [] => some r
  | r, m :: rest => (step? k r m).bind fun r' => run? k r' rest

/-- The first call, from a position on, that can go on. -/
def advanceFrom? (k : Sink σ) (r : Room σ) (position : Nat) : Nat → Option (Room σ)
  | 0 => none
  | left + 1 =>
      (r.step? k (.advance position)).or (advanceFrom? k r (position + 1) left)

/-- The calls go on, the earliest arrived first, for at most so many steps. -/
def advanceUpTo (k : Sink σ) : Nat → Room σ → Room σ
  | 0, r => r
  | steps + 1, r =>
      match r.advanceFrom? k 0 r.calls.length with
      | none => r
      | some r' => advanceUpTo k steps r'

/-- A bound on the steps until no call can go on: each retirement wakes every call at most once, and
a call that holds the mutex, or wants it, takes two steps until it sleeps or has retired. -/
def stepBound (r : Room σ) : Nat := (r.calls.length + 1) * (2 * r.calls.length + 2)

/-- The calls go on until none can. -/
def settle (k : Sink σ) (r : Room σ) : Room σ := advanceUpTo k r.stepBound r

/-- The counter never falls. -/
theorem step?_some_next {k : Sink σ} {r r' : Room σ} {m : Moment} (h : r.step? k m = some r') :
    r.gate.next ≤ r'.gate.next := by
  cases m with
  | arrive thread item output =>
      simp only [step?, Option.some.injEq] at h
      subst h
      exact Nat.le_refl _
  | poison =>
      simp only [step?, Option.ite_none_left_eq_some, Option.some.injEq] at h
      obtain ⟨_, rfl⟩ := h
      exact Nat.le_refl _
  | wake position =>
      simp only [step?, Option.bind_eq_bind, Option.bind_eq_some_iff] at h
      obtain ⟨c, _, h⟩ := h
      split at h
      · simp only [Option.some.injEq] at h
        subst h
        exact Nat.le_refl _
      · simp at h
  | advance position =>
      simp only [step?, Option.bind_eq_bind, Option.bind_eq_some_iff, Option.some.injEq] at h
      obtain ⟨c, _, s, hs, rfl⟩ := h
      revert hs
      cases c.phase <;> simp only [Gate.advance?] <;> (try split) <;>
        simp only [Option.some.injEq, reduceCtorEq, false_implies] <;> rintro rfl <;>
        simp_all [Gate.taken, Gate.released]

end Room

end OrderedDispatch

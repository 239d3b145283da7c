/-
**Starting the workers.**

The dispatching thread starts its workers one after the other, and the system may refuse to start
one.  Then no further worker is tried.  Those that have been started go on until no item is left,
for they know nothing of the refusal, and they are waited for as usual; but in the place of a
summary the dispatch has an error.

Main definitions:

* `SpawnError`, `SpawnError.message` — the worker that was refused and the system's reason;
* `refused?` — the first worker that is refused;
* `Pool.attempt` — a whole dispatch on a system that may refuse workers.

Main results:

* `refused?_eq_none_iff`, `refused?_eq_some_iff` — the error is about the first worker refused;
* `Pool.attempt_of_granted` — a system that refuses no worker changes nothing;
* `Pool.outcome_attempt_iff` — a dispatch fails exactly if one of its workers is refused, and its
  error is about the first.
-/

import OrderedDispatch.Dispatch.Report

set_option relaxedAutoImplicit false
set_option autoImplicit false

namespace OrderedDispatch

/-- Why a dispatch stopped short of its workers: the number of the first one that the system refused
to start, and the reason that it gave. -/
structure SpawnError where
  thread : Nat
  reason : String
  deriving DecidableEq, Inhabited

namespace SpawnError

/-- What is logged about the error. -/
def event (e : SpawnError) : Event := .notStarted e.thread e.reason

/-- The error in words. -/
def message (e : SpawnError) : String := e.event.message

/-- The error in words, followed by its cause, which the words have named already. -/
def withCause (e : SpawnError) : String := e.message ++ ": " ++ e.reason

end SpawnError

/-- The error about the first of so many workers that the system refuses to start, given the reason
for which it refuses each worker, if it does. -/
def refused? (refuses : Nat → Option String) (threads : Nat) : Option SpawnError :=
  (List.range threads).findSome? fun t => (refuses t).map (SpawnError.mk t)

theorem refused?_succ (refuses : Nat → Option String) (threads : Nat) :
    refused? refuses (threads + 1)
      = (refused? refuses threads).or ((refuses threads).map (SpawnError.mk threads)) := by
  rw [refused?, List.range_succ, List.findSome?_append, List.findSome?_singleton]
  rfl

/-- There is no error exactly if none of the workers is refused. -/
theorem refused?_eq_none_iff {refuses : Nat → Option String} {threads : Nat} :
    refused? refuses threads = none ↔ ∀ t < threads, refuses t = none := by
  simp [refused?]

/-- The error is about the first worker that is refused. -/
theorem refused?_eq_some_iff {refuses : Nat → Option String} {threads : Nat} {e : SpawnError} :
    refused? refuses threads = some e
      ↔ e.thread < threads ∧ refuses e.thread = some e.reason
        ∧ ∀ t < e.thread, refuses t = none := by
  -- a further worker matters only if all before it are granted
  induction threads with
  | zero => simp [refused?]
  | succ n ih =>
      rw [refused?_succ, Option.or_eq_some_iff, ih, refused?_eq_none_iff, Option.map_eq_some_iff]
      constructor
      · rintro (⟨hlt, hreason, hfirst⟩ | ⟨hnone, reason, hreason, rfl⟩)
        · exact ⟨Nat.lt_succ_of_lt hlt, hreason, hfirst⟩
        · exact ⟨Nat.lt_succ_self n, hreason, hnone⟩
      · rintro ⟨hlt, hreason, hfirst⟩
        rcases Nat.lt_succ_iff_lt_or_eq.1 hlt with hlt | rfl
        · exact Or.inl ⟨hlt, hreason, hfirst⟩
        · exact Or.inr ⟨hfirst, e.reason, hreason, rfl⟩

/-- A whole dispatch that may have failed: its summary or the error, everything that was logged with
the session it was logged in, and the state in which the workers left it. -/
structure Attempt (σ : Type) where
  outcome : Except SpawnError Report
  log : List (Option String × Event)
  final : Dispatch σ

/-- The same job on so many workers. -/
def Job.onThreads {σ : Type} (job : Job σ) (threads : Nat) : Job σ :=
  { job with threads := threads }

namespace Pool

variable {σ : Type} (p : Pool) (refuses : Nat → Option String) (available items : Nat)
  (work : (thread item : Nat) → Script) (sink : Sink σ) (s : σ)

/-- The first worker that is refused when the items are dispatched. -/
def refusal? : Option SpawnError :=
  refused? refuses (p.sizing.threadCount available items)

/-- Runs the work of every item below a number and retires the outputs into a sink, on a system that
may refuse to start a worker.  The refusal is logged before a worker takes its first step, and no
summary is. -/
def attempt : Attempt σ :=
  match p.refusal? refuses available items with
  | none =>
      let r := p.run available items work sink s
      ⟨.ok r.report, r.log, r.final⟩
  | some e =>
      let job := (p.job available items work sink).onThreads e.thread
      let final := (Dispatch.start job s).settle job
      { outcome := .error e
        log := (p.sizing.events available items
            ++ [.creating (p.sizing.threadCount available items) items, e.event]).map (none, ·)
          ++ final.log ++ (Report.joinEvents final.workers).map (none, ·)
        final := final }

variable {p refuses available items work sink s}

/-- A system that refuses no worker changes nothing. -/
theorem attempt_of_granted (h : ∀ t < p.sizing.threadCount available items, refuses t = none) :
    (p.attempt refuses available items work sink s).outcome
        = .ok (p.run available items work sink s).report
      ∧ (p.attempt refuses available items work sink s).log
        = (p.run available items work sink s).log
      ∧ (p.attempt refuses available items work sink s).final
        = (p.run available items work sink s).final := by
  have hnone : p.refusal? refuses available items = none := refused?_eq_none_iff.2 h
  rw [attempt, hnone]
  exact ⟨rfl, rfl, rfl⟩

/-- A dispatch fails exactly if one of its workers is refused, and tells which was the first. -/
theorem outcome_attempt {e : SpawnError} :
    (p.attempt refuses available items work sink s).outcome = .error e
      ↔ p.refusal? refuses available items = some e := by
  rw [attempt]
  cases p.refusal? refuses available items <;> simp

/-- The error of a failed dispatch is about the first worker that is refused. -/
theorem outcome_attempt_iff {e : SpawnError} :
    (p.attempt refuses available items work sink s).outcome = .error e
      ↔ e.thread < p.sizing.threadCount available items ∧ refuses e.thread = some e.reason
        ∧ ∀ t < e.thread, refuses t = none :=
  outcome_attempt.trans refused?_eq_some_iff

end Pool

end OrderedDispatch

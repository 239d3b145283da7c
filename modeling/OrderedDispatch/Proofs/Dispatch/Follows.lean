/-
**Workers follow their scripts.**

A worker runs the script that the job has for its number and the item that it claimed.  What is
still to be done is always the rest of that script, and the parcel that it carries to the gate is
what the script comes to.

Main definitions:

* `Job.parcel` — what the script of an item on a thread comes to;
* `Job.Returns` — the work of every item returns, for it waits for no other item;
* `Dispatch.Follows` — every worker follows its script.

Main results:

* `Dispatch.Reachable.follows` — **every worker follows its script, whatever the interleaving**;
* `Dispatch.Reachable.not_isWait` — if the work of every item returns, no worker waits inside it.
-/

import OrderedDispatch.Proofs.Dispatch.Window

set_option relaxedAutoImplicit false
set_option autoImplicit false

namespace OrderedDispatch

variable {σ : Type}

/-- What the script of an item on a thread comes to. -/
def Job.parcel (job : Job σ) (thread item : Nat) : Parcel :=
  ⟨item, (job.work thread item).output, (job.work thread item).ending⟩

/-- The work of every item returns, on whatever thread, for it waits for no other item. -/
def Job.Returns (job : Job σ) : Prop :=
  ∀ thread < job.threads, ∀ item < job.items, ∀ step ∈ job.work thread item, step.isWait = false

namespace Dispatch

variable {job : Job σ} {sink : σ}

/-- What it means for the worker with a number to follow its script: what is left to be done is
the rest of the script of the session's item, and the parcel is what that script comes to. -/
def FollowsAt (job : Job σ) (t : Nat) (w : Worker) : Prop :=
  (∀ session todo output, w.phase = .working session todo output →
    session.thread = t ∧ todo <:+ job.work t session.item)
  ∧ ∀ p, w.phase.parcel? = some p → p = job.parcel t p.item

/-- Every worker follows its script. -/
def Follows (job : Job σ) (d : Dispatch σ) : Prop :=
  ∀ t w, d.workers[t]? = some w → FollowsAt job t w

/-- Being woken changes neither what is left to be done nor the parcel. -/
theorem FollowsAt.notified {t : Nat} {w : Worker} (h : FollowsAt job t w) :
    FollowsAt job t w.notified := by
  obtain ⟨phase, failed⟩ := w
  refine ⟨fun session todo output hp => ?_, fun p hp => ?_⟩
  · refine h.1 session todo output ?_
    cases phase <;> first | exact hp | cases hp
  · exact h.2 p (by rw [← hp]; exact (Phase.notified_parcel? phase).symm)

/-- A turn after which its worker is not working, with the parcel it had or with none. -/
theorem Follows.turn {d d' : Dispatch σ} {t : Nat} {w w' : Worker} {es : List Entry}
    {wakes : Bool} (h : Follows job d) (turn : Turn d d' t w w' es wakes)
    (hw' : FollowsAt job t w') : Follows job d' :=
  turn.forall_workers hw' (fun _ u v _ hv => h u v hv) (fun _ u v _ hv => (h u v hv).notified)

/-- A worker that is not working follows its script if its parcel is the one it had. -/
theorem FollowsAt.of_parcel {t : Nat} {w w' : Worker} (h : FollowsAt job t w)
    (hbusy : w'.phase.busy? = none)
    (hparcel : w'.phase.parcel? = w.phase.parcel? ∨ w'.phase.parcel? = none) :
    FollowsAt job t w' := by
  refine ⟨fun session todo output hp => ?_, fun p hp => ?_⟩
  · rw [hp] at hbusy
    cases hbusy
  · rcases hparcel with hsame | hnone
    · exact h.2 p (hsame ▸ hp)
    · rw [hnone] at hp
      cases hp

/-- The steps between keep every worker on its script. -/
theorem Follows.between {d d' : Dispatch σ} {m : Move} (h : Follows job d)
    (hs : Interim d d' m) : Follows job d' := by
  cases hs with
  | begun turn same => exact h.turn turn ((h _ _ turn.before).of_parcel rfl (Or.inl rfl))
  | exited turn noneLeft moved =>
      exact h.turn turn ((h _ _ turn.before).of_parcel rfl (Or.inl rfl))
  | @worked t _ session session' step todo output output' _ turn effect allowed same =>
      obtain ⟨hitem, hthread⟩ := Step.effect?_session effect
      obtain ⟨houtput, hending⟩ := Step.effect?_output effect todo
      have hw := h _ _ turn.before
      -- one step less is left of the script, and the parcel that it comes to is the same
      refine h.turn turn ⟨fun _ _ _ hp => ?_, fun p hp => ?_⟩
      · obtain ⟨rfl, rfl, -⟩ := Phase.working.inj hp
        obtain ⟨ht, hsuffix⟩ := hw.1 session (step :: todo) output rfl
        exact ⟨hthread.trans ht, by rw [hitem]; exact (List.suffix_cons step todo).trans hsuffix⟩
      · refine hw.2 p ?_
        simpa only [Phase.parcel?, hitem, houtput, hending] using hp
  | arrived turn free moved =>
      exact h.turn turn ((h _ _ turn.before).of_parcel rfl (Or.inl rfl))
  | resumed turn free moved =>
      exact h.turn turn ((h _ _ turn.before).of_parcel rfl (Or.inl rfl))
  | slept turn notNext moved =>
      exact h.turn turn ((h _ _ turn.before).of_parcel rfl (Or.inl rfl))
  | woken turn same => exact h.turn turn ((h _ _ turn.before).of_parcel rfl (Or.inl rfl))

/-- **Every worker follows its script, whatever the interleaving.** -/
theorem Reachable.follows {d : Dispatch σ} (h : Reachable job sink d) : Follows job d := by
  refine h.invariant (fun t w hw => ?_) ?_
  · obtain rfl := List.eq_of_mem_replicate (List.mem_of_getElem? hw)
    exact ⟨nofun, nofun⟩
  · intro e e' m _ he hc
    cases hc with
    | between interim => exact he.between interim
    | @claimed t _ session turn opened someLeft moved =>
        refine he.turn turn ⟨fun _ _ _ hp => ?_, fun p hp => ?_⟩
        · obtain ⟨rfl, rfl, -⟩ := Phase.working.inj hp
          rw [opened]
          exact ⟨rfl, List.suffix_refl _⟩
        · obtain rfl := Option.some.inj hp
          rw [opened]
          rfl
    | @finished t _ session todo output ending turn ends take gate ended =>
        -- nothing more is written once the work has ended
        obtain ⟨houtput, hending⟩ := Script.ending_of_endsNow? ends
        refine he.turn turn ((he _ _ turn.before).of_parcel rfl (Or.inl ?_))
        simp only [Phase.parcel?, houtput, hending, List.append_nil]
    | retired turn first moved =>
        refine he.turn turn ((he _ _ turn.before).of_parcel ?_ (Or.inr ?_))
        · split <;> rfl
        · split <;> rfl

/-- The work of each item ends as some thread's script for it says. -/
theorem Reachable.ending {d : Dispatch σ} (h : Reachable job sink d) :
    ∀ p ∈ d.endings, p.1 < job.items ∧ ∃ t < job.threads, p.2 = (job.work t p.1).ending := by
  refine h.invariant (P := fun d => ∀ p ∈ d.endings, p.1 < job.items
    ∧ ∃ t < job.threads, p.2 = (job.work t p.1).ending) nofun ?_
  intro e e' m hreach he hc
  cases hc with
  | between interim => rw [interim.unmoved.adds.endings, List.append_nil]; exact he
  | claimed turn opened someLeft moved =>
      rw [turn.adds_of_claim.endings, List.append_nil]
      exact he
  | @finished t failed session todo output ending turn ends take gate ended =>
      intro p hp
      rw [turn.adds_of_end.endings] at hp
      rcases List.mem_append.1 hp with hp | hp
      · exact he p hp
      · obtain rfl := List.mem_singleton.1 hp
        have hheld := hreach.window.within (at?_eq_some.2 ⟨_, turn.before, rfl⟩)
        have hparcel := (hreach.follows t _ turn.before).2 _ rfl
        refine ⟨Nat.lt_of_lt_of_le hheld.2 hreach.window.bounded, t, ?_, ?_⟩
        · rw [← hreach.length_workers]
          exact turn.lt_length
        · rw [← (Script.ending_of_endsNow? ends).2]
          exact congrArg Parcel.ending hparcel
  | retired turn first moved =>
      rw [turn.adds_of_retire.endings, List.append_nil]
      exact he

/-- If the work of every item returns, no worker waits inside it. -/
theorem Reachable.not_isWait {d : Dispatch σ} (h : Reachable job sink d) (hreturns : job.Returns)
    {t : Nat} {session : Session} {step : Step} {todo : Script} {output : List UInt8}
    {failed : Bool}
    (hw : d.workers[t]? = some ⟨.working session (step :: todo) output, failed⟩) :
    step.isWait = false := by
  obtain ⟨-, hsuffix⟩ := (h.follows t _ hw).1 session (step :: todo) output rfl
  have hthread : t < job.threads := by
    rw [← h.length_workers]
    exact (List.getElem?_eq_some_iff.1 hw).1
  have hitem : session.item < job.items :=
    Nat.lt_of_lt_of_le (h.window.within (at?_eq_some.2 ⟨_, hw, rfl⟩)).2 h.window.bounded
  exact hreturns t hthread session.item hitem step (hsuffix.mem (List.mem_cons_self ..))

end Dispatch

end OrderedDispatch

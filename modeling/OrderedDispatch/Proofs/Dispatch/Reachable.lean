/-
**Every interleaving of a dispatch.**

A state is reachable if some sequence of moves leads to it from the start.  What holds at the start
and survives each of the ten kinds of step holds in every reachable state; that is the one induction
over interleavings, and all invariants of a dispatch go through it.

Main definitions:

* `Dispatch.Reachable` — the states that some interleaving leads to.

Main results:

* `Dispatch.Reachable.invariant` — **what holds at the start and survives every change holds in
  every reachable state**;
* `Dispatch.Reachable.length_workers`, `Dispatch.Reachable.limit` — the number of workers and the
  limit of the take cursor are those of the job;
* `Dispatch.Reachable.forall_sessions` — what holds of every session that a worker may open;
* `Dispatch.Reachable.working` — what holds when work begins and survives each of its steps holds
  while it goes on.
-/

import OrderedDispatch.Proofs.Dispatch.Change

set_option relaxedAutoImplicit false
set_option autoImplicit false

namespace OrderedDispatch.Dispatch

variable {σ : Type} {job : Job σ} {sink : σ}

/-! ### Moves one after the other -/

theorem run?_append (moves moves' : List Move) (d : Dispatch σ) :
    d.run? job (moves ++ moves') = (d.run? job moves).bind fun d' => d'.run? job moves' := by
  induction moves generalizing d with
  | nil => rfl
  | cons m rest ih =>
      simp only [List.cons_append, run?, Option.bind_assoc]
      exact congrArg _ (funext fun d' => ih d')

/-- The states that some interleaving leads to from the start on an unused sink. -/
def Reachable (job : Job σ) (sink : σ) (d : Dispatch σ) : Prop :=
  ∃ moves, (start job sink).run? job moves = some d

namespace Reachable

variable {d d' : Dispatch σ}

theorem start : Reachable job sink (start job sink) := ⟨[], rfl⟩

theorem run {moves : List Move} (h : Reachable job sink d) (hrun : d.run? job moves = some d') :
    Reachable job sink d' := by
  obtain ⟨before, hbefore⟩ := h
  exact ⟨before ++ moves, by rw [run?_append, hbefore]; exact hrun⟩

theorem step {m : Move} (h : Reachable job sink d) (hstep : d.step? job m = some d') :
    Reachable job sink d' := by
  have hrun : d.run? job [m] = some d' := by simp [run?, hstep]
  exact h.run hrun

/-- **What holds at the start and survives every change holds in every reachable state.** -/
theorem invariant {P : Dispatch σ → Prop} (h : Reachable job sink d)
    (hstart : P (Dispatch.start job sink))
    (hchange : ∀ e e' m, Reachable job sink e → P e → Change job e e' m → P e') : P d := by
  -- along the moves, from any reachable state that has the property
  have hrun : ∀ (moves : List Move) (e : Dispatch σ), Reachable job sink e → P e →
      e.run? job moves = some d → P d := by
    intro moves
    induction moves with
    | nil =>
        intro e _ he hd
        obtain rfl := Option.some.inj hd
        exact he
    | cons m rest ih =>
        intro e hre he hd
        simp only [run?, Option.bind_eq_some_iff] at hd
        obtain ⟨e', hstep, hd⟩ := hd
        exact ih e' (hre.step hstep) (hchange e e' m hre he (change_of_step? hstep)) hd
  obtain ⟨moves, hmoves⟩ := h
  exact hrun moves _ start hstart hmoves

end Reachable

/-! ### What never changes -/

namespace Reachable

variable {d : Dispatch σ}

/-- No worker comes or goes. -/
theorem length_workers (h : Reachable job sink d) : d.workers.length = job.threads := by
  refine h.invariant (P := fun d => d.workers.length = job.threads) ?_ ?_
  · simp [Dispatch.start]
  · intro e e' m _ he hc
    obtain ⟨t, w, w', es, wakes, -, turn, -⟩ := hc.exists_turn
    rw [turn.length, he]

/-- The limit of the take cursor is the number of items. -/
theorem limit (h : Reachable job sink d) : d.take.limit = job.items := by
  refine h.invariant (P := fun d => d.take.limit = job.items) rfl ?_
  intro e e' m _ he hc
  cases hc with
  | between interim => rw [interim.unmoved.limit, he]
  | claimed turn opened someLeft moved => rw [moved.take]; exact he
  | finished turn ends take gate ended => rw [take, he]
  | retired turn first moved => rw [moved.take, he]

/-- What holds of every session that a worker may open holds of the sessions opened. -/
theorem forall_sessions {P : Session → Prop} (h : Reachable job sink d)
    (hopen : ∀ t < job.threads, ∀ i < job.items,
      P { thread := t, item := i, settings := job.settings }) : ∀ s ∈ d.sessions, P s := by
  refine h.invariant (P := fun d => ∀ s ∈ d.sessions, P s) nofun ?_
  intro e e' m hreach he hc
  cases hc with
  | between interim => rw [interim.unmoved.adds.sessions, List.append_nil]; exact he
  | @claimed t failed session turn opened someLeft moved =>
      intro s hs
      rw [turn.adds_of_claim.sessions] at hs
      rcases List.mem_append.1 hs with hs | hs
      · exact he s hs
      · obtain rfl := List.mem_singleton.1 hs
        have ht : t < job.threads := hreach.length_workers ▸ turn.lt_length
        have hlt : e.take.next < job.items := hreach.limit ▸ someLeft
        rw [opened]
        exact hopen t ht _ hlt
  | finished turn ends take gate ended =>
      rw [turn.adds_of_end.sessions, List.append_nil]
      exact he
  | retired turn first moved =>
      rw [turn.adds_of_retire.sessions, List.append_nil]
      exact he

/-! ### While work goes on -/

/-- **What holds when work begins and survives each of its steps holds while it goes on.** -/
theorem working {P : Nat → Session → Script → Prop} (h : Reachable job sink d)
    (hbegin : ∀ t item, P t { thread := t, item, settings := job.settings } (job.work t item))
    (hstep : ∀ t step todo session session' output output' es,
      Step.effect? session output step = some (session', output', es) →
        P t session (step :: todo) → P t session' todo) :
    ∀ (t : Nat) (w : Worker), d.workers[t]? = some w → ∀ session todo output,
      w.phase = .working session todo output → P t session todo := by
  -- nothing is to be shown of a worker that is not working
  have hidle : ∀ (t : Nat) (w : Worker), w.phase.busy? = none → ∀ session todo output,
      w.phase = .working session todo output → P t session todo := by
    intro t w hw session todo output hp
    rw [hp] at hw
    cases hw
  refine h.invariant (P := fun d => ∀ (t : Nat) (w : Worker), d.workers[t]? = some w →
    ∀ session todo output, w.phase = .working session todo output → P t session todo) ?_ ?_
  · intro t w hw
    obtain rfl := List.eq_of_mem_replicate (List.mem_of_getElem? hw)
    exact hidle t _ rfl
  · intro e e' m _ he hc
    have hturn : ∀ {t : Nat} {w w' : Worker} {es : List Entry} {wakes : Bool},
        Turn e e' t w w' es wakes →
          (∀ session todo output, w'.phase = .working session todo output → P t session todo) →
            ∀ (u : Nat) (v : Worker), e'.workers[u]? = some v → ∀ session todo output,
              v.phase = .working session todo output → P u session todo := by
      intro t w w' es wakes turn hw'
      refine turn.forall_workers hw' (fun _ u v _ hv => he u v hv) fun _ u v _ hv => ?_
      obtain ⟨phase, failed⟩ := v
      intro session todo output hp
      refine he u _ hv session todo output ?_
      cases phase <;> first | exact hp | cases hp
    cases hc with
    | between interim =>
        cases interim with
        | begun turn same => exact hturn turn (hidle _ _ rfl)
        | exited turn noneLeft moved => exact hturn turn (hidle _ _ rfl)
        | worked turn effect allowed same =>
            refine hturn turn fun _ _ _ hp => ?_
            obtain ⟨rfl, rfl, -⟩ := Phase.working.inj hp
            exact hstep _ _ _ _ _ _ _ _ effect (he _ _ turn.before _ _ _ rfl)
        | arrived turn free moved => exact hturn turn (hidle _ _ rfl)
        | resumed turn free moved => exact hturn turn (hidle _ _ rfl)
        | slept turn notNext moved => exact hturn turn (hidle _ _ rfl)
        | woken turn same => exact hturn turn (hidle _ _ rfl)
    | claimed turn opened someLeft moved =>
        refine hturn turn fun _ _ _ hp => ?_
        obtain ⟨rfl, rfl, -⟩ := Phase.working.inj hp
        rw [opened]
        exact hbegin _ _
    | finished turn ends take gate ended => exact hturn turn (hidle _ _ rfl)
    | retired turn first moved =>
        refine hturn turn (hidle _ _ ?_)
        dsimp only
        split <;> rfl

end Reachable

end OrderedDispatch.Dispatch

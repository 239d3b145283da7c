/-
**A worker for each item.**

If there is a worker for each item and the work of every item waits until all have started, no
worker runs two items: until all items have been claimed, whoever has claimed one is held back in
its work.  So workers and items go together in pairs, and what the report says of the workers it
says of the items: a worker dies if its item kills it, and fails if its item went wrong without
killing it.

Main definitions:

* `Job.kills` — whether the item of a session kills the worker that runs it;
* `Phase.HeldBack` — whether the worker has still to wait until all items have started;
* `Dispatch.Condemned`, `Dispatch.Gathered` — who is doomed, and who is held back, in terms of the
  sessions that the worker has opened;
* `Dispatch.Paired` — every worker has run one item, and is reported as that item went;
* `Dispatch.Completed` — every item has been run and retired.

Main results:

* `Dispatch.Reachable.doomed_iff` — a worker is doomed exactly if an item that it has run kills it;
* `Dispatch.Reachable.gathered`, `Dispatch.Reachable.nodup_threads` — no worker runs two items;
* `Dispatch.waits_complete` — **a dispatch with a worker for each item completes, however the items
  wait for each other**, unless they do so in a circle.
-/

import OrderedDispatch.Proofs.Dispatch.Deaths
import OrderedDispatch.Proofs.Dispatch.Waits

set_option relaxedAutoImplicit false
set_option autoImplicit false

namespace OrderedDispatch

variable {σ : Type} {job : Job σ} {sink : σ}

/-- Whether the item of a session kills the worker that runs it. -/
def Job.kills (job : Job σ) (s : Session) : Bool := (job.work s.thread s.item).ending.isFatal

/-- The work of every item waits until all have started, on whatever thread. -/
def Job.Gathers (job : Job σ) : Prop :=
  ∀ t < job.threads, ∀ i < job.items, Step.allStarted ∈ (job.work t i).performed

/-- Whether the worker has still to wait until all items have started. -/
def Phase.HeldBack : Phase → Prop
  | working _ todo _ => Step.allStarted ∈ todo.performed
  | _ => False

namespace Dispatch

variable {d d' : Dispatch σ}

/-! ### Who is going to die -/

/-- A worker is doomed exactly if an item that it has run kills it. -/
def Condemned (job : Job σ) (d : Dispatch σ) : Prop :=
  ∀ (t : Nat) (w : Worker), d.workers[t]? = some w →
    (w.phase.doomed = true ↔ ∃ s ∈ d.sessions, s.thread = t ∧ job.kills s = true)

/-- A turn that opens no session leaves its worker as doomed as it was. -/
theorem Condemned.turn (h : Condemned job d) {t : Nat} {w w' : Worker} {es : List Entry}
    {wakes : Bool} (turn : Turn d d' t w w' es wakes) (hsessions : d'.sessions = d.sessions)
    (hdoomed : w'.phase.doomed = w.phase.doomed) : Condemned job d' := by
  rw [Condemned, hsessions]
  refine turn.forall_workers ?_ (fun _ u v _ hv => h u v hv) (fun _ u v _ hv => ?_)
  · rw [hdoomed]
    exact h t w turn.before
  · rw [Worker.notified, Phase.notified_doomed]
    exact h u v hv

/-- **A worker is doomed exactly if an item that it has run kills it.** -/
theorem Reachable.doomed_iff (h : Reachable job sink d) : Condemned job d := by
  refine h.invariant (fun t w hw => ?_) ?_
  · obtain rfl := List.eq_of_mem_replicate (List.mem_of_getElem? hw)
    simp [Phase.doomed, sessions, history, Dispatch.start]
  · intro e e' m _ he hc
    cases hc with
    | between interim =>
        obtain ⟨t, w, w', es, turn, hdoomed⟩ := interim.doomed_eq
        exact he.turn turn (interim.unmoved.adds.sessions.trans (List.append_nil _)) hdoomed
    | @claimed t failed session turn opened someLeft moved =>
        have hsplit : ∀ u, (∃ s ∈ e'.sessions, s.thread = u ∧ job.kills s = true)
            ↔ (∃ s ∈ e.sessions, s.thread = u ∧ job.kills s = true)
              ∨ session.thread = u ∧ job.kills session = true := by
          intro u
          simp only [turn.adds_of_claim.sessions, List.mem_append, List.mem_singleton,
            or_and_right, exists_or, exists_eq_left]
        have hother : ∀ u v, u ≠ t → e.workers[u]? = some v →
            (v.phase.doomed = true
              ↔ ∃ s ∈ e'.sessions, s.thread = u ∧ job.kills s = true) := by
          intro u v hu hv
          rw [hsplit, he u v hv]
          exact (or_iff_left fun hnew => hu (opened ▸ hnew.1).symm).symm
        refine turn.forall_workers ?_ (fun _ => hother) fun hwakes =>
          absurd hwakes Bool.false_ne_true
        -- who claims is not doomed, so that no item that it has run kills it
        have hspared : ¬ ∃ s ∈ e.sessions, s.thread = t ∧ job.kills s = true := fun hkilled =>
          absurd ((he t _ turn.before).2 hkilled) (by simp [Phase.doomed])
        rw [hsplit, or_iff_right hspared, opened]
        exact (and_iff_right rfl).symm
    | finished turn ends take gate ended =>
        exact he.turn turn (turn.adds_of_end.sessions.trans (List.append_nil _))
          (congrArg Ending.isFatal (Script.ending_of_endsNow? ends).2).symm
    | @retired t failed output ending carried fault turn first moved =>
        refine he.turn turn (turn.adds_of_retire.sessions.trans (List.append_nil _)) ?_
        cases hf : ending.isFatal <;> simp [Phase.doomed, hf]

/-! ### Who is held back -/

/-- Until all items have been claimed, whoever has opened a session is held back in it. -/
def Gathered (d : Dispatch σ) : Prop :=
  ∀ (t : Nat) (w : Worker), d.workers[t]? = some w → d.take.next < d.take.limit →
    (∃ s ∈ d.sessions, s.thread = t) → w.phase.HeldBack

/-- A turn that opens no session and claims nothing, after which its worker is held back if it was
before. -/
theorem Gathered.turn (h : Gathered d) {t : Nat} {w w' : Worker} {es : List Entry} {wakes : Bool}
    (turn : Turn d d' t w w' es wakes) (hsessions : d'.sessions = d.sessions)
    (hnext : d'.take.next = d.take.next) (hlimit : d'.take.limit = d.take.limit)
    (hheld : d.take.next < d.take.limit → w.phase.HeldBack → w'.phase.HeldBack) :
    Gathered d' := by
  rw [Gathered, hsessions, hnext, hlimit]
  refine turn.forall_workers (fun hlt hs => hheld hlt (h t w turn.before hlt hs))
    (fun _ u v _ hv => h u v hv) fun _ u v _ hv hlt hs => ?_
  have hv' := h u v hv hlt hs
  obtain ⟨phase, failed⟩ := v
  cases phase <;> exact hv'

/-- **Until all items have been claimed, whoever has opened a session is held back in it.** -/
theorem Reachable.gathered (h : Reachable job sink d) (hgathers : job.Gathers) : Gathered d := by
  refine h.invariant (fun t w _ _ hs => ?_) ?_
  · obtain ⟨s, hs, -⟩ := hs
    cases hs
  · intro e e' m hreach he hc
    cases hc with
    | between interim =>
        have hsessions := interim.unmoved.adds.sessions.trans (List.append_nil _)
        obtain ⟨hnext, hlimit, -⟩ := interim.counters
        cases interim with
        | begun turn same => exact he.turn turn hsessions hnext hlimit fun _ => False.elim
        | exited turn noneLeft moved =>
            exact he.turn turn hsessions hnext hlimit fun _ => False.elim
        | @worked t _ session session' step todo output output' _ turn effect allowed same =>
            refine he.turn turn hsessions hnext hlimit fun hlt hheld => ?_
            rw [Phase.HeldBack, Script.performed_cons_of_effect? effect, List.mem_cons] at hheld
            -- the wait itself is not over yet
            refine hheld.resolve_left fun hwait => ?_
            rw [← hwait] at allowed
            exact Nat.not_le.2 hlt allowed
        | arrived turn free moved =>
            exact he.turn turn hsessions hnext hlimit fun _ => False.elim
        | resumed turn free moved =>
            exact he.turn turn hsessions hnext hlimit fun _ => False.elim
        | slept turn notNext moved =>
            exact he.turn turn hsessions hnext hlimit fun _ => False.elim
        | woken turn same => exact he.turn turn hsessions hnext hlimit fun _ => False.elim
    | @claimed t failed session turn opened someLeft moved =>
        refine turn.forall_workers (fun _ _ => ?_) (fun _ u v hu hv _ hs => ?_) nofun
        · exact hgathers t (hreach.length_workers ▸ turn.lt_length) _ (hreach.limit ▸ someLeft)
        · obtain ⟨s, hs, hthread⟩ := hs
          rw [turn.adds_of_claim.sessions] at hs
          rcases List.mem_append.1 hs with hs | hs
          · exact he u v hv someLeft ⟨s, hs, hthread⟩
          · obtain rfl := List.mem_singleton.1 hs
            exact absurd (hthread.symm.trans (congrArg Session.thread opened)) hu
    | finished turn ends take gate ended =>
        refine he.turn turn (turn.adds_of_end.sessions.trans (List.append_nil _))
          (by rw [take]) (by rw [take]) fun _ hheld => ?_
        rw [Phase.HeldBack, Script.performed_of_endsNow? ends] at hheld
        cases hheld
    | retired turn first moved =>
        exact he.turn turn (turn.adds_of_retire.sessions.trans (List.append_nil _))
          (by rw [moved.take]) (by rw [moved.take]) fun _ => False.elim

/-- **No worker runs two items.** -/
theorem Reachable.nodup_threads (h : Reachable job sink d) (hgathers : job.Gathers) :
    (d.sessions.map Session.thread).Nodup := by
  refine h.invariant (P := fun d => (d.sessions.map Session.thread).Nodup) List.nodup_nil ?_
  intro e e' m hreach he hc
  cases hc with
  | between interim => rw [interim.unmoved.adds.sessions, List.append_nil]; exact he
  | @claimed t failed session turn opened someLeft moved =>
      rw [turn.adds_of_claim.sessions, List.map_append, List.map_singleton]
      refine List.nodup_append.2 ⟨he, List.nodup_singleton _, ?_⟩
      -- who claims is not held back, so that it has run no item yet
      rintro u hu v hv rfl
      obtain ⟨s, hs, hthread⟩ := List.mem_map.1 hu
      rw [List.mem_singleton.1 hv, opened] at hthread
      exact hreach.gathered hgathers t _ turn.before someLeft ⟨s, hs, hthread⟩
  | finished turn ends take gate ended =>
      rw [turn.adds_of_end.sessions, List.append_nil]
      exact he
  | retired turn first moved =>
      rw [turn.adds_of_retire.sessions, List.append_nil]
      exact he

/-! ### What is reported -/

/-- Workers that have run an item of some kind are as many as those items, if no worker runs two. -/
theorem Reachable.countP_workers_of_nodup (h : Reachable job sink d)
    (hnodup : (d.sessions.map Session.thread).Nodup) {q : Worker → Bool} {p : Session → Bool}
    (hq : ∀ (t : Nat) (w : Worker), d.workers[t]? = some w →
      (q w = true ↔ ∃ s ∈ d.sessions, s.thread = t ∧ p s = true)) :
    d.workers.countP q = d.sessions.countP p := by
  have honce : ((d.sessions.filter p).map Session.thread).Nodup :=
    hnodup.sublist (List.filter_sublist.map _)
  rw [h.countP_workers hq, honce.dedup, List.length_map, List.countP_eq_length_filter]

/-- Every worker has run one item, and is reported as that item went. -/
structure Paired (job : Job σ) (d : Dispatch σ) : Prop where
  /-- every worker has run exactly one item -/
  single : ∀ t < job.threads, ∃! s, s ∈ d.sessions ∧ s.thread = t
  /-- as many workers are reported dead as items kill theirs -/
  joinFailures : (Report.ofDispatch job d).joinFailures = d.sessions.countP job.kills
  /-- as many are reported failed as other items went wrong, in their work or their retirement -/
  failedThreads : (Report.ofDispatch job d).failedThreads
    = d.sessions.countP fun s => !job.kills s && d.isFaulty s.item

/-- In the end a worker has died exactly if an item that it has run kills it. -/
theorem Reachable.hasDied_iff (h : Reachable job sink d) (hover : d.isOver = true) {t : Nat}
    {w : Worker} (hw : d.workers[t]? = some w) :
    w.hasDied = true ↔ ∃ s ∈ d.sessions, s.thread = t ∧ job.kills s = true := by
  -- a worker is either dead or has exited, and dead if it was doomed
  rw [← h.doomed_iff t w hw,
    Phase.doomed_iff_of_isFinal (List.all_eq_true.1 hover w (List.mem_of_getElem? hw))]
  simp [Worker.hasDied]

/-- In the end every worker has run an item, if there are as many of both and none runs two. -/
theorem Reachable.exists_session (h : Reachable job sink d) (hthreads : job.threads = job.items)
    (hnodup : (d.sessions.map Session.thread).Nodup) (hall : d.take.next = job.items) :
    ∀ t < job.threads, ∃ s ∈ d.sessions, s.thread = t := by
  intro t ht
  have hsubset : d.sessions.map Session.thread ⊆ List.range job.threads := by
    intro u hu
    obtain ⟨s, hs, rfl⟩ := List.mem_map.1 hu
    exact List.mem_range.2 (h.thread_lt s hs)
  have hperm : (d.sessions.map Session.thread).Perm (List.range job.threads) := by
    refine (hnodup.subperm hsubset).perm_of_length_le ?_
    rw [List.length_range, List.length_map, h.length_sessions, hall, hthreads]
  exact List.mem_map.1 (hperm.mem_iff.2 (List.mem_range.2 ht))

/-- If the work of every item waits until all have started, workers and items go in pairs. -/
theorem Reachable.paired (h : Reachable job sink d) (hthreads : job.threads = job.items)
    (hgathers : job.Gathers) (hover : d.isOver = true) (hall : d.take.next = job.items) :
    Paired job d := by
  have hnodup := h.nodup_threads hgathers
  have hunique : ∀ s ∈ d.sessions, ∀ s' ∈ d.sessions, s.thread = s'.thread → s = s' :=
    fun s hs s' hs' => List.inj_on_of_nodup_map hnodup hs hs'
  have hsessions := h.exists_session hthreads hnodup hall
  have hdied : ∀ (t : Nat) (w : Worker), d.workers[t]? = some w →
      (w.hasDied = true ↔ ∃ s ∈ d.sessions, s.thread = t ∧ job.kills s = true) :=
    fun _ _ hw => h.hasDied_iff hover hw
  refine ⟨fun t ht => ?_, h.countP_workers_of_nodup hnodup hdied,
    h.countP_workers_of_nodup hnodup fun t w hw => ?_⟩
  · obtain ⟨s, hs, hthread⟩ := hsessions t ht
    exact ⟨s, ⟨hs, hthread⟩, fun s' hs' => hunique s' hs'.1 s hs (hs'.2.trans hthread.symm)⟩
  · have ht : t < job.threads := by
      rw [← h.length_workers]
      exact (List.getElem?_eq_some_iff.1 hw).1
    obtain ⟨s, hs, hthread⟩ := hsessions t ht
    -- the worker has run this item only
    have hfound : ∀ p : Session → Bool,
        (∃ s' ∈ d.sessions, s'.thread = t ∧ p s' = true) ↔ p s = true := by
      intro p
      refine ⟨fun ⟨s', hs', hthread', hp⟩ => ?_, fun hp => ⟨s, hs, hthread, hp⟩⟩
      rwa [← hunique s' hs' s hs (hthread'.trans hthread.symm)]
    have hfailed := (h.blamed t w hw).trans (hfound fun s => d.isFaulty s.item)
    have hdead := (hdied t w hw).trans (hfound job.kills)
    rw [hfound fun s => !job.kills s && d.isFaulty s.item]
    have hfinal := List.all_eq_true.1 hover w (List.mem_of_getElem? hw)
    rw [Bool.and_eq_true, Bool.not_eq_true', ← hfailed, ← Bool.not_eq_true, ← hdead]
    cases hp : w.phase with
    | exited => simp [Worker.hasFailed, Worker.hasDied, hp]
    | dead => simp [Worker.hasFailed, Worker.hasDied, hp]
    | _ => rw [hp] at hfinal; cases hfinal

/-! ### Completion -/

/-- Every item has been run and retired, once each and in order. -/
structure Completed (job : Job σ) (d : Dispatch σ) : Prop where
  executed : d.executed = List.range job.items
  ended : ∀ i < job.items, (d.endings.map Prod.fst).count i = 1
  retired : d.retirements.map Prod.fst = List.range job.items

/-- With a worker for each item, all have been claimed when the dispatch is over. -/
theorem Reachable.next_eq_items_of_threads (h : Reachable job sink d)
    (hthreads : job.items ≤ job.threads) (hover : d.isOver = true) : d.take.next = job.items := by
  refine h.next_eq_items_of_busy hthreads fun t w hw => ?_
  have hfinal := List.all_eq_true.1 hover w (List.mem_of_getElem? hw)
  refine ⟨fun hp => ?_, fun hp => ?_⟩
  · rw [hp] at hfinal
    cases hfinal
  · rw [hp] at hfinal
    cases hfinal

theorem Reachable.completed (h : Reachable job sink d) (hover : d.isOver = true)
    (hall : d.take.next = job.items) : Completed job d := by
  have hnext : d.gate.next = job.items := (h.next_eq_taken hover).trans hall
  refine ⟨?_, fun i hi => ?_, ?_⟩
  · rw [h.window.executed, hall]
  · exact h.settled.count_endings h.window (hnext ▸ hi)
  · rw [h.window.retired, hnext]

/-- **A dispatch with a worker for each item completes, however the items wait for each other.**
If they do not do so in a circle, the steps of every run are bounded but for wake-ups for no reason,
a run never gets stuck before it is over, and when it is over all items have been run and retired in
order.  If moreover the work of every item waits until all have started, every worker has run
exactly one item, and is reported as that item went. -/
theorem waits_complete (hthreads : job.threads = job.items) (hacyclic : job.Acyclic)
    {moves : List Move} {d : Dispatch σ}
    (hrun : (Dispatch.start job sink).run? job moves = some d) :
    moves.countP Move.isAdvance
        ≤ (Dispatch.start job sink).potential job + 2 * moves.countP Move.isWake
      ∧ (d.isOver = false → ∃ t d', d.step? job (.advance t) = some d')
      ∧ (d.isOver = true → Completed job d ∧ (job.Gathers → Paired job d)) := by
  have h : Reachable job sink d := ⟨moves, hrun⟩
  refine ⟨?_, h.exists_advance_of_acyclic hthreads.ge hacyclic, fun hover => ?_⟩
  · have := Reachable.start.advances_add_potential_le hrun
    omega
  · have hall := h.next_eq_items_of_threads hthreads.ge hover
    exact ⟨h.completed hover hall, fun hgathers => h.paired hthreads hgathers hover hall⟩

/-- Scripts that wait for each other, in both directions: the first item waits for the last, which
waits for the one between, and that kills its worker. -/
def crossingScript : Nat → Script
  | 0 => [.allStarted, .ended 2, .write [1]]
  | 1 => [.write [2], .allStarted, .kill]
  | _ => [.ended 1, .allStarted, .fail "broken"]

/-- The sample with those scripts and a worker for each item. -/
def crossingJob : Job ScriptedSink.State := { sampleJob crossingScript with threads := 3 }

/-- In that sample the waits do not go round in a circle. -/
theorem crossingJob_acyclic : crossingJob.Acyclic := by
  refine Job.acyclic_of_rank (fun i => if i = 0 then 2 else if i = 1 then 0 else 1) ?_
  rintro i k ⟨hi, hk, t, -, hstep⟩
  have hitems : ∀ i < 3, ∀ k < 3, Step.ended k ∈ (crossingScript i).performed →
      (if k = 0 then 2 else if k = 1 then 0 else 1)
        < if i = 0 then 2 else if i = 1 then 0 else 1 := by decide
  exact hitems i hi k hk hstep

/-- It completes on every way to the end, each of its workers runs one item, and one dies. -/
theorem waits_complete_sample : ∃ d, Reachable crossingJob {} d ∧ d.isOver = true
    ∧ d.executed = [0, 1, 2] ∧ d.retirements.map Prod.fst = [0, 1, 2]
    ∧ (∃! s, s ∈ d.sessions ∧ s.thread = 2)
    ∧ (Report.ofDispatch crossingJob d).joinFailures = 1 := by
  have hstart : Reachable crossingJob {} (Dispatch.start crossingJob {}) := Reachable.start
  have hover := hstart.isOver_settle_of fun he hleft =>
    he.exists_advance_of_acyclic (Nat.le_refl 3) crossingJob_acyclic hleft
  obtain ⟨moves, hrun⟩ := hstart.settle
  have hthreads : crossingJob.threads = crossingJob.items := rfl
  obtain ⟨-, -, hend⟩ := waits_complete hthreads crossingJob_acyclic hrun
  obtain ⟨hcompleted, hpaired⟩ := hend hover
  have hgathers : crossingJob.Gathers := by
    unfold Job.Gathers
    decide
  obtain ⟨hsingle, hfailures, -⟩ := hpaired hgathers
  refine ⟨_, ⟨moves, hrun⟩, hover, hcompleted.executed, hcompleted.retired,
    hsingle 2 (by decide), ?_⟩
  -- whether an item kills its worker does not depend on the worker
  have hkills : crossingJob.kills = crossingJob.fatal ∘ Session.item := rfl
  rw [hfailures, hkills, ← List.countP_map]
  exact (congrArg (List.countP crossingJob.fatal) hcompleted.executed).trans (by decide)

end Dispatch

end OrderedDispatch

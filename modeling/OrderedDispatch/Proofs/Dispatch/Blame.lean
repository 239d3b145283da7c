/-
**Whose fault it was.**

The report counts workers, and what goes wrong is an item: its work ends badly, or its retirement
fails, or both.  The two are tied together by the sessions.  Every item is run in one session, by
one worker, and that worker also retires it.  So the flag of a worker is raised exactly if one of
the items that it has run is faulty, whichever of the two things went wrong and however many of its
items did.

Main definitions:

* `Dispatch.isFaulty`, `Dispatch.faultyItems` — whether an item went wrong, and the items that did;
* `Dispatch.Attended` — whoever holds an item has opened its session, and the dead have opened one;
* `Dispatch.Blamed` — a flag is raised exactly if an item of its worker is faulty.

Main results:

* `Dispatch.Reachable.session_unique` — no item has two sessions;
* `Dispatch.Reachable.blamed` — **a flag is raised exactly if an item of its worker is faulty**;
* `Dispatch.Reachable.isSuccess_iff` — a dispatch that is over succeeded exactly if nothing went
  wrong;
* `Dispatch.Reachable.countP_workers` — counting workers by the sessions that they have opened;
* `Dispatch.Reachable.countP_failed_le` — there are no more flags raised than faulty items.
-/

import OrderedDispatch.Proofs.Dispatch.Verdict

set_option relaxedAutoImplicit false
set_option autoImplicit false

namespace OrderedDispatch.Dispatch

variable {σ : Type} {job : Job σ} {sink : σ} {d d' : Dispatch σ}

/-! ### Faulty items -/

/-- Whether the work of an item ended badly or its retirement failed. -/
def isFaulty (d : Dispatch σ) (item : Nat) : Bool :=
  (d.endings.any fun p => p.1 = item && p.2.isFault)
    || d.retirements.any fun p => p.1 = item && p.2.isSome

/-- The items that have been run and went wrong, in order. -/
def faultyItems (d : Dispatch σ) : List Nat := d.executed.filter d.isFaulty

theorem isFaulty_eq_true {i : Nat} :
    d.isFaulty i = true ↔ (∃ e, (i, e) ∈ d.endings ∧ e.isFault = true)
      ∨ ∃ f, (i, f) ∈ d.retirements ∧ f.isSome = true := by
  simp [isFaulty]

/-- What is added to the ends of work and to the retirements may make items faulty. -/
theorem Adds.isFaulty {calls : List SinkCall} {sessions : List Session}
    {endings : List (Nat × Ending)} {retirements : List (Nat × Option Fault)}
    (h : Adds d d' calls sessions endings retirements) (i : Nat) :
    d'.isFaulty i = (d.isFaulty i || (endings.any fun p => p.1 = i && p.2.isFault)
      || retirements.any fun p => p.1 = i && p.2.isSome) := by
  simp only [Dispatch.isFaulty, h.endings, h.retirements, List.any_append]
  grind

/-- Something went wrong exactly if some item is faulty. -/
theorem faulty_iff_exists_isFaulty : Faulty d ↔ ∃ i, d.isFaulty i = true := by
  simp only [isFaulty_eq_true, Faulty, exists_or, Prod.exists]

/-- An item that went wrong has been begun. -/
theorem Reachable.lt_of_isFaulty (h : Reachable job sink d) {i : Nat}
    (hi : d.isFaulty i = true) : i < d.take.next := by
  rcases isFaulty_eq_true.1 hi with ⟨e, he, -⟩ | ⟨f, hf, -⟩
  · have hmem := List.mem_map_of_mem (f := Prod.fst) he
    rw [h.settled.endings, List.mem_reverse] at hmem
    exact ((h.settled.mem_iff i).1 hmem).1
  · have hmem := List.mem_map_of_mem (f := Prod.fst) hf
    rw [h.window.retired, List.mem_range] at hmem
    exact Nat.lt_of_lt_of_le hmem h.window.ordered

/-- The items that went wrong have been run. -/
theorem Reachable.mem_faultyItems (h : Reachable job sink d) {i : Nat} :
    i ∈ d.faultyItems ↔ d.isFaulty i = true := by
  rw [faultyItems, List.mem_filter, h.window.executed, List.mem_range]
  exact ⟨And.right, fun hi => ⟨h.lt_of_isFaulty hi, hi⟩⟩

/-! ### Sessions -/

/-- No item has two sessions. -/
theorem Reachable.session_unique (h : Reachable job sink d) {s s' : Session}
    (hs : s ∈ d.sessions) (hs' : s' ∈ d.sessions) (hitem : s.item = s'.item) : s = s' := by
  have hnodup : (d.sessions.map Session.item).Nodup := by
    have := List.nodup_range (n := d.take.next)
    rwa [← h.window.executed] at this
  exact List.inj_on_of_nodup_map hnodup hs hs' hitem

/-- Sessions are opened by the workers of the job. -/
theorem Reachable.thread_lt (h : Reachable job sink d) :
    ∀ s ∈ d.sessions, s.thread < job.threads :=
  h.forall_sessions fun _ ht _ _ => ht

/-- Whoever holds an item has opened its session, and the dead have opened one. -/
def Attended (d : Dispatch σ) : Prop :=
  ∀ (t : Nat) (w : Worker), d.workers[t]? = some w →
    (∀ i, w.phase.item? = some i → ∃ s ∈ d.sessions, s.thread = t ∧ s.item = i)
      ∧ (w.phase = .dead → ∃ s ∈ d.sessions, s.thread = t)

/-- A turn after which its worker is attended, and no session is forgotten. -/
theorem Attended.turn (h : Attended d) {t : Nat} {w w' : Worker} {es : List Entry} {wakes : Bool}
    (turn : Turn d d' t w w' es wakes) (hmono : d.sessions ⊆ d'.sessions)
    (hitem : ∀ i, w'.phase.item? = some i → ∃ s ∈ d'.sessions, s.thread = t ∧ s.item = i)
    (hdead : w'.phase = .dead → ∃ s ∈ d'.sessions, s.thread = t) : Attended d' := by
  refine turn.forall_workers ⟨hitem, hdead⟩ (fun _ u v _ hv => ?_) (fun _ u v _ hv => ?_)
  · refine ⟨fun i hi => ?_, fun hp => ?_⟩
    · obtain ⟨s, hs, hthread⟩ := (h u v hv).1 i hi
      exact ⟨s, hmono hs, hthread⟩
    · obtain ⟨s, hs, hthread⟩ := (h u v hv).2 hp
      exact ⟨s, hmono hs, hthread⟩
  · refine ⟨fun i hi => ?_, fun hp => ?_⟩
    · obtain ⟨s, hs, hthread⟩ := (h u v hv).1 i ((Phase.notified_item? v.phase).symm.trans hi)
      exact ⟨s, hmono hs, hthread⟩
    · obtain ⟨s, hs, hthread⟩ := (h u v hv).2 ((Phase.notified_eq_dead_iff v.phase).1 hp)
      exact ⟨s, hmono hs, hthread⟩

/-- **Whoever holds an item has opened its session**, and the dead have opened one. -/
theorem Reachable.attended (h : Reachable job sink d) : Attended d := by
  refine h.invariant (fun t w hw => ?_) ?_
  · obtain rfl := List.eq_of_mem_replicate (List.mem_of_getElem? hw)
    exact ⟨nofun, nofun⟩
  · intro e e' m _ he hc
    cases hc with
    | between interim =>
        obtain ⟨t, w, w', es, -, turn, -, -, hdead, -, hparcel⟩ := interim.exists_turn
        have hsessions : e'.sessions = e.sessions :=
          interim.unmoved.adds.sessions.trans (List.append_nil _)
        refine he.turn turn (by rw [hsessions]; exact List.Subset.refl _) ?_
          (fun hp => absurd hp hdead)
        rw [Phase.item?_eq_parcel?, hparcel, ← Phase.item?_eq_parcel?, hsessions]
        exact (he t w turn.before).1
    | @claimed t failed session turn opened someLeft moved =>
        have hsessions := turn.adds_of_claim.sessions
        refine he.turn turn (by rw [hsessions]; exact List.subset_append_left _ _) ?_ nofun
        intro i hi
        refine ⟨session, ?_, congrArg Session.thread opened, Option.some.inj hi⟩
        rw [hsessions]
        exact List.mem_append_right _ (List.mem_singleton.2 rfl)
    | @finished t failed session todo output ending turn ends take gate ended =>
        have hsessions := turn.adds_of_end.sessions.trans (List.append_nil _)
        refine he.turn turn (by rw [hsessions]; exact List.Subset.refl _) ?_ nofun
        rw [hsessions]
        exact (he t _ turn.before).1
    | @retired t failed output ending carried fault turn first moved =>
        have hsessions := turn.adds_of_retire.sessions.trans (List.append_nil _)
        obtain ⟨s, hs, hthread, -⟩ := (he t _ turn.before).1 _ rfl
        refine he.turn turn (by rw [hsessions]; exact List.Subset.refl _) (fun i hi => ?_)
          fun _ => ⟨s, hsessions ▸ hs, hthread⟩
        dsimp only at hi
        split at hi <;> cases hi

/-! ### Flags -/

/-- A flag is raised exactly if an item that its worker has run is faulty. -/
def Blamed (d : Dispatch σ) : Prop :=
  ∀ (t : Nat) (w : Worker), d.workers[t]? = some w →
    (w.failed = true ↔ ∃ s ∈ d.sessions, s.thread = t ∧ d.isFaulty s.item = true)

/-- A turn that opens no session raises the flag of its worker if the worker's item becomes faulty,
and makes no other item faulty. -/
theorem Blamed.turn (h : Blamed d) (hreach : Reachable job sink d) {t i : Nat} {w w' : Worker}
    {es : List Entry} {wakes fault : Bool} (turn : Turn d d' t w w' es wakes)
    (hitem : w.phase.item? = some i) (hflag : w'.failed = (w.failed || fault))
    (hsessions : d'.sessions = d.sessions)
    (hfaulty : ∀ k, d'.isFaulty k = (d.isFaulty k || (decide (i = k) && fault))) : Blamed d' := by
  obtain ⟨s₀, hs₀, hthread₀, hitem₀⟩ := (hreach.attended t w turn.before).1 i hitem
  -- the item was run by this worker, so that it does not count for any other
  have hother : ∀ u v, u ≠ t → d.workers[u]? = some v →
      (v.failed = true ↔ ∃ s ∈ d'.sessions, s.thread = u ∧ d'.isFaulty s.item = true) := by
    intro u v hu hv
    rw [h u v hv, hsessions]
    refine exists_congr fun s => and_congr_right fun hs => and_congr_right fun hthread => ?_
    have hne : i ≠ s.item := by
      rintro rfl
      rw [hreach.session_unique hs₀ hs hitem₀, hthread] at hthread₀
      exact hu hthread₀
    rw [hfaulty, decide_eq_false hne, Bool.false_and, Bool.or_false]
  refine turn.forall_workers ?_ (fun _ => hother) (fun _ => hother)
  rw [hflag, Bool.or_eq_true, h t w turn.before, hsessions]
  simp only [hfaulty, Bool.or_eq_true, Bool.and_eq_true, decide_eq_true_eq]
  constructor
  · rintro (⟨s, hs, hthread, hs'⟩ | hf)
    · exact ⟨s, hs, hthread, Or.inl hs'⟩
    · exact ⟨s₀, hs₀, hthread₀, Or.inr ⟨hitem₀.symm, hf⟩⟩
  · rintro ⟨s, hs, hthread, hs' | ⟨-, hf⟩⟩
    · exact Or.inl ⟨s, hs, hthread, hs'⟩
    · exact Or.inr hf

/-- A turn that changes neither flags nor faults, and opens no session that counts. -/
theorem Blamed.keep (h : Blamed d) {t : Nat} {w w' : Worker} {es : List Entry} {wakes : Bool}
    {sessions : List Session} (turn : Turn d d' t w w' es wakes) (hflag : w'.failed = w.failed)
    (hsessions : d'.sessions = d.sessions ++ sessions)
    (hnew : ∀ s ∈ sessions, d.isFaulty s.item = false)
    (hfaulty : ∀ k, d'.isFaulty k = d.isFaulty k) : Blamed d' := by
  have hsame : ∀ u, (∃ s ∈ d'.sessions, s.thread = u ∧ d'.isFaulty s.item = true)
      ↔ ∃ s ∈ d.sessions, s.thread = u ∧ d.isFaulty s.item = true := by
    intro u
    simp only [hsessions, hfaulty, List.mem_append, or_and_right, exists_or]
    refine or_iff_left ?_
    rintro ⟨s, hs, -, hs'⟩
    rw [hnew s hs] at hs'
    cases hs'
  refine turn.forall_workers ?_ (fun _ u v _ hv => ?_) (fun _ u v _ hv => ?_)
  · rw [hflag, hsame]
    exact h t w turn.before
  · rw [hsame]
    exact h u v hv
  · rw [hsame]
    exact h u v hv

/-- The steps between change no flag, for they meet no poisoned mutex. -/
theorem Interim.failed_eq {m : Move} (h : Interim d d' m) (hsound : Unpoisoned d) :
    ∃ t w w' es, Turn d d' t w w' es false ∧ w'.failed = w.failed := by
  cases h with
  | begun turn same => exact ⟨_, _, _, _, turn, rfl⟩
  | exited turn noneLeft moved =>
      exact ⟨_, _, _, _, turn,
        by simp only [hsound.offer_fault, Option.isSome_none, Bool.or_false]⟩
  | worked turn effect allowed same => exact ⟨_, _, _, _, turn, rfl⟩
  | arrived turn free moved => exact ⟨_, _, _, _, turn, rfl⟩
  | resumed turn free moved => exact ⟨_, _, _, _, turn, rfl⟩
  | slept turn notNext moved => exact ⟨_, _, _, _, turn, rfl⟩
  | woken turn same => exact ⟨_, _, _, _, turn, rfl⟩

/-- **A flag is raised exactly if an item that its worker has run is faulty.** -/
theorem Reachable.blamed (h : Reachable job sink d) : Blamed d := by
  refine h.invariant (fun t w hw => ?_) ?_
  · obtain rfl := List.eq_of_mem_replicate (List.mem_of_getElem? hw)
    simp [sessions, history, Dispatch.start]
  · intro e e' m hreach he hc
    have hsound := hreach.unpoisoned
    cases hc with
    | between interim =>
        obtain ⟨t, w, w', es, turn, hflag⟩ := interim.failed_eq hsound
        have adds := interim.unmoved.adds
        exact he.keep turn hflag adds.sessions (fun _ hs => absurd hs List.not_mem_nil)
          (by simp [adds.isFaulty])
    | @claimed t failed session turn opened someLeft moved =>
        have adds := turn.adds_of_claim
        refine he.keep turn (by simp [hsound.offer_fault]) adds.sessions (fun s hs => ?_)
          (by simp [adds.isFaulty])
        -- the item has only now been begun
        obtain rfl := List.mem_singleton.1 hs
        refine Bool.eq_false_iff.2 fun hf => ?_
        have := hreach.lt_of_isFaulty hf
        rw [opened] at this
        exact Nat.lt_irrefl _ this
    | finished turn ends take gate ended =>
        have adds := turn.adds_of_end
        exact he.turn hreach turn rfl rfl (adds.sessions.trans (List.append_nil _))
          (by simp [adds.isFaulty])
    | retired turn first moved =>
        have adds := turn.adds_of_retire
        exact he.turn hreach turn rfl rfl (adds.sessions.trans (List.append_nil _))
          (by simp [adds.isFaulty])

/-- **A flag is raised exactly if something went wrong.** -/
theorem Reachable.flagged_iff (h : Reachable job sink d) : Flagged d ↔ Faulty d := by
  rw [faulty_iff_exists_isFaulty]
  constructor
  · rintro ⟨w, hmem, hw⟩
    obtain ⟨t, ht⟩ := List.getElem?_of_mem hmem
    obtain ⟨s, -, -, hfaulty⟩ := (h.blamed t w ht).1 hw
    exact ⟨s.item, hfaulty⟩
  · rintro ⟨i, hi⟩
    -- the item has been run in a session, and the worker of the session has its flag raised
    obtain ⟨s, hs, rfl⟩ := List.mem_map.1 (List.mem_filter.1 (h.mem_faultyItems.2 hi)).1
    have ht : s.thread < d.workers.length := h.length_workers ▸ h.thread_lt s hs
    have hw := List.getElem?_eq_getElem ht
    exact ⟨_, List.mem_of_getElem? hw, (h.blamed _ _ hw).2 ⟨s, hs, rfl, hi⟩⟩

/-- **A dispatch that is over succeeded exactly if nothing went wrong.** -/
theorem Reachable.isSuccess_iff (h : Reachable job sink d) (hover : d.isOver = true) :
    (Report.ofDispatch job d).isSuccess = true ↔ ¬ Faulty d := by
  rw [isSuccess_iff_not_flagged h.marked hover, h.flagged_iff]

/-! ### Counting workers by their sessions -/

/-- Workers that have run an item of some kind are as many as the threads of those items' sessions,
each thread counted once. -/
theorem Reachable.countP_workers (h : Reachable job sink d) {q : Worker → Bool}
    {p : Session → Bool} (hq : ∀ (t : Nat) (w : Worker), d.workers[t]? = some w →
      (q w = true ↔ ∃ s ∈ d.sessions, s.thread = t ∧ p s = true)) :
    d.workers.countP q = ((d.sessions.filter p).map Session.thread).dedup.length := by
  rw [countP_eq_countP_range, h.length_workers, List.countP_eq_length_filter]
  -- both lists hold the numbers of those workers, once each
  refine ((List.perm_ext_iff_of_nodup (List.nodup_range.filter _)
    (List.nodup_dedup _)).2 fun t => ?_).length_eq
  have hmem : t ∈ ((d.sessions.filter p).map Session.thread).dedup
      ↔ ∃ s ∈ d.sessions, s.thread = t ∧ p s = true := by
    simp only [List.mem_dedup, List.mem_map, List.mem_filter, and_assoc]
    exact exists_congr fun s => and_congr_right fun _ => and_comm
  rw [hmem, List.mem_filter, List.mem_range]
  constructor
  · rintro ⟨ht, hany⟩
    rw [← h.length_workers] at ht
    have hw := List.getElem?_eq_getElem ht
    rw [hw, Option.any_some] at hany
    exact (hq t _ hw).1 hany
  · rintro ⟨s, hs, rfl, hp⟩
    have ht := h.thread_lt s hs
    have hw := List.getElem?_eq_getElem (h.length_workers ▸ ht)
    exact ⟨ht, by rw [hw]; exact (hq _ _ hw).2 ⟨s, hs, rfl, hp⟩⟩

/-- **There are no more flags raised than faulty items.** -/
theorem Reachable.countP_failed_le (h : Reachable job sink d) :
    d.workers.countP Worker.failed ≤ d.faultyItems.length := by
  have hle := (List.dedup_sublist
    ((d.sessions.filter fun s => d.isFaulty s.item).map Session.thread)).length_le
  rw [h.countP_workers h.blamed, faultyItems, executed, List.filter_map, List.length_map]
  rwa [List.length_map] at hle

end OrderedDispatch.Dispatch

/-
**The items in flight.**

The take cursor hands out items and the gate retires them, each under a mutex of its own, and nobody
ever reads both counters together.  Still they move like the two ends of a window: the items between
them are those in flight, each held by exactly one worker, and a worker holds at most one.  Every
item below the window has been run and retired exactly once, and no item above it has been begun.
So no more items are in flight than there are workers, no item is lost or run twice, and neither
counter passes the number of items.

Main definitions:

* `Dispatch.Window` — the window, as it survives every step;
* `Dispatch.Settled` — the work of an item has ended once or goes on;
* `Dispatch.InFlight` — the same in terms of single items;
* `Dispatch.sampleJob` — a small job with a faulty sink.

Main results:

* `Dispatch.Reachable.window` — **the window survives every interleaving**;
* `Dispatch.inFlight_of_reachable` — what it says of each item.
-/

import Mathlib.Order.Interval.Finset.Nat
import OrderedDispatch.Proofs.Dispatch.Reachable
import OrderedDispatch.Sink.Scripted

set_option relaxedAutoImplicit false
set_option autoImplicit false

namespace OrderedDispatch.Dispatch

variable {σ : Type} {job : Job σ} {sink : σ}

/-! ### The window -/

/-- The items in flight are those between the two counters, each held by one worker; those below
have been retired in order, those above have not been begun. -/
structure Window (job : Job σ) (d : Dispatch σ) : Prop where
  ordered : d.gate.next ≤ d.take.next
  bounded : d.take.next ≤ job.items
  within : ∀ {t i}, d.at? Phase.item? t = some i → d.gate.next ≤ i ∧ i < d.take.next
  holder : ∀ {i}, d.gate.next ≤ i → i < d.take.next → ∃ t, d.at? Phase.item? t = some i
  unique : ∀ {t u i}, d.at? Phase.item? t = some i → d.at? Phase.item? u = some i → t = u
  executed : d.executed = List.range d.take.next
  retired : d.retirements.map Prod.fst = List.range d.gate.next

theorem window_start (job : Job σ) (sink : σ) : Window job (start job sink) where
  ordered := Nat.le_refl 0
  bounded := Nat.zero_le _
  within := by
    intro t i h
    obtain ⟨w, hw, hi⟩ := at?_eq_some.1 h
    obtain rfl := List.eq_of_mem_replicate (List.mem_of_getElem? hw)
    cases hi
  holder := by
    intro i _ hi
    exact absurd hi (Nat.not_lt_zero i)
  unique := by
    intro t u i h _
    obtain ⟨w, hw, hi⟩ := at?_eq_some.1 h
    obtain rfl := List.eq_of_mem_replicate (List.mem_of_getElem? hw)
    cases hi
  executed := rfl
  retired := rfl

namespace Window

variable {d d' : Dispatch σ}

/-- A step that moves no item leaves the window as it is. -/
theorem between (h : Window job d) (hs : Unmoved d d') : Window job d' where
  ordered := by rw [hs.next, hs.taken]; exact h.ordered
  bounded := by rw [hs.taken]; exact h.bounded
  within := by rw [hs.items, hs.next, hs.taken]; exact h.within
  holder := by rw [hs.items, hs.next, hs.taken]; exact h.holder
  unique := by rw [hs.items]; exact h.unique
  executed := by rw [hs.adds.executed, hs.taken, h.executed]; exact List.append_nil _
  retired := by rw [hs.adds.retirements, hs.next, List.append_nil]; exact h.retired

/-- The next item has no holder yet. -/
theorem item_ne_next (h : Window job d) (u : Nat) : d.at? Phase.item? u ≠ some d.take.next := by
  intro hu
  have := (h.within hu).2
  omega

/-- A claim adds the next item at the upper end, with the claiming worker as its holder. -/
theorem claimed (h : Window job d) {t : Nat} {w w' : Worker} {es : List Entry} {session : Session}
    (turn : Turn d d' t w w' es false) (adds : Adds d d' [] [session] [] [])
    (hbefore : w.phase.item? = none) (hafter : w'.phase.item? = some d.take.next)
    (hitem : session.item = d.take.next)
    (hlimit : d.take.next < job.items) (htaken : d'.take.next = d.take.next + 1)
    (hgate : d'.gate = d.gate) : Window job d' := by
  have hitems : ∀ u, d'.at? Phase.item? u
      = if u = t then some d.take.next else d.at? Phase.item? u := by
    intro u
    rw [turn.at? Phase.notified_item?, hafter]
  have hnone : d.at? Phase.item? t = none := by rw [turn.at?_before, hbefore]
  constructor
  · have := h.ordered
    rw [hgate, htaken]
    omega
  · rw [htaken]
    exact hlimit
  · intro u i hu
    have := h.ordered
    rw [hitems] at hu
    rw [hgate, htaken]
    split at hu
    · obtain rfl := Option.some.inj hu
      omega
    · have := h.within hu
      omega
  · intro i hlow hhigh
    rw [hgate] at hlow
    rw [htaken] at hhigh
    -- an item that was in flight keeps its holder, and the new one is held by who claimed it
    rcases Nat.lt_or_ge i d.take.next with hi | hi
    · obtain ⟨u, hu⟩ := h.holder hlow hi
      have hne : u ≠ t := by
        rintro rfl
        rw [hnone] at hu
        cases hu
      exact ⟨u, by rw [hitems, if_neg hne]; exact hu⟩
    · obtain rfl : i = d.take.next := by omega
      exact ⟨t, by rw [hitems, if_pos rfl]⟩
  · intro u v i hu hv
    rw [hitems] at hu hv
    -- nobody but the claiming worker can hold the new item
    split at hu <;> split at hv
    · rw [‹u = t›, ‹v = t›]
    · obtain rfl := Option.some.inj hu
      exact absurd hv (h.item_ne_next v)
    · obtain rfl := Option.some.inj hv
      exact absurd hu (h.item_ne_next u)
    · exact h.unique hu hv
  · rw [adds.executed, h.executed, htaken, List.range_succ, ← hitem]
    rfl
  · rw [adds.retirements, List.append_nil, hgate]
    exact h.retired

/-- A retirement takes the item at the lower end away from its holder. -/
theorem removed (h : Window job d) {t : Nat} {w w' : Worker} {es : List Entry} {wakes : Bool}
    {calls : List SinkCall} {fault : Option Fault} (turn : Turn d d' t w w' es wakes)
    (adds : Adds d d' calls [] [] [(d.gate.next, fault)])
    (hbefore : w.phase.item? = some d.gate.next) (hafter : w'.phase.item? = none)
    (htake : d'.take = d.take) (hnext : d'.gate.next = d.gate.next + 1) : Window job d' := by
  have hitems : ∀ u, d'.at? Phase.item? u = if u = t then none else d.at? Phase.item? u := by
    intro u
    rw [turn.at? Phase.notified_item?, hafter]
  have hheld : d.at? Phase.item? t = some d.gate.next := by rw [turn.at?_before, hbefore]
  constructor
  · have := (h.within hheld).2
    rw [hnext, htake]
    omega
  · rw [htake]
    exact h.bounded
  · intro u i hu
    rw [hitems] at hu
    rw [hnext, htake]
    split at hu
    · cases hu
    · rename_i hne
      have hin := h.within hu
      -- whoever still holds an item does not hold the one retired
      have : i ≠ d.gate.next := by
        rintro rfl
        exact hne (h.unique hu hheld)
      omega
  · intro i hlow hhigh
    rw [hnext] at hlow
    rw [htake] at hhigh
    obtain ⟨u, hu⟩ := h.holder (by omega) hhigh
    have hne : u ≠ t := by
      rintro rfl
      rw [hheld] at hu
      have := Option.some.inj hu
      omega
    exact ⟨u, by rw [hitems, if_neg hne]; exact hu⟩
  · intro u v i hu hv
    rw [hitems] at hu hv
    split at hu <;> split at hv
    · cases hu
    · cases hu
    · cases hv
    · exact h.unique hu hv
  · rw [adds.executed, htake, h.executed]
    exact List.append_nil _
  · rw [adds.retirements, List.map_append, h.retired, hnext, List.range_succ]
    rfl

/-- The end of an item's work leaves the item with its holder. -/
theorem finished (h : Window job d) {t i : Nat} {w w' : Worker} {es : List Entry}
    {ending : Ending} (turn : Turn d d' t w w' es false) (adds : Adds d d' [] [] [(i, ending)] [])
    (hsame : w'.phase.item? = w.phase.item?) (htake : d'.take = d.take)
    (hgate : d'.gate = d.gate) : Window job d' := by
  have hitems := turn.at?_same Phase.notified_item? hsame
  constructor
  · rw [hgate, htake]; exact h.ordered
  · rw [htake]; exact h.bounded
  · rw [hitems, hgate, htake]; exact h.within
  · rw [hitems, hgate, htake]; exact h.holder
  · rw [hitems]; exact h.unique
  · rw [adds.executed, htake, h.executed]; exact List.append_nil _
  · rw [adds.retirements, List.append_nil, hgate]; exact h.retired

end Window

/-- **The window survives every interleaving.** -/
theorem Reachable.window {d : Dispatch σ} (h : Reachable job sink d) : Window job d := by
  refine h.invariant (window_start job sink) ?_
  intro e e' m hreach he hc
  cases hc with
  | between interim => exact he.between interim.unmoved
  | claimed turn opened someLeft moved =>
      have hitem := congrArg Session.item opened
      have hlimit : e.take.next < job.items := hreach.limit ▸ someLeft
      exact he.claimed turn turn.adds_of_claim rfl (congrArg some hitem) hitem hlimit
        (moved.next someLeft) moved.gate
  | finished turn ends take gate ended => exact he.finished turn turn.adds_of_end rfl take gate
  | retired turn first moved =>
      refine he.removed turn turn.adds_of_retire rfl ?_ moved.take (by rw [moved.gate])
      split <;> rfl

/-! ### The items whose work has ended -/

/-- The work of an item has ended, once, as soon as it has begun and no worker is busy with it. -/
structure Settled (d : Dispatch σ) : Prop where
  endings : d.endings.map Prod.fst = d.ended.reverse
  nodup : d.ended.Nodup
  mem_iff : ∀ i, i ∈ d.ended ↔ i < d.take.next ∧ ∀ t, d.at? Phase.busy? t ≠ some i

namespace Settled

variable {d d' : Dispatch σ}

/-- A step that claims nothing and ends no work. -/
theorem keep (h : Settled d) (hendings : d'.endings = d.endings) (hended : d'.ended = d.ended)
    (htaken : d'.take.next = d.take.next) (hbusy : d'.at? Phase.busy? = d.at? Phase.busy?) :
    Settled d' where
  endings := by rw [hendings, hended]; exact h.endings
  nodup := by rw [hended]; exact h.nodup
  mem_iff := by rw [hended, htaken, hbusy]; exact h.mem_iff

/-- A claim makes its worker busy with an item whose work has not ended. -/
theorem claimed (h : Settled d) {t : Nat} {w w' : Worker} {es : List Entry} {session : Session}
    (turn : Turn d d' t w w' es false) (adds : Adds d d' [] [session] [] [])
    (hbefore : w.phase.busy? = none) (hafter : w'.phase.busy? = some d.take.next)
    (hended : d'.ended = d.ended) (htaken : d'.take.next = d.take.next + 1) : Settled d' := by
  refine ⟨?_, hended ▸ h.nodup, fun i => ?_⟩
  · rw [adds.endings, List.append_nil, hended]
    exact h.endings
  · have hidle : d.at? Phase.busy? t = none := by rw [turn.at?_before, hbefore]
    rw [hended, h.mem_iff, htaken]
    simp only [turn.at? Phase.notified_busy?, hafter]
    constructor
    · rintro ⟨hlt, hi⟩
      refine ⟨by omega, fun u hu => ?_⟩
      split at hu
      · have := Option.some.inj hu
        omega
      · exact hi u hu
    · rintro ⟨hlt, hi⟩
      have hne : d.take.next ≠ i := fun he => hi t (by rw [if_pos rfl, he])
      refine ⟨by omega, fun u hu => ?_⟩
      have hu' := hi u
      split at hu'
      · rename_i hut
        rw [hut, hidle] at hu
        cases hu
      · exact hu' hu

/-- The end of an item's work frees the worker that was busy with it. -/
theorem finished (h : Settled d) (hw : Window job d) {t i : Nat} {w w' : Worker} {es : List Entry}
    {ending : Ending} (turn : Turn d d' t w w' es false) (adds : Adds d d' [] [] [(i, ending)] [])
    (hbefore : w.phase.busy? = some i) (hafter : w'.phase.busy? = none)
    (hended : d'.ended = i :: d.ended) (htake : d'.take = d.take) : Settled d' := by
  have hbusy : d.at? Phase.busy? t = some i := by rw [turn.at?_before, hbefore]
  have hheld : d.at? Phase.item? t = some i := by
    rw [turn.at?_before, Phase.item?_of_busy? hbefore]
  -- nobody else is busy with the item, since nobody else holds it
  have hother : ∀ u, u ≠ t → d.at? Phase.busy? u ≠ some i := by
    intro u hne hu
    obtain ⟨v, hv, hi⟩ := at?_eq_some.1 hu
    exact hne (hw.unique (at?_eq_some.2 ⟨v, hv, Phase.item?_of_busy? hi⟩) hheld)
  refine ⟨?_, ?_, fun k => ?_⟩
  · rw [adds.endings, hended, List.map_append, h.endings, List.reverse_cons]
    rfl
  · rw [hended]
    exact List.nodup_cons.2 ⟨fun hi => ((h.mem_iff i).1 hi).2 t hbusy, h.nodup⟩
  · rw [hended, htake, List.mem_cons, h.mem_iff]
    simp only [turn.at? Phase.notified_busy?, hafter]
    constructor
    · rintro (rfl | ⟨hlt, hk⟩)
      · refine ⟨(hw.within hheld).2, fun u => ?_⟩
        split
        · simp
        · exact hother u ‹_›
      · refine ⟨hlt, fun u => ?_⟩
        split
        · simp
        · exact hk u
    · rintro ⟨hlt, hk⟩
      by_cases hki : k = i
      · exact Or.inl hki
      · refine Or.inr ⟨hlt, fun u hu => ?_⟩
        have hu' := hk u
        split at hu'
        · rename_i hut
          rw [hut, hbusy] at hu
          exact hki (Option.some.inj hu).symm
        · exact hu' hu

end Settled

/-- In every reachable state the work of each item that has begun has ended once or goes on. -/
theorem Reachable.settled {d : Dispatch σ} (h : Reachable job sink d) : Settled d := by
  refine h.invariant ⟨rfl, List.nodup_nil, fun i => ?_⟩ ?_
  · simp [Dispatch.start]
  · intro e e' m hreach he hc
    cases hc with
    | between interim =>
        have hs := interim.unmoved
        exact he.keep (hs.adds.endings.trans (List.append_nil _)) hs.ended hs.taken hs.busy
    | claimed turn opened someLeft moved =>
        exact he.claimed turn turn.adds_of_claim rfl (congrArg (some ∘ Session.item) opened)
          moved.ended (moved.next someLeft)
    | finished turn ends take gate ended =>
        exact he.finished hreach.window turn turn.adds_of_end rfl rfl ended take
    | retired turn first moved =>
        have hendings := turn.adds_of_retire.endings.trans (List.append_nil _)
        refine he.keep hendings moved.ended (by rw [moved.take]) ?_
        refine turn.at?_same Phase.notified_busy? ?_
        split <;> rfl

/-! ### Item by item -/

/-- Whether a worker holds an item. -/
def Holds (d : Dispatch σ) (t i : Nat) : Prop := d.at? Phase.item? t = some i

/-- **The items in flight**, and those before and behind them.  Neither counter passes the number
of items, so that no increment overflows where the number of items does not. -/
structure InFlight (job : Job σ) (d : Dispatch σ) : Prop where
  /-- the counters are in order -/
  ordered : d.gate.next ≤ d.take.next ∧ d.take.next ≤ job.items
  /-- an item between the counters is held by exactly one worker -/
  held : ∀ i, d.gate.next ≤ i → i < d.take.next → ∃! t, d.Holds t i
  /-- no other item is held -/
  noOther : ∀ t i, d.Holds t i → d.gate.next ≤ i ∧ i < d.take.next
  /-- who holds an item is alive -/
  alive : ∀ t i, d.Holds t i → ∃ w, d.workers[t]? = some w ∧ w.phase.isFinal = false
  /-- nobody holds two items -/
  single : ∀ t i k, d.Holds t i → d.Holds t k → i = k
  /-- an item below the counters has been begun, ended and retired once each -/
  below : ∀ i, i < d.gate.next → d.executed.count i = 1
    ∧ (d.endings.map Prod.fst).count i = 1 ∧ (d.retirements.map Prod.fst).count i = 1
  /-- an item between the counters has been begun once and not retired -/
  between : ∀ i, d.gate.next ≤ i → i < d.take.next → d.executed.count i = 1
    ∧ i ∉ d.retirements.map Prod.fst
  /-- an item above the counters has not been begun -/
  above : ∀ i, d.take.next ≤ i → i ∉ d.executed
  /-- there are no more items between the counters than workers -/
  few : d.take.next - d.gate.next ≤ job.threads

/-- An item below the window has been ended once. -/
theorem Settled.count_endings {d : Dispatch σ} (h : Settled d) (hw : Window job d) {i : Nat}
    (hi : i < d.gate.next) : (d.endings.map Prod.fst).count i = 1 := by
  have hmem : i ∈ d.ended := by
    refine (h.mem_iff i).2 ⟨Nat.lt_of_lt_of_le hi hw.ordered, fun t ht => ?_⟩
    obtain ⟨v, hv, hbusy⟩ := at?_eq_some.1 ht
    have := (hw.within (at?_eq_some.2 ⟨v, hv, Phase.item?_of_busy? hbusy⟩)).1
    omega
  rw [h.endings]
  exact List.count_eq_one_of_mem (List.nodup_reverse.2 h.nodup) (List.mem_reverse.2 hmem)

/-- The window is no wider than there are workers, for each worker holds one item at most. -/
theorem Window.width_le {d : Dispatch σ} (h : Window job d) :
    d.take.next - d.gate.next ≤ d.workers.length := by
  -- each item in the window is what some worker holds
  have hsurj : Set.SurjOn (fun t => (d.at? Phase.item? t).getD 0)
      (Finset.range d.workers.length) (Finset.Ico d.gate.next d.take.next) := by
    intro i hi
    obtain ⟨hlow, hhigh⟩ := Finset.mem_Ico.1 (Finset.mem_coe.1 hi)
    obtain ⟨t, ht⟩ := h.holder hlow hhigh
    obtain ⟨w, hw, -⟩ := at?_eq_some.1 ht
    refine ⟨t, ?_, by simp [ht]⟩
    exact Finset.mem_coe.2 (Finset.mem_range.2 (List.getElem?_eq_some_iff.1 hw).1)
  simpa using Finset.card_le_card_of_surjOn _ hsurj

/-- **In every reachable state of a dispatch** the items between the two counters are in flight,
each in the hands of one live worker; those below have been run and retired once, those above have
not been begun; and there are no more items in flight than workers. -/
theorem inFlight_of_reachable {d : Dispatch σ} (h : Reachable job sink d) : InFlight job d where
  ordered := ⟨h.window.ordered, h.window.bounded⟩
  held := by
    intro i hlow hhigh
    obtain ⟨t, ht⟩ := h.window.holder hlow hhigh
    exact ⟨t, ht, fun u hu => h.window.unique hu ht⟩
  noOther := fun t i hi => h.window.within hi
  alive := by
    intro t i hi
    obtain ⟨w, hw, hitem⟩ := at?_eq_some.1 hi
    refine ⟨w, hw, Bool.eq_false_iff.2 fun hfinal => ?_⟩
    rw [Phase.item?_of_isFinal hfinal] at hitem
    cases hitem
  single := fun t i k hi hk => Option.some.inj (hi.symm.trans hk)
  below := by
    intro i hi
    have := h.window.ordered
    refine ⟨?_, h.settled.count_endings h.window hi, ?_⟩
    · rw [h.window.executed, List.count_range, if_pos (by omega)]
    · rw [h.window.retired, List.count_range, if_pos hi]
  between := by
    intro i hlow hhigh
    refine ⟨?_, ?_⟩
    · rw [h.window.executed, List.count_range, if_pos hhigh]
    · rw [h.window.retired, List.mem_range]
      omega
  above := by
    intro i hi
    rw [h.window.executed, List.mem_range]
    omega
  few := by
    rw [← h.length_workers]
    exact h.window.width_le

/-- Three items on two workers, and a sink that takes a byte at a time, is interrupted at its first
write and panics at its third. -/
def sampleJob (script : Nat → Script) : Job ScriptedSink.State where
  items := 3
  threads := 2
  work := fun _ item => script item
  sink := ScriptedSink.machine
    { maxWrite := some 1, faults := [⟨.write, 1, .interrupted⟩, ⟨.write, 3, .panic⟩] }

/-- A script for the sample: an item with a panicking hook kills its worker, and another fails. -/
def deadlyScript : Nat → Script
  | 1 => [.hook ⟨"close", true⟩, .write [1], .kill]
  | 2 => [.write [5], .fail "broken"]
  | _ => [.write [7, 8]]

/-- Some moves of the sample.  Worker 1 is done with its item first and falls asleep at the gate,
until worker 0 has retired the item before; then worker 0 claims the last item. -/
def sampleMoves : List Move :=
  [0, 1, 0, 1, 1, 1, 1, 1, 1, 0, 0, 0, 0, 0].map Move.advance

/-- Two items of the sample are in flight after those moves. -/
theorem inFlight_sample : ∃ d, (Dispatch.start (sampleJob deadlyScript) {}).run?
    (sampleJob deadlyScript) sampleMoves = some d ∧ d.gate.next = 1 ∧ d.take.next = 3
      ∧ InFlight (sampleJob deadlyScript) d := by
  have hend : ((Dispatch.start (sampleJob deadlyScript) {}).run? (sampleJob deadlyScript)
      sampleMoves).map (fun d => (d.gate.next, d.take.next)) = some (1, 3) := by decide +kernel
  obtain ⟨d, hrun, hcounters⟩ := Option.map_eq_some_iff.1 hend
  obtain ⟨hnext, htaken⟩ := Prod.mk.inj hcounters
  exact ⟨d, hrun, hnext, htaken, inFlight_of_reachable ⟨sampleMoves, hrun⟩⟩

end OrderedDispatch.Dispatch

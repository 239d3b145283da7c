/-
**What happens in sessions, moment by moment.**

An operation on a slot answers with the labels of the hooks that it ran and with the events that it
logged.  The two lists do not tell which event came after which hook, nor in which session a hook
ran or an event was logged; and when one session takes the place of another, the events of both
stand in one list.  The timeline of a sequence of operations tells all of it: each of its lines says
what happened, during which operation, and in the session of which opening.  An operation is known
by its position, and a session by the position of the operation that opened it, since neither labels
nor threads and items distinguish two sessions of one slot.

A panic of a hook ends where the loop that runs the hooks catches it: whatever it was raised with is
thrown away without a further panic.

Main definitions:

* `Session.Deed`, `Session.drain` — what happens in a session, and what the loop does that closes
  it;
* `Slot.Line` — a line of the timeline;
* `Slot.Stand` — a slot after some operations;
* `Slot.timeline`, `Slot.told` — what happens during a sequence of operations and at its end, and
  what is told of one of them.

Main results:

* `Session.labels_drain`, `Session.events_drain` — the loop runs the hooks and logs the events that
  closing a session is said to run and log;
* `Slot.Stand.effect_eq` — **an operation answers with what happens during it**;
* `Slot.told_during`, `Slot.told_at_end` — what the timeline tells of an operation and of the end.
-/

import Mathlib.Data.List.Basic
import OrderedDispatch.Session.Slot

set_option relaxedAutoImplicit false
set_option autoImplicit false

namespace OrderedDispatch

/-! ### Closing one session -/

namespace Session

/-- What happens in a session: one of its hooks runs, or something is logged. -/
inductive Deed where
  | ran (h : Hook)
  | logged (event : Event)
  deriving DecidableEq

/-- The hook that runs. -/
def Deed.hook? : Deed → Option Hook
  | ran h => some h
  | logged _ => none

/-- The label of the hook that runs. -/
def Deed.label? (deed : Deed) : Option String := deed.hook?.map Hook.label

/-- The event that is logged. -/
def Deed.event? : Deed → Option Event
  | ran _ => none
  | logged event => some event

/-- What the loop does that closes a session: it takes off the hook on top and runs it, logs its
panic if it has one and goes on in any case; when no hook is left, it logs the end of the
session. -/
def drain (settings : Settings) : List Hook → List Deed
  | [] => (closingEvents settings).map .logged
  | h :: rest => .ran h :: (hookEvents h).map .logged ++ drain settings rest

@[simp] theorem filterMap_label?_logged (events : List Event) :
    (events.map Deed.logged).filterMap Deed.label? = [] := by
  simp [List.filterMap_map, Function.comp_def, Deed.label?, Deed.hook?]

@[simp] theorem filterMap_event?_logged (events : List Event) :
    (events.map Deed.logged).filterMap Deed.event? = events := by
  simp [List.filterMap_map, Function.comp_def, Deed.event?]

/-- The loop runs all hooks, from the top. -/
theorem labels_drain (settings : Settings) (hooks : List Hook) :
    (drain settings hooks).filterMap Deed.label? = hooks.map Hook.label := by
  induction hooks with
  | nil => exact filterMap_label?_logged _
  | cons h rest ih =>
      simp only [drain, List.cons_append, List.filterMap_cons, List.filterMap_append,
        filterMap_label?_logged, List.nil_append, ih, List.map_cons]
      rfl

/-- The loop logs every panic, and the end of the session last. -/
theorem events_drain (settings : Settings) (hooks : List Hook) :
    (drain settings hooks).filterMap Deed.event?
      = hooks.flatMap hookEvents ++ closingEvents settings := by
  induction hooks with
  | nil => exact filterMap_event?_logged _
  | cons h rest ih =>
      simp only [drain, List.cons_append, List.filterMap_cons, Deed.event?, List.filterMap_append,
        filterMap_event?_logged, ih, List.flatMap_cons, List.append_assoc]

end Session

namespace Slot

open Session (Deed)

/-! ### The timeline -/

/-- Something that happened in a session. -/
structure Line where
  /-- the position of the operation during which it happened; after all operations, their number -/
  moment : Nat
  /-- the position of the operation that opened the session -/
  session : Nat
  deed : Deed
  deriving DecidableEq

/-- A slot after some operations. -/
structure Stand where
  /-- how many operations there have been -/
  moment : Nat := 0
  /-- the position of the operation that opened the session in the slot, if there is one -/
  since : Nat := 0
  slot : Slot := none

/-- What the lines say about the effect of an operation. -/
def effectOf (lines : List Line) : Effect where
  hooksRun := lines.filterMap fun line => line.deed.label?
  events := lines.filterMap fun line => line.deed.event?

/-- What is told of a session at a moment. -/
def tell (moment session : Nat) (deeds : List Deed) : List Line :=
  deeds.map (Line.mk moment session)

namespace Stand

/-- Closing the session in the slot, if there is one. -/
def closing (w : Stand) : List Line :=
  match w.slot with
  | none => []
  | some s => tell w.moment w.since (Session.drain s.settings s.hooks)

/-- What happens during an operation: a session that is opened begins before the one that it
replaces is closed. -/
def lines (w : Stand) : Operation → List Line
  | .opening _ _ settings =>
      tell w.moment w.moment ((Session.openingEvents settings).map .logged) ++ w.closing
  | .hook _ => []
  | .closing => w.closing

/-- The slot after one more operation; one that is refused leaves it as it is. -/
def next (w : Stand) (op : Operation) : Stand where
  moment := w.moment + 1
  since := match op with
    | .opening .. => w.moment
    | _ => w.since
  slot := ((w.slot.apply op).map Prod.fst).getD w.slot

/-- The slot after a sequence of operations. -/
def after (w : Stand) (ops : List Operation) : Stand := ops.foldl next w

/-- What happens during a sequence of operations. -/
def during : Stand → List Operation → List Line
  | _, [] => []
  | w, op :: rest => w.lines op ++ (w.next op).during rest

/-- What happens during a sequence of operations and when the slot comes to its end after them. -/
def timeline (w : Stand) (ops : List Operation) : List Line :=
  w.during ops ++ (w.after ops).closing

variable (w : Stand)

@[simp] theorem moment_next (op : Operation) : (w.next op).moment = w.moment + 1 := rfl

@[simp] theorem after_nil : w.after [] = w := rfl

@[simp] theorem after_cons (op : Operation) (ops : List Operation) :
    w.after (op :: ops) = (w.next op).after ops := rfl

@[simp] theorem after_append (ops ops' : List Operation) :
    w.after (ops ++ ops') = (w.after ops).after ops' := List.foldl_append

theorem moment_after (ops : List Operation) : (w.after ops).moment = w.moment + ops.length := by
  induction ops generalizing w with
  | nil => rfl
  | cons op rest ih =>
      rw [after_cons, ih, List.length_cons, moment_next]
      omega

theorem during_append (ops ops' : List Operation) :
    w.during (ops ++ ops') = w.during ops ++ (w.after ops).during ops' := by
  induction ops generalizing w with
  | nil => rfl
  | cons op rest ih => simp only [List.cons_append, during, ih, after_cons, List.append_assoc]

theorem timeline_append (ops ops' : List Operation) :
    w.timeline (ops ++ ops') = w.during ops ++ (w.after ops).timeline ops' := by
  rw [timeline, timeline, during_append, after_append, List.append_assoc]

theorem timeline_cons (op : Operation) (ops : List Operation) :
    w.timeline (op :: ops) = w.lines op ++ (w.next op).timeline ops := by
  rw [timeline, timeline, during, after_cons, List.append_assoc]

/-! ### What is told of an operation -/

theorem moment_of_mem_closing {w : Stand} {line : Line} (h : line ∈ w.closing) :
    line.moment = w.moment := by
  unfold closing at h
  cases hslot : w.slot with
  | none => simp [hslot] at h
  | some s =>
      rw [hslot] at h
      obtain ⟨deed, -, rfl⟩ := List.mem_map.1 h
      rfl

theorem moment_of_mem_lines {w : Stand} {op : Operation} {line : Line} (h : line ∈ w.lines op) :
    line.moment = w.moment := by
  cases op with
  | opening thread item settings =>
      rcases List.mem_append.1 h with h | h
      · obtain ⟨deed, -, rfl⟩ := List.mem_map.1 h
        rfl
      · exact moment_of_mem_closing h
  | hook h' => cases h
  | closing => exact moment_of_mem_closing h

theorem moment_of_mem_during {w : Stand} {ops : List Operation} {line : Line}
    (h : line ∈ w.during ops) :
    w.moment ≤ line.moment ∧ line.moment < w.moment + ops.length := by
  induction ops generalizing w with
  | nil => cases h
  | cons op rest ih =>
      rw [List.length_cons]
      rcases List.mem_append.1 h with h | h
      · rw [moment_of_mem_lines h]
        omega
      · obtain ⟨hle, hlt⟩ := ih h
        rw [moment_next] at hle hlt
        omega

theorem moment_le_of_mem_timeline {w : Stand} {ops : List Operation} {line : Line}
    (h : line ∈ w.timeline ops) : w.moment ≤ line.moment := by
  rcases List.mem_append.1 h with h | h
  · exact (moment_of_mem_during h).1
  · rw [moment_of_mem_closing h, moment_after]
    exact Nat.le_add_right ..

theorem pairwise_of_moment {lines : List Line} {moment : Nat}
    (h : ∀ line ∈ lines, line.moment = moment) :
    lines.Pairwise fun a b => a.moment ≤ b.moment := by
  refine List.pairwise_iff_forall_sublist.2 fun {a b} hab => Nat.le_of_eq ?_
  rw [h a (hab.subset (by simp)), h b (hab.subset (by simp))]

/-- What happens is told in the order in which it happens. -/
theorem pairwise_timeline (ops : List Operation) :
    (w.timeline ops).Pairwise fun a b => a.moment ≤ b.moment := by
  induction ops generalizing w with
  | nil => exact pairwise_of_moment fun _ => moment_of_mem_closing
  | cons op rest ih =>
      rw [timeline_cons, List.pairwise_append]
      refine ⟨pairwise_of_moment fun _ => moment_of_mem_lines, ih _, fun a ha b hb => ?_⟩
      have hlater := moment_le_of_mem_timeline hb
      rw [moment_next] at hlater
      rw [moment_of_mem_lines ha]
      omega

/-- Closing the session in the slot has the effect that the end of the slot has. -/
theorem effectOf_closing : effectOf w.closing = finish w.slot := by
  unfold closing
  cases hslot : w.slot with
  | none => rfl
  | some s =>
      have hlabels := Session.labels_drain s.settings s.hooks
      have hevents := Session.events_drain s.settings s.hooks
      simp only [effectOf, tell, List.filterMap_map, Function.comp_def, finish, release,
        Session.hooksInOrder, Session.closeEvents]
      rw [← hlabels, ← hevents]

/-- **An operation answers with what happens during it**; one that is refused does nothing. -/
theorem effect_eq (op : Operation) :
    ((w.slot.apply op).map Prod.snd).getD ⟨[], []⟩ = effectOf (w.lines op) := by
  have hclosing := w.effectOf_closing
  cases op with
  | opening thread item settings =>
      have hbegun : effectOf (tell w.moment w.moment
          ((Session.openingEvents settings).map .logged))
            = ⟨[], Session.openingEvents settings⟩ := by
        simp [effectOf, tell, List.filterMap_map, Function.comp_def, Deed.label?, Deed.hook?,
          Deed.event?]
      simp only [effectOf, Effect.mk.injEq, finish] at hbegun hclosing
      simp only [apply, Option.map_some, Option.getD_some, lines, effectOf, List.filterMap_append,
        hbegun.1, hbegun.2, List.nil_append]
      rw [← hclosing]
  | hook h => cases hslot : w.slot <;> rfl
  | closing => exact hclosing.symm

end Stand

/-- An empty slot before all operations. -/
def start : Stand := {}

/-- What happens during a sequence of operations on an empty slot, and when the slot comes to its
end after them. -/
def timeline (ops : List Operation) : List Line := start.timeline ops

/-- What is told of a moment. -/
def told (ops : List Operation) (moment : Nat) : List Line :=
  (timeline ops).filter fun line => line.moment = moment

theorem moment_after_start (ops : List Operation) : (start.after ops).moment = ops.length := by
  rw [Stand.moment_after]
  exact Nat.zero_add _

theorem lt_of_mem_during {ops : List Operation} {line : Line} (h : line ∈ start.during ops) :
    line.moment < ops.length := by
  have := (Stand.moment_of_mem_during h).2
  rwa [show start.moment = 0 from rfl, Nat.zero_add] at this

theorem filter_none {f : Line → Nat} {n : Nat} {lines : List Line}
    (h : ∀ line ∈ lines, f line ≠ n) : lines.filter (fun line => f line = n) = [] :=
  List.filter_eq_nil_iff.2 fun line hline => by simpa using h line hline

theorem filter_all {f : Line → Nat} {n : Nat} {lines : List Line}
    (h : ∀ line ∈ lines, f line = n) : lines.filter (fun line => f line = n) = lines :=
  List.filter_eq_self.2 fun line hline => by simpa using h line hline

/-- **What is told of an operation** is what happens during it. -/
theorem told_during (before after : List Operation) (op : Operation) :
    told (before ++ op :: after) before.length = (start.after before).lines op := by
  have hmoment := moment_after_start before
  have hbefore : ∀ line ∈ start.during before, line.moment ≠ before.length :=
    fun line hline => Nat.ne_of_lt (lt_of_mem_during hline)
  have hnow : ∀ line ∈ (start.after before).lines op, line.moment = before.length :=
    fun line hline => (Stand.moment_of_mem_lines hline).trans hmoment
  have hafter : ∀ line ∈ ((start.after before).next op).timeline after,
      line.moment ≠ before.length := by
    intro line hline
    have := Stand.moment_le_of_mem_timeline hline
    rw [Stand.moment_next] at this
    omega
  rw [told, timeline, Stand.timeline_append, Stand.timeline_cons, List.filter_append,
    List.filter_append, filter_none hbefore, filter_all hnow, filter_none hafter, List.nil_append,
    List.append_nil]

/-- What is told of the end is that the session in the slot is closed. -/
theorem told_at_end (ops : List Operation) : told ops ops.length = (start.after ops).closing := by
  have hbefore : ∀ line ∈ start.during ops, line.moment ≠ ops.length :=
    fun line hline => Nat.ne_of_lt (lt_of_mem_during hline)
  have hnow : ∀ line ∈ (start.after ops).closing, line.moment = ops.length :=
    fun line hline => (Stand.moment_of_mem_closing hline).trans (moment_after_start ops)
  rw [told, timeline, Stand.timeline, List.filter_append, filter_none hbefore, filter_all hnow,
    List.nil_append]

end Slot

end OrderedDispatch

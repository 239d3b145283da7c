/-
**The life of a session.**

A session that is opened in a slot stays there while hooks are registered, and whatever comes next
drops it: a session that is opened in its place, the closing of the slot, or the end of everything.
So the operations alone tell the life of each session, and this module shows that the timeline tells
the same.  All hooks of a session run at the one moment at which it is dropped, each as often as it
was registered, the last one first; a panic is logged right after the hook that had it, and changes
nothing else; with tracing on, the session logs its beginning before all of this and its end after
it.  When a session takes the place of another the new one begins before the old one is closed, but
the hooks that run then are those of the old one alone.

Main definitions:

* `Slot.Life`, `Slot.Life.In` — a session's life, and that it is lived in a sequence of operations;
* `Slot.Life.lines` — what a timeline ought to tell of it;
* `Slot.Disciplined` — what there is to say about a sequence of operations.

Main results:

* `Slot.session_of_mem_timeline` — whatever happens, happens in a session that has been opened;
* `Slot.Life.In.timeline` — **the timeline tells of each session its life**;
* `Slot.Life.In.opened_eq_of_dropped` — two sessions are never dropped at the same moment;
* `Slot.disciplined` — all of it, for every sequence of operations.
-/

import Mathlib.Data.List.Induction
import OrderedDispatch.Proofs.Session.Timeline

set_option relaxedAutoImplicit false
set_option autoImplicit false

namespace OrderedDispatch

theorem Session.drain_eq (settings : Settings) (hooks : List Hook) :
    drain settings hooks = hooks.flatMap (fun h => .ran h :: (hookEvents h).map .logged)
      ++ (closingEvents settings).map .logged := by
  induction hooks with
  | nil => rfl
  | cons h rest ih => rw [drain, ih, List.flatMap_cons, List.append_assoc]

namespace Slot

open Session (Deed)

/-! ### Lives -/

/-- A session as the operations tell of it. -/
@[ext] structure Life where
  /-- the position of the operation that opens it -/
  opened : Nat
  thread : Nat
  item : Nat
  settings : Settings
  /-- the hooks registered on it, in order -/
  hooks : List Hook

namespace Life

/-- The moment at which the session is dropped, its hooks being registered right behind its
opening. -/
def dropped (l : Life) : Nat := l.opened + l.hooks.length + 1

/-- A session lives this life in a sequence of operations: it is opened, its hooks are registered,
and then comes something that registers no hook, or nothing. -/
def In (l : Life) (ops : List Operation) : Prop :=
  ∃ before after, before.length = l.opened
    ∧ ops = before ++ .opening l.thread l.item l.settings :: (l.hooks.map .hook ++ after)
    ∧ ∀ h, after.head? ≠ some (.hook h)

/-- What happens when the session is opened. -/
def beginning (l : Life) : List Deed := if l.settings.trace then [.logged .sessionOpened] else []

/-- What happens when the session is dropped: all hooks run, the one registered last first, and each
panic is logged. -/
def ending (l : Life) : List Deed :=
  l.hooks.reverse.flatMap (fun h => if h.panics then [.ran h, .logged .hookPanicked] else [.ran h])
    ++ if l.settings.trace then [.logged .sessionClosed] else []

/-- All that happens in the session. -/
def lines (l : Life) : List Line :=
  tell l.opened l.opened l.beginning ++ tell l.dropped l.opened l.ending

/-- All hooks run, each as often as it was registered, the one registered last first. -/
theorem hooks_lines (l : Life) :
    l.lines.filterMap (fun line => line.deed.hook?) = l.hooks.reverse := by
  have hhooks : ∀ hooks : List Hook, (hooks.flatMap fun h =>
      if h.panics then [Deed.ran h, .logged .hookPanicked] else [.ran h]).filterMap Deed.hook?
        = hooks := by
    intro hooks
    induction hooks with
    | nil => rfl
    | cons h rest ih =>
        rw [List.flatMap_cons, List.filterMap_append, ih]
        cases h.panics <;> rfl
  have hbeginning : l.beginning.filterMap Deed.hook? = [] := by
    rw [beginning]
    split <;> rfl
  have hending : l.ending.filterMap Deed.hook? = l.hooks.reverse := by
    rw [ending, List.filterMap_append, hhooks]
    split <;> exact List.append_nil _
  simp only [lines, tell, List.filterMap_append, List.filterMap_map, Function.comp_def]
  rw [hbeginning, hending, List.nil_append]

theorem drain_eq_ending (l : Life) :
    Session.drain l.settings l.hooks.reverse = l.ending := by
  have hhook : ∀ h : Hook, Deed.ran h :: (Session.hookEvents h).map .logged
      = if h.panics then [.ran h, .logged .hookPanicked] else [.ran h] := by
    intro h
    rw [Session.hookEvents]
    split <;> rfl
  rw [Session.drain_eq, ending, Session.closingEvents, funext hhook]
  split <;> rfl

/-- The operation at the beginning of a life. -/
theorem In.opens {l : Life} {ops : List Operation} (h : l.In ops) :
    ops[l.opened]? = some (.opening l.thread l.item l.settings) := by
  obtain ⟨before, after, hlength, rfl, -⟩ := h
  simp [← hlength]

/-- The operations in the midst of a life. -/
theorem In.hooks {l : Life} {ops : List Operation} (h : l.In ops) (j : Nat)
    (hj : j < l.hooks.length) : ops[l.opened + 1 + j]? = (l.hooks[j]?).map .hook := by
  obtain ⟨before, after, hlength, rfl, -⟩ := h
  rw [← hlength, List.getElem?_append_right (by omega)]
  have hindex : before.length + 1 + j - before.length = j + 1 := by omega
  rw [hindex, List.getElem?_cons_succ, List.getElem?_append_left (by simpa using hj),
    List.getElem?_map]

/-- The operation at the end of a life, if there is one, registers no hook. -/
theorem In.drops {l : Life} {ops : List Operation} (h : l.In ops) :
    l.dropped = ops.length ∨ ops[l.dropped]? = some .closing
      ∨ ∃ thread item settings, ops[l.dropped]? = some (.opening thread item settings) := by
  obtain ⟨before, after, hlength, rfl, hhead⟩ := h
  have hlast : (before ++ .opening l.thread l.item l.settings ::
      (l.hooks.map .hook ++ after))[l.dropped]? = after.head? := by
    have hindex : l.dropped - before.length = l.hooks.length + 1 := by
      rw [dropped]
      omega
    rw [List.getElem?_append_right (by rw [dropped]; omega), hindex, List.getElem?_cons_succ,
      List.getElem?_append_right (by simp), List.length_map, Nat.sub_self, List.head?_eq_getElem?]
  rw [hlast]
  cases after with
  | nil =>
      left
      simp only [dropped, List.length_append, List.length_cons, List.length_map, List.length_nil]
      omega
  | cons op rest =>
      cases op with
      | opening thread item settings => exact .inr (.inr ⟨thread, item, settings, rfl⟩)
      | hook h => exact absurd rfl (hhead h)
      | closing => exact .inr (.inl rfl)

theorem In.opened_le_of_dropped {l l' : Life} {ops : List Operation} (h : l.In ops)
    (h' : l'.In ops) (hdropped : l.dropped = l'.dropped) : l'.opened ≤ l.opened := by
  by_contra hlt
  -- the later one would be opened by an operation that registers a hook on the earlier one
  have hwithin : l'.opened < l.dropped := by
    rw [hdropped, dropped]
    omega
  obtain ⟨j, hj⟩ : ∃ j, l'.opened = l.opened + 1 + j := ⟨l'.opened - l.opened - 1, by omega⟩
  have hindex : j < l.hooks.length := by
    rw [dropped] at hwithin
    omega
  have hopens := h'.opens
  rw [hj, h.hooks j hindex, List.getElem?_eq_getElem hindex] at hopens
  cases hopens

/-- **Two sessions are never dropped at the same moment.** -/
theorem In.opened_eq_of_dropped {l l' : Life} {ops : List Operation} (h : l.In ops)
    (h' : l'.In ops) (hdropped : l.dropped = l'.dropped) : l.opened = l'.opened :=
  Nat.le_antisymm (h'.opened_le_of_dropped h hdropped.symm) (h.opened_le_of_dropped h' hdropped)

end Life

/-! ### Which lives there are -/

/-- The operations begin with as many registrations as there are, and then something else comes. -/
theorem exists_hooks (ops : List Operation) :
    ∃ (hooks : List Hook) (after : List Operation), ops = hooks.map .hook ++ after
      ∧ ∀ h, after.head? ≠ some (.hook h) := by
  induction ops with
  | nil => exact ⟨[], [], rfl, fun _ hhead => by cases hhead⟩
  | cons op rest ih =>
      cases op with
      | hook h =>
          obtain ⟨hooks, after, rfl, hhead⟩ := ih
          exact ⟨h :: hooks, after, rfl, hhead⟩
      | opening thread item settings => exact ⟨[], _, rfl, fun _ hhead => by cases hhead⟩
      | closing => exact ⟨[], _, rfl, fun _ hhead => by cases hhead⟩

/-- There is only one way to take off all registrations in front. -/
theorem hooks_unique {hooks hooks' : List Hook} {after after' : List Operation}
    (h : hooks.map Operation.hook ++ after = hooks'.map Operation.hook ++ after')
    (hhead : ∀ h, after.head? ≠ some (.hook h)) (hhead' : ∀ h, after'.head? ≠ some (.hook h)) :
    hooks = hooks' := by
  induction hooks generalizing hooks' with
  | nil =>
      cases hooks' with
      | nil => rfl
      | cons b rest => exact absurd (by rw [show after = _ from h]; rfl) (hhead b)
  | cons a rest ih =>
      cases hooks' with
      | nil => exact absurd (by rw [← show _ = after' from h]; rfl) (hhead' a)
      | cons b rest' =>
          obtain ⟨hfirst, hrest⟩ := List.cons.inj h
          rw [Operation.hook.inj hfirst, ih hrest]

/-- **Every session that is opened has a life**, and the hooks registered on it belong to it. -/
theorem exists_life (before : List Operation) (thread item : Nat) (settings : Settings)
    (hooks : List Hook) (rest : List Operation) :
    ∃ l : Life, l.In (before ++ .opening thread item settings :: (hooks.map .hook ++ rest))
      ∧ l.opened = before.length ∧ hooks <+: l.hooks := by
  obtain ⟨more, after, rfl, hhead⟩ := exists_hooks rest
  refine ⟨⟨before.length, thread, item, settings, hooks ++ more⟩, ⟨before, after, rfl, ?_, hhead⟩,
    rfl, List.prefix_append hooks more⟩
  rw [List.map_append, List.append_assoc]

/-- A session has only one life. -/
theorem Life.In.unique {l l' : Life} {ops : List Operation} (h : l.In ops) (h' : l'.In ops)
    (hopened : l.opened = l'.opened) : l = l' := by
  have hopens := h.opens
  rw [hopened, h'.opens, Option.some.injEq, Operation.opening.injEq] at hopens
  obtain ⟨hthread, hitem, hsettings⟩ := hopens
  obtain ⟨before, after, hlength, hsplit, hhead⟩ := h
  obtain ⟨before', after', hlength', rfl, hhead'⟩ := h'
  obtain ⟨-, hrest⟩ := List.append_inj hsplit (by omega)
  have hhooks := hooks_unique (List.cons.inj hrest).2 hhead' hhead
  exact Life.ext hopened hthread.symm hitem.symm hsettings.symm hhooks.symm

/-- A session in the slot has been opened, and since then hooks have been registered only. -/
theorem exists_opening {ops : List Operation} {s : Session} (h : (start.after ops).slot = some s) :
    ∃ (before : List Operation) (thread item : Nat) (settings : Settings) (hooks : List Hook),
      ops = before ++ .opening thread item settings :: hooks.map .hook := by
  induction ops using List.reverseRecOn generalizing s with
  | nil => cases h
  | append_singleton ops op ih =>
      cases op with
      | opening thread item settings => exact ⟨ops, thread, item, settings, [], rfl⟩
      | closing =>
          rw [Stand.after_append] at h
          cases h
      | hook h₀ =>
          rw [Stand.after_append, Stand.after_cons, Stand.after_nil] at h
          cases hslot : (start.after ops).slot with
          | none => simp [Stand.next, apply, hslot] at h
          | some s₀ =>
              obtain ⟨before, thread, item, settings, hooks, rfl⟩ := ih hslot
              exact ⟨before, thread, item, settings, hooks ++ [h₀], by simp⟩

/-! ### What is told of a session -/

namespace Stand

theorem session_of_mem_closing {w : Stand} {line : Line} (h : line ∈ w.closing) :
    w.slot ≠ none ∧ line.session = w.since := by
  unfold closing at h
  cases hslot : w.slot with
  | none => simp [hslot] at h
  | some s =>
      rw [hslot] at h
      obtain ⟨deed, -, rfl⟩ := List.mem_map.1 h
      exact ⟨nofun, rfl⟩

/-- **Whatever happens, happens in a session**: the one in the slot, or one that is opened. -/
theorem session_of_mem_timeline {w : Stand} {ops : List Operation} {line : Line}
    (h : line ∈ w.timeline ops) : (w.slot ≠ none ∧ line.session = w.since)
      ∨ ∃ before thread item settings after, ops = before ++ .opening thread item settings :: after
        ∧ line.session = w.moment + before.length := by
  induction ops generalizing w with
  | nil => exact .inl (session_of_mem_closing h)
  | cons op rest ih =>
      rw [timeline_cons, List.mem_append] at h
      rcases h with h | h
      · cases op with
        | opening thread item settings =>
            rcases List.mem_append.1 h with h | h
            · obtain ⟨deed, -, rfl⟩ := List.mem_map.1 h
              exact .inr ⟨[], thread, item, settings, rest, rfl, rfl⟩
            · exact .inl (session_of_mem_closing h)
        | hook h' => cases h
        | closing => exact .inl (session_of_mem_closing h)
      · rcases ih h with ⟨hslot, hsession⟩ | ⟨before, thread, item, settings, after, rfl, hsession⟩
        · cases op with
          | opening thread item settings =>
              exact .inr ⟨[], thread, item, settings, rest, rfl, hsession⟩
          | hook h' =>
              refine .inl ⟨fun hnone => hslot ?_, hsession⟩
              simp [next, apply, hnone]
          | closing => exact absurd rfl hslot
        · refine .inr ⟨op :: before, thread, item, settings, after, rfl, ?_⟩
          rw [hsession, moment_next, List.length_cons]
          omega

/-- Registering hooks on the session in the slot. -/
theorem register {w : Stand} {s : Session} (hslot : w.slot = some s) (hooks : List Hook) :
    w.during (hooks.map .hook) = [] ∧ w.after (hooks.map .hook)
      = ⟨w.moment + hooks.length, w.since, some { s with hooks := hooks.reverse ++ s.hooks }⟩ := by
  induction hooks generalizing w s with
  | nil =>
      obtain ⟨moment, since, slot⟩ := w
      obtain rfl := hslot
      exact ⟨rfl, rfl⟩
  | cons h rest ih =>
      have hnext : (w.next (.hook h)).slot = some (s.onClose h) := by simp [next, apply, hslot]
      obtain ⟨hduring, hafter⟩ := ih hnext
      refine ⟨hduring, ?_⟩
      rw [List.map_cons, after_cons, hafter]
      simp [next, Session.onClose, Nat.add_right_comm, Nat.add_assoc]

end Stand

theorem session_of_mem_tell {moment session : Nat} {deeds : List Deed} {line : Line}
    (h : line ∈ tell moment session deeds) : line.session = session := by
  obtain ⟨deed, -, rfl⟩ := List.mem_map.1 h
  rfl

/-- Whatever happens, happens in a session that has been opened. -/
theorem session_of_mem_timeline {ops : List Operation} {line : Line} (h : line ∈ timeline ops) :
    ∃ before thread item settings after, ops = before ++ .opening thread item settings :: after
      ∧ line.session = before.length := by
  rcases Stand.session_of_mem_timeline h with ⟨hslot, -⟩ | hopened
  · exact absurd rfl hslot
  · simpa [start] using hopened

/-- What comes before the opening of a session happens in earlier sessions. -/
theorem session_lt_of_mem_timeline {ops : List Operation} {line : Line} (h : line ∈ timeline ops) :
    line.session < ops.length := by
  obtain ⟨before, thread, item, settings, after, rfl, hsession⟩ := session_of_mem_timeline h
  simp [hsession]

/-- Once another session is in the slot, or none, a session has gone for good. -/
theorem Stand.filter_gone {w : Stand} {session : Nat} (hsince : w.slot ≠ none → session < w.since)
    (hmoment : session < w.moment) (ops : List Operation) :
    (w.timeline ops).filter (fun line => line.session = session) = [] := by
  refine filter_none fun line hline => ?_
  rcases Stand.session_of_mem_timeline hline with ⟨hslot, h⟩ | ⟨before, _, _, _, _, _, h⟩
  · have := hsince hslot
    omega
  · omega

/-- From its last registration on, all that is told of a session is that it is closed, now. -/
theorem Stand.filter_closing {w : Stand} (hlt : w.since < w.moment) {after : List Operation}
    (hhead : ∀ h, after.head? ≠ some (.hook h)) :
    (w.timeline after).filter (fun line => line.session = w.since) = w.closing := by
  have hself : w.closing.filter (fun line => line.session = w.since) = w.closing :=
    filter_all fun line hline => (session_of_mem_closing hline).2
  cases after with
  | nil => exact hself
  | cons op rest =>
      have hlater : w.since < (w.next op).moment := by
        rw [moment_next]
        omega
      rw [timeline_cons, List.filter_append]
      cases op with
      | hook h => exact absurd rfl (hhead h)
      | closing =>
          rw [lines, hself, filter_gone (fun hslot => absurd rfl hslot) hlater, List.append_nil]
      | opening thread item settings =>
          have hother : ∀ line ∈ tell w.moment w.moment
              ((Session.openingEvents settings).map .logged), line.session ≠ w.since := by
            intro line hline
            rw [session_of_mem_tell hline]
            omega
          rw [lines, List.filter_append, filter_none hother, hself,
            filter_gone (fun _ => hlt) hlater, List.append_nil, List.nil_append]

namespace Life

/-- The slot right before the session is dropped: all hooks have been registered. -/
def stand (l : Life) : Stand :=
  ⟨l.dropped, l.opened, some ⟨l.thread, l.item, l.settings, l.hooks.reverse⟩⟩

theorem closing_stand (l : Life) : l.stand.closing = tell l.dropped l.opened l.ending := by
  rw [← drain_eq_ending]
  rfl

/-- From the opening of the session to its last registration. -/
theorem live (l : Life) {before : List Operation} (hlength : before.length = l.opened) :
    start.during (before ++ .opening l.thread l.item l.settings :: l.hooks.map .hook)
        = start.during before
          ++ (tell l.opened l.opened l.beginning ++ (start.after before).closing)
      ∧ start.after (before ++ .opening l.thread l.item l.settings :: l.hooks.map .hook)
        = l.stand := by
  have hmoment : (start.after before).moment = l.opened := (moment_after_start before).trans hlength
  have hbegun : (Session.openingEvents l.settings).map .logged = l.beginning := by
    rw [beginning, Session.openingEvents]
    split <;> rfl
  obtain ⟨hquiet, hfilled⟩ := Stand.register
    (w := (start.after before).next (.opening l.thread l.item l.settings)) rfl l.hooks
  constructor
  · rw [Stand.during_append, Stand.during, hquiet, List.append_nil, Stand.lines, hmoment, hbegun]
  · have hdropped : l.opened + 1 + l.hooks.length = l.dropped := by
      rw [dropped]
      omega
    rw [Stand.after_append, Stand.after_cons, hfilled, Stand.moment_next, hmoment, hdropped,
      List.append_nil, stand, ← hmoment]
    rfl

/-- **The timeline tells of each session its life.** -/
theorem In.timeline {l : Life} {ops : List Operation} (h : l.In ops) :
    (timeline ops).filter (fun line => line.session = l.opened) = l.lines := by
  obtain ⟨before, after, hlength, rfl, hhead⟩ := h
  obtain ⟨hduring, hstand⟩ := l.live hlength
  have hlt : l.stand.since < l.stand.moment := by
    change l.opened < l.dropped
    rw [dropped]
    omega
  -- nothing of it is told before it is opened, and nothing when the session before it is closed
  have hbefore : ∀ line ∈ start.during before ++ (start.after before).closing,
      line.session ≠ l.opened := fun line hline =>
    Nat.ne_of_lt (hlength ▸ session_lt_of_mem_timeline hline)
  have hnone := filter_none fun line hline => hbefore line (List.mem_append_left _ hline)
  have hnone' := filter_none fun line hline => hbefore line (List.mem_append_right _ hline)
  have hend := Stand.filter_closing hlt hhead
  rw [closing_stand] at hend
  rw [← List.cons_append, ← List.append_assoc, Slot.timeline, Stand.timeline_append, hduring,
    hstand]
  rw [List.filter_append, List.filter_append, List.filter_append, hnone, hnone', List.nil_append,
    List.append_nil, filter_all fun line hline => session_of_mem_tell hline, lines]
  exact congrArg _ hend

end Life

/-! ### Any sequence of operations -/

/-- Each line of the timeline is told of a session that lives. -/
theorem exists_life_of_mem {ops : List Operation} {line : Line} (h : line ∈ timeline ops) :
    ∃ l : Life, l.In ops ∧ line ∈ l.lines := by
  obtain ⟨before, thread, item, settings, after, rfl, hsession⟩ := session_of_mem_timeline h
  obtain ⟨l, hl, hopened, -⟩ := exists_life before thread item settings [] after
  refine ⟨l, hl, ?_⟩
  rw [← hl.timeline, List.mem_filter, hopened]
  exact ⟨h, decide_eq_true hsession⟩

/-- The hooks of a session run when it is dropped. -/
theorem Life.moment_of_ran {l : Life} {line : Line} {h : Hook} (hline : line ∈ l.lines)
    (hran : line.deed = .ran h) : line.moment = l.dropped ∧ line.session = l.opened := by
  rcases List.mem_append.1 hline with hline | hline
  · obtain ⟨deed, hdeed, rfl⟩ := List.mem_map.1 hline
    obtain rfl : deed = .ran h := hran
    simp [beginning] at hdeed
  · obtain ⟨deed, -, rfl⟩ := List.mem_map.1 hline
    exact ⟨rfl, rfl⟩

/-- A hook that is not refused is registered on the session that lives. -/
theorem exists_life_of_hook {before after : List Operation} {h : Hook} {s : Session}
    (hslot : (start.after before).slot = some s) :
    ∃ l : Life, l.In (before ++ .hook h :: after) ∧ l.opened < before.length
      ∧ before.length < l.dropped ∧ l.hooks[before.length - l.opened - 1]? = some h := by
  obtain ⟨earlier, thread, item, settings, hooks, rfl⟩ := exists_opening hslot
  obtain ⟨l, hl, hopened, hprefix⟩ := exists_life earlier thread item settings (hooks ++ [h]) after
  have hlength : (earlier ++ Operation.opening thread item settings
      :: hooks.map .hook).length = l.opened + 1 + hooks.length := by
    simp only [List.length_append, List.length_cons, List.length_map, hopened]
    omega
  have hlater := hprefix.length_le
  rw [List.length_append, List.length_singleton] at hlater
  obtain ⟨more, hmore⟩ := hprefix
  refine ⟨l, by simpa using hl, by omega, by rw [hlength, Life.dropped]; omega, ?_⟩
  have hindex : l.opened + 1 + hooks.length - l.opened - 1 = hooks.length := by omega
  rw [hlength, hindex, ← hmore]
  simp

/-- **What there is to say about the sessions of a slot** along a sequence of operations. -/
structure Disciplined (ops : List Operation) : Prop where
  /-- each operation answers with what the timeline tells of it, and nothing is told of one that is
  refused -/
  answers : ∀ before op after, ops = before ++ op :: after →
    (((start.after before).slot.apply op).map Prod.snd).getD ⟨[], []⟩
      = effectOf (told ops before.length)
  /-- so does the end of the slot -/
  finishes : finish (start.after ops).slot = effectOf (told ops ops.length)
  /-- the timeline tells of one operation after the other -/
  inOrder : (timeline ops).Pairwise fun a b => a.moment ≤ b.moment
  /-- every session that is opened has one life -/
  lives : ∀ before thread item settings after,
    ops = before ++ .opening thread item settings :: after →
    ∃! l : Life, l.In ops ∧ l.opened = before.length
  /-- every hook that is registered, and not refused since no session is open, is in its place among
  the hooks of a session -/
  registered : ∀ before h after, ops = before ++ .hook h :: after →
    ((start.after before).slot.apply (.hook h)).isSome →
      ∃ l : Life, l.In ops ∧ l.opened < before.length ∧ before.length < l.dropped
        ∧ l.hooks[before.length - l.opened - 1]? = some h
  /-- a session is dropped by the end of the slot, by its closing or by the next opening -/
  drops : ∀ l : Life, l.In ops → l.dropped = ops.length ∨ ops[l.dropped]? = some .closing
    ∨ ∃ thread item settings, ops[l.dropped]? = some (.opening thread item settings)
  /-- all that the timeline tells of a session is its life: when it is opened, its beginning, with
  tracing on; when it is dropped, its hooks in reverse order, each panic right after the hook that
  had it, and then, with tracing on, its end -/
  story : ∀ l : Life, l.In ops →
    (timeline ops).filter (fun line => line.session = l.opened) = l.lines
  /-- so the hooks that run in a session are those registered on it, each once, in reverse order -/
  once : ∀ l : Life, l.In ops →
    ((timeline ops).filter fun line => line.session = l.opened).filterMap
      (fun line => line.deed.hook?) = l.hooks.reverse
  /-- the timeline tells of nothing else -/
  whole : ∀ line ∈ timeline ops, ∃ l : Life, l.In ops ∧ line ∈ l.lines
  /-- no hook of another session runs when a session is dropped -/
  alone : ∀ l : Life, l.In ops → ∀ line ∈ timeline ops, line.moment = l.dropped →
    ∀ h, line.deed = .ran h → line.session = l.opened

/-- **Sessions are disciplined along every sequence of operations**, whichever hooks panic. -/
theorem disciplined (ops : List Operation) : Disciplined ops where
  answers := by
    rintro before op after rfl
    rw [told_during, Stand.effect_eq]
  finishes := by rw [told_at_end, Stand.effectOf_closing]
  inOrder := start.pairwise_timeline ops
  lives := by
    rintro before thread item settings after rfl
    obtain ⟨l, hl, hopened, -⟩ := exists_life before thread item settings [] after
    exact ⟨l, ⟨hl, hopened⟩, fun l' ⟨hl', hopened'⟩ => hl'.unique hl (hopened'.trans hopened.symm)⟩
  registered := by
    rintro before h after rfl haccepted
    cases hslot : (start.after before).slot with
    | none => simp [hslot, apply] at haccepted
    | some s => exact exists_life_of_hook hslot
  drops := fun _ hl => hl.drops
  story := fun _ hl => hl.timeline
  once := fun l hl => by rw [hl.timeline, l.hooks_lines]
  whole := fun _ => exists_life_of_mem
  alone := by
    intro l hl line hline hmoment h hran
    obtain ⟨l', hl', hmem⟩ := exists_life_of_mem hline
    obtain ⟨hmoment', hsession⟩ := Life.moment_of_ran hmem hran
    rw [hsession]
    exact hl'.opened_eq_of_dropped hl (hmoment'.symm.trans hmoment)

/-- A session takes the place of another, whose hooks run then although the first one panics. -/
example : timeline [.opening 0 7 ⟨true, false⟩, .hook ⟨"disk", false⟩, .hook ⟨"handle", true⟩,
      .opening 0 7 ⟨true, false⟩]
    = [⟨0, 0, .logged .sessionOpened⟩, ⟨3, 3, .logged .sessionOpened⟩,
      ⟨3, 0, .ran ⟨"handle", true⟩⟩, ⟨3, 0, .logged .hookPanicked⟩, ⟨3, 0, .ran ⟨"disk", false⟩⟩,
      ⟨3, 0, .logged .sessionClosed⟩, ⟨4, 3, .logged .sessionClosed⟩] := by decide

end Slot

end OrderedDispatch

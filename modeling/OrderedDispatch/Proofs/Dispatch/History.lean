/-
**What the history of a dispatch tells.**

The calls of the sink, the sessions, the ends of work and the retirements of a dispatch are views of
its history: each picks the entries of one kind.  The steps of a dispatch leave their entries in
groups, and this module says what each view sees of each group.

Main definitions:

* `Entry.call?`, `Entry.session?`, `Entry.ending?`, `Entry.retirement?` — what one entry shows to
  each of the views;
* `Dispatch.OnlyLogs` — nothing but logged events;
* `Dispatch.claimEntries`, `Dispatch.openEntries`, `Dispatch.endEntries`,
  `Dispatch.retireEntries` — what claiming an item, opening its session, ending its work and
  retiring it leave in the history.

Main results:

* `Dispatch.calls_eq`, `Dispatch.sessions_eq`, `Dispatch.endings_eq`, `Dispatch.retirements_eq` —
  the views of the history, entry by entry;
* `Dispatch.OnlyLogs.filterMap`, `Dispatch.filterMap_openEntries`, `Dispatch.filterMap_endEntries`,
  `Dispatch.filterMap_retireEntries` — what a view sees of a group.
-/

import OrderedDispatch.Dispatch.Basic

set_option relaxedAutoImplicit false
set_option autoImplicit false

namespace OrderedDispatch

/-! ### What one entry shows -/

/-- The call of the sink that an entry tells of. -/
def Entry.call? : Entry → Option SinkCall
  | called call => some call
  | _ => none

/-- The session whose opening an entry tells of. -/
def Entry.session? : Entry → Option Session
  | opened session => some session
  | _ => none

/-- The end of an item's work that an entry tells of. -/
def Entry.ending? : Entry → Option (Nat × Ending)
  | ended item ending => some (item, ending)
  | _ => none

/-- The retirement that an entry tells of. -/
def Entry.retirement? : Entry → Option (Nat × Option Fault)
  | retired item fault => some (item, fault)
  | _ => none

namespace Dispatch

variable {σ : Type}

theorem calls_eq (d : Dispatch σ) : d.calls = d.history.filterMap Entry.call? := by
  refine congrArg (fun f => d.history.filterMap f) (funext fun e => ?_)
  cases e <;> rfl

theorem sessions_eq (d : Dispatch σ) : d.sessions = d.history.filterMap Entry.session? := by
  refine congrArg (fun f => d.history.filterMap f) (funext fun e => ?_)
  cases e <;> rfl

theorem endings_eq (d : Dispatch σ) : d.endings = d.history.filterMap Entry.ending? := by
  refine congrArg (fun f => d.history.filterMap f) (funext fun e => ?_)
  cases e <;> rfl

theorem retirements_eq (d : Dispatch σ) :
    d.retirements = d.history.filterMap Entry.retirement? := by
  refine congrArg (fun f => d.history.filterMap f) (funext fun e => ?_)
  cases e <;> rfl

/-! ### Entries that only log -/

/-- Nothing but logged events. -/
def OnlyLogs (es : List Entry) : Prop := ∀ e ∈ es, ∃ s event, e = .logged s event

theorem onlyLogs_nil : OnlyLogs [] := by
  intro e he
  cases he

theorem onlyLogs_outside (events : List Event) : OnlyLogs (outside events) := by
  intro e he
  obtain ⟨event, _, rfl⟩ := List.mem_map.1 he
  exact ⟨none, event, rfl⟩

theorem onlyLogs_inside (session : Session) (events : List Event) :
    OnlyLogs (inside session events) := by
  intro e he
  obtain ⟨event, _, rfl⟩ := List.mem_map.1 he
  exact ⟨some session.identifier, event, rfl⟩

theorem OnlyLogs.append {es es' : List Entry} (h : OnlyLogs es) (h' : OnlyLogs es') :
    OnlyLogs (es ++ es') := by
  intro e he
  rcases List.mem_append.1 he with he | he
  · exact h e he
  · exact h' e he

/-- A view that passes over the log sees nothing in entries that only log. -/
theorem OnlyLogs.filterMap {α : Type} {es : List Entry} (h : OnlyLogs es) {f : Entry → Option α}
    (hf : ∀ s e, f (.logged s e) = none) : es.filterMap f = [] := by
  refine List.filterMap_eq_nil_iff.2 fun e he => ?_
  obtain ⟨s, event, rfl⟩ := h e he
  exact hf s event

/-! ### The groups of entries -/

/-- What a claim leaves in the history before it is known whether an item is left. -/
def claimEntries (thread : Nat) (take : TakeCursor) : List Entry :=
  outside (take.claimEvents ++ claimFaultEvents thread take.offer.fault)

theorem onlyLogs_claimEntries (thread : Nat) (take : TakeCursor) :
    OnlyLogs (claimEntries thread take) := onlyLogs_outside _

/-- What opening the session of an item leaves in the history. -/
def openEntries (session : Session) : List Entry :=
  outside [.taking session.thread session.item]
    ++ inside session (Session.openingEvents session.settings) ++ [.opened session]

/-- What running the hooks of a session leaves in the history. -/
def hookEntries (session : Session) : List Entry :=
  session.hooksInOrder.flatMap fun h =>
    .hookRan session.item h.label :: inside session (Session.hookEvents h)

/-- What the end of an item's work leaves in the history. -/
def endEntries (thread : Nat) (session : Session) (ending : Ending) : List Entry :=
  Entry.ended session.item ending :: hookEntries session
    ++ inside session (Session.closingEvents session.settings)
    ++ outside (ending.events thread session.item)

/-- What the retirement of an item leaves in the history. -/
def retireEntries (thread item : Nat) (calls : List SinkCall) (fault : Option Fault) :
    List Entry :=
  outside [.retiring thread item] ++ calls.map Entry.called
    ++ Entry.retired item fault :: outside (fault.toList.map (Event.retireFault thread item))

section Views

variable {α : Type} {f : Entry → Option α} (hf : ∀ s e, f (.logged s e) = none)

include hf

/-- A view that passes over the log sees nothing of a claim before an item is handed out. -/
theorem filterMap_claimEntries_append (t : Nat) (take : TakeCursor) (es : List Entry) :
    (claimEntries t take ++ es).filterMap f = es.filterMap f := by
  rw [List.filterMap_append, (onlyLogs_claimEntries t take).filterMap hf, List.nil_append]

/-- A view that passes over the log sees only the opening itself. -/
theorem filterMap_openEntries (s : Session) :
    (openEntries s).filterMap f = (f (.opened s)).toList := by
  rw [openEntries, List.filterMap_append, List.filterMap_append,
    (onlyLogs_outside _).filterMap hf, (onlyLogs_inside _ _).filterMap hf, List.filterMap_cons]
  cases f (.opened s) <;> rfl

/-- A view that passes over the log and the hooks sees nothing while the hooks run. -/
theorem filterMap_hookEntries (hh : ∀ i l, f (.hookRan i l) = none) (s : Session) :
    (hookEntries s).filterMap f = [] := by
  refine List.filterMap_eq_nil_iff.2 fun e he => ?_
  obtain ⟨h, _, he⟩ := List.mem_flatMap.1 he
  rcases List.mem_cons.1 he with rfl | he
  · exact hh s.item h.label
  · obtain ⟨s', event, rfl⟩ := onlyLogs_inside s _ e he
    exact hf s' event

/-- A view that passes over the log and the hooks sees only the end itself. -/
theorem filterMap_endEntries (hh : ∀ i l, f (.hookRan i l) = none) (t : Nat) (s : Session)
    (e : Ending) : (endEntries t s e).filterMap f = (f (.ended s.item e)).toList := by
  rw [endEntries, List.filterMap_append, List.filterMap_append, List.filterMap_cons,
    filterMap_hookEntries hf hh, (onlyLogs_outside _).filterMap hf,
    (onlyLogs_inside _ _).filterMap hf]
  cases f (.ended s.item e) <;> rfl

/-- A view that passes over the log sees only the calls and the retirement itself. -/
theorem filterMap_retireEntries (t i : Nat) (calls : List SinkCall) (fault : Option Fault) :
    (retireEntries t i calls fault).filterMap f
      = calls.filterMap (fun c => f (.called c)) ++ (f (.retired i fault)).toList := by
  rw [retireEntries, List.filterMap_append, List.filterMap_append, List.filterMap_cons,
    (onlyLogs_outside _).filterMap hf, (onlyLogs_outside _).filterMap hf, List.filterMap_map,
    List.nil_append]
  cases f (.retired i fault) <;> rfl

end Views

end Dispatch

end OrderedDispatch

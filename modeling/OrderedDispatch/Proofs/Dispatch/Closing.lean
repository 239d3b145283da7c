/-
**When sessions are closed.**

Every item that is claimed runs in one session of its own, opened by the worker that has claimed it,
and closing the session runs the hooks that the work has registered.  Other workers are at the same
time in the midst of other items, so that the history of a dispatch is a jumble of sessions that
open, hooks that run and calls of the sink.  Yet no hook is late: before the sink is called for an
item, and before the worker of an item claims another one or dies, all hooks of the item have run,
once each, and none of them before the work has ended.

The history does not say for which item the sink is called.  But items are retired one after the
other in the order of their numbers, so that a call is made for the item whose number is the number
of retirements before the call.

Main definitions:

* `Script.hooks` — the hooks that a script registers;
* `Dispatch.hooksIn`, `Dispatch.ClosedIn` — the hooks of an item that have run in a stretch of the
  history, and that they are all that the work of a session has registered;
* `Dispatch.Comes`, `Dispatch.Ordered` — what has to come before an entry of the history, and that
  it does;
* `Dispatch.Disciplined` — what there is to say about the sessions of a dispatch.

Main results:

* `Session.label_inj` — sessions of different items or threads have different labels;
* `Dispatch.Reachable.registered` — the session of a worker has the hooks that its script has
  registered so far;
* `Dispatch.Reachable.closing` — a session whose work has ended is closed;
* `Dispatch.Reachable.ordered` — **no hook is late**, whatever the interleaving;
* `Dispatch.sessions_disciplined` — what this says of each session.
-/

import Mathlib.Data.List.Basic
import OrderedDispatch.Proofs.Dispatch.Waits

set_option relaxedAutoImplicit false
set_option autoImplicit false

namespace OrderedDispatch

/-! ### Labels -/

/-- Numerals have no separators. -/
theorem underscore_notMem_repr (n : Nat) : '_' ∉ n.repr.toList := by
  intro h
  rw [Nat.toList_repr] at h
  have := Nat.isDigit_of_mem_toDigits (by decide) (by decide) h
  exact absurd this (by decide)

theorem repr_toList_inj {m n : Nat} (h : m.repr.toList = n.repr.toList) : m = n := by
  rw [Nat.toList_repr, Nat.toList_repr] at h
  have hvalue := congrArg (fun ds => Nat.ofDigitChars 10 ds 0) h
  simpa using hvalue

/-- What stands before the first separator, and what stands after it. -/
theorem split_at_first {α : Type} {a : α} {x y x' y' : List α} (h : x ++ a :: y = x' ++ a :: y')
    (hx : a ∉ x) (hx' : a ∉ x') : x = x' ∧ y = y' := by
  rcases List.append_eq_append_iff.1 h with ⟨z, rfl, hz⟩ | ⟨z, rfl, hz⟩
  · cases z with
    | nil => simpa using hz
    | cons b z =>
        obtain ⟨rfl, -⟩ := List.cons.inj hz
        simp at hx'
  · cases z with
    | nil => simpa using hz.symm
    | cons b z =>
        obtain ⟨rfl, -⟩ := List.cons.inj hz
        simp at hx

/-- **Sessions of different items or threads have different labels.** -/
theorem Session.label_inj {t i t' i' : Nat} (h : label t i = label t' i') : t = t' ∧ i = i' := by
  have hlabel : ∀ t i, (label t i).toList
      = "thread_".toList ++ (t.repr.toList ++ '_' :: ("item_".toList ++ i.repr.toList)) := by
    intro t i
    rw [show label t i = "thread_" ++ t.repr ++ "_item_" ++ i.repr from rfl]
    simp only [String.toList_append, List.append_assoc]
    rfl
  have hlist := congrArg String.toList h
  rw [hlabel, hlabel, List.append_right_inj] at hlist
  -- the numeral of the thread ends at the first separator after it
  obtain ⟨hthread, hrest⟩ :=
    split_at_first hlist (underscore_notMem_repr t) (underscore_notMem_repr t')
  rw [List.append_right_inj] at hrest
  exact ⟨repr_toList_inj hthread, repr_toList_inj hrest⟩

/-! ### The hooks that a script registers -/

/-- The hook that a step registers. -/
def Step.hook? : Step → Option Hook
  | hook h => some h
  | _ => none

/-- The hooks that a script registers, in order. -/
def Script.hooks (s : Script) : List Hook := s.performed.filterMap Step.hook?

theorem Script.hooks_of_endsNow? {todo : Script} {e : Ending} (h : todo.endsNow? = some e) :
    todo.hooks = [] := by
  rw [hooks, performed_of_endsNow? h]
  rfl

/-- A hook moves from what is to be registered to what is registered; no other step changes
either. -/
theorem Step.effect?_hooks {step : Step} {session session' : Session}
    {output output' : List UInt8} {es : List Entry}
    (h : step.effect? session output = some (session', output', es)) (todo : Script) :
    session'.hooks.reverse ++ todo.hooks = session.hooks.reverse ++ Script.hooks (step :: todo) := by
  rw [Script.hooks, Script.hooks, Script.performed_cons_of_effect? h]
  cases step <;> simp only [Step.effect?, Option.some.injEq, Prod.mk.injEq, reduceCtorEq] at h <;>
    obtain ⟨rfl, -, -⟩ := h <;> simp [Session.onClose, Step.hook?, List.filterMap_cons]

variable {σ : Type} {job : Job σ} {sink : σ}

namespace Dispatch

variable {d d' : Dispatch σ}

/-! ### The session of a worker -/

/-- **The session of a worker has the hooks that its script has registered so far.** -/
theorem Reachable.registered (h : Reachable job sink d) {t : Nat} {session : Session}
    {todo : Script} {output : List UInt8} {failed : Bool}
    (hw : d.workers[t]? = some ⟨.working session todo output, failed⟩) :
    session.hooks.reverse ++ todo.hooks = (job.work t session.item).hooks := by
  refine h.working (P := fun t session todo =>
    session.hooks.reverse ++ todo.hooks = (job.work t session.item).hooks) (fun _ _ => rfl) ?_
    t _ hw session todo output rfl
  intro t step todo session session' output output' es effect hhooks
  rw [Step.effect?_hooks effect todo, (Step.effect?_session effect).1, hhooks]

/-! ### The hooks that have run -/

/-- The label of the hook that an entry tells of, if it is one of the item. -/
def hookOf? (i : Nat) : Entry → Option String
  | .hookRan k label => if k = i then some label else none
  | _ => none

/-- The labels of the hooks of an item that have run, in order. -/
def hooksIn (i : Nat) (es : List Entry) : List String := es.filterMap (hookOf? i)

@[simp] theorem hooksIn_append (i : Nat) (es es' : List Entry) :
    hooksIn i (es ++ es') = hooksIn i es ++ hooksIn i es' := List.filterMap_append

theorem OnlyLogs.hooksIn {es : List Entry} (h : OnlyLogs es) (i : Nat) : hooksIn i es = [] :=
  h.filterMap fun _ _ => rfl

theorem hooksIn_claim (i t : Nat) (take : TakeCursor) (s : Session) :
    hooksIn i (claimEntries t take ++ openEntries s) = [] := by
  rw [hooksIn, filterMap_claimEntries_append (fun _ _ => rfl),
    filterMap_openEntries (fun _ _ => rfl)]
  rfl

theorem hooksIn_retireEntries (i t k : Nat) (calls : List SinkCall) (fault : Option Fault) :
    hooksIn i (retireEntries t k calls fault) = [] := by
  rw [hooksIn, filterMap_retireEntries (fun _ _ => rfl)]
  simp [hookOf?]

/-- The end of an item's work runs all hooks of its session, and none of another item. -/
theorem hooksIn_endEntries (i t : Nat) (s : Session) (e : Ending) :
    hooksIn i (endEntries t s e) = if s.item = i then s.hooksInOrder.map Hook.label else [] := by
  have hhooks : ∀ hs : List Hook, hooksIn i (hs.flatMap fun h =>
      .hookRan s.item h.label :: inside s (Session.hookEvents h))
        = if s.item = i then hs.map Hook.label else [] := by
    intro hs
    induction hs with
    | nil => simp [hooksIn]
    | cons h rest ih =>
        rw [List.flatMap_cons, hooksIn_append, ih, ← List.singleton_append, hooksIn_append,
          (onlyLogs_inside _ _).hooksIn]
        by_cases hi : s.item = i <;> simp [hooksIn, hookOf?, hi]
  rw [endEntries, ← List.singleton_append, hooksIn_append, hooksIn_append, hooksIn_append,
    (onlyLogs_inside _ _).hooksIn, (onlyLogs_outside _).hooksIn, List.append_nil, List.append_nil,
    hookEntries, hhooks]
  rfl

/-! ### Closed sessions -/

/-- The session of an item is closed: its work has ended, and the hooks that its work has registered
have run, each once, the latest first. -/
structure ClosedIn (job : Job σ) (es : List Entry) (s : Session) : Prop where
  ended : ∃ ending, Entry.ended s.item ending ∈ es
  hooks : hooksIn s.item es = ((job.work s.thread s.item).hooks.map Hook.label).reverse

/-- A session stays closed while no hook of its item runs. -/
theorem ClosedIn.append {es es' : List Entry} {s : Session} (h : ClosedIn job es s)
    (hes' : hooksIn s.item es' = []) : ClosedIn job (es ++ es') s where
  ended := h.ended.imp fun _ => List.mem_append_left _
  hooks := by rw [hooksIn_append, hes', List.append_nil, h.hooks]

theorem mem_sessions {s : Session} : s ∈ d.sessions ↔ Entry.opened s ∈ d.history := by
  rw [sessions_eq, List.mem_filterMap]
  constructor
  · rintro ⟨e, he, hs⟩
    cases e <;> cases hs
    exact he
  · exact fun hs => ⟨_, hs, rfl⟩

/-- No hook of an item has run before its work has ended, and then its session is closed. -/
structure Closing (job : Job σ) (d : Dispatch σ) : Prop where
  notYet : ∀ i, i ∉ d.ended → hooksIn i d.history = []
  closed : ∀ s ∈ d.sessions, s.item ∈ d.ended → ClosedIn job d.history s

/-- A step that ends no work, runs no hooks and opens sessions of new items only. -/
theorem Closing.keep (h : Closing job d) {es : List Entry} {sessions : List Session}
    (hhistory : d'.history = d.history ++ es) (hhooks : ∀ i, hooksIn i es = [])
    (hended : d'.ended = d.ended) (hsessions : d'.sessions = d.sessions ++ sessions)
    (hnew : ∀ s ∈ sessions, s.item ∉ d.ended) : Closing job d' where
  notYet := by
    intro i hi
    rw [hhistory, hooksIn_append, hhooks, List.append_nil]
    exact h.notYet i (hended ▸ hi)
  closed := by
    intro s hs hi
    rw [hended] at hi
    rw [hsessions] at hs
    rw [hhistory]
    rcases List.mem_append.1 hs with hs | hs
    · exact (h.closed s hs hi).append (hhooks _)
    · exact absurd hi (hnew s hs)

/-- The end of an item's work closes its session. -/
theorem Closing.finished (h : Closing job d) (hreach : Reachable job sink d) {t : Nat}
    {failed : Bool} {w' : Worker} {session : Session} {todo : Script} {output : List UInt8}
    {ending : Ending} (turn : Turn d d' t ⟨.working session todo output, failed⟩ w'
      (endEntries t session ending) false)
    (ends : todo.endsNow? = some ending) (hended : d'.ended = session.item :: d.ended) :
    Closing job d' := by
  have hitem : d.at? Phase.item? t = some session.item := at?_eq_some.2 ⟨_, turn.before, rfl⟩
  have hbusy : session.item ∉ d.ended := fun hi =>
    ((hreach.settled.mem_iff _).1 hi).2 t (at?_eq_some.2 ⟨_, turn.before, rfl⟩)
  refine ⟨fun i hi => ?_, fun s hs hi => ?_⟩
  · rw [hended, List.mem_cons, not_or] at hi
    rw [turn.history, hooksIn_append, hooksIn_endEntries, if_neg (Ne.symm hi.1), List.append_nil]
    exact h.notYet i hi.2
  · rw [turn.adds_of_end.sessions, List.append_nil] at hs
    rw [turn.history]
    by_cases hsame : s.item = session.item
    · -- the session is that of this worker, whose script registers nothing any more
      obtain ⟨s₀, hs₀, hthread₀, hitem₀⟩ := (hreach.attended t _ turn.before).1 _ rfl
      obtain rfl := hreach.session_unique hs hs₀ (hsame.trans hitem₀.symm)
      have hhooks := hreach.registered turn.before
      rw [Script.hooks_of_endsNow? ends, List.append_nil] at hhooks
      refine ⟨⟨ending, ?_⟩, ?_⟩
      · rw [hsame]
        exact List.mem_append_right _ (List.mem_cons_self ..)
      · rw [hooksIn_append, hsame, h.notYet _ hbusy, hooksIn_endEntries, if_pos rfl,
          List.nil_append, hthread₀, ← hhooks, List.map_reverse, List.reverse_reverse]
        rfl
    · rw [hended, List.mem_cons] at hi
      refine (h.closed s hs (hi.resolve_left hsame)).append ?_
      rw [hooksIn_endEntries, if_neg (Ne.symm hsame)]

/-- **A session whose work has ended is closed**, and none has run hooks before. -/
theorem Reachable.closing (h : Reachable job sink d) : Closing job d := by
  refine h.invariant ⟨fun _ _ => rfl, nofun⟩ ?_
  intro e e' m hreach he hc
  cases hc with
  | between interim =>
      obtain ⟨t, w, w', es, -, turn, hlogs, -⟩ := interim.exists_turn
      exact he.keep turn.history hlogs.hooksIn interim.unmoved.ended interim.unmoved.adds.sessions
        nofun
  | @claimed t failed session turn opened someLeft moved =>
      refine he.keep turn.history (fun i => hooksIn_claim i _ _ _) moved.ended
        turn.adds_of_claim.sessions fun s hs hi => ?_
      -- the item has only now been claimed
      obtain rfl := List.mem_singleton.1 hs
      have hlt := ((hreach.settled.mem_iff _).1 hi).1
      rw [opened] at hlt
      exact Nat.lt_irrefl _ hlt
  | finished turn ends take gate ended => exact he.finished hreach turn ends ended
  | retired turn first moved =>
      exact he.keep turn.history (fun i => hooksIn_retireEntries i _ _ _ _) moved.ended
        turn.adds_of_retire.sessions nofun

/-- **A worker that is not working has closed all its sessions.** -/
theorem Reachable.closedIn_of_idle (h : Reachable job sink d) {t : Nat} {w : Worker}
    (hw : d.workers[t]? = some w) (hidle : w.phase.busy? = none) {s : Session}
    (hs : s ∈ d.sessions) (hthread : s.thread = t) : ClosedIn job d.history s := by
  refine h.closing.closed s hs ((h.settled.mem_iff _).2 ⟨?_, fun u hu => ?_⟩)
  · have := List.mem_map_of_mem (f := Session.item) hs
    rwa [← executed, h.window.executed, List.mem_range] at this
  · -- who is busy with the item has opened the session
    obtain ⟨v, hv, hitem⟩ := at?_eq_some.1 hu
    obtain ⟨s', hs', hthread', hitem'⟩ := (h.attended u v hv).1 _ (Phase.item?_of_busy? hitem)
    obtain rfl := h.session_unique hs' hs hitem'
    obtain rfl : u = t := hthread'.symm.trans hthread
    obtain rfl := Option.some.inj (hv.symm.trans hw)
    rw [hidle] at hitem
    cases hitem

/-! ### What comes before what -/

/-- How many items have been retired. -/
def retiredIn (es : List Entry) : Nat := (es.filterMap Entry.retirement?).length

/-- The item that is retired next has had its session, which is closed. -/
def Due (job : Job σ) (es : List Entry) : Prop :=
  ∃ s, Entry.opened s ∈ es ∧ s.item = retiredIn es ∧ ClosedIn job es s

/-- What has to come before an entry: the end of the work before a hook; a closed session before a
call of the sink and a retirement; and before a session is opened all other sessions of its thread
have to be closed. -/
def Comes (job : Job σ) (es : List Entry) : Entry → Prop
  | .logged _ _ => True
  | .opened s => ∀ s', Entry.opened s' ∈ es → s'.thread = s.thread → ClosedIn job es s'
  | .ended i _ => ∃ s, Entry.opened s ∈ es ∧ s.item = i
  | .hookRan i _ => ∃ ending, Entry.ended i ending ∈ es
  | .called _ => Due job es
  | .retired i _ => i = retiredIn es ∧ Due job es

/-- Every entry comes after what has to come before it. -/
def Ordered (job : Job σ) (es : List Entry) : Prop :=
  ∀ before e, before ++ [e] <+: es → Comes job before e

theorem Ordered.concat {es : List Entry} {e : Entry} (h : Ordered job es) (he : Comes job es e) :
    Ordered job (es ++ [e]) := by
  intro before e' hprefix
  rcases List.prefix_concat_iff.1 hprefix with hsame | hshorter
  · obtain ⟨rfl, hlast⟩ := List.append_inj' hsame rfl
    obtain rfl := List.singleton_inj.1 hlast
    exact he
  · exact h before e' hshorter

/-- Entries that come one after the other, each because of what the entries before it have kept. -/
theorem Ordered.append {es es' : List Entry} {P : List Entry → Prop} (h : Ordered job es)
    (hes : P es) (hstep : ∀ e ∈ es', ∀ before, P before → Comes job before e ∧ P (before ++ [e])) :
    Ordered job (es ++ es') ∧ P (es ++ es') := by
  induction es' generalizing es with
  | nil => simpa using ⟨h, hes⟩
  | cons e rest ih =>
      obtain ⟨hcomes, hkept⟩ := hstep e (List.mem_cons_self ..) es hes
      rw [List.append_cons]
      exact ih (h.concat hcomes) hkept fun e' he' => hstep e' (List.mem_cons_of_mem _ he')

theorem Ordered.logs {es es' : List Entry} (h : Ordered job es) (hlogs : OnlyLogs es') :
    Ordered job (es ++ es') := by
  refine (h.append (P := fun _ => True) trivial fun e he before _ => ⟨?_, trivial⟩).1
  obtain ⟨s, event, rfl⟩ := hlogs e he
  trivial

/-- What is due stays due while nothing is retired and no hook runs. -/
theorem Due.append {es es' : List Entry} (h : Due job es)
    (hretired : es'.filterMap Entry.retirement? = []) (hhooks : ∀ i, hooksIn i es' = []) :
    Due job (es ++ es') := by
  obtain ⟨s, hs, hitem, hclosed⟩ := h
  refine ⟨s, List.mem_append_left _ hs, ?_, hclosed.append (hhooks _)⟩
  rw [retiredIn, List.filterMap_append, hretired, List.append_nil]
  exact hitem

/-- Opening a session after the others of its thread have been closed. -/
theorem Ordered.claim {es : List Entry} (h : Ordered job es) {t : Nat} {take : TakeCursor}
    {s : Session} (hclosed : ∀ s', Entry.opened s' ∈ es → s'.thread = s.thread →
      ClosedIn job es s') : Ordered job (es ++ (claimEntries t take ++ openEntries s)) := by
  have hlogs : OnlyLogs (claimEntries t take ++ (outside [.taking s.thread s.item]
      ++ inside s (Session.openingEvents s.settings))) :=
    (onlyLogs_claimEntries _ _).append ((onlyLogs_outside _).append (onlyLogs_inside _ _))
  rw [openEntries, ← List.append_assoc (claimEntries t take), ← List.append_assoc es]
  refine (h.logs hlogs).concat (e := .opened s) fun s' hs' hthread => ?_
  refine (hclosed s' ?_ hthread).append (hlogs.hooksIn _)
  refine (List.mem_append.1 hs').resolve_right fun hmem => ?_
  obtain ⟨_, _, heq⟩ := hlogs _ hmem
  cases heq

/-- The end of an item's work, and its hooks after it. -/
theorem Ordered.finish {es : List Entry} (h : Ordered job es) {t : Nat} {s s₀ : Session}
    {ending : Ending} (hopened : Entry.opened s₀ ∈ es) (hitem : s₀.item = s.item) :
    Ordered job (es ++ endEntries t s ending) := by
  have hended : ∃ ending', Entry.ended s.item ending' ∈ es ++ [.ended s.item ending] :=
    ⟨ending, by simp⟩
  have hstart : Ordered job (es ++ [.ended s.item ending]) := h.concat ⟨s₀, hopened, hitem⟩
  -- once the work has ended it has ended for good
  have hhooks : Ordered job (es ++ [.ended s.item ending] ++ hookEntries s) := by
    refine (hstart.append (P := fun es => ∃ ending', Entry.ended s.item ending' ∈ es) hended ?_).1
    intro e he before hbefore
    refine ⟨?_, hbefore.imp fun _ => List.mem_append_left _⟩
    obtain ⟨hook, -, he⟩ := List.mem_flatMap.1 he
    rcases List.mem_cons.1 he with rfl | he
    · exact hbefore
    · obtain ⟨_, _, rfl⟩ := onlyLogs_inside _ _ _ he
      trivial
  have hlogs := (onlyLogs_inside s (Session.closingEvents s.settings)).append
    (onlyLogs_outside (ending.events t s.item))
  have := hhooks.logs hlogs
  simpa [endEntries] using this

/-- The calls of the sink for an item, and its retirement after them. -/
theorem Ordered.retire {es : List Entry} (h : Ordered job es) {t i : Nat} {calls : List SinkCall}
    {fault : Option Fault} (hnext : i = retiredIn es) (hdue : Due job es) :
    Ordered job (es ++ retireEntries t i calls fault) := by
  have hcalls : ∀ e ∈ outside [.retiring t i] ++ calls.map Entry.called, ∀ before,
      i = retiredIn before ∧ Due job before →
        Comes job before e ∧ i = retiredIn (before ++ [e]) ∧ Due job (before ++ [e]) := by
    intro e he before ⟨hbefore, hdue⟩
    have hkept : ∀ e : Entry, e.retirement? = none → (∀ k, hookOf? k e = none) →
        i = retiredIn (before ++ [e]) ∧ Due job (before ++ [e]) := by
      intro e hretirement hhook
      have hnone : [e].filterMap Entry.retirement? = [] := by simp [hretirement]
      refine ⟨?_, hdue.append hnone fun k => by simp [hooksIn, hhook]⟩
      rw [retiredIn, List.filterMap_append, hnone, List.append_nil]
      exact hbefore
    rcases List.mem_append.1 he with he | he
    · obtain ⟨_, _, rfl⟩ := onlyLogs_outside _ _ he
      exact ⟨trivial, hkept _ rfl fun _ => rfl⟩
    · obtain ⟨call, -, rfl⟩ := List.mem_map.1 he
      exact ⟨hdue, hkept _ rfl fun _ => rfl⟩
  obtain ⟨hcalled, hlast⟩ := h.append ⟨hnext, hdue⟩ hcalls
  have := (hcalled.concat (e := .retired i fault) hlast).logs
    (onlyLogs_outside (fault.toList.map (Event.retireFault t i)))
  simpa [retireEntries] using this

/-- The item that is retired next is due when its worker is at the gate. -/
theorem Reachable.due (h : Reachable job sink d) {t : Nat} {w : Worker}
    (hw : d.workers[t]? = some w) (hidle : w.phase.busy? = none)
    (hitem : w.phase.item? = some d.gate.next) :
    d.gate.next = retiredIn d.history ∧ Due job d.history := by
  have hnext : d.gate.next = retiredIn d.history := by
    rw [retiredIn, ← retirements_eq, ← List.length_map (f := Prod.fst), h.window.retired,
      List.length_range]
  obtain ⟨s, hs, hthread, hsame⟩ := (h.attended t w hw).1 _ hitem
  exact ⟨hnext, s, mem_sessions.1 hs, hsame.trans hnext, h.closedIn_of_idle hw hidle hs hthread⟩

/-- **No hook is late**: every entry of the history comes after what has to come before it. -/
theorem Reachable.ordered (h : Reachable job sink d) : Ordered job d.history := by
  refine h.invariant (P := fun d => Ordered job d.history) ?_ ?_
  · intro before e hprefix
    exact absurd (List.prefix_nil.1 hprefix) (by simp)
  · intro e e' m hreach he hc
    cases hc with
    | between interim =>
        obtain ⟨t, w, w', es, -, turn, hlogs, -⟩ := interim.exists_turn
        rw [turn.history]
        exact he.logs hlogs
    | @claimed t failed session turn opened someLeft moved =>
        rw [turn.history]
        refine he.claim fun s' hs' hthread => ?_
        rw [opened] at hthread
        exact hreach.closedIn_of_idle turn.before rfl (mem_sessions.2 hs') hthread
    | @finished t failed session todo output ending turn ends take gate ended =>
        obtain ⟨s, hs, -, hitem⟩ := (hreach.attended t _ turn.before).1 _ rfl
        rw [turn.history]
        exact he.finish (mem_sessions.1 hs) hitem
    | retired turn first moved =>
        obtain ⟨hnext, hdue⟩ := hreach.due turn.before rfl rfl
        rw [turn.history]
        exact he.retire hnext hdue

/-! ### Session by session -/

/-- The session that a worker opens for an item. -/
def sessionOf (job : Job σ) (thread item : Nat) : Session :=
  { thread, item, settings := job.settings }

/-- **What there is to say about the sessions of a dispatch.** -/
structure Disciplined (job : Job σ) (d : Dispatch σ) : Prop where
  /-- each item that has been claimed has one session, and no other item has any -/
  single : d.sessions.map Session.item = List.range d.take.next
  /-- a session is opened by a worker of the job, with the flags of the job -/
  own : ∀ s ∈ d.sessions, s.thread < job.threads ∧ s = sessionOf job s.thread s.item
  /-- the step by which a worker claims an item opens its session, and no other step opens any -/
  claims : ∀ m d', d.step? job m = some d' →
    d'.take.next = d.take.next ∧ d'.sessions = d.sessions
      ∨ ∃ t w, m = .advance t ∧ d.workers[t]? = some w ∧ w.phase = .claiming
        ∧ d'.take.next = d.take.next + 1
        ∧ d'.sessions = d.sessions ++ [sessionOf job t d.take.next]
  /-- whoever holds an item has opened its session -/
  holder : ∀ t i, d.Holds t i → sessionOf job t i ∈ d.sessions
  /-- all labels are different -/
  labels : (d.sessions.map Session.identifier).Nodup
  /-- the hooks of an item run after its work has ended; the sink is called for an item, an item is
  retired, and its worker opens another session, after all its hooks have run -/
  ordered : Ordered job d.history
  /-- a worker that is about to claim, at the gate or dead, has closed all its sessions -/
  closed : ∀ (t : Nat) (w : Worker), d.workers[t]? = some w → w.phase.busy? = none →
    ∀ s ∈ d.sessions, s.thread = t → ClosedIn job d.history s

/-- Sessions are opened with the flags of the job and without hooks. -/
theorem Reachable.eq_sessionOf (h : Reachable job sink d) :
    ∀ s ∈ d.sessions, s = sessionOf job s.thread s.item :=
  h.forall_sessions fun _ _ _ _ => rfl

/-- A step that claims an item opens its session, and no other step opens any. -/
theorem Change.sessions {m : Move} (hc : Change job d d' m) :
    d'.take.next = d.take.next ∧ d'.sessions = d.sessions
      ∨ ∃ t w, m = .advance t ∧ d.workers[t]? = some w ∧ w.phase = .claiming
        ∧ d'.take.next = d.take.next + 1
        ∧ d'.sessions = d.sessions ++ [sessionOf job t d.take.next] := by
  cases hc with
  | between interim =>
      exact .inl ⟨interim.counters.1, interim.unmoved.adds.sessions.trans (List.append_nil _)⟩
  | @claimed t failed session turn opened someLeft moved =>
      refine .inr ⟨t, _, rfl, turn.before, rfl, moved.next someLeft, ?_⟩
      rw [turn.adds_of_claim.sessions, opened]
      rfl
  | finished turn ends take gate ended =>
      exact .inl ⟨by rw [take], turn.adds_of_end.sessions.trans (List.append_nil _)⟩
  | retired turn first moved =>
      exact .inl ⟨by rw [moved.take], turn.adds_of_retire.sessions.trans (List.append_nil _)⟩

/-- **Sessions are disciplined, whatever the interleaving**: whatever the items do, whichever hooks
they register and whatever the sink does. -/
theorem sessions_disciplined (h : Reachable job sink d) : Disciplined job d where
  single := h.window.executed
  own := fun s hs => ⟨h.thread_lt s hs, h.eq_sessionOf s hs⟩
  claims := fun m d' hstep => (change_of_step? hstep).sessions
  holder := by
    intro t i hi
    obtain ⟨w, hw, hitem⟩ := at?_eq_some.1 hi
    obtain ⟨s, hs, rfl, rfl⟩ := (h.attended t w hw).1 i hitem
    rwa [← h.eq_sessionOf s hs]
  labels := by
    have hnodup : (d.sessions.map Session.item).Nodup := by
      have := List.nodup_range (n := d.take.next)
      rwa [← h.window.executed] at this
    refine (List.Nodup.of_map _ hnodup).map_on fun s hs s' hs' hlabel => ?_
    exact h.session_unique hs hs' (Session.label_inj hlabel).2
  ordered := h.ordered
  closed := fun _ _ hw hidle _ hs hthread => h.closedIn_of_idle hw hidle hs hthread

/-- In the sample worker 1 waits at the gate with an item that is going to kill it, and the hook of
the item, which panics, has already run once. -/
theorem sessions_disciplined_sample : ∃ d, Reachable (sampleJob deadlyScript) {} d
    ∧ d.sessions.map Session.item = [0, 1, 2] ∧ d.Holds 1 1 ∧ hooksIn 1 d.history = ["close"] := by
  have hend : ((Dispatch.start (sampleJob deadlyScript) {}).run? (sampleJob deadlyScript)
      sampleMoves).map (fun d => (d.take.next, d.at? Phase.item? 1, d.at? Phase.busy? 1))
        = some (3, some 1, none) := by
    decide +kernel
  obtain ⟨d, hrun, hseen⟩ := Option.map_eq_some_iff.1 hend
  simp only [Prod.mk.injEq] at hseen
  obtain ⟨htaken, hheld, hbusy⟩ := hseen
  have hall : Disciplined (sampleJob deadlyScript) d := sessions_disciplined ⟨sampleMoves, hrun⟩
  have hsession := hall.holder 1 1 hheld
  obtain ⟨w, hw, -⟩ := at?_eq_some.1 hheld
  have hclosed := hall.closed 1 w hw (by simpa [at?, hw] using hbusy) _ hsession rfl
  exact ⟨d, ⟨_, hrun⟩, by rw [hall.single, htaken]; rfl, hheld, hclosed.hooks.trans (by decide)⟩

end Dispatch

end OrderedDispatch

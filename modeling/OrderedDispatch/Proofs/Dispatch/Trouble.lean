/-
**Every fault is reported, and reported once.**

The warnings and errors in the log are all that a dispatch tells of single items: the report itself
holds nothing but counts.  They are logged on different paths, which cross: an item may fail with
hooks that panic, be retired into a sink that panics as well, and take its worker with it.  Still
the log holds one warning or error for each of these, no more and no less.  They can be told apart
by the session: what went wrong in it was decided by its script, and what went wrong at its
retirement by the sink.  The two mutexes add nothing, for no panic passes through a worker while it
holds one of them; the lines about poisoned mutexes are never written.

The order of the lines depends on the interleaving, so that they are compared up to their order.

Main definitions:

* `Trouble`, `troublesIn` — a warning or an error, and those of a log;
* `Job.Quiet` — the work of the items logs no warnings and errors of its own;
* `Dispatch.workTroubles`, `Dispatch.retireTroubles` — what is to be said of the work of a session
  and of its retirement;
* `Dispatch.Reported` — the log tells of the work that has ended and of the items that are retired;
* `Dispatch.Sound` — no mutex has been found poisoned;
* `Pool.fullLog` — everything that a dispatch logs from its beginning to its end;
* `Dispatch.Told` — the log of a dispatch that is over tells of all that went wrong.

Main results:

* `Dispatch.Reachable.reported` — **the log tells of what has ended and what is retired**, at any
  moment;
* `Dispatch.Reachable.sound` — no mutex is ever found poisoned;
* `Dispatch.Reachable.troubles_perm` — the log of a dispatch that is over tells of its sessions;
* `Dispatch.troubles_told_once` — **no failure is silent, and none is reported twice**.
-/

import Mathlib.Data.List.Permutation
import OrderedDispatch.Proofs.Dispatch.Closing
import OrderedDispatch.Proofs.Gate.Poison

set_option relaxedAutoImplicit false
set_option autoImplicit false

namespace OrderedDispatch

/-! ### Warnings and errors -/

/-- A warning or an error, with the label of the session that it was logged in. -/
structure Trouble where
  level : Level
  session : Option String
  event : Event
  deriving DecidableEq

/-- The warning or error that a line of the log is, if it is one. -/
def Trouble.ofLine? (verbose : Bool) (line : Option String × Event) : Option Trouble :=
  match line.2.level verbose with
  | .error => some ⟨.error, line.1, line.2⟩
  | .warn => some ⟨.warn, line.1, line.2⟩
  | _ => none

/-- The warnings and errors of a log, in order. -/
def troublesIn (verbose : Bool) (log : List (Option String × Event)) : List Trouble :=
  log.filterMap (Trouble.ofLine? verbose)

theorem troublesIn_append (verbose : Bool) (log log' : List (Option String × Event)) :
    troublesIn verbose (log ++ log') = troublesIn verbose log ++ troublesIn verbose log' :=
  List.filterMap_append

/-- Which events are troubles does not depend on whether progress is shown. -/
theorem Trouble.ofLine?_eq_none_iff (verbose : Bool) (line : Option String × Event) :
    ofLine? verbose line = none ↔ line.2.isTrouble = false := by
  obtain ⟨label, event⟩ := line
  cases event <;> cases verbose <;>
    simp [ofLine?, Event.isTrouble, Event.level, Level.rank]

/-- What only tells of progress is no trouble. -/
theorem Trouble.ofLine?_eq_none {verbose : Bool} {label : Option String} {event : Event}
    (h : event.isTrouble = false) : ofLine? verbose (label, event) = none :=
  (ofLine?_eq_none_iff verbose (label, event)).2 h

theorem Trouble.event_of_ofLine? {verbose : Bool} {line : Option String × Event} {x : Trouble}
    (h : ofLine? verbose line = some x) : x.event = line.2 := by
  rw [ofLine?] at h
  split at h <;> cases h <;> rfl

/-- The warning or error that an entry of the history is, if it is one. -/
def Entry.trouble? (verbose : Bool) : Entry → Option Trouble
  | logged session event => Trouble.ofLine? verbose (session, event)
  | _ => none

/-- What has to be said about the way in which the work of an item ended. -/
def Ending.troubles (thread item : Nat) : Ending → List Trouble
  | succeeded => []
  | failed message => [⟨.warn, none, .itemFailed thread item message⟩]
  | panicked => [⟨.error, none, .itemPanicked thread item⟩]
  | killed => [⟨.error, none, .itemPanicked thread item⟩]

variable {σ : Type} {job : Job σ} {sink : σ}

/-- The work of the items logs no warnings and errors of its own. -/
def Job.Quiet (job : Job σ) : Prop :=
  ∀ t < job.threads, ∀ i < job.items, ∀ event, Step.note event ∈ job.work t i →
    event.isTrouble = false

namespace Dispatch

variable {d d' : Dispatch σ}

/-- The troubles of a dispatch are read off its history. -/
theorem troublesIn_log (verbose : Bool) (d : Dispatch σ) :
    troublesIn verbose d.log = d.history.filterMap (Entry.trouble? verbose) := by
  rw [troublesIn, log, List.filterMap_filterMap]
  refine congrArg (fun f => d.history.filterMap f) (funext fun e => ?_)
  cases e <;> rfl

/-! ### What has to be said about a session -/

/-- What has to be said about the work of a session: an error for each of its hooks that panics, and
a warning or an error if the work ends badly. -/
def workTroubles (job : Job σ) (s : Session) : List Trouble :=
  List.replicate ((job.work s.thread s.item).hooks.countP Hook.panics)
      ⟨.error, some s.identifier, .hookPanicked⟩
    ++ (job.work s.thread s.item).ending.troubles s.thread s.item

/-- What has to be said about the retirement of a session's item. -/
def retireTroubles (s : Session) (fault : Option Fault) : List Trouble :=
  fault.toList.map fun f => ⟨.error, none, .retireFault s.thread s.item f⟩

/-- What has to be said about the session of an item, if it has one. -/
def aboutItem (d : Dispatch σ) (f : Session → List Trouble) (i : Nat) : List Trouble :=
  d.sessions[i]?.toList.flatMap f

/-! ### What the groups of entries say -/

theorem troubles_outside (verbose : Bool) (events : List Event) :
    (outside events).filterMap (Entry.trouble? verbose)
      = events.filterMap fun e => Trouble.ofLine? verbose (none, e) := by
  rw [outside, List.filterMap_map]
  rfl

theorem troubles_inside (verbose : Bool) (s : Session) (events : List Event) :
    (inside s events).filterMap (Entry.trouble? verbose)
      = events.filterMap fun e => Trouble.ofLine? verbose (some s.identifier, e) := by
  rw [inside, List.filterMap_map]
  rfl

/-- A claim that meets no poisoned mutex says nothing. -/
theorem troubles_claimEntries (verbose : Bool) (t : Nat) {take : TakeCursor}
    (h : take.poisoned = false) :
    (claimEntries t take).filterMap (Entry.trouble? verbose) = [] := by
  simp [claimEntries, TakeCursor.claimEvents, claimFaultEvents, TakeCursor.offer, h, outside]

theorem troubles_openEntries (verbose : Bool) (s : Session) :
    (openEntries s).filterMap (Entry.trouble? verbose) = [] := by
  rw [openEntries, List.filterMap_append, List.filterMap_append, troubles_outside,
    troubles_inside, Session.openingEvents]
  cases s.settings.trace <;> simp [Entry.trouble?, Trouble.ofLine?_eq_none, Event.isTrouble,
    Event.level, Level.rank]

/-- Of the hooks of a session those say something that panic. -/
theorem troubles_hookEntries (verbose : Bool) (s : Session) :
    (hookEntries s).filterMap (Entry.trouble? verbose)
      = List.replicate (s.hooks.countP Hook.panics)
        ⟨.error, some s.identifier, .hookPanicked⟩ := by
  rw [hookEntries, Session.hooksInOrder, List.filterMap_flatMap]
  induction s.hooks with
  | nil => rfl
  | cons h rest ih =>
      rw [List.flatMap_cons, ih, List.filterMap_cons, troubles_inside, List.countP_cons]
      cases hp : h.panics <;> simp [Session.hookEvents, hp, List.replicate_succ] <;> rfl

theorem troubles_ending (verbose : Bool) (t i : Nat) (e : Ending) :
    (outside (e.events t i)).filterMap (Entry.trouble? verbose) = e.troubles t i := by
  rw [troubles_outside]
  cases e <;> rfl

/-- The end of an item's work says what has to be said about hooks and ending. -/
theorem troubles_endEntries (verbose : Bool) (t : Nat) (s : Session) (e : Ending) :
    (endEntries t s e).filterMap (Entry.trouble? verbose)
      = List.replicate (s.hooks.countP Hook.panics)
          ⟨.error, some s.identifier, .hookPanicked⟩
        ++ e.troubles t s.item := by
  have hclosing : (inside s (Session.closingEvents s.settings)).filterMap
      (Entry.trouble? verbose) = [] := by
    rw [troubles_inside, Session.closingEvents]
    cases s.settings.trace <;> rfl
  rw [endEntries, List.filterMap_append, List.filterMap_append, List.filterMap_cons, hclosing,
    troubles_ending, troubles_hookEntries, List.append_nil]
  rfl

/-- A retirement says what has to be said about its fault. -/
theorem troubles_retireEntries (verbose : Bool) (s : Session) (calls : List SinkCall)
    (fault : Option Fault) :
    (retireEntries s.thread s.item calls fault).filterMap (Entry.trouble? verbose)
      = retireTroubles s fault := by
  have hcalls : (calls.map Entry.called).filterMap (Entry.trouble? verbose) = [] := by
    simp [List.filterMap_map, Function.comp_def, Entry.trouble?]
  rw [retireEntries, List.filterMap_append, List.filterMap_append, hcalls, List.filterMap_cons,
    troubles_outside, troubles_outside]
  cases fault <;> rfl

/-- The steps between say nothing, if the work is quiet. -/
theorem Interim.untroubled {m : Move} (hs : Interim d d' m) (h : Reachable job sink d)
    (hquiet : job.Quiet) (verbose : Bool) :
    ∃ es, d'.history = d.history ++ es ∧ es.filterMap (Entry.trouble? verbose) = [] := by
  have hsound := h.unpoisoned
  cases hs with
  | begun turn same => exact ⟨_, turn.history, by cases verbose <;> rfl⟩
  | exited turn noneLeft moved =>
      refine ⟨_, turn.history, ?_⟩
      rw [List.filterMap_append, troubles_claimEntries verbose _ hsound.take]
      cases verbose <;> rfl
  | @worked t failed session session' step todo output output' es turn effect allowed same =>
      refine ⟨_, turn.history, ?_⟩
      cases step with
      | note event =>
          cases effect
          -- the note is one of the script
          have ht : t < job.threads := h.length_workers ▸ turn.lt_length
          have hheld := h.window.within (at?_eq_some.2 ⟨_, turn.before, rfl⟩)
          have hi := Nat.lt_of_lt_of_le hheld.2 h.window.bounded
          obtain ⟨-, hsuffix⟩ := (h.follows t _ turn.before).1 _ _ _ rfl
          have hmem := hsuffix.mem (List.mem_cons_self ..)
          rw [troubles_inside]
          simp [Trouble.ofLine?_eq_none (hquiet t ht _ hi event hmem)]
      | fail message => cases effect
      | panic => cases effect
      | kill => cases effect
      | _ => cases effect; rfl
  | arrived turn free moved =>
      refine ⟨_, turn.history, ?_⟩
      rw [hsound.gate]
      rfl
  | resumed turn free moved =>
      refine ⟨_, turn.history, ?_⟩
      rw [hsound.gate]
      rfl
  | slept turn notNext moved => exact ⟨_, turn.history, rfl⟩
  | woken turn same => exact ⟨_, turn.history, rfl⟩

/-! ### What the log has told so far -/

/-- The log tells of the work that has ended and of the items that are retired, and of nothing
else. -/
def Reported (job : Job σ) (d : Dispatch σ) : Prop :=
  (troublesIn job.settings.verbose d.log).Perm
    (d.endings.flatMap (fun p => d.aboutItem (workTroubles job) p.1)
      ++ d.retirements.flatMap fun p => d.aboutItem (retireTroubles · p.2) p.1)

/-- What has to be said about an item stays the same when sessions of later items are opened. -/
theorem aboutItem_of_append {sessions : List Session} (h : d'.sessions = d.sessions ++ sessions)
    (f : Session → List Trouble) {i : Nat} (hi : i < d.sessions.length) :
    d'.aboutItem f i = d.aboutItem f i := by
  rw [aboutItem, aboutItem, h, List.getElem?_append_left hi]

/-- What is numbered in order is found under its number. -/
theorem getElem?_of_map_eq_range {α : Type} {f : α → Nat} {l : List α} {n : Nat}
    (h : l.map f = List.range n) {a : α} (ha : a ∈ l) : l[f a]? = some a := by
  obtain ⟨i, hi⟩ := List.getElem?_of_mem ha
  have hlt : i < n := by
    rw [← List.length_range (n := n), ← h, List.length_map]
    exact (List.getElem?_eq_some_iff.1 hi).1
  have hnumber : (l.map f)[i]? = some (f a) := by rw [List.getElem?_map, hi]; rfl
  rw [h, List.getElem?_range hlt] at hnumber
  exact Option.some.inj hnumber ▸ hi

/-- The items are numbered like their sessions. -/
theorem Reachable.session_at (h : Reachable job sink d) {s : Session} (hs : s ∈ d.sessions) :
    d.sessions[s.item]? = some s :=
  getElem?_of_map_eq_range h.window.executed hs

/-- What has to be said about the item of a session, now and when later sessions are opened. -/
theorem Reachable.aboutItem_of_mem (h : Reachable job sink d) {sessions : List Session}
    (hsessions : d'.sessions = d.sessions ++ sessions) {s : Session} (hs : s ∈ d.sessions)
    (f : Session → List Trouble) : d'.aboutItem f s.item = f s := by
  have hat := h.session_at hs
  rw [aboutItem_of_append hsessions f (List.getElem?_eq_some_iff.1 hat).1, aboutItem, hat]
  exact List.append_nil _

/-- Work that has ended and items that are retired have had sessions. -/
theorem Reachable.lt_length_sessions (h : Reachable job sink d) :
    (∀ p ∈ d.endings, p.1 < d.sessions.length) ∧ ∀ p ∈ d.retirements, p.1 < d.sessions.length := by
  rw [h.length_sessions]
  refine ⟨fun p hp => ?_, fun p hp => ?_⟩
  · have hmem := List.mem_map_of_mem (f := Prod.fst) hp
    rw [h.settled.endings, List.mem_reverse] at hmem
    exact ((h.settled.mem_iff _).1 hmem).1
  · have hmem := List.mem_map_of_mem (f := Prod.fst) hp
    rw [h.window.retired, List.mem_range] at hmem
    exact Nat.lt_of_lt_of_le hmem h.window.ordered

/-- A step that says what has to be said about the work it ends and the item it retires. -/
theorem Reported.step (he : Reported job d) (h : Reachable job sink d) {es : List Entry}
    {calls : List SinkCall} {sessions : List Session} {endings : List (Nat × Ending)}
    {retirements : List (Nat × Option Fault)} (hhistory : d'.history = d.history ++ es)
    (adds : Adds d d' calls sessions endings retirements)
    (hsaid : es.filterMap (Entry.trouble? job.settings.verbose)
      = endings.flatMap (fun p => d'.aboutItem (workTroubles job) p.1)
        ++ retirements.flatMap fun p => d'.aboutItem (retireTroubles · p.2) p.1) :
    Reported job d' := by
  obtain ⟨hended, hretired⟩ := h.lt_length_sessions
  have hbefore : d.endings.flatMap (fun p => d'.aboutItem (workTroubles job) p.1)
      = d.endings.flatMap fun p => d.aboutItem (workTroubles job) p.1 :=
    List.flatMap_congr fun p hp => aboutItem_of_append adds.sessions _ (hended p hp)
  have hbefore' : d.retirements.flatMap (fun p => d'.aboutItem (retireTroubles · p.2) p.1)
      = d.retirements.flatMap fun p => d.aboutItem (retireTroubles · p.2) p.1 :=
    List.flatMap_congr fun p hp => aboutItem_of_append adds.sessions _ (hretired p hp)
  rw [Reported, troublesIn_log] at he ⊢
  rw [hhistory, adds.endings, adds.retirements, List.filterMap_append, List.flatMap_append,
    List.flatMap_append, hbefore, hbefore', hsaid]
  refine (he.append_right _).trans ?_
  simp only [List.append_assoc]
  exact (List.perm_append_comm_assoc _ _ _).append_left _

/-- Work ends as its script says. -/
theorem Reachable.ending_of_endsNow? (h : Reachable job sink d) {t : Nat} {session : Session}
    {todo : Script} {output : List UInt8} {failed : Bool} {ending : Ending}
    (hw : d.workers[t]? = some ⟨.working session todo output, failed⟩)
    (ends : todo.endsNow? = some ending) : ending = (job.work t session.item).ending :=
  (Script.ending_of_endsNow? ends).2.symm.trans
    (congrArg Parcel.ending ((h.follows t _ hw).2 _ rfl))

/-- **The log tells of the work that has ended and of the items that are retired**, and of nothing
else, whatever the interleaving. -/
theorem Reachable.reported (h : Reachable job sink d) (hquiet : job.Quiet) : Reported job d := by
  refine h.invariant (List.Perm.refl _) ?_
  intro e e' m hreach he hc
  have hsound := hreach.unpoisoned
  cases hc with
  | between interim =>
      obtain ⟨es, hhistory, hnone⟩ := interim.untroubled hreach hquiet job.settings.verbose
      exact he.step hreach hhistory interim.unmoved.adds hnone
  | claimed turn opened someLeft moved =>
      refine he.step hreach turn.history turn.adds_of_claim ?_
      rw [List.filterMap_append, troubles_claimEntries _ _ hsound.take, troubles_openEntries]
      rfl
  | @finished t failed session todo output ending turn ends take gate ended =>
      refine he.step hreach turn.history turn.adds_of_end ?_
      -- the session in the log is the one that this worker has opened for the item
      obtain ⟨s, hs, hthread, hitem⟩ := (hreach.attended t _ turn.before).1 _ rfl
      have hsession := ((hreach.follows t _ turn.before).1 _ _ _ rfl).1
      have hlabel : session.identifier = s.identifier := by
        rw [Session.identifier, Session.identifier, hsession, hthread, hitem]
      have hhooks := hreach.registered turn.before
      rw [Script.hooks_of_endsNow? ends, List.append_nil] at hhooks
      have hending := hreach.ending_of_endsNow? turn.before ends
      rw [troubles_endEntries, List.flatMap_singleton, List.flatMap_nil, List.append_nil, ← hitem,
        hreach.aboutItem_of_mem turn.adds_of_end.sessions hs, workTroubles, hlabel, hending,
        hthread, hitem, ← hhooks, List.countP_reverse]
  | @retired t failed output ending carried fault turn first moved =>
      refine he.step hreach turn.history turn.adds_of_retire ?_
      obtain ⟨s, hs, hthread, hitem⟩ := (hreach.attended t _ turn.before).1 _ rfl
      rw [← hthread, ← hitem, troubles_retireEntries, List.flatMap_singleton, List.flatMap_nil,
        List.nil_append, hreach.aboutItem_of_mem turn.adds_of_retire.sessions hs]

/-! ### No mutex is found poisoned -/

/-- No retirement reports a poisoned mutex. -/
theorem Reachable.retirement_ne_poisoned (h : Reachable job sink d) :
    ∀ p ∈ d.retirements, ∀ lock, p.2 ≠ some (.poisoned lock) := by
  refine h.invariant (P := fun d => ∀ p ∈ d.retirements, ∀ lock, p.2 ≠ some (.poisoned lock))
    nofun ?_
  intro e e' m hreach he hc
  cases hc with
  | between interim => rw [interim.unmoved.adds.retirements, List.append_nil]; exact he
  | claimed turn opened someLeft moved =>
      rw [turn.adds_of_claim.retirements, List.append_nil]
      exact he
  | finished turn ends take gate ended =>
      rw [turn.adds_of_end.retirements, List.append_nil]
      exact he
  | @retired t failed output ending carried fault turn first moved =>
      obtain rfl : carried = none := hreach.unpoisoned.carried_of turn.before
      intro p hp
      rw [turn.adds_of_retire.retirements] at hp
      rcases List.mem_append.1 hp with hp | hp
      · exact he p hp
      · obtain rfl := List.mem_singleton.1 hp
        rw [first]
        exact job.sink.retire_fault_ne_poisoned _ output

end Dispatch

/-- Whether an event tells that a mutex was found poisoned. -/
def Event.tellsOfPoison : Event → Bool
  | recovering _ | recoveringAwake => true
  | claimFault _ (.poisoned _) | retireFault _ _ (.poisoned _) => true
  | _ => false

theorem Event.isTrouble_of_tellsOfPoison {e : Event} (h : e.tellsOfPoison = true) :
    e.isTrouble = true := by
  cases e <;> first | rfl | cases h

namespace Dispatch

variable {d d' : Dispatch σ}

/-- **No mutex is ever found poisoned**: neither is poisoned, and nothing in the log tells of one
that was. -/
structure Sound (d : Dispatch σ) : Prop where
  take : d.take.poisoned = false
  gate : d.gate.poisoned = false
  silent : ∀ line ∈ d.log, line.2.tellsOfPoison = false

theorem tellsOfPoison_of_mem_workTroubles {s : Session} {x : Trouble}
    (hx : x ∈ workTroubles job s) : x.event.tellsOfPoison = false := by
  rcases List.mem_append.1 hx with hx | hx
  · rw [List.eq_of_mem_replicate hx]
    rfl
  · cases hending : (job.work s.thread s.item).ending <;> rw [hending] at hx <;>
      simp only [Ending.troubles, List.mem_singleton, List.not_mem_nil] at hx <;> rw [hx] <;> rfl

theorem tellsOfPoison_of_mem_retireTroubles {s : Session} {fault : Option Fault} {x : Trouble}
    (hfault : ∀ lock, fault ≠ some (.poisoned lock)) (hx : x ∈ retireTroubles s fault) :
    x.event.tellsOfPoison = false := by
  obtain ⟨f, hf, rfl⟩ := List.mem_map.1 hx
  obtain rfl := Option.mem_toList.1 hf
  cases f with
  | poisoned lock => exact absurd rfl (hfault lock)
  | _ => rfl

/-- **No mutex is ever found poisoned**, whatever panics. -/
theorem Reachable.sound (h : Reachable job sink d) (hquiet : job.Quiet) : Sound d where
  take := h.unpoisoned.take
  gate := h.unpoisoned.gate
  silent := by
    intro line hline
    refine Bool.eq_false_iff.2 fun htells => ?_
    -- such a line would be an error, and the log has no errors but those that were accounted for
    cases hx : Trouble.ofLine? job.settings.verbose line with
    | none =>
        rw [Trouble.ofLine?_eq_none_iff, Event.isTrouble_of_tellsOfPoison htells] at hx
        cases hx
    | some x =>
        have hmem := (h.reported hquiet).mem_iff.1 (List.mem_filterMap.2 ⟨line, hline, hx⟩)
        rw [← Trouble.event_of_ofLine? hx] at htells
        rcases List.mem_append.1 hmem with hmem | hmem
        · obtain ⟨p, hp, hmem⟩ := List.mem_flatMap.1 hmem
          obtain ⟨s, -, hmem⟩ := List.mem_flatMap.1 hmem
          rw [tellsOfPoison_of_mem_workTroubles hmem] at htells
          cases htells
        · obtain ⟨p, hp, hmem⟩ := List.mem_flatMap.1 hmem
          obtain ⟨s, -, hmem⟩ := List.mem_flatMap.1 hmem
          rw [tellsOfPoison_of_mem_retireTroubles (h.retirement_ne_poisoned p hp) hmem] at htells
          cases htells

/-! ### When it is over -/

/-- The fault that the retirement of an item has reported: items are retired in order. -/
def faultOf (d : Dispatch σ) (item : Nat) : Option Fault := d.retirements[item]?.bind Prod.snd

/-- The work of an item has ended as its script on the thread of its session says. -/
theorem Reachable.ending_of_session (h : Reachable job sink d) :
    ∀ p ∈ d.endings, ∃ s ∈ d.sessions, p = (s.item, (job.work s.thread s.item).ending) := by
  refine h.invariant (P := fun d => ∀ p ∈ d.endings, ∃ s ∈ d.sessions,
    p = (s.item, (job.work s.thread s.item).ending)) nofun ?_
  intro e e' m hreach he hc
  cases hc with
  | between interim =>
      rw [interim.unmoved.adds.endings, interim.unmoved.adds.sessions, List.append_nil,
        List.append_nil]
      exact he
  | claimed turn opened someLeft moved =>
      rw [turn.adds_of_claim.endings, turn.adds_of_claim.sessions, List.append_nil]
      exact fun p hp => (he p hp).imp fun s hs => ⟨List.mem_append_left _ hs.1, hs.2⟩
  | @finished t failed session todo output ending turn ends take gate ended =>
      rw [turn.adds_of_end.endings, turn.adds_of_end.sessions, List.append_nil]
      intro p hp
      rcases List.mem_append.1 hp with hp | hp
      · exact he p hp
      · obtain rfl := List.mem_singleton.1 hp
        obtain ⟨s, hs, hthread, hitem⟩ := (hreach.attended t _ turn.before).1 _ rfl
        refine ⟨s, hs, ?_⟩
        rw [hthread, hitem, hreach.ending_of_endsNow? turn.before ends]
  | retired turn first moved =>
      rw [turn.adds_of_retire.endings, turn.adds_of_retire.sessions, List.append_nil,
        List.append_nil]
      exact he

/-- When a dispatch is over, the work of every session has ended. -/
theorem Reachable.mem_ended_of_isOver (h : Reachable job sink d) (hover : d.isOver = true)
    {s : Session} (hs : s ∈ d.sessions) : s.item ∈ d.ended := by
  refine (h.settled.mem_iff _).2 ⟨?_, fun t ht => ?_⟩
  · rw [← h.length_sessions]
    exact (List.getElem?_eq_some_iff.1 (h.session_at hs)).1
  · obtain ⟨w, hw, hbusy⟩ := at?_eq_some.1 ht
    have hitem := Phase.item?_of_busy? hbusy
    rw [Phase.item?_of_isFinal (List.all_eq_true.1 hover w (List.mem_of_getElem? hw))] at hitem
    cases hitem

/-- When a dispatch is over, the work of every session has ended as its script says. -/
theorem Reachable.endings_perm (h : Reachable job sink d) (hover : d.isOver = true) :
    d.endings.Perm (d.sessions.map fun s => (s.item, (job.work s.thread s.item).ending)) := by
  have hnodup : (d.endings.map Prod.fst).Nodup := by
    rw [h.settled.endings]
    exact List.nodup_reverse.2 h.settled.nodup
  have hnodup' : (d.sessions.map Session.item).Nodup := by
    have := List.nodup_range (n := d.take.next)
    rwa [← h.window.executed] at this
  refine (List.perm_ext_iff_of_nodup (List.Nodup.of_map _ hnodup) ?_).2 fun p => ⟨fun hp => ?_,
    fun hp => ?_⟩
  · refine List.Nodup.of_map Prod.fst ?_
    rwa [List.map_map]
  · obtain ⟨s, hs, rfl⟩ := h.ending_of_session p hp
    exact List.mem_map_of_mem hs
  · obtain ⟨s, hs, rfl⟩ := List.mem_map.1 hp
    have hended := h.mem_ended_of_isOver hover hs
    rw [← List.mem_reverse, ← h.settled.endings] at hended
    obtain ⟨p, hmem, hitem⟩ := List.mem_map.1 hended
    obtain ⟨s', hs', rfl⟩ := h.ending_of_session p hmem
    obtain rfl := h.session_unique hs' hs hitem
    exact hmem

/-- When a dispatch is over, the items of all sessions are retired. -/
theorem Reachable.retirements_eq_map (h : Reachable job sink d) (hover : d.isOver = true) :
    d.retirements = d.sessions.map fun s => (s.item, d.faultOf s.item) := by
  have hitems : d.sessions.map Session.item = d.retirements.map Prod.fst := by
    rw [h.window.retired, h.next_eq_taken hover]
    exact h.window.executed
  have hpairs : d.retirements.map (fun p => (p.1, d.faultOf p.1)) = d.retirements := by
    refine (List.map_congr_left fun p hp => ?_).trans (List.map_id _)
    rw [faultOf, getElem?_of_map_eq_range h.window.retired hp]
    rfl
  calc d.retirements = (d.retirements.map Prod.fst).map fun i => (i, d.faultOf i) := by
        rw [List.map_map]
        exact hpairs.symm
    _ = d.sessions.map fun s => (s.item, d.faultOf s.item) := by
        rw [← hitems, List.map_map]
        rfl

/-- What has to be said about a session: about its work, and about its retirement. -/
def sessionTroubles (job : Job σ) (d : Dispatch σ) (s : Session) : List Trouble :=
  workTroubles job s ++ retireTroubles s (d.faultOf s.item)

/-- **The log of a dispatch that is over tells of its sessions**, and of nothing else. -/
theorem Reachable.troubles_perm (h : Reachable job sink d) (hquiet : job.Quiet)
    (hover : d.isOver = true) :
    (troublesIn job.settings.verbose d.log).Perm (d.sessions.flatMap (d.sessionTroubles job)) := by
  have hnow : d.sessions = d.sessions ++ [] := (List.append_nil _).symm
  have hwork : (d.endings.flatMap fun p => d.aboutItem (workTroubles job) p.1).Perm
      (d.sessions.flatMap (workTroubles job)) := by
    refine ((h.endings_perm hover).flatMap_right _).trans (List.Perm.of_eq ?_)
    rw [List.flatMap_map]
    exact List.flatMap_congr fun s hs => h.aboutItem_of_mem hnow hs _
  have hretire : (d.retirements.flatMap fun p => d.aboutItem (retireTroubles · p.2) p.1)
      = d.sessions.flatMap fun s => retireTroubles s (d.faultOf s.item) := by
    rw [h.retirements_eq_map hover, List.flatMap_map]
    exact List.flatMap_congr fun s hs => h.aboutItem_of_mem hnow hs _
  have hsaid := h.reported hquiet
  rw [Reported, hretire] at hsaid
  exact hsaid.trans ((hwork.append_right _).trans (List.flatMap_append_perm ..))

/-- The workers that have died. -/
def deadWorkers (d : Dispatch σ) : List Nat :=
  (List.range d.workers.length).filter fun t => d.workers[t]?.any Worker.hasDied

end Dispatch

/-! ### From beginning to end -/

/-- What the report itself says: an error for each worker that has died, and a warning if the
dispatch failed. -/
def Report.troubles (r : Report) (dead : List Nat) : List Trouble :=
  dead.map (fun t => ⟨.error, none, .notJoined t⟩)
    ++ if r.isSuccess then []
      else [⟨.warn, none, .finishedWithFaults r.failedThreads r.joinFailures⟩]

/-- Everything that a dispatch on a pool logs from its beginning to its end. -/
def Pool.fullLog (p : Pool) (available : Nat) (job : Job σ) (d : Dispatch σ) :
    List (Option String × Event) :=
  (p.sizing.events available job.items ++ [Event.creating job.threads job.items]).map (none, ·)
    ++ d.log ++ ((Report.ofDispatch job d).events d.workers).map (none, ·)

/-- The log of a whole dispatch is that of the state in which the workers left it. -/
theorem Pool.run_log (p : Pool) (available : Nat) {items : Nat} (hitems : 0 < items)
    (work : (thread item : Nat) → Script) (k : Sink σ) (s : σ) :
    (p.run available items work k s).log
      = p.fullLog available (p.job available items work k)
        (p.run available items work k s).final := by
  simp only [run, Nat.ne_of_gt hitems, if_false]
  rfl

/-- Nothing goes wrong before the workers are created. -/
theorem Pool.troubles_events (p : Pool) (verbose : Bool) (available items threads : Nat) :
    troublesIn verbose ((p.sizing.events available items
      ++ [Event.creating threads items]).map (none, ·)) = [] := by
  have hsizing : ∀ event ∈ p.sizing.events available items ++ [Event.creating threads items],
      event.isTrouble = false := by
    rw [Sizing.Policy.events, Sizing.estimateEvent]
    intro event he
    rcases List.mem_append.1 he with he | he
    · split at he
      · rw [List.mem_singleton.1 he]
        split <;> rfl
      · cases he
    · rw [List.mem_singleton.1 he]
      rfl
  rw [troublesIn, List.filterMap_map, List.filterMap_eq_nil_iff]
  exact fun event he => Trouble.ofLine?_eq_none (hsizing event he)

/-- Of the workers waited for, those are told that have died. -/
theorem Report.troubles_joinEvents (verbose : Bool) (d : Dispatch σ) :
    troublesIn verbose ((joinEvents d.workers).map (none, ·))
      = d.deadWorkers.map fun t => ⟨.error, none, .notJoined t⟩ := by
  rw [troublesIn, List.filterMap_map, joinEvents, List.filterMap_filterMap, Dispatch.deadWorkers,
    ← List.filterMap_eq_map, List.filterMap_filter]
  refine List.filterMap_congr fun t _ => ?_
  cases d.workers[t]? with
  | none => rfl
  | some w =>
      simp only [Option.map_some, Option.getD_some, Option.any_some]
      split <;> rfl

/-- At the end it is said who has died, and whether the dispatch failed. -/
theorem Report.troubles_events (r : Report) (verbose : Bool) (d : Dispatch σ) :
    troublesIn verbose ((r.events d.workers).map (none, ·)) = r.troubles d.deadWorkers := by
  rw [troubles, ← Report.troubles_joinEvents verbose, events, List.map_append, troublesIn_append]
  cases r.isSuccess <;> cases verbose <;> rfl

namespace Dispatch

variable {d : Dispatch σ}

/-- **The log of a dispatch tells of all that went wrong, and of each thing once.** -/
structure Told (p : Pool) (available : Nat) (job : Job σ) (d : Dispatch σ) : Prop where
  /-- each item that has been claimed has had one session -/
  single : d.executed = List.range d.take.next
  /-- the work of each session has ended, as its script says -/
  ended : d.endings.Perm (d.sessions.map fun s => (s.item, (job.work s.thread s.item).ending))
  /-- all hooks of each session have run -/
  closed : ∀ s ∈ d.sessions, ClosedIn job d.history s
  /-- the item of each session has been retired -/
  retired : d.retirements = d.sessions.map fun s => (s.item, d.faultOf s.item)
  /-- the warnings and errors are those about the sessions, the dead workers and the outcome -/
  troubles : (troublesIn job.settings.verbose (p.fullLog available job d)).Perm
    (d.sessions.flatMap (d.sessionTroubles job)
      ++ (Report.ofDispatch job d).troubles d.deadWorkers)

/-- **No failure is silent, and none is reported twice**, whatever the interleaving.  If the work
logs no warnings and errors of its own, those in the log of a dispatch that is over are, up to their
order, exactly these: for each session an error for each hook that panics, a warning if the work
failed or an error if it panicked, and an error if the retirement reported a fault; an error for
each worker that has died; and a warning at the end if the dispatch failed.  And at no moment has a
mutex been found poisoned. -/
theorem troubles_told_once (p : Pool) (available : Nat) (hquiet : job.Quiet)
    (h : Reachable job sink d) : Sound d ∧ (d.isOver = true → Told p available job d) := by
  refine ⟨h.sound hquiet, fun hover => ?_⟩
  have htold := h.troubles_perm hquiet hover
  refine ⟨h.window.executed, h.endings_perm hover,
    fun s hs => h.closing.closed s hs (h.mem_ended_of_isOver hover hs),
    h.retirements_eq_map hover, ?_⟩
  have hparts : troublesIn job.settings.verbose (p.fullLog available job d)
      = troublesIn job.settings.verbose d.log
        ++ (Report.ofDispatch job d).troubles d.deadWorkers := by
    rw [← Report.troubles_events _ job.settings.verbose,
      ← List.nil_append (troublesIn _ d.log), ← p.troubles_events job.settings.verbose available
        job.items job.threads]
    rw [Pool.fullLog, troublesIn_append, troublesIn_append]
  rw [hparts]
  exact htold.append_right _

/-- In the sample item 1 has a hook that panics and kills its worker, item 2 fails, and the sink
panics while item 0 is retired.  All of it is in the log, and nothing else. -/
theorem troubles_told_once_sample : ∃ d, Reachable (sampleJob deadlyScript) {} d
    ∧ d.isOver = true ∧ Sound d
    ∧ (troublesIn false (Pool.fullLog {} 0 (sampleJob deadlyScript) d)).Perm
      [⟨.error, none, .retireFault 0 0 .sinkPanicked⟩,
        ⟨.error, some "thread_1_item_1", .hookPanicked⟩, ⟨.error, none, .itemPanicked 1 1⟩,
        ⟨.warn, none, .itemFailed 0 2 "broken"⟩, ⟨.error, none, .notJoined 1⟩,
        ⟨.warn, none, .finishedWithFaults 1 1⟩] := by
  have hquiet : (sampleJob deadlyScript).Quiet := by
    intro t _ i _ event hevent
    simp only [sampleJob, deadlyScript] at hevent
    split at hevent <;> simp at hevent
  have hend : ((Dispatch.start (sampleJob deadlyScript) {}).run? (sampleJob deadlyScript)
      (sampleMoves ++ [0, 0, 0, 0, 1, 1, 0, 0, 0].map Move.advance)).map (fun d =>
        (d.isOver, d.sessions.flatMap (d.sessionTroubles (sampleJob deadlyScript))
          ++ (Report.ofDispatch (sampleJob deadlyScript) d).troubles d.deadWorkers))
      = some (true, [⟨.error, none, .retireFault 0 0 .sinkPanicked⟩,
        ⟨.error, some "thread_1_item_1", .hookPanicked⟩, ⟨.error, none, .itemPanicked 1 1⟩,
        ⟨.warn, none, .itemFailed 0 2 "broken"⟩, ⟨.error, none, .notJoined 1⟩,
        ⟨.warn, none, .finishedWithFaults 1 1⟩]) := by
    cbv
  obtain ⟨d, hrun, hseen⟩ := Option.map_eq_some_iff.1 hend
  obtain ⟨hover, htroubles⟩ := Prod.mk.inj hseen
  have h : Reachable (sampleJob deadlyScript) {} d := ⟨_, hrun⟩
  obtain ⟨hsound, htold⟩ := troubles_told_once {} 0 hquiet h
  exact ⟨d, h, hover, hsound, htroubles ▸ (htold hover).troubles⟩

end Dispatch

end OrderedDispatch

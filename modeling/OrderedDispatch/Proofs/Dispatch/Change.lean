/-
**What a step of a dispatch can do.**

A step belongs to one worker.  It takes this worker from one place to another, may move one of the
two cursors, and adds to the history; the other workers stay where they are, except that a
retirement wakes those who sleep.  Three kinds of step matter for the items: an item is claimed, its
work ends, it is retired.  Seven kinds lie between those and move no item.  This module lists all
ten, each with its guard and with everything that it changes.  What is true of every interleaving is
derived from the list, so that no other proof opens the step function.

Main definitions:

* `Dispatch.at?` — what is to be seen of the place of a worker;
* `Dispatch.Turn` — one worker goes from one place to another while something happens;
* `Dispatch.Adds` — what is added to the views of the history;
* `Dispatch.Interim`, `Dispatch.Change` — the seven kinds of step between, and all ten.

Main results:

* `Dispatch.change_of_step?` — **every step is one of the ten**;
* `Dispatch.Turn.at?`, `Dispatch.Turn.countP` — what a turn does to what is to be seen of the
  workers, and to a number of workers;
* `Dispatch.Turn.adds_of_claim`, `Dispatch.Turn.adds_of_end`, `Dispatch.Turn.adds_of_retire` — what a
  claim, the end of an item's work and a retirement add to the history;
* `Dispatch.Interim.unmoved` — what stays in the seven kinds of step between.
-/

import OrderedDispatch.Proofs.Count
import OrderedDispatch.Proofs.Dispatch.History
import OrderedDispatch.Proofs.Dispatch.Parcel

set_option relaxedAutoImplicit false
set_option autoImplicit false

namespace OrderedDispatch

namespace Dispatch

variable {σ : Type}

/-! ### What is to be seen of the workers -/

/-- What is to be seen of the place of a worker, if there is such a worker. -/
def at? {α : Type} (d : Dispatch σ) (f : Phase → Option α) (t : Nat) : Option α :=
  d.workers[t]?.bind fun w => f w.phase

theorem at?_eq_some {α : Type} {d : Dispatch σ} {f : Phase → Option α} {t : Nat} {a : α} :
    d.at? f t = some a ↔ ∃ w, d.workers[t]? = some w ∧ f w.phase = some a := by
  simp only [at?, Option.bind_eq_some_iff]

/-! ### One worker's turn -/

/-- One worker goes from `w` to `w'` while `es` happens; the others stay where they are, or are
woken if `wakes` says so. -/
structure Turn (d d' : Dispatch σ) (t : Nat) (w w' : Worker) (es : List Entry) (wakes : Bool) :
    Prop where
  before : d.workers[t]? = some w
  workers : d'.workers = (if wakes then d.workers.map Worker.notified else d.workers).set t w'
  history : d'.history = d.history ++ es

namespace Turn

variable {d d' : Dispatch σ} {t : Nat} {w w' : Worker} {es : List Entry} {wakes : Bool}

theorem lt_length (h : Turn d d' t w w' es wakes) : t < d.workers.length :=
  (List.getElem?_eq_some_iff.1 h.before).1

/-- No worker comes or goes. -/
theorem length (h : Turn d d' t w w' es wakes) : d'.workers.length = d.workers.length := by
  rw [h.workers]
  split <;> simp

/-- The worker whose turn it is stands where the turn took it. -/
theorem self (h : Turn d d' t w w' es wakes) : d'.workers[t]? = some w' := by
  have hlt := h.lt_length
  rw [h.workers]
  split <;> simp [hlt]

/-- Another worker stands where it stood, or has been woken. -/
theorem other (h : Turn d d' t w w' es wakes) {u : Nat} (hu : u ≠ t) :
    d'.workers[u]? = if wakes then d.workers[u]?.map Worker.notified else d.workers[u]? := by
  rw [h.workers]
  split <;> simp [List.getElem?_set_ne (Ne.symm hu)]

/-- Where a worker stood that stands somewhere after the turn of another. -/
theorem of_other (h : Turn d d' t w w' es wakes) {u : Nat} (hu : u ≠ t) {v : Worker}
    (hv : d'.workers[u]? = some v) :
    ∃ v₀, d.workers[u]? = some v₀
      ∧ (wakes = false ∧ v = v₀ ∨ wakes = true ∧ v = v₀.notified) := by
  rw [h.other hu] at hv
  cases wakes with
  | false => exact ⟨v, hv, Or.inl ⟨rfl, rfl⟩⟩
  | true =>
      obtain ⟨v₀, hv₀, rfl⟩ := Option.map_eq_some_iff.1 hv
      exact ⟨v₀, hv₀, Or.inr ⟨rfl, rfl⟩⟩

/-- **What holds of every worker** after a turn: what holds of the worker whose turn it is, and what
the others have kept. -/
theorem forall_workers (h : Turn d d' t w w' es wakes) {P : Nat → Worker → Prop} (hw' : P t w')
    (hkeep : wakes = false → ∀ u v, u ≠ t → d.workers[u]? = some v → P u v)
    (hwake : wakes = true → ∀ u v, u ≠ t → d.workers[u]? = some v → P u v.notified) :
    ∀ u v, d'.workers[u]? = some v → P u v := by
  intro u v hv
  by_cases hu : u = t
  · subst hu
    obtain rfl := Option.some.inj (h.self.symm.trans hv)
    exact hw'
  · obtain ⟨v₀, hv₀, ⟨hwakes, rfl⟩ | ⟨hwakes, rfl⟩⟩ := h.of_other hu hv
    · exact hkeep hwakes u v hu hv₀
    · exact hwake hwakes u v₀ hu hv₀

section Seen

variable {α : Type} {f : Phase → Option α}

/-- A turn changes what is to be seen of one worker only, if being woken is not to be seen. -/
theorem at? (h : Turn d d' t w w' es wakes) (hf : ∀ p : Phase, f p.notified = f p) (u : Nat) :
    d'.at? f u = if u = t then f w'.phase else d.at? f u := by
  split
  · rename_i hu
    subst hu
    simp [Dispatch.at?, h.self]
  · rename_i hu
    rw [Dispatch.at?, Dispatch.at?, h.other hu]
    split
    · cases d.workers[u]? with
      | none => rfl
      | some v => exact hf v.phase
    · rfl

theorem at?_before (h : Turn d d' t w w' es wakes) : d.at? f t = f w.phase := by
  simp [Dispatch.at?, h.before]

/-- A turn after which the worker shows what it showed changes nothing that is to be seen. -/
theorem at?_same (h : Turn d d' t w w' es wakes) (hf : ∀ p : Phase, f p.notified = f p)
    (hsame : f w'.phase = f w.phase) : d'.at? f = d.at? f := by
  funext u
  rw [h.at? hf]
  split
  · rename_i hu
    subst hu
    rw [hsame, h.at?_before]
  · rfl

end Seen

/-- A turn changes a number of workers by what it changes for one of them, if being woken does not
count. -/
theorem countP (h : Turn d d' t w w' es wakes) {p : Worker → Bool}
    (hp : ∀ v : Worker, p v.notified = p v) :
    d'.workers.countP p + (p w).toNat = d.workers.countP p + (p w').toNat := by
  rw [h.workers]
  split
  · have hmap : (d.workers.map Worker.notified).countP p = d.workers.countP p := by
      rw [List.countP_map]
      exact List.countP_congr fun v _ => by simp [hp v]
    have hbefore : (d.workers.map Worker.notified)[t]? = some w.notified := by simp [h.before]
    have hset := countP_set_add (p := p) hbefore w'
    rwa [hp, hmap] at hset
  · exact countP_set_add h.before w'

end Turn

/-! ### What is added to the history -/

/-- What is added to the calls, the sessions, the ends of work and the retirements. -/
structure Adds (d d' : Dispatch σ) (calls : List SinkCall) (sessions : List Session)
    (endings : List (Nat × Ending)) (retirements : List (Nat × Option Fault)) : Prop where
  calls : d'.calls = d.calls ++ calls
  sessions : d'.sessions = d.sessions ++ sessions
  endings : d'.endings = d.endings ++ endings
  retirements : d'.retirements = d.retirements ++ retirements

theorem Adds.executed {d d' : Dispatch σ} {calls : List SinkCall} {sessions : List Session}
    {endings : List (Nat × Ending)} {retirements : List (Nat × Option Fault)}
    (h : Adds d d' calls sessions endings retirements) :
    d'.executed = d.executed ++ sessions.map Session.item := by
  rw [Dispatch.executed, Dispatch.executed, h.sessions, List.map_append]

namespace Turn

variable {d d' : Dispatch σ} {t : Nat} {w w' : Worker} {wakes : Bool}

/-- A turn adds what the views see of its entries. -/
theorem adds {es : List Entry} (h : Turn d d' t w w' es wakes) :
    Adds d d' (es.filterMap Entry.call?) (es.filterMap Entry.session?)
      (es.filterMap Entry.ending?) (es.filterMap Entry.retirement?) where
  calls := by rw [calls_eq, calls_eq, h.history, List.filterMap_append]
  sessions := by rw [sessions_eq, sessions_eq, h.history, List.filterMap_append]
  endings := by rw [endings_eq, endings_eq, h.history, List.filterMap_append]
  retirements := by rw [retirements_eq, retirements_eq, h.history, List.filterMap_append]

/-- A turn that only logs adds nothing. -/
theorem adds_of_onlyLogs {es : List Entry} (h : Turn d d' t w w' es wakes) (hlogs : OnlyLogs es) :
    Adds d d' [] [] [] [] := by
  have := h.adds
  rwa [hlogs.filterMap (fun _ _ => rfl), hlogs.filterMap (fun _ _ => rfl),
    hlogs.filterMap (fun _ _ => rfl), hlogs.filterMap (fun _ _ => rfl)] at this

/-- A claim adds a session. -/
theorem adds_of_claim {take : TakeCursor} {session : Session}
    (h : Turn d d' t w w' (claimEntries t take ++ openEntries session) wakes) :
    Adds d d' [] [session] [] [] := by
  have := h.adds
  rwa [filterMap_claimEntries_append (fun _ _ => rfl), filterMap_openEntries (fun _ _ => rfl),
    filterMap_claimEntries_append (fun _ _ => rfl), filterMap_openEntries (fun _ _ => rfl),
    filterMap_claimEntries_append (fun _ _ => rfl), filterMap_openEntries (fun _ _ => rfl),
    filterMap_claimEntries_append (fun _ _ => rfl), filterMap_openEntries (fun _ _ => rfl)] at this

/-- The end of an item's work adds just that. -/
theorem adds_of_end {session : Session} {ending : Ending}
    (h : Turn d d' t w w' (endEntries t session ending) wakes) :
    Adds d d' [] [] [(session.item, ending)] [] := by
  have := h.adds
  rwa [filterMap_endEntries (fun _ _ => rfl) (fun _ _ => rfl),
    filterMap_endEntries (fun _ _ => rfl) (fun _ _ => rfl),
    filterMap_endEntries (fun _ _ => rfl) (fun _ _ => rfl),
    filterMap_endEntries (fun _ _ => rfl) (fun _ _ => rfl)] at this

/-- A retirement adds the calls of the sink and itself. -/
theorem adds_of_retire {item : Nat} {calls : List SinkCall} {fault : Option Fault}
    (h : Turn d d' t w w' (retireEntries t item calls fault) wakes) :
    Adds d d' calls [] [] [(item, fault)] := by
  have := h.adds
  rw [filterMap_retireEntries (fun _ _ => rfl), filterMap_retireEntries (fun _ _ => rfl),
    filterMap_retireEntries (fun _ _ => rfl), filterMap_retireEntries (fun _ _ => rfl)] at this
  simpa only [Entry.call?, Entry.session?, Entry.ending?, Entry.retirement?, List.filterMap_none,
    List.filterMap_some, Option.toList, List.append_nil, List.nil_append] using this

end Turn

/-! ### The ten kinds of step -/

/-- Both cursors and the items that have ended stay as they are. -/
structure Same (d d' : Dispatch σ) : Prop where
  take : d'.take = d.take
  gate : d'.gate = d.gate
  ended : d'.ended = d.ended

/-- The gate becomes what it says, and nothing else but the workers and the history changes. -/
structure GateMoved (d d' : Dispatch σ) (g : Gate σ) : Prop where
  take : d'.take = d.take
  gate : d'.gate = g
  ended : d'.ended = d.ended

/-- A claim has been made at the take cursor, and nothing else but the workers and the history
changes. -/
structure TakeMoved (d d' : Dispatch σ) : Prop where
  take : d'.take = d.take.claimed
  gate : d'.gate = d.gate
  ended : d'.ended = d.ended

/-- A claim of an item moves the counter by one. -/
theorem TakeMoved.next {d d' : Dispatch σ} (h : TakeMoved d d')
    (someLeft : d.take.next < d.take.limit) : d'.take.next = d.take.next + 1 := by
  simp only [h.take, TakeCursor.claimed, someLeft, if_true]

/-- The worker whose move it is. -/
def Move.thread : Move → Nat
  | advance t => t
  | wake t => t

/-- Whether a step of an item's work has not to wait. -/
def Allows (d : Dispatch σ) : Step → Prop
  | .allStarted => d.take.limit ≤ d.take.next
  | .ended item => d.take.limit ≤ item ∨ item ∈ d.ended
  | _ => True

/-- **The seven kinds of step between** claiming an item, ending its work and retiring it: a worker
begins, finds that no item is left, or goes on with its work; at the gate it takes the free mutex,
for the first time or once it has been woken, falls asleep because it is not next, or wakes for no
reason. -/
inductive Interim (d d' : Dispatch σ) : Move → Prop
  | begun {t : Nat} {failed : Bool}
      (turn : Turn d d' t ⟨.starting, failed⟩ ⟨.claiming, failed⟩ (outside [.starting t]) false)
      (same : Same d d') : Interim d d' (.advance t)
  | exited {t : Nat} {failed : Bool}
      (turn : Turn d d' t ⟨.claiming, failed⟩ ⟨.exited, failed || d.take.offer.fault.isSome⟩
        (claimEntries t d.take
          ++ outside [.exiting t (failed || d.take.offer.fault.isSome)]) false)
      (noneLeft : d.take.limit ≤ d.take.next) (moved : TakeMoved d d') :
      Interim d d' (.advance t)
  | worked {t : Nat} {failed : Bool} {session session' : Session} {step : Step} {todo : Script}
      {output output' : List UInt8} {es : List Entry}
      (turn : Turn d d' t ⟨.working session (step :: todo) output, failed⟩
        ⟨.working session' todo output', failed⟩ es false)
      (effect : step.effect? session output = some (session', output', es))
      (allowed : d.Allows step) (same : Same d d') : Interim d d' (.advance t)
  | arrived {t item : Nat} {failed : Bool} {output : List UInt8} {ending : Ending}
      (turn : Turn d d' t ⟨.retiring item output ending .arriving, failed⟩
        ⟨.retiring item output ending (.holding d.gate.poisonFault), failed⟩
        (outside ((if d.gate.poisoned then [.recovering .retire] else [])
          ++ [.waiting t item d.gate.next])) false)
      (free : d.gate.locked = false) (moved : GateMoved d d' d.gate.taken) :
      Interim d d' (.advance t)
  | resumed {t item : Nat} {failed : Bool} {output : List UInt8} {ending : Ending}
      {fault : Option Fault}
      (turn : Turn d d' t ⟨.retiring item output ending (.woken fault), failed⟩
        ⟨.retiring item output ending (.holding (fault.or d.gate.poisonFault)), failed⟩
        (outside (if d.gate.poisoned then [.recoveringAwake] else [])) false)
      (free : d.gate.locked = false) (moved : GateMoved d d' d.gate.taken) :
      Interim d d' (.advance t)
  | slept {t item : Nat} {failed : Bool} {output : List UInt8} {ending : Ending}
      {fault : Option Fault}
      (turn : Turn d d' t ⟨.retiring item output ending (.holding fault), failed⟩
        ⟨.retiring item output ending (.asleep fault), failed⟩ [] false)
      (notNext : d.gate.next ≠ item) (moved : GateMoved d d' d.gate.released) :
      Interim d d' (.advance t)
  | woken {t item : Nat} {failed : Bool} {output : List UInt8} {ending : Ending}
      {fault : Option Fault}
      (turn : Turn d d' t ⟨.retiring item output ending (.asleep fault), failed⟩
        ⟨.retiring item output ending (.woken fault), failed⟩ [] false)
      (same : Same d d') : Interim d d' (.wake t)

/-- **The ten kinds of step of a dispatch**, each with its guard and with all that it changes: the
seven between, and those that claim an item and open its session, end its work, or retire it, let go
of the mutex and wake all sleepers. -/
inductive Change (job : Job σ) (d d' : Dispatch σ) : Move → Prop
  | between {m : Move} (interim : Interim d d' m) : Change job d d' m
  | claimed {t : Nat} {failed : Bool} {session : Session}
      (turn : Turn d d' t ⟨.claiming, failed⟩
        ⟨.working session (job.work t d.take.next) [], failed || d.take.offer.fault.isSome⟩
        (claimEntries t d.take ++ openEntries session) false)
      (opened : session = { thread := t, item := d.take.next, settings := job.settings })
      (someLeft : d.take.next < d.take.limit) (moved : TakeMoved d d') :
      Change job d d' (.advance t)
  | finished {t : Nat} {failed : Bool} {session : Session} {todo : Script}
      {output : List UInt8} {ending : Ending}
      (turn : Turn d d' t ⟨.working session todo output, failed⟩
        ⟨.retiring session.item output ending .arriving, failed || ending.isFault⟩
        (endEntries t session ending) false)
      (ends : todo.endsNow? = some ending) (take : d'.take = d.take) (gate : d'.gate = d.gate)
      (ended : d'.ended = session.item :: d.ended) : Change job d d' (.advance t)
  | retired {t : Nat} {failed : Bool} {output : List UInt8} {ending : Ending}
      {carried fault : Option Fault}
      (turn : Turn d d' t ⟨.retiring d.gate.next output ending (.holding carried), failed⟩
        ⟨if ending.isFatal then .dead else .claiming, failed || fault.isSome⟩
        (retireEntries t d.gate.next (job.sink.retire d.gate.sink output).calls fault) true)
      (first : fault = carried.or (job.sink.retire d.gate.sink output).fault)
      (moved : GateMoved d d' { d.gate with
        next := d.gate.next + 1
        sink := (job.sink.retire d.gate.sink output).state
        locked := false }) : Change job d d' (.advance t)

/-! ### Every step is one of them -/

@[simp] theorem history_withWorker (d : Dispatch σ) (t : Nat) (w : Worker) :
    (d.withWorker t w).history = d.history := rfl

@[simp] theorem history_record (d : Dispatch σ) (es : List Entry) :
    (d.record es).history = d.history ++ es := by
  simp [history, record]

/-- A worker whose step is its own turn only. -/
theorem turn_withWorker {d : Dispatch σ} {t : Nat} {w w' : Worker} {es : List Entry}
    (hw : d.workers[t]? = some w) : Turn d ((d.record es).withWorker t w') t w w' es false :=
  ⟨hw, rfl, by simp⟩

theorem change_of_claim {job : Job σ} {d : Dispatch σ} {t : Nat} {failed : Bool}
    (hw : d.workers[t]? = some ⟨.claiming, failed⟩) :
    Change job d (d.claim job t ⟨.claiming, failed⟩) (.advance t) := by
  simp only [claim]
  split
  · rename_i hnone
    have hle : d.take.limit ≤ d.take.next := by
      simp only [TakeCursor.offer] at hnone
      split at hnone
      · simp at hnone
      · omega
    refine .between (.exited ⟨hw, rfl, ?_⟩ hle ⟨rfl, rfl, rfl⟩)
    simp only [history_withWorker, history_record, claimEntries, List.append_assoc]
    rfl
  · rename_i item hsome
    obtain ⟨hlt, rfl⟩ := TakeCursor.offer_index_eq_some.1 hsome
    refine .claimed ⟨hw, rfl, ?_⟩ rfl hlt ⟨rfl, rfl, rfl⟩
    simp only [history_withWorker, history_record, claimEntries, openEntries, List.append_assoc]
    rfl

theorem change_of_workStep? {job : Job σ} {d d' : Dispatch σ} {t : Nat} {failed : Bool}
    {session : Session} {todo : Script} {output : List UInt8}
    (hw : d.workers[t]? = some ⟨.working session todo output, failed⟩)
    (h : d.workStep? t ⟨.working session todo output, failed⟩ session output todo = some d') :
    Change job d d' (.advance t) := by
  have hend : ∀ {ending : Ending}, todo.endsNow? = some ending →
      Change job d (d.endWork t ⟨.working session todo output, failed⟩ session output ending)
        (.advance t) := by
    intro ending hnow
    refine .finished ⟨hw, rfl, ?_⟩ hnow rfl rfl rfl
    simp only [endWork, history_withWorker, history_record, endEntries, hookEntries]
    rfl
  cases todo with
  | nil => exact Option.some.inj h ▸ hend rfl
  | cons step rest =>
      cases step with
      | fail message => exact Option.some.inj h ▸ hend rfl
      | panic => exact Option.some.inj h ▸ hend rfl
      | kill => exact Option.some.inj h ▸ hend rfl
      | write bytes =>
          obtain rfl := Option.some.inj h
          exact .between (.worked ⟨hw, rfl, by simp⟩ rfl trivial ⟨rfl, rfl, rfl⟩)
      | note event =>
          obtain rfl := Option.some.inj h
          exact .between (.worked ⟨hw, rfl, by simp⟩ rfl trivial ⟨rfl, rfl, rfl⟩)
      | hook k =>
          obtain rfl := Option.some.inj h
          exact .between (.worked ⟨hw, rfl, by simp⟩ rfl trivial ⟨rfl, rfl, rfl⟩)
      | allStarted =>
          simp only [workStep?, Option.ite_none_right_eq_some, Option.some.injEq] at h
          obtain ⟨hall, rfl⟩ := h
          exact .between (.worked ⟨hw, rfl, by simp⟩ rfl hall ⟨rfl, rfl, rfl⟩)
      | ended item =>
          simp only [workStep?, Option.ite_none_right_eq_some, Option.some.injEq] at h
          obtain ⟨hended, rfl⟩ := h
          exact .between (.worked ⟨hw, rfl, by simp⟩ rfl hended ⟨rfl, rfl, rfl⟩)

theorem change_of_retireStep? {job : Job σ} {d d' : Dispatch σ} {t item : Nat} {failed : Bool}
    {output : List UInt8} {ending : Ending} {call : CallPhase}
    (hw : d.workers[t]? = some ⟨.retiring item output ending call, failed⟩)
    (h : d.retireStep? job t ⟨.retiring item output ending call, failed⟩ item output ending call
      = some d') : Change job d d' (.advance t) := by
  simp only [retireStep?, Option.map_eq_some_iff] at h
  obtain ⟨s, hs, rfl⟩ := h
  cases call with
  | arriving =>
      simp only [Gate.advance?, Option.ite_none_left_eq_some, Option.some.injEq,
        Bool.not_eq_true] at hs
      obtain ⟨hfree, rfl⟩ := hs
      refine .between (.arrived ⟨hw, rfl, ?_⟩ hfree ⟨rfl, rfl, rfl⟩)
      simp only [history_withWorker, history_record, List.map_nil, List.append_nil]
      rfl
  | woken fault =>
      simp only [Gate.advance?, Option.ite_none_left_eq_some, Option.some.injEq,
        Bool.not_eq_true] at hs
      obtain ⟨hfree, rfl⟩ := hs
      refine .between (.resumed ⟨hw, rfl, ?_⟩ hfree ⟨rfl, rfl, rfl⟩)
      simp only [history_withWorker, history_record, List.map_nil, List.append_nil]
      rfl
  | holding fault =>
      simp only [Gate.advance?] at hs
      split at hs
      · rename_i hnext
        obtain rfl := Option.some.inj hs
        subst hnext
        refine .retired ⟨hw, ?_, ?_⟩ rfl ⟨rfl, rfl, rfl⟩
        · simp only [withWorker, record, if_true, List.map_set]
          refine congrArg (List.set _ _) ?_
          simp only [afterRetiring, Worker.notified, Worker.mk.injEq, and_true]
          split <;> rfl
        · simp only [retireEntries]
          simp [history, record, withWorker]
      · rename_i hnext
        obtain rfl := Option.some.inj hs
        refine .between (.slept ⟨hw, rfl, ?_⟩ hnext ⟨rfl, rfl, rfl⟩)
        simp only [history_withWorker, history_record, outside, List.map_nil, List.append_nil]
        rfl
  | asleep fault => simp [Gate.advance?] at hs
  | done fault => simp [Gate.advance?] at hs

/-- **Every step is one of the ten.** -/
theorem change_of_step? {job : Job σ} {d d' : Dispatch σ} {m : Move}
    (h : d.step? job m = some d') : Change job d d' m := by
  cases m with
  | advance t =>
      simp only [step?, Option.bind_eq_some_iff] at h
      obtain ⟨⟨phase, failed⟩, hw, h⟩ := h
      cases phase with
      | starting =>
          obtain rfl := Option.some.inj h
          exact .between (.begun (turn_withWorker hw) ⟨rfl, rfl, rfl⟩)
      | claiming =>
          obtain rfl := Option.some.inj h
          exact change_of_claim hw
      | working session todo output => exact change_of_workStep? hw h
      | retiring item output ending call => exact change_of_retireStep? hw h
      | exited => cases h
      | dead => cases h
  | wake t =>
      simp only [step?, Option.bind_eq_some_iff] at h
      obtain ⟨⟨phase, failed⟩, hw, h⟩ := h
      split at h
      · rename_i item output ending fault hp
        obtain rfl : phase = .retiring item output ending (.asleep fault) := hp
        obtain rfl := Option.some.inj h
        exact .between (.woken ⟨hw, rfl, by simp⟩ ⟨rfl, rfl, rfl⟩)
      · cases h

/-! ### What stays between -/

/-- Nothing happens to the items: the counters, the sink, what every worker holds and hands over,
and what the history tells of items all stay as they are. -/
structure Unmoved (d d' : Dispatch σ) : Prop where
  taken : d'.take.next = d.take.next
  limit : d'.take.limit = d.take.limit
  next : d'.gate.next = d.gate.next
  sink : d'.gate.sink = d.gate.sink
  ended : d'.ended = d.ended
  items : d'.at? Phase.item? = d.at? Phase.item?
  busy : d'.at? Phase.busy? = d.at? Phase.busy?
  parcels : d'.at? Phase.parcel? = d.at? Phase.parcel?
  adds : Adds d d' [] [] [] []

/-- A step between is the turn of a worker that goes on, and goes on with the same parcel. -/
theorem Interim.exists_turn {d d' : Dispatch σ} {m : Move} (h : Interim d d' m) :
    ∃ t w w' es, m.thread = t ∧ Turn d d' t w w' es false ∧ OnlyLogs es
      ∧ w.phase.isFinal = false ∧ w'.phase ≠ .dead
      ∧ w'.phase.busy? = w.phase.busy? ∧ w'.phase.parcel? = w.phase.parcel? := by
  cases h with
  | begun turn same =>
      exact ⟨_, _, _, _, rfl, turn, onlyLogs_outside _, rfl, nofun, rfl, rfl⟩
  | exited turn noneLeft moved =>
      exact ⟨_, _, _, _, rfl, turn, (onlyLogs_claimEntries _ _).append (onlyLogs_outside _), rfl,
        nofun, rfl, rfl⟩
  | @worked _ _ _ _ _ todo _ _ _ turn effect allowed same =>
      obtain ⟨events, rfl⟩ := Step.effect?_entries effect
      obtain ⟨houtput, hending⟩ := Step.effect?_output effect todo
      obtain ⟨hitem, -⟩ := Step.effect?_session effect
      refine ⟨_, _, _, _, rfl, turn, onlyLogs_inside _ _, rfl, nofun, ?_, ?_⟩
      · simp only [Phase.busy?, hitem]
      · simp only [Phase.parcel?, hitem, houtput, hending]
  | arrived turn free moved =>
      exact ⟨_, _, _, _, rfl, turn, onlyLogs_outside _, rfl, nofun, rfl, rfl⟩
  | resumed turn free moved =>
      exact ⟨_, _, _, _, rfl, turn, onlyLogs_outside _, rfl, nofun, rfl, rfl⟩
  | slept turn notNext moved =>
      exact ⟨_, _, _, _, rfl, turn, onlyLogs_nil, rfl, nofun, rfl, rfl⟩
  | woken turn same =>
      exact ⟨_, _, _, _, rfl, turn, onlyLogs_nil, rfl, nofun, rfl, rfl⟩

/-- A step between moves neither counter and leaves the sink alone. -/
theorem Interim.counters {d d' : Dispatch σ} {m : Move} (h : Interim d d' m) :
    d'.take.next = d.take.next ∧ d'.take.limit = d.take.limit ∧ d'.gate.next = d.gate.next
      ∧ d'.gate.sink = d.gate.sink ∧ d'.ended = d.ended := by
  cases h with
  | begun turn same => simp only [same.take, same.gate, same.ended, and_self]
  | exited turn noneLeft moved =>
      simp only [moved.take, moved.gate, moved.ended, TakeCursor.claimed, Nat.not_lt.2 noneLeft,
        if_false, and_self]
  | worked turn effect allowed same => simp only [same.take, same.gate, same.ended, and_self]
  | arrived turn free moved =>
      simp only [moved.take, moved.gate, moved.ended, Gate.taken, and_self]
  | resumed turn free moved =>
      simp only [moved.take, moved.gate, moved.ended, Gate.taken, and_self]
  | slept turn notNext moved =>
      simp only [moved.take, moved.gate, moved.ended, Gate.released, and_self]
  | woken turn same => simp only [same.take, same.gate, same.ended, and_self]

/-- **The seven kinds of step between move no item.** -/
theorem Interim.unmoved {d d' : Dispatch σ} {m : Move} (h : Interim d d' m) : Unmoved d d' := by
  obtain ⟨t, w, w', es, -, turn, hlogs, -, -, hbusy, hparcel⟩ := h.exists_turn
  obtain ⟨htaken, hlimit, hnext, hsink, hended⟩ := h.counters
  exact {
    taken := htaken
    limit := hlimit
    next := hnext
    sink := hsink
    ended := hended
    items := turn.at?_same Phase.notified_item? (by
      rw [Phase.item?_eq_parcel?, Phase.item?_eq_parcel?, hparcel])
    busy := turn.at?_same Phase.notified_busy? hbusy
    parcels := turn.at?_same Phase.notified_parcel? hparcel
    adds := turn.adds_of_onlyLogs hlogs }

/-- Every step is the turn of one worker, which has neither exited nor died. -/
theorem Change.exists_turn {job : Job σ} {d d' : Dispatch σ} {m : Move} (h : Change job d d' m) :
    ∃ t w w' es wakes, m.thread = t ∧ Turn d d' t w w' es wakes ∧ w.phase.isFinal = false := by
  cases h with
  | between interim =>
      obtain ⟨t, w, w', es, ht, turn, -, hfinal, -⟩ := interim.exists_turn
      exact ⟨t, w, w', es, false, ht, turn, hfinal⟩
  | claimed turn opened someLeft moved => exact ⟨_, _, _, _, _, rfl, turn, rfl⟩
  | finished turn ends take gate ended => exact ⟨_, _, _, _, _, rfl, turn, rfl⟩
  | retired turn first moved => exact ⟨_, _, _, _, _, rfl, turn, rfl⟩

end Dispatch

end OrderedDispatch

/-
**A sink that follows a script.**

The script bounds the bytes that one write takes and lists the calls that go wrong: the n-th write
or the n-th flush, counted separately and from one, with what happens then.  If a call is listed
twice the first entry counts.  A faulted call takes no byte.

Main definitions:

* `ScriptedSink.FaultKind`, `ScriptedSink.Script` — what can go wrong, and the script;
* `ScriptedSink.State` — how many calls there were, the bytes taken and the journal of calls;
* `ScriptedSink.machine` — the sink that follows a script.
-/

import OrderedDispatch.Sink.Basic

set_option relaxedAutoImplicit false
set_option autoImplicit false

namespace OrderedDispatch.ScriptedSink

/-- The two calls of a sink. -/
inductive CallKind where
  | write
  | flush
  deriving DecidableEq, Inhabited

/-- What happens at a faulted call: it panics; a write takes no byte and reports no error, while a
flush, which takes none anyway, fails; it is interrupted; the system reports that nobody reads from
the other end; or it fails with any other error, in its own words. -/
inductive FaultKind where
  | panic
  | zero
  | interrupted
  | brokenPipe
  | error (text : String)
  deriving DecidableEq, Inhabited

/-- A call that goes wrong. -/
structure Fault where
  call : CallKind
  nth : Nat
  kind : FaultKind
  deriving DecidableEq, Inhabited

/-- The script of a sink. -/
structure Script where
  /-- how many bytes a write takes at most, `none` for all -/
  maxWrite : Option Nat := none
  /-- the calls that go wrong -/
  faults : List Fault := []
  deriving DecidableEq, Inhabited

/-- A call in the journal of a scripted sink: a write with the bytes that it took, a flush, or one
of them that went wrong. -/
inductive Mark where
  | wrote (bytes : List UInt8)
  | flushed
  | writeFault (kind : FaultKind)
  | flushFault (kind : FaultKind)
  deriving DecidableEq, Inhabited

/-- The state of a scripted sink.  The journal and the bytes are kept newest first. -/
structure State where
  writes : Nat := 0
  flushes : Nat := 0
  reversedData : List UInt8 := []
  reversedJournal : List Mark := []
  deriving DecidableEq, Inhabited

namespace State

/-- All bytes that the sink has taken, in order. -/
def data (s : State) : List UInt8 := s.reversedData.reverse

/-- All calls that the sink has received, in order. -/
def journal (s : State) : List Mark := s.reversedJournal.reverse

end State

namespace Script

/-- What the script lists for the n-th call of a kind. -/
def faultAt (p : Script) (call : CallKind) (nth : Nat) : Option FaultKind :=
  (p.faults.find? fun f => f.call = call && f.nth = nth).map Fault.kind

/-- How many of the bytes offered a write takes. -/
def portion (p : Script) (offered : List UInt8) : List UInt8 :=
  match p.maxWrite with
  | none => offered
  | some n => offered.take n

/-- The faulted writes that are still to come after so many writes. -/
def pendingWriteFaults (p : Script) (writes : Nat) : List Fault :=
  p.faults.filter fun f => f.call = .write && writes < f.nth

/-- The answer to a write that goes wrong. -/
def faultedWrite : FaultKind → WriteAnswer
  | .panic => .panicked
  | .zero => .took 0
  | .interrupted => .interrupted
  | .brokenPipe => .failed (.system .brokenPipe)
  | .error text => .failed (.other text)

/-- The answer to a flush that goes wrong. -/
def faultedFlush : FaultKind → FlushAnswer
  | .panic => .panicked
  | .zero => .failed (.other "zero")
  | .interrupted => .failed .interrupted
  | .brokenPipe => .failed (.system .brokenPipe)
  | .error text => .failed (.other text)

/-- A write on a scripted sink. -/
def write (p : Script) (s : State) (offered : List UInt8) : WriteAnswer × State :=
  match p.faultAt .write (s.writes + 1) with
  | some kind =>
      (faultedWrite kind,
        { s with
          writes := s.writes + 1
          reversedJournal := .writeFault kind :: s.reversedJournal })
  | none =>
      let part := p.portion offered
      (.took part.length,
        { s with
          writes := s.writes + 1
          reversedData := part.reverse ++ s.reversedData
          reversedJournal := .wrote part :: s.reversedJournal })

/-- A flush on a scripted sink. -/
def flush (p : Script) (s : State) : FlushAnswer × State :=
  match p.faultAt .flush (s.flushes + 1) with
  | some kind =>
      (faultedFlush kind,
        { s with
          flushes := s.flushes + 1
          reversedJournal := .flushFault kind :: s.reversedJournal })
  | none =>
      (.done,
        { s with flushes := s.flushes + 1, reversedJournal := .flushed :: s.reversedJournal })

theorem writes_write (p : Script) (s : State) (b : List UInt8) :
    (p.write s b).2.writes = s.writes + 1 := by
  unfold write
  split <;> rfl

/-- A listed fault is one of those still to come before its call, and none of those after it. -/
theorem pendingWriteFaults_lt {p : Script} {n : Nat} {k : FaultKind}
    (h : p.faultAt .write (n + 1) = some k) :
    (p.pendingWriteFaults (n + 1)).length < (p.pendingWriteFaults n).length := by
  simp only [faultAt, Option.map_eq_some_iff] at h
  obtain ⟨f, hf, -⟩ := h
  have hmem := List.mem_of_find?_eq_some hf
  have hpred := List.find?_some hf
  simp only [Bool.and_eq_true, decide_eq_true_eq] at hpred
  simp only [pendingWriteFaults, ← List.countP_eq_length_filter]
  clear hf
  generalize p.faults = faults at hmem
  have mono : ∀ l : List Fault,
      l.countP (fun g => decide (g.call = .write) && decide (n + 1 < g.nth))
        ≤ l.countP (fun g => decide (g.call = .write) && decide (n < g.nth)) := fun l =>
    List.countP_mono_left fun g _ hg => by
      simp only [Bool.and_eq_true, decide_eq_true_eq] at hg ⊢
      exact ⟨hg.1, by omega⟩
  induction faults with
  | nil => simp at hmem
  | cons g rest ih =>
      rcases List.mem_cons.1 hmem with rfl | hmem
      · have := mono rest
        simp only [List.countP_cons, hpred.1, hpred.2]
        simp
        omega
      · have := ih hmem
        simp only [List.countP_cons]
        by_cases hg : g.call = .write ∧ n + 1 < g.nth
        · have hn : n < g.nth := by omega
          simp only [hg.1, hg.2, hn]
          simp
          exact this
        · have h0 : (decide (g.call = .write) && decide (n + 1 < g.nth)) = false := by
            simpa using hg
          simp only [h0]
          simp
          omega

end Script

/-- The sink that follows the script. -/
def machine (p : Script) : Sink State where
  write := p.write
  flush := p.flush
  patience s := (p.pendingWriteFaults s.writes).length
  patience_lt {s b s'} h := by
    have hs : s' = (p.write s b).2 := by rw [h]
    rw [hs, Script.writes_write]
    unfold Script.write at h
    split at h
    · exact Script.pendingWriteFaults_lt ‹_›
    · simp at h

end OrderedDispatch.ScriptedSink

/-
**Where the output goes.**

A sink is a deterministic machine with two calls.  A write is offered some bytes and takes a number
of them, or is interrupted, or fails, or panics; a flush succeeds, fails or panics.  Retiring an
item writes its whole output, call by call, and then flushes: an interrupted write is tried again, a
write that takes nothing although bytes were offered is an error, and after a failed write nothing
is flushed.

A sink may interrupt only finitely often in a row.  Its `patience` counts down at each
interruption, and that is what makes writing a whole output come to an end.

Main definitions:

* `WriteAnswer`, `FlushAnswer`, `Sink` — the machine;
* `SinkCall` — a call as the sink received it, with its answer;
* `Sink.writeAll`, `Sink.retire` — writing a whole output, and retiring an item.

Main results:

* `Sink.writeAll_nil` — an empty output makes no write call.
-/

import OrderedDispatch.Fault

set_option relaxedAutoImplicit false
set_option autoImplicit false

namespace OrderedDispatch

/-- How a sink answers a write: it took that many of the bytes offered, all of them if there are
fewer; or it took none, because it was interrupted, failed or panicked. -/
inductive WriteAnswer where
  | took (count : Nat)
  | interrupted
  | failed (e : IoError)
  | panicked
  deriving DecidableEq, Inhabited

/-- How a sink answers a flush. -/
inductive FlushAnswer where
  | done
  | failed (e : IoError)
  | panicked
  deriving DecidableEq, Inhabited

/-- A sink over the states `σ`. -/
structure Sink (σ : Type) where
  /-- offer some bytes -/
  write : σ → List UInt8 → WriteAnswer × σ
  /-- pass on what was taken -/
  flush : σ → FlushAnswer × σ
  /-- a bound on how often a write may yet be interrupted before one is not -/
  patience : σ → Nat
  /-- each interruption wears the patience down -/
  patience_lt : ∀ {s : σ} {b : List UInt8} {s' : σ},
    write s b = (.interrupted, s') → patience s' < patience s

/-- A call that a sink received, with the bytes offered if it was a write, and its answer. -/
inductive SinkCall where
  | write (offered : List UInt8) (answer : WriteAnswer)
  | flush (answer : FlushAnswer)
  deriving DecidableEq, Inhabited

/-- The bytes that a call moved into the sink. -/
def SinkCall.taken : SinkCall → List UInt8
  | .write offered (.took count) => offered.take count
  | _ => []

namespace Sink

variable {σ : Type}

/-- What a series of calls left behind: the calls, the state of the sink, and the fault that ended
the series early. -/
structure Outcome (σ : Type) where
  calls : List SinkCall
  state : σ
  fault : Option Fault

/-- An outcome with one more call before it. -/
def Outcome.after (call : SinkCall) (o : Outcome σ) : Outcome σ :=
  { o with calls := call :: o.calls }

/-- Writes the bytes, as often as the sink takes only some of them. -/
def writeAll (k : Sink σ) (s : σ) (bytes : List UInt8) : Outcome σ :=
  if bytes.isEmpty then ⟨[], s, none⟩
  else
    match _ : k.write s bytes with
    | (.took 0, s') => ⟨[.write bytes (.took 0)], s', some (.sink .shortWrite)⟩
    | (.took (n + 1), s') =>
        (writeAll k s' (bytes.drop (n + 1))).after (.write bytes (.took (n + 1)))
    | (.interrupted, s') => (writeAll k s' bytes).after (.write bytes .interrupted)
    | (.failed e, s') => ⟨[.write bytes (.failed e)], s', some (.sink e)⟩
    | (.panicked, s') => ⟨[.write bytes .panicked], s', some .sinkPanicked⟩
  termination_by (bytes.length, k.patience s)
  decreasing_by
    · rename_i hbytes _
      cases bytes with
      | nil => simp at hbytes
      | cons b r =>
          exact Prod.Lex.left _ _ (by simp only [List.length_drop, List.length_cons]; omega)
    · exact Prod.Lex.right _ (k.patience_lt ‹_›)

@[simp] theorem writeAll_nil (k : Sink σ) (s : σ) : k.writeAll s [] = ⟨[], s, none⟩ := by
  rw [writeAll]
  rfl

/-- The fault of a flush. -/
def flushFault : FlushAnswer → Option Fault
  | .done => none
  | .failed e => some (.sink e)
  | .panicked => some .sinkPanicked

/-- Writes an output and, if that succeeds, flushes once. -/
def retire (k : Sink σ) (s : σ) (output : List UInt8) : Outcome σ :=
  let written := k.writeAll s output
  match written.fault with
  | some _ => written
  | none =>
      let (answer, s') := k.flush written.state
      ⟨written.calls ++ [.flush answer], s', flushFault answer⟩

end Sink

end OrderedDispatch

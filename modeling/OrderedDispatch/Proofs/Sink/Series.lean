/-
**Outputs retired one after the other.**

A sink that receives several outputs in a row answers each from the state in which the one before
left it, whether that one was written in full or went wrong on the way.  What it receives for the
first outputs of a series is what it receives if there are no others.

Main definitions:

* `Sink.Series`, `Sink.series` — what a series of outputs leaves behind, and retiring a series.

Main results:

* `Sink.series_append` — a series is retired part by part;
* `Sink.faults_series_getElem?` — what came of a single output;
* `Sink.calls_series_prefix` — **the calls for the first outputs do not depend on the later ones**.
-/

import OrderedDispatch.Sink.Basic

set_option relaxedAutoImplicit false
set_option autoImplicit false

namespace OrderedDispatch.Sink

variable {σ : Type}

/-- What a series of outputs left behind: the calls, the state of the sink, and what came of each
output. -/
structure Series (σ : Type) where
  calls : List SinkCall
  state : σ
  faults : List (Option Fault)

/-- Retires outputs one after the other. -/
def series (k : Sink σ) (s : σ) : List (List UInt8) → Series σ
  | [] => ⟨[], s, []⟩
  | output :: rest =>
      let first := k.retire s output
      let later := k.series first.state rest
      ⟨first.calls ++ later.calls, later.state, first.fault :: later.faults⟩

/-- A series is retired part by part. -/
theorem series_append (k : Sink σ) (s : σ) (outputs later : List (List UInt8)) :
    k.series s (outputs ++ later)
      = ⟨(k.series s outputs).calls ++ (k.series (k.series s outputs).state later).calls,
          (k.series (k.series s outputs).state later).state,
          (k.series s outputs).faults ++ (k.series (k.series s outputs).state later).faults⟩ := by
  induction outputs generalizing s with
  | nil => rfl
  | cons output rest ih => simp only [List.cons_append, series, ih, List.append_assoc]

/-- The last output of a series is retired where the others left the sink. -/
theorem series_concat (k : Sink σ) (s : σ) (outputs : List (List UInt8)) (output : List UInt8) :
    k.series s (outputs ++ [output])
      = ⟨(k.series s outputs).calls ++ (k.retire (k.series s outputs).state output).calls,
          (k.retire (k.series s outputs).state output).state,
          (k.series s outputs).faults ++ [(k.retire (k.series s outputs).state output).fault]⟩ := by
  rw [series_append]
  simp only [series, List.append_nil]

/-- Every output of a series has come to something. -/
theorem length_faults_series (k : Sink σ) (s : σ) (outputs : List (List UInt8)) :
    (k.series s outputs).faults.length = outputs.length := by
  induction outputs generalizing s with
  | nil => rfl
  | cons output rest ih => simp only [series, List.length_cons, ih]

/-- What came of an output depends on it and on the state in which those before left the sink. -/
theorem faults_series_getElem? (k : Sink σ) (s : σ) {outputs : List (List UInt8)} {i : Nat}
    {output : List UInt8} (h : outputs[i]? = some output) :
    (k.series s outputs).faults[i]?
      = some (k.retire (k.series s (outputs.take i)).state output).fault := by
  obtain ⟨hi, rfl⟩ := List.getElem?_eq_some_iff.1 h
  have hsplit : outputs = outputs.take i ++ outputs[i] :: outputs.drop (i + 1) := by simp
  have hlength : (k.series s (outputs.take i)).faults.length = i := by
    rw [length_faults_series, List.length_take, Nat.min_eq_left (Nat.le_of_lt hi)]
  refine (congrArg (fun all => (k.series s all).faults[i]?) hsplit).trans ?_
  rw [series_append]
  dsimp only
  rw [List.getElem?_append_right (Nat.le_of_eq hlength), hlength, Nat.sub_self, series]
  rfl

/-- The calls for the first outputs of a series do not depend on the later ones. -/
theorem calls_series_prefix (k : Sink σ) (s : σ) {outputs all : List (List UInt8)}
    (h : outputs <+: all) : (k.series s outputs).calls <+: (k.series s all).calls := by
  obtain ⟨later, rfl⟩ := h
  rw [series_append]
  exact List.prefix_append _ _

end OrderedDispatch.Sink

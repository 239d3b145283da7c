/-
**Byte for byte through the gate.**

Outputs that are retired one after the other reach a faulty sink piece by piece: the sink holds the
first bytes of each, in order, and nothing else.  How much it holds of an output, whether it was
flushed for it and what the retirement returned can all be read off the calls that were made for
this output.  A write that goes wrong costs the rest of its own output and nothing of any other, and
the counter of the gate moves on in any case.

Main definitions:

* `Room.Delivered` — what the sink holds of each output, and how that shows.

Main results:

* `Room.delivered_oneByOne` — **outputs retired one after the other are accounted for byte by
  byte**, whatever the sink does.
-/

import OrderedDispatch.Proofs.Gate.Sequence
import OrderedDispatch.Proofs.Sink.Delivery

set_option relaxedAutoImplicit false
set_option autoImplicit false

namespace OrderedDispatch.Room

open Sink

/-- What the sink holds of each output after all have been retired, and how that shows in the calls
that it has received for each and in what each retirement has returned. -/
structure Delivered (outputs : List (List UInt8)) (visits : List (List SinkCall))
    (r : Room ScriptedSink.State) : Prop where
  /-- all calls have returned -/
  done : r.allDone = true
  /-- the counter has passed all items -/
  next : r.gate.next = outputs.length
  /-- there is one visit to the sink for each output -/
  length : visits.length = outputs.length
  /-- the sink has received the calls of the visits, one visit after the other -/
  log : r.log = visits.flatten
  /-- it holds the bytes that it has taken in each visit, in order -/
  data : r.gate.sink.data = (visits.map accepted).flatten
  /-- each visit accounts for its output -/
  delivery : ∀ (i : Nat) (output : List UInt8), outputs[i]? = some output →
    ∃ (c : RetireCall) (calls : List SinkCall) (fault : Option Fault),
      r.calls[i]? = some c ∧ c.item = i ∧ c.output = output ∧ visits[i]? = some calls
        ∧ r.result? i = some fault ∧ Delivery output calls fault

/-- After a run in which nobody poisons the mutex, a call has returned what comes of its output when
all are retired one after the other. -/
theorem result?_eq_seriesFault {σ : Type} {k : Sink σ} {sink : σ} {outputs : List (List UInt8)}
    {ms : List Moment} {r : Room σ} (hrun : (around sink).run? k ms = some r)
    (hms : .poison ∉ ms) (hfits : Fits outputs r) (hdone : r.allDone = true) {p : Nat}
    {c : RetireCall} (hc : r.calls[p]? = some c) :
    r.result? p = some (k.seriesFault sink outputs c.item) := by
  have hreturned := List.all_eq_true.1 hdone c (List.mem_of_getElem? hc)
  rw [(marked hrun hfits).result hc hreturned, mark_eq_none hrun hms, Option.none_or]

/-- **Outputs retired one after the other are accounted for byte by byte**, whatever goes wrong in
the sink. -/
theorem delivered_oneByOne (p : ScriptedSink.Script) (outputs : List (List UInt8)) :
    ∃ r visits, (around {}).run? (ScriptedSink.machine p) (oneByOne outputs) = some r
      ∧ Delivered outputs visits r := by
  obtain ⟨r, hrun, hidle⟩ := exists_oneByOne (ScriptedSink.machine p) {} outputs
  have hparcels : r.parcels = outputs.zipIdx := by
    rw [parcels_eq_arrivals hrun, arrivals_oneByOne]
  have hfits : Fits outputs r := by
    rw [Fits, hparcels]
  have horder := inOrder hrun hfits
  have hall : outputs.take r.gate.next = outputs := by rw [hidle.next, List.take_length]
  refine ⟨r, (ScriptedSink.machine p).visits {} outputs, hrun, hidle.done, hidle.next,
    length_visits _ _ _, ?_, ?_, fun i output hi => ?_⟩
  · rw [horder.log, hall, calls_series]
  · rw [horder.state, hall, ScriptedSink.data_series]
    rfl
  · -- the call with this position brought this output
    have hparcel : r.parcels[i]? = some (output, i) := by
      rw [hparcels, List.getElem?_zipIdx, hi]
      simp
    obtain ⟨c, hc, hsame⟩ := Option.map_eq_some_iff.1 (List.getElem?_map.symm.trans hparcel)
    obtain ⟨rfl, rfl⟩ := Prod.mk.inj hsame
    refine ⟨c, _, _, hc, rfl, rfl, visits_getElem? _ _ hi, ?_, delivery_retire _ _ _⟩
    rw [result?_eq_seriesFault hrun (poison_notMem_oneByOne outputs) hfits hidle.done hc,
      seriesFault_eq _ _ hi]

end OrderedDispatch.Room

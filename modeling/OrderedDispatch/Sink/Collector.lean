/-
**A sink that keeps everything.**

Main definitions:

* `Collector` — the chunks that were written, the latest first;
* `Collector.machine` — the sink that takes every byte and never fails;
* `Collector.bytes` — everything that was written.

Main results:

* `Collector.bytes_write` — a write adds the bytes offered at the end.
-/

import OrderedDispatch.Sink.Basic

set_option relaxedAutoImplicit false
set_option autoImplicit false

namespace OrderedDispatch

/-- The chunks that were written, the latest first. -/
abbrev Collector := List (List UInt8)

namespace Collector

/-- The sink that takes every byte and never fails. -/
def machine : Sink Collector where
  write chunks offered := (.took offered.length, offered :: chunks)
  flush chunks := (.done, chunks)
  patience _ := 0
  patience_lt h := by simp at h

/-- Everything that was written. -/
def bytes (chunks : Collector) : List UInt8 := chunks.reverse.flatten

/-- A write adds the bytes offered at the end. -/
theorem bytes_write (chunks : Collector) (offered : List UInt8) :
    bytes (machine.write chunks offered).2 = bytes chunks ++ offered := by
  simp [bytes, machine]

end Collector

end OrderedDispatch

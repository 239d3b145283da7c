/-
**How a child process ended.**

The system reports the end of a child in one word of 32 bits.  If its low seven bits are clear the
child exited, with a code in the next byte; if they hold a signal number it was killed; if the low
byte is `0x7f` it was stopped, with the signal in the next byte.  Other words have no such reading.

Main definitions:

* `ExitStatus`, `ExitStatus.ofWord` — the reading of a word;
* `ExitStatus.describe` — the end of a named command in words.

Main results:

* `ExitStatus.ofWord_exit` — the word of an exit code is read as that code.
-/

import OrderedDispatch.Text.Quoted

set_option relaxedAutoImplicit false
set_option autoImplicit false

namespace OrderedDispatch

/-- How a child process ended, or that it was stopped or resumed.  A word that has no reading is
kept as a signed number. -/
inductive ExitStatus where
  | exited (code : Nat)
  | killed (signal : Nat)
  | stopped (signal : Nat)
  | continued
  | unknown (word : Int)
  deriving DecidableEq, Inhabited

namespace ExitStatus

/-- The second byte of a status word. -/
def secondByte (word : Nat) : Nat := word / 256 % 256

/-- The bits of a status word that is given as a signed number of 32 bits. -/
def bitsOf (signed : Int) : Nat := (signed % 4294967296).toNat

/-- The reading of a status word, given as a signed number of 32 bits. -/
def ofWord (signed : Int) : ExitStatus :=
  let word := bitsOf signed
  let low := word % 128
  if low = 0 then .exited (secondByte word)
  else if low < 127 then .killed low
  else if word % 256 = 127 then .stopped (secondByte word)
  else if word = 0xFFFF then .continued
  else .unknown signed

/-- Whether the command succeeded. -/
def isSuccess : ExitStatus → Bool
  | exited code => code = 0
  | _ => false

/-- The end of a command, given its name. -/
def describe (command : String) : ExitStatus → String
  | exited code =>
      if code = 0 then command ++ " exited successfully"
      else command ++ " exited with error status " ++ toString code
  | killed signal => command ++ " killed by signal " ++ toString signal
  | stopped signal => command ++ " stopped by signal " ++ toString signal
  | continued => command ++ " exited for an unknown reason (continued (WIFCONTINUED))"
  | unknown word =>
      command ++ " exited for an unknown reason (unrecognised wait status: " ++ toString word
        ++ " 0x" ++ Text.lowerHex (bitsOf word) ++ ")"

/-- The word of an exit code is read as that code. -/
theorem ofWord_exit {code : Nat} (h : code < 256) : ofWord (256 * code : Nat) = .exited code := by
  have h1 : bitsOf (256 * code : Nat) = 256 * code := by
    unfold bitsOf
    omega
  simp only [ofWord, h1, secondByte]
  rw [if_pos (by omega)]
  congr 1
  omega

end ExitStatus

end OrderedDispatch

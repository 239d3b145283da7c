/-
**The program.**

The outer layer: it reads what the command line needs from the system, has the command line carried
out, prints what comes of it and exits.

Main definitions:

* `Main.machine` — everything around the program;
* `Main.program`, `main` — the program.
-/

import OrderedDispatch.CommandLine.Provision

set_option relaxedAutoImplicit false
set_option autoImplicit false

namespace OrderedDispatch.Main

open OrderedDispatch.CommandLine

/-- The bytes of a file, if it can be read. -/
def bytesOfFile? (path : String) : IO (Option (List UInt8)) := do
  try
    return some (← IO.FS.readBinFile path).toList
  catch _ => return none

/-- The text of a file, empty if it cannot be read. -/
def textOfFile (path : String) : IO String := do
  return String.ofList (((← bytesOfFile? path).bind Text.decode).getD [])

/-- The standard input to its end. -/
partial def readToEnd (input : IO.FS.Stream) (sofar : ByteArray) : IO ByteArray := do
  let chunk ← input.read 65536
  if chunk.isEmpty then return sofar else readToEnd input (sofar ++ chunk)

/-- Everything around the program that matters to an invocation. -/
def machine (i : Invocation) : IO Machine := do
  let environment := Provision.environment (← textOfFile "/proc/self/environ").toList
  let home := (environment.find? fun v => v.name = "HOME".toList).map fun v =>
    Provision.home v.value
  let here := FileTree.tidy (Text.splitAt '/' (← IO.currentDir).toString.toList)
  let bare : Config.Surroundings :=
    { files := { directories := [here], isWhole := true }
      here := here
      home := home
      environment := environment }
  let mut files := #[]
  for path in Provision.paths bare i do
    if let some bytes ← bytesOfFile? (Provision.pathText path) then
      files := files.push (path, bytes)
  let input ← if Provision.needsInput i then readToEnd (← IO.getStdin) ByteArray.empty
    else pure ByteArray.empty
  return {
    surroundings := { bare with files := { bare.files with files := files.toList } }
    input := input.toList
    freeMemory := Provision.freeMemory (← textOfFile "/proc/meminfo") }

/-- Carries out the words after the name of the program, prints what comes of them and gives the
exit status. -/
def program (args : List String) : IO UInt32 := do
  let transcript ← match parse (args.map String.toList) with
    | .error refusal => pure (refuse refusal)
    | .ok invocation => do pure (perform (← machine invocation) invocation)
  let err ← IO.getStderr
  for line in transcript.lines do err.putStrLn line.text
  let out ← IO.getStdout
  out.write ⟨transcript.out.toArray⟩
  out.flush
  return transcript.exitCode.toUInt32

end OrderedDispatch.Main

/-- The program. -/
def main (args : List String) : IO UInt32 := OrderedDispatch.Main.program args

import NoteAssistant.Command.Program
import NoteAssistant.Text.Hex
import NoteAssistant.Text.Utf8
import Std.Time.DateTime.Timestamp

/-! # The program `mnemo`

Gathers what a run needs to know of the machine and prints its outcome.
-/

namespace NoteAssistant.Command

/-- The entries of an environment block, in which each entry ends with a zero byte. -/
def environmentOf (block : List UInt8) : List (String × String) :=
  (block.splitOn 0).filterMap fun entry =>
    (Text.cut? ['='] (Text.Utf8.decodeLossy entry)).map fun (name, value) =>
      (String.ofList name, String.ofList value)

/-- The text of a file, if it can be read. -/
def readFile? (path : String) : IO (Option String) := do
  try return some (← IO.FS.readFile path) catch _ => return none

/-- What can be seen of this machine for a run with the given arguments. -/
def surroundings (args : List String) : IO Surroundings := do
  let block ← try IO.FS.readBinFile "/proc/self/environ" catch _ => pure ByteArray.empty
  let key ← IO.getRandomBytes 32
  let now ← Std.Time.Timestamp.now
  let blind : Surroundings :=
    ⟨fun _ => none, environmentOf block.toList, String.ofList (Text.Hex.encode key.toList),
      .ofEpoch now.toSecondsSinceUnixEpoch.val.toNat⟩
  let paths := match Invocation.ofArguments? args with
    | some (.run path _) => blind.files path
    | _ => []
  let texts ← paths.mapM fun path => do return (path, ← readFile? path)
  return { blind with file := fun path => (texts.lookup path).join }

end NoteAssistant.Command

open NoteAssistant in
def main (args : List String) : IO UInt32 := do
  let outcome := Command.run (← Command.surroundings args) args
  outcome.output.forM IO.println
  outcome.diagnostics.forM IO.eprintln
  return outcome.code.toUInt32

import LabelPress.CommandLine.Run

/-!
# The program

Reads the files that the command line names, answers it, and writes the files that have changed.
-/

namespace LabelPress

open CommandLine Files

partial def readAll (stream : IO.FS.Stream) (before : ByteArray) : IO ByteArray := do
  let next ← stream.read 65536
  if next.isEmpty then return before else readAll stream (before ++ next)

def findEntry (name : String) : IO (Option Entry) := do
  try
    return some (.file (← IO.FS.readBinFile name).toList)
  catch e =>
    match e with
    | .inappropriateType .. => return some .directory
    | _ => return none

/-- The store with what is found under a name and on the way to it. -/
def loadName (files : Store) (name : String) : IO Store := do
  match Path.ofName name with
  | .error _ => return files
  | .ok p =>
    p.places.foldlM (fun files l => do
      match l.isGiven, ← findEntry l.key with
      | false, some entry => return files.put l entry
      | _, _ => return files) files

/-- Writes the files that have changed and removes those that are gone. -/
def saveChanges (before after : Store) : IO Unit := do
  for (name, entry) in after.entries.toList do
    if let .file bytes := entry then
      if before.entries.get? name ≠ some entry then
        IO.FS.writeBinFile name (ByteArray.mk bytes.toArray)
  for (name, _) in before.entries.toList do
    if (after.entries.get? name).isNone then IO.FS.removeFile name

end LabelPress

open LabelPress CommandLine Files

def main (args : List String) : IO UInt32 := do
  let names := match invocation args with
    | .ok i => i.command.files
    | .error _ => []
  let files ← names.foldlM loadName Store.empty
  let input ←
    if names.contains standardInput then readAll (← IO.getStdin) ByteArray.empty
    else pure ByteArray.empty
  let stdout ← IO.getStdout
  let usual : OutputMode := if ← stdout.isTty then .pretty else .json
  let a := answer { files, input := input.toList } usual args
  saveChanges files a.files
  let stderr ← IO.getStderr
  for p in a.prints do
    stdout.putStr (String.ofList p.streams.output)
    stderr.putStr (String.ofList p.streams.errors)
  return UInt32.ofNat a.exitCode

import FilterQuery.Command.Arguments
import Std.Time.DateTime.Timestamp

namespace FilterQuery.CommandLine

def readFile? (directory name : String) : IO (Option ByteArray) := do
  try
    return some (← IO.FS.readBinFile s!"{directory}/{name}")
  catch _ => return none

def replaceFile (directory name : String) (data : ByteArray) : IO Unit := do
  let fresh := s!"{directory}/{name}.new"
  IO.FS.writeBinFile fresh data
  IO.FS.rename fresh s!"{directory}/{name}"

def loadStorage (directory : String) : IO Storage := do
  let mut storage := Storage.empty .directory
  for name in [Config.fileName, Store.fileName] do
    if let some data ← readFile? directory name then
      storage := storage.put name data
  return storage

def saveStorage (directory : String) (before after : Storage) : IO Unit := do
  for name in [Config.fileName, Store.fileName] do
    if let some data := after.content? name then
      if (before.content? name).map (·.toList) ≠ some data.toList then replaceFile directory name data

def currentTime : IO Nat := do
  return (← Std.Time.Timestamp.now).toMillisecondsSinceUnixEpoch.val.toNat

def ask (question : String) : IO (Option Bool) := do
  IO.print s!"? {question} "
  (← IO.getStdout).flush
  let line ← (← IO.getStdin).getLine
  let answer := (line.toList.filter (· != '\n')).map Char.toLower
  return if answer == ['y'] || answer == ['y', 'e', 's'] then some true
    else if answer == ['n'] || answer == ['n', 'o'] then some false
    else none

def printLines (lines : List Command.Line) : IO Bool := do
  try
    for line in lines do
      match line with
      | .output text =>
        IO.print text
        (← IO.getStdout).flush
      | .remark text => IO.eprint text
    return true
  catch _ => return false

def conclude : Option Command.Failure → IO UInt32
  | none => return 0
  | some failure => do
    let _ ← printLines [.remark s!"Error: {failure.message}\n"]
    return failure.code.toUInt32

def runIn (directory : String) (c : Command) : IO UInt32 := do
  IO.FS.createDirAll directory
  let lock ← if c.mutates then
      let handle ← IO.FS.Handle.mk s!"{directory}/{Command.lockName}" .append
      handle.lock
      pure (some handle)
    else pure none
  let before ← loadStorage directory
  let code ← match c.prepare before (← currentTime) with
    | .error outcome => do
      saveStorage directory before outcome.storage
      conclude outcome.failure
    | .ok s => do
      saveStorage directory before s.store.storage
      let answer ← match c.question? s with
        | some question => ask question
        | none => pure none
      let effect := c.execute s answer
      if ← printLines effect.before then
        saveStorage directory s.store.storage effect.session.store.storage
        if ← printLines effect.after then conclude effect.failure else conclude (some .unprinted)
      else conclude (some .unprinted)
  if let some handle := lock then handle.unlock
  return code

end FilterQuery.CommandLine

open FilterQuery in
def main (args : List String) : IO UInt32 := do
  match Command.ofArguments args with
  | .error r =>
    IO.print r.output
    IO.eprint r.errors
    return r.code.toUInt32
  | .ok c =>
    let home := (← IO.getEnv "HOME").map (s!"{·}/.local/share/catus")
    match (← IO.getEnv "CATUS_BASE_PATH").or home with
    | some directory => CommandLine.runIn directory c
    | none =>
      IO.eprintln "Error: could not determine home directory"
      return 1

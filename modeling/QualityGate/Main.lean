import QualityGate.Command.Perform
import QualityGate.Workspace.Change
import Std.Time.DateTime.Timestamp

/-! The command line. The files that a command may look at are named on standard
input, one path a line, as a list of files under version control names them. What
the command changes is written back when it has ended. -/

namespace QualityGate.Main

partial def readLines (input : IO.FS.Stream) (lines : List String) : IO (List String) := do
  let line ← input.getLine
  if line.isEmpty then return lines.reverse
  else readLines input (line.trimAsciiEnd.toString :: lines)

/-- Adds the file at a path, if it can be read. -/
def addFile (w : Workspace) (path : String) : IO Workspace := do
  try
    let data ← IO.FS.readBinFile path
    return w.add (.ofText path) (.file data false)
  catch _ => return w

def carryOut : Change → IO Unit
  | .removeFile p => IO.FS.removeFile p.text
  | .removeDirectory p => IO.FS.removeDir p.text
  | .makeDirectory p => IO.FS.createDirAll p.text
  | .write p data executable => do
    IO.FS.writeBinFile p.text data
    if executable then
      let all : IO.AccessRight := { read := true, write := true, execution := true }
      let others : IO.AccessRight := { read := true, execution := true }
      IO.setAccessRights p.text { user := all, group := others, other := others }

end QualityGate.Main

open QualityGate QualityGate.Main in
def main (args : List String) : IO UInt32 := do
  let directory := (← IO.getEnv "PWD").getD "/"
  let paths ← readLines (← IO.getStdin) []
  let before ← paths.foldlM addFile { root := .ofText directory }
  let time ← Std.Time.Timestamp.now
  let session : Session := { workspace := before, now := .ofEpoch time.toSecondsSinceUnixEpoch.val.toNat }
  let done := Command.performLine args session
  IO.print done.output
  (before.changes done.session.workspace).forM carryOut
  if let some e := done.unreported? then IO.eprintln e.message
  return done.exitCode.toUInt32

import AssetPlan.Command.Line
import AssetPlan.Command.Needs
import AssetPlan.Command.Run
import Std.Time.Format

/-! # The command line program

Looks at the files and directories a command needs, runs it on what was seen, and prints, writes and
ends as the report says.
-/

namespace AssetPlan

open Std.Time

/-- The cause of a failed operation of the system; its error numbers may be negated. -/
def FileError.ofSystem : IO.Error → FileError
  | .noFileOrDirectory _ _ _ => .notFound
  | .inappropriateType _ code _ => if code = 21 ∨ code = -21 then .isDirectory else .notDirectory
  | .permissionDenied _ _ _ => .other "Permission denied (os error 13)"
  | e => .other (toString e)

/-- Reads a file. -/
def readSystemFile (path : String) : IO (Except FileError Content.Bytes) := do
  try
    let bytes ← IO.FS.readBinFile path
    pure (.ok bytes.toList)
  catch e => pure (.error (.ofSystem e))

/-- A directory is known by the way in which reading it as a file fails. -/
def isSystemDirectory (path : String) : IO Bool := do
  match ← readSystemFile path with
  | .error .isDirectory => pure true
  | _ => pure false

/-- The present time, in universal time. -/
def presentTime : IO String := do
  let now := DateTime.ofTimestamp (← Timestamp.now) TimeZone.ZoneRules.UTC
  pure (now.format "uuuu-MM-dd" ++ "T" ++ now.format "HH:mm:ss.SSSSSSSSS" ++ "Z")

/-- Sees what a command needs of the system. -/
def surroundingsOf (request : Request) : IO Surroundings := do
  let files ← request.files.mapM fun path => do pure (path, ← readSystemFile path)
  let seen : Surroundings := {
    read := fun path => (files.lookup path).getD (.error .notFound)
    exists? := fun path =>
      match files.lookup path with
      | none | some (.error .notFound) => false
      | some _ => true
    isDir := fun _ => true
    assetPath := ← IO.getEnv "ASSET_PATH"
    createdAt := ← presentTime }
  let directories ← (request.directories seen).filterM isSystemDirectory
  pure { seen with isDir := fun path => path ∈ directories }

/-- An event as a line of the log. -/
def Event.line (e : Event) : String :=
  let fields := e.fields.map fun (name, text) => s!" {name}={text}"
  s!"{e.level.name} {e.message}" ++ String.join fields

/-- Writes the file of a report. -/
def writeReport (report : Report) : IO Report := do
  match report.file with
  | none => pure report
  | some (path, text) =>
    try
      IO.FS.writeFile path text
      pure report
    catch e => pure (report.unwritten path (.ofSystem e))

end AssetPlan

open AssetPlan in
/-- Answers the words of the command line. -/
def main (words : List String) : IO UInt32 := do
  let request := Request.ofWords words
  let report := request.answer (← surroundingsOf request)
  let stderr ← IO.getStderr
  for event in report.events do
    if request.logs event then stderr.putStrLn event.line
  IO.print report.stdout
  let report ← writeReport report
  stderr.putStr report.stderr
  pure report.status.toUInt32

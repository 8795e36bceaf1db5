import MarketAlerts.Audit.Json
import MarketAlerts.CommandLine.Basic
import MarketAlerts.Json.Writer
import Std.Time.DateTime.Timestamp

/-!
# The program

The program reads files and its input and prints. No commands are run and no requests are sent from
here, so that only popups deliver. The audit of a run is written into its file.
-/

namespace MarketAlerts

/-- A world in which nothing can be reached. -/
def unreachableWorld : World where
  searchPath := []
  isFile _ := false
  run _ _ _ := some .notStarted
  fetch _ _ := some (.unreachable "no network")

/-- The rest of a stream. -/
partial def readAll (stream : IO.FS.Stream) (text : String) : IO String := do
  let line ← stream.getLine
  if line.isEmpty then return text else readAll stream (text ++ line)

/-- The present. -/
def presentInstant : IO Instant := do
  let nanos := (← Std.Time.Timestamp.now).toNanosecondsSinceUnixEpoch.val
  return ⟨nanos.fdiv 1000000000, (nanos.fmod 1000000000).toNat⟩

/-- Files, folders and the input. -/
def surroundings : CommandLine.Surroundings IO where
  fileText path := try return some (← IO.FS.readFile path) catch _ => return none
  openAudit place := try
      unless place.folder.isEmpty do IO.FS.createDirAll place.folder
      for file in place.file do
        let _ ← IO.FS.Handle.mk file .append
      return some {}
    catch _ => return none
  inputText := do readAll (← IO.getStdin) ""

end MarketAlerts

/-- Runs the program and prints what it has to say. -/
def main (arguments : List String) : IO UInt32 := do
  let seed := (← IO.getRandomBytes 16).foldl (fun n b => n * 256 + b.toNat) 0
  let ending ← MarketAlerts.CommandLine.run MarketAlerts.surroundings
    (← MarketAlerts.presentInstant) MarketAlerts.unreachableWorld ⟨seed⟩ arguments
  for line in ending.output do
    IO.println line
  if ending.misused then
    IO.eprintln "usage: alert-dispatch [OPTIONS]"
  for failure in ending.failure do
    IO.eprintln failure.message
  for (place, audit) in ending.audit do
    -- an audit that is kept in memory only has no file
    for file in place.file do
      IO.FS.writeFile file audit.toJson.compact
  return ending.code.toUInt32

import MarketAlerts.CommandLine.Basic
import MarketAlerts.World.Disk

/-!
# Rehearsals

The program can be run on a disk that is held in memory: files have texts, and the audit is opened
where a path leads to its file.
-/

namespace MarketAlerts

/-- How long the full path of the audit's file may be, in bytes. -/
def Audit.maxPathBytes : Nat := 504

/-- The disk with an audit on it: the folder is made if it is missing, and the file must be in a
folder that there is then. -/
def Disk.withAudit? (d : Disk) (p : Audit.Location) : Option Disk := do
  let d ← d.withFolder? p.folder
  match p.file with
  | none => some d
  | some path =>
    let (start, parts) := d.beginning path
    let place ← d.name? start parts
    if Disk.pathBytes place ≤ Audit.maxPathBytes then d.withFile? place else none

/-- The surroundings with a disk, the texts of its files, and a text on the input. -/
def CommandLine.Surroundings.onDisk (d : Disk) (textAt : Place → Option String) (input : String) :
    Surroundings Id where
  fileText path := (d.place? path).bind textAt
  openAudit p := (d.withAudit? p).map fun _ => {}
  inputText := input

end MarketAlerts

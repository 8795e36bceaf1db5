import MarketAlerts.Audit.Location
import MarketAlerts.CommandLine.Options
import MarketAlerts.Configuration.Assembly
import MarketAlerts.Text.Blank

/-!
# The command line

The program reads its configuration, opens the audit if there is to be one, and assembles the
monitor. Then it either probes all channels and prints the findings, or runs the monitor over the
snapshots on its input, one in a line. Lines that are blank or cannot be read are skipped.
-/

namespace MarketAlerts.CommandLine

/-- Why the program fails. -/
inductive Failure where
  /-- The configuration cannot be used. -/
  | configuration
  /-- The audit cannot be opened. -/
  | storage
  /-- A channel cannot work. -/
  | runtime
deriving DecidableEq

/-- The text of a failure. -/
def Failure.message : Failure → String
  | configuration => "configuration error"
  | storage => "storage error"
  | runtime => "runtime error"

/-- What the program gets from outside. -/
structure Surroundings (m : Type → Type) where
  /-- The text of a file, if it can be read. -/
  fileText : String → m (Option String)
  /-- The audit that is kept somewhere, if it can be opened; a new one is begun where there is
  none. -/
  openAudit : Audit.Location → m (Option Audit)
  /-- The text on the input. -/
  inputText : m String

/-- How the program ends. -/
structure Ending where
  /-- Why it fails, if it does. -/
  failure : Option Failure := none
  /-- Whether the arguments were not understood. -/
  misused : Bool := false
  /-- The printed lines. -/
  output : List String := []
  /-- The audit and where it is kept, if there is one. -/
  audit : Option (Audit.Location × Audit) := none
  /-- The reports of the dispatches. -/
  reports : List Dispatcher.Report := []

/-- The exit code. -/
def Ending.code (e : Ending) : Nat :=
  if e.misused then 2 else if e.failure.isSome then 1 else 0

/-- The lines of a text, without their line breaks; nothing comes after the last line break. -/
def linesOf (text : String) : List String :=
  let lines := text.splitOn "\n"
  let lines := if lines.getLast? = some "" then lines.dropLast else lines
  lines.map fun line => if line.endsWith "\r" then (line.dropEnd 1).copy else line

/-- The snapshots in the lines of a text. -/
def snapshotsOf (now : Instant) (text : String) : List Snapshot :=
  (linesOf text).filterMap fun line =>
    if Text.isBlankText line then none else Snapshot.ofLine? now line

/-- The line for a probed channel. -/
def findingLine (name : String) (f : Channel.Finding) : String :=
  name ++ ": " ++ (if f.ok then "ok" else "FAILED") ++ " (" ++ f.message ++ ")"

/-- Probes all channels. -/
def probeAll (w : World) (d : Dispatcher) : Ending :=
  let findings := d.channels.map fun c => (c.name, c.probe w)
  { failure := if findings.all fun (_, f) => f.ok then none else some .runtime
    output := findings.map fun (name, f) => findingLine name f }

/-- Runs the monitor over the snapshots in a text. -/
def monitorAll (now : Instant) (w : World) (m : Monitor) (text : String) : Ending × Monitor :=
  let (outcome, m) := { m with engine := m.engine.start }.run now w (snapshotsOf now text)
  ({ reports := outcome.reports }, m)

/-- Runs the program with options, after its configuration is loaded and its audit opened. -/
def runLoaded [Monad m] (s : Surroundings m) (now : Instant) (w : World) (supply : Uuid.Supply)
    (o : Options) (c : Configuration) (kept : Option (Audit.Location × Audit)) : m Ending := do
  let stored (e : Ending) (audit : Option Audit) : Ending :=
    { e with audit := kept.bind fun (place, _) => audit.map fun a => (place, a) }
  match c.assemble supply (fun _ => now) (kept.map (·.2)) with
  | (audit, .error _) => return stored { failure := some .configuration } audit
  | (audit, .ok monitor) =>
    if o.testChannels then return stored (probeAll w monitor.dispatcher) audit
    else
      let (ending, monitor) := monitorAll now w monitor (← s.inputText)
      return stored ending monitor.dispatcher.audit

/-- Runs the program with options. -/
def runOptions [Monad m] (s : Surroundings m) (now : Instant) (w : World) (supply : Uuid.Supply)
    (o : Options) : m Ending := do
  match Configuration.load (← s.fileText (o.config.getD defaultConfig)) with
  | .error _ => return { failure := some .configuration }
  | .ok c =>
    if c.general.audit then
      match Audit.Location.ofFolder? c.general.dataDir with
      | none => return { failure := some .storage }
      | some place =>
        match ← s.openAudit place with
        | none => return { failure := some .storage }
        | some audit => runLoaded s now w supply o c (some (place, audit))
    else runLoaded s now w supply o c none

/-- Runs the program with arguments. -/
def run [Monad m] (s : Surroundings m) (now : Instant) (w : World) (supply : Uuid.Supply)
    (arguments : List String) : m Ending :=
  match parse arguments with
  | .misuse => return { misused := true }
  | .help => return { output := helpText }
  | .run o => runOptions s now w supply o

end MarketAlerts.CommandLine

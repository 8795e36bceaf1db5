import MarketAlerts.Configuration.Validation
import MarketAlerts.Monitor.Basic

/-!
# Assembly

A monitor is assembled from a configuration: first its templates, then its conditions, which are
saved in the audit on the way, and at last its channels. A validated configuration can still fail
here, because the texts of templates and the settings of channels are looked at only now.
-/

namespace MarketAlerts.Configuration

/-- What is wrong with a channel. -/
inductive ChannelFault where
  /-- The kind or the settings. -/
  | settings (channel : String) (cause : Channel.Error)
  /-- The least priority. -/
  | minPriority (channel : String)
  /-- The name. -/
  | name (channel : String) (cause : Dispatcher.Error)

/-- The error that a fault of a channel comes to. -/
def ChannelFault.error : ChannelFault → ConfigurationError
  | settings channel _ => .invalid ("channels[" ++ inQuotes channel ++ "].settings")
  | minPriority channel => .invalid ("channels[" ++ inQuotes channel ++ "].min_priority")
  | name channel _ => .invalid ("channels[" ++ inQuotes channel ++ "].name")

/-- Why a monitor cannot be assembled. -/
inductive AssemblyError where
  /-- A template is refused. -/
  | template (name : String) (cause : Template.Error)
  /-- A condition makes no sense. -/
  | condition (cause : ConfigurationError)
  /-- A condition is refused. -/
  | registration (cause : WatchlistError)
  /-- A channel is refused. -/
  | channel (cause : ChannelFault)

/-- Adds the channel of an entry to a dispatcher. -/
def addChannel (d : Dispatcher) (e : ChannelEntry) : Except ChannelFault Dispatcher :=
  match Channel.ofSettings e.kind e.name e.settingsJson with
  | .error cause => .error (.settings e.name cause)
  | .ok channel =>
    match Priority.ofLevel? e.minPriority with
    | none => .error (.minPriority e.name)
    | some minPriority =>
      let route : Route := { minPriority, conditions := e.conditions, template := e.template }
      match d.add (channel.setEnabled e.enabled) route with
      | .error cause => .error (.name e.name cause)
      | .ok d => .ok d

/-- A dispatcher with the channels of the configuration. -/
def dispatcher (c : Configuration) (templates : Template.Library) :
    Except ChannelFault Dispatcher :=
  c.channels.foldlM addChannel { templates }

/-- A library with the templates of the configuration. -/
def library (c : Configuration) : Except AssemblyError Template.Library :=
  c.templates.foldlM (fun lib t =>
    match lib.create t false with
    | .ok (_, lib) => .ok lib
    | .error cause => .error (.template t.name cause)) {}

/-- Saves and registers the conditions of entries, one after the other at these times. The audit
keeps what was saved before a failure. -/
def registerAll (audit : Option Audit) (l : Watchlist) (supply : Uuid.Supply)
    (saved : Nat → Instant) : List Condition.Entry → Option Audit × Except AssemblyError Watchlist
  | [] => (audit, .ok l)
  | e :: rest =>
    match Condition.ofEntry (toString supply.head) e with
    | .error cause => (audit, .error (.condition cause))
    | .ok condition =>
      -- It is saved even if the watchlist then refuses it.
      let audit := audit.map (·.saveCondition (saved 0) condition)
      match l.register condition with
      | .error cause => (audit, .error (.registration cause))
      | .ok l => registerAll audit l (supply.drop 1) (fun i => saved (i + 1)) rest

/-- The monitor of a configuration, whose conditions are saved at these times. The audit keeps what
was saved before a failure. -/
def assemble (c : Configuration) (supply : Uuid.Supply) (saved : Nat → Instant)
    (audit : Option Audit) : Option Audit × Except AssemblyError Monitor :=
  match c.library with
  | .error e => (audit, .error e)
  | .ok templates =>
    match registerAll audit {} supply saved c.conditions with
    | (audit, .error e) => (audit, .error e)
    | (audit, .ok watchlist) =>
      -- every condition has used up one identifier, whether it needed it or not
      let supply := supply.drop c.conditions.length
      match c.dispatcher templates with
      | .error cause => (audit, .error (.channel cause))
      | .ok d => (audit, .ok {
          engine := { settings := c.engineSettings, watchlist, supply }
          dispatcher := { d with audit, supply := supply.apart } })

end MarketAlerts.Configuration

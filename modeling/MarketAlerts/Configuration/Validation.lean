import MarketAlerts.Channel.Settings
import MarketAlerts.Configuration.Basic

/-!
# Validation

`Configuration.validate` says whether the names of a configuration exist, are used only once where
they have to be, and whether its numbers make sense. It looks at the general part, at the
conditions, at the templates and then at the channels, and reports the first fault.
-/

namespace MarketAlerts.Configuration

/-- What is wrong with a configuration. -/
inductive Fault where
  /-- There is no such way to log. -/
  | logFormat (name : String)
  /-- There is no such strategy. -/
  | strategy (name : String)
  /-- Conditions would be due at once. -/
  | interval
  /-- No prices would be kept. -/
  | historyLimit
  /-- Two conditions have this identifier. -/
  | duplicateCondition (id : String)
  /-- A condition makes no sense. -/
  | condition (entry : String) (defect : Condition.Entry.Defect)
  /-- A template has the name of a prebuilt one. -/
  | reservedTemplate (name : String)
  /-- Two templates have this name. -/
  | duplicateTemplate (name : String)
  /-- Two channels have this name. -/
  | duplicateChannel (name : String)
  /-- There is no such kind of channel. -/
  | channelKind (channel kind : String)
  /-- There is no such priority. -/
  | channelPriority (channel : String) (level : Nat)
  /-- There is no such template. -/
  | channelTemplate (channel template : String)
  /-- There is no condition with this identifier. -/
  | channelCondition (channel id : String)

/-- The text of a fault. -/
def Fault.message : Fault → String
  | .logFormat name => "general.log_format " ++ inQuotes name ++ " is not valid"
  | .strategy name => "general.evaluation_strategy " ++ inQuotes name ++ " is not valid"
  | .interval => "general.evaluation_interval_secs must be positive"
  | .historyLimit => "general.history_limit must be positive"
  | .duplicateCondition id => "conditions: duplicate id " ++ inQuotes id
  | .condition entry defect => defect.describe entry
  | .reservedTemplate name =>
    "templates[" ++ inQuotes name ++ "]: name is reserved for a prebuilt template"
  | .duplicateTemplate name => "templates: duplicate name " ++ inQuotes name
  | .duplicateChannel name => "channels: duplicate name " ++ inQuotes name
  | .channelKind channel kind =>
    "channels[" ++ inQuotes channel ++ "].kind " ++ inQuotes kind ++ " is not a known channel kind"
  | .channelPriority channel level =>
    "channels[" ++ inQuotes channel ++ "].min_priority " ++ toString level ++ " is outside 1-5"
  | .channelTemplate channel template =>
    "channels[" ++ inQuotes channel ++ "].template " ++ inQuotes template ++ " does not exist"
  | .channelCondition channel id =>
    "channels[" ++ inQuotes channel ++ "].conditions: " ++ inQuotes id ++
      " does not match any condition id"

/-- Refuses what is not so. -/
def require (holds : Bool) (fault : Fault) : Except Fault Unit :=
  if holds then .ok () else .error fault

/-- Validates the general part. -/
def General.validate (g : General) : Except Fault Unit := do
  require (g.logFormat = "text" || g.logFormat = "json") (.logFormat g.logFormat)
  require (Strategy.ofName? g.strategy).isSome (.strategy g.strategy)
  require (g.interval ≠ some 0) .interval
  require (g.historyLimit ≠ 0) .historyLimit

/-- Validates a condition. -/
def validateCondition (e : Condition.Entry) : Except Fault Unit :=
  match Condition.parseEntry "" e with
  | .ok _ => .ok ()
  | .error defect => .error (.condition e.name defect)

/-- Validates conditions that come after others with the identifiers `seen`. -/
def validateConditions (seen : List String) : List Condition.Entry → Except Fault Unit
  | [] => .ok ()
  | e :: rest =>
    match e.id with
    | none => do
      validateCondition e
      validateConditions seen rest
    | some id => do
      require (!seen.contains id) (.duplicateCondition id)
      validateCondition e
      validateConditions (id :: seen) rest

/-- Validates templates that come after others with the names `seen`. -/
def validateTemplates (seen : List String) : List Template → Except Fault Unit
  | [] => .ok ()
  | t :: rest => do
    require (!Template.isPrebuilt t.name) (.reservedTemplate t.name)
    require (!seen.contains t.name) (.duplicateTemplate t.name)
    validateTemplates (t.name :: seen) rest

/-- The identifiers that are given to conditions. -/
def conditionIds (c : Configuration) : List String := c.conditions.filterMap (·.id)

/-- Whether there is a template of this name. -/
def hasTemplate (c : Configuration) (name : String) : Bool :=
  Template.isPrebuilt name || c.templates.any fun t => t.name = name

/-- Validates a channel, its name apart. -/
def validateChannel (c : Configuration) (e : ChannelEntry) : Except Fault Unit := do
  require (Channel.Kind.ofName? e.kind).isSome (.channelKind e.name e.kind)
  require (Priority.ofLevel? e.minPriority).isSome (.channelPriority e.name e.minPriority)
  require (c.hasTemplate e.template) (.channelTemplate e.name e.template)
  match e.conditions.find? fun id => !c.conditionIds.contains id with
  | none => .ok ()
  | some id => .error (.channelCondition e.name id)

/-- Validates channels that come after others with the names `seen`. -/
def validateChannels (c : Configuration) (seen : List String) :
    List ChannelEntry → Except Fault Unit
  | [] => .ok ()
  | e :: rest => do
    require (!seen.contains e.name) (.duplicateChannel e.name)
    c.validateChannel e
    validateChannels c (e.name :: seen) rest

/-- Validates a configuration. -/
def validate (c : Configuration) : Except Fault Unit := do
  c.general.validate
  validateConditions [] c.conditions
  validateTemplates [] c.templates
  c.validateChannels [] c.channels

/-- The configuration of a file's text, if there is one; it is validated. -/
def load (text : Option String) : Except ConfigurationError Configuration :=
  match text with
  | none => .error .unreadable
  | some text => do
    let c ← parse text
    match c.validate with
    | .ok _ => .ok c
    | .error fault => .error (.invalid fault.message)

end MarketAlerts.Configuration

import MarketAlerts.Condition.Entry
import MarketAlerts.Engine.Basic
import MarketAlerts.Template.Library
import MarketAlerts.Toml.Reader

/-!
# Configurations

A `Configuration` is what somebody writes into a configuration file: how the engine works, and the
conditions, templates and channels. Only the types of its values are right so far; names may not
exist and numbers may make no sense.
-/

namespace MarketAlerts

namespace Configuration

/-- The general part. -/
structure General where
  /-- How much is logged. -/
  logLevel : String := "info"
  /-- How it is logged. -/
  logFormat : String := "text"
  /-- The folder of the audit. -/
  dataDir : String := "./data"
  /-- The name of the strategy of passes. -/
  strategy : String := "sequential"
  /-- After how many seconds an evaluated condition is due again, if ever. -/
  interval : Option Nat := none
  /-- How many prices a technical condition keeps. -/
  historyLimit : Nat := Evaluation.defaultHistoryLimit
  /-- Whether there is an audit. -/
  audit : Bool := false
deriving DecidableEq, Inhabited

/-- A channel. -/
structure ChannelEntry where
  /-- The name. -/
  name : String
  /-- The name of the kind. -/
  kind : String
  /-- Whether it is switched on. -/
  enabled : Bool
  /-- The least priority of its events. -/
  minPriority : Nat
  /-- The conditions whose events go through it. -/
  conditions : List String
  /-- The template of its messages. -/
  template : String
  /-- The settings, sorted by key. -/
  settings : List (String × Toml)
deriving Inhabited

end Configuration

/-- A configuration. -/
structure Configuration where
  /-- The general part. -/
  general : Configuration.General
  /-- The conditions. -/
  conditions : List Condition.Entry
  /-- The channels. -/
  channels : List Configuration.ChannelEntry
  /-- The custom templates. -/
  templates : List Template
deriving Inhabited

namespace Configuration

/-- Reads the general part. -/
def General.ofJson? (v : Json) : Option General := do
  let r ← v.record? ["log_level", "log_format", "data_dir", "evaluation_strategy",
    "evaluation_interval_secs", "history_limit", "audit"] true
  let default : General := {}
  return {
    logLevel := ← r.fieldOr? "log_level" default.logLevel Json.string?
    logFormat := ← r.fieldOr? "log_format" default.logFormat Json.string?
    dataDir := ← r.fieldOr? "data_dir" default.dataDir Json.string?
    strategy := ← r.fieldOr? "evaluation_strategy" default.strategy Json.string?
    interval := ← r.optional? "evaluation_interval_secs" Json.nat64?
    historyLimit := ← r.fieldOr? "history_limit" default.historyLimit Json.nat64?
    audit := ← r.fieldOr? "audit" default.audit Json.bool? }

/-- Reads a channel. -/
def ChannelEntry.ofJson? (v : Json) : Option ChannelEntry := do
  let r ← v.record? ["name", "kind", "enabled", "min_priority", "conditions", "template",
    "settings"] true
  return {
    name := ← r.field? "name" Json.string?
    kind := ← r.field? "kind" Json.string?
    enabled := ← r.fieldOr? "enabled" true Json.bool?
    minPriority := ← r.fieldOr? "min_priority" Priority.low.level (Json.natBelow? 256)
    conditions := ← r.fieldOr? "conditions" [] (Json.list? Json.string?)
    template := ← r.fieldOr? "template" "default" Json.string?
    settings := ← r.fieldOr? "settings" [] (Toml.tableOfJson? true) }

/-- Reads a configuration. -/
def ofJson? (v : Json) : Option Configuration := do
  let r ← v.record? ["general", "conditions", "channels", "templates"]
  return {
    general := ← r.field? "general" General.ofJson?
    conditions := ← r.fieldOr? "conditions" [] (Json.list? (Condition.Entry.ofJson? true))
    channels := ← r.fieldOr? "channels" [] (Json.list? ChannelEntry.ofJson?)
    templates := ← r.fieldOr? "templates" [] (Json.list? (Template.ofJson? true)) }

/-- The configuration of a text. -/
def parse (text : String) : Except ConfigurationError Configuration :=
  match (Toml.parse? text).bind fun t => ofJson? t.toRecord with
  | some c => .ok c
  | none => .error .malformed

/-- How the engine works. A strategy that does not exist is replaced by the default. -/
def engineSettings (c : Configuration) : Engine.Settings where
  strategy := (Strategy.ofName? c.general.strategy).getD .sequential
  interval := c.general.interval
  historyLimit := c.general.historyLimit

/-- The settings of a channel in JSON. -/
def ChannelEntry.settingsJson (e : ChannelEntry) : Json := (Toml.table e.settings).toJson

end Configuration

end MarketAlerts

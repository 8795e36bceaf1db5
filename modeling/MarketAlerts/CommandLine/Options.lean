/-!
# Options

What can be asked for on the command line. An option takes its value from the same argument or from
the next one, is given at most once, and nothing but options is understood.
-/

namespace MarketAlerts.CommandLine

/-- What was asked for. -/
structure Options where
  /-- The configuration file. -/
  config : Option String := none
  /-- Whether channels are only probed. -/
  testChannels : Bool := false
deriving DecidableEq, Inhabited

/-- The configuration file where none is given. -/
def defaultConfig : String := "config.toml"

/-- What the arguments come to. -/
inductive Request where
  /-- To run with these options. -/
  | run (options : Options)
  /-- To explain the options. -/
  | help
  /-- They are not understood. -/
  | misuse
deriving DecidableEq

namespace Options

/-- The options with a configuration file, unless there is one already. -/
def setConfig? (o : Options) (path : String) : Option Options :=
  if o.config.isSome then none else some { o with config := some path }

/-- The options with channels only probed, unless this was asked for already. -/
def setTestChannels? (o : Options) : Option Options :=
  if o.testChannels then none else some { o with testChannels := true }

end Options

/-- What an argument says. -/
inductive Argument where
  /-- To explain the options. -/
  | help
  /-- Only to probe channels. -/
  | testChannels
  /-- Which configuration file to take; without a value, the next argument names it. -/
  | config (value : Option String)
  /-- Nothing that is understood. -/
  | unknown
deriving DecidableEq

/-- What an argument says. The short forms may be followed directly by more: by a value, or by what
is no longer looked at after a call for help. -/
def Argument.ofString (s : String) : Argument :=
  if s = "--help" then .help
  else if s = "--test-channels" then .testChannels
  else if s = "--config" ∨ s = "-c" then .config none
  else
    match s.dropPrefix? "--config=", s.dropPrefix? "-c=", s.dropPrefix? "-c" with
    | some value, _, _ | none, some value, _ | none, none, some value => .config (some value.copy)
    | none, none, none => if s.startsWith "-h" then .help else .unknown

/-- Whether an argument can be the value of the option before it: it is a lone hyphen or does not
start with one. -/
def isValue (s : String) : Bool :=
  match s.toList with
  | '-' :: _ :: _ => false
  | _ => true

/-- What the arguments come to after others that came to these options. -/
def parseFrom (o : Options) : List String → Request
  | [] => .run o
  | ["--"] => .run o
  | s :: rest =>
    match Argument.ofString s with
    | .help => .help
    | .unknown => .misuse
    | .testChannels =>
      match o.setTestChannels? with
      | some o => parseFrom o rest
      | none => .misuse
    | .config (some value) =>
      match o.setConfig? value with
      | some o => parseFrom o rest
      | none => .misuse
    -- the next argument is the value, unless it looks like an option
    | .config none =>
      match rest with
      | value :: rest =>
        if isValue value then
          match o.setConfig? value with
          | some o => parseFrom o rest
          | none => .misuse
        else .misuse
      | [] => .misuse

/-- What the arguments come to. -/
def parse (arguments : List String) : Request := parseFrom {} arguments

/-- The explanation of the options. -/
def helpText : List String := [
  "Market condition alerts with multi-channel delivery",
  "",
  "Usage: alert-dispatch [OPTIONS]",
  "",
  "Options:",
  "  -c, --config <CONFIG>  Path to the TOML configuration file [default: config.toml]",
  "      --test-channels    Test every configured channel's connection and exit",
  "  -h, --help             Print help"]

end MarketAlerts.CommandLine

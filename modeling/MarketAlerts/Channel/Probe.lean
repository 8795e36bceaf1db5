import MarketAlerts.Channel.Basic

/-!
# Probes

A probe finds out with little effort whether a channel can work. It sends no message and counts
nothing.
-/

namespace MarketAlerts.Channel

/-- What a probe finds out. -/
structure Finding where
  /-- Whether the channel can work. -/
  ok : Bool
  /-- The reason. -/
  message : String
deriving DecidableEq

/-- What the answer to a bot's question for itself means. -/
def botFinding : Http.Answer → Finding
  | .unreachable reason => ⟨false, "request failed: " ++ reason⟩
  | .reply r =>
    match r.acknowledgement? with
    | none => ⟨false, "unexpected response: " ++ r.statusText⟩
    | some a => if a.ok then ⟨true, "bot token accepted"⟩ else ⟨false, a.description.getD ""⟩

/-- What the answer of a mail relay means. Any reply shows that there is one. -/
def relayFinding : Http.Answer → Finding
  | .unreachable reason => ⟨false, "relay unreachable: " ++ reason⟩
  | .reply r => ⟨true, "relay answered " ++ r.statusText⟩

/-- What is said of a request without an answer in time. -/
def noAnswer : Http.Answer := .unreachable "no answer in time"

/-- Asks the bot's server for the bot. -/
def ChatbotSettings.probe (s : ChatbotSettings) (w : World) : Finding :=
  match s.problem?, s.methodUrl? "getMe" with
  | some reason, _ => ⟨false, reason⟩
  | none, none => ⟨false, "bot_token is not set"⟩
  | none, some url =>
    botFinding ((w.fetch (s.timeoutSecs.toNat * 1000) { method := .get, url }).getD noAnswer)

/-- Asks the relay for anything. -/
def EmailSettings.probe (s : EmailSettings) (w : World) : Finding :=
  match s.problem?, s.apiUrl with
  | some reason, _ => ⟨false, reason⟩
  | none, none => ⟨false, "api_url is not set"⟩
  | none, some url =>
    relayFinding ((w.fetch (s.timeoutSecs.toNat * 1000) { method := .head, url }).getD noAnswer)

/-- Looks for the notifying command. -/
def DesktopSettings.probe (s : DesktopSettings) (w : World) : Finding :=
  match w.findCommand? s.command with
  | some path => ⟨true, "notifier found at " ++ path⟩
  | none => ⟨false, s.command ++ " not found on PATH"⟩

/-- Whether a channel can work. -/
def probe (c : Channel) (w : World) : Finding :=
  match c.settings with
  | .popup _ =>
    let listeners := if c.listener.isSome then 1 else 0
    ⟨true, "popup ready, " ++ toString listeners ++ " subscriber(s)"⟩
  | .desktop s => s.probe w
  | .chatbot s => s.probe w
  | .email s => s.probe w
  | .rehearsal _ => ⟨true, "mock"⟩

end MarketAlerts.Channel

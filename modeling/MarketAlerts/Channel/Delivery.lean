import MarketAlerts.Channel.Settings
import MarketAlerts.Message
import MarketAlerts.Text.Ellipsis
import MarketAlerts.World.Basic

/-!
# Deliveries

A `Delivery` is what a channel is about to do for a message, settled by the channel's settings at
its beginning; later changes of the settings do not reach it. How it ends is up to the world.
-/

namespace MarketAlerts.Channel

/-- Something to be done for a message. -/
inductive Errand where
  /-- Show the message to those who listen, and keep it among so many. -/
  | present (shown : Message) (maxHistory : Nat)
  /-- Run a command. -/
  | command (program : String) (arguments : List String)
  /-- Send a request. It is done when the reply tells of success, and, if need be, a granted
  acknowledgement says so too. -/
  | post (request : Http.Request) (needsAcknowledgement : Bool)
  /-- Keep the message, unless this is meant to fail or to take for ever. -/
  | rehearse (message : Message) (fails hangs : Bool)
  /-- Nothing can be done, for want of an address. -/
  | unaddressed

/-- Something to be done within some milliseconds. -/
structure Delivery where
  /-- How long it may take. -/
  timeoutMs : Nat
  /-- What is to be done. -/
  errand : Errand

/-- How a delivery ends. -/
inductive Ending where
  /-- The message arrived. -/
  | delivered
  /-- It did not. -/
  | failed
  /-- There was no end in time. -/
  | late
deriving DecidableEq

/-- How long a popup may take, in milliseconds. -/
def presentTimeoutMs : Nat := 10000

/-- Shows a message with its body cut to the length of the popup. -/
def PopupSettings.delivery (s : PopupSettings) (m : Message) : Delivery where
  timeoutMs := presentTimeoutMs
  errand := .present { m with content := Text.ellipsize s.maxLength.toNat m.content }
    s.maxHistory.toNat

/-- How a notification of this priority presses. -/
def urgency (p : Priority) : String :=
  if p.level ≤ 2 then "low" else if p.level = 3 then "normal" else "critical"

/-- The arguments of the notifying command. -/
def DesktopSettings.arguments (s : DesktopSettings) (m : Message) : List String :=
  ["--app-name=" ++ s.appName, "--urgency=" ++ urgency m.priority,
    "--expire-time=" ++ toString s.expireMs.toNat, m.title, m.content]

/-- Runs the notifying command. -/
def DesktopSettings.delivery (s : DesktopSettings) (m : Message) : Delivery where
  timeoutMs := s.timeoutSecs.toNat * 1000
  errand := .command s.command (s.arguments m)

/-- Where a request for a method of the bot goes. -/
def ChatbotSettings.methodUrl? (s : ChatbotSettings) (method : String) : Option String :=
  s.botToken.map fun token =>
    String.ofList (s.apiBase.toList.reverse.dropWhile (· = '/')).reverse
      ++ "/bot" ++ token ++ "/" ++ method

/-- The text of a bot's message: the title, which is escaped and stands out, and the body, which
is written in the bot's markup already. -/
def ChatbotSettings.text (s : ChatbotSettings) (m : Message) : String :=
  let title := Template.escape s.medium m.title
  match s.medium with
  | .html => "<b>" ++ title ++ "</b>\n\n" ++ m.content
  | .markdown => "*" ++ title ++ "*\n\n" ++ m.content
  | .plain => title ++ "\n\n" ++ m.content

/-- Sends the message in the name of the bot. -/
def ChatbotSettings.delivery (s : ChatbotSettings) (m : Message) : Delivery where
  timeoutMs := s.timeoutSecs.toNat * 1000
  errand :=
    match s.methodUrl? "sendMessage", s.chatId with
    | some url, some chatId =>
      let mode := if s.parseMode = "" then [] else [("parse_mode", Json.str s.parseMode)]
      .post { method := .post, url, body := some (.obj
        ([("chat_id", .str chatId), ("text", .str (s.text m))] ++ mode)) } true
    | _, _ => .unaddressed

/-- The subject of a mail. -/
def EmailSettings.subject (s : EmailSettings) (m : Message) : String :=
  if s.subjectMark = "" then m.title else s.subjectMark ++ " " ++ m.title

/-- Sends the mail to the relay. -/
def EmailSettings.delivery (s : EmailSettings) (m : Message) : Delivery where
  timeoutMs := s.timeoutSecs.toNat * 1000
  errand :=
    match s.apiUrl, s.apiKey, s.sender with
    | some url, some key, some sender =>
      .post { method := .post, url, bearer := some key, body := some (.obj
        [("from", .str sender), ("to", .arr (s.recipients.map .str)),
          ("subject", .str (s.subject m)), ("html", .str m.content)]) } false
    | _, _, _ => .unaddressed

/-- Keeps the message. -/
def RehearsalSettings.delivery (s : RehearsalSettings) (m : Message) : Delivery where
  timeoutMs := s.timeoutMs.toNat
  errand := .rehearse m s.fails s.hangs

namespace Settings

/-- What a channel with usable settings is about to do for a message. -/
def delivery (s : Settings) (m : Message) : Delivery :=
  match s with
  | popup s => s.delivery m
  | desktop s => s.delivery m
  | chatbot s => s.delivery m
  | email s => s.delivery m
  | rehearsal s => s.delivery m

/-- What a channel is about to do for a message, or why it cannot do anything. -/
def prepare (s : Settings) (m : Message) : Except String Delivery :=
  match s.problem? with
  | some reason => .error reason
  | none => .ok (s.delivery m)

end Settings

/-- How a request ends that got this answer. -/
def answerEnding (needsAcknowledgement : Bool) : Http.Answer → Ending
  | .reply r =>
    if r.isSuccess && (!needsAcknowledgement || r.acknowledgement?.any (·.ok)) then .delivered
    else .failed
  | .unreachable _ => .failed

/-- How a delivery ends in this world. -/
def Delivery.ending (d : Delivery) (w : World) : Ending :=
  match d.errand with
  | .present .. => .delivered
  | .command program arguments =>
    match w.runCommand d.timeoutMs program arguments with
    | some .succeeded => .delivered
    -- a command that cannot be started fails like one that ends badly
    | some _ => .failed
    | none => .late
  | .post request needsAcknowledgement =>
    match w.fetch d.timeoutMs request with
    | some answer => answerEnding needsAcknowledgement answer
    | none => .late
  | .rehearse _ fails hangs => if hangs then .late else if fails then .failed else .delivered
  | .unaddressed => .failed

end MarketAlerts.Channel

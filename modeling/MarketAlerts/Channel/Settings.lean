import MarketAlerts.Template.Render
import MarketAlerts.Text.Blank

/-!
# Settings of channels

What each kind of channel can be told, with the values it assumes otherwise. Settings of the right
types can still be unusable; `Settings.problem?` says why. The markup that a channel's messages
are written in follows from its settings.

A rehearsal channel reaches nobody. It stands in for a popup and keeps what it is given, so that
routes and failures can be tried out.
-/

namespace MarketAlerts.Channel

open Text (isBlankText)

/-- The ways to reach someone. -/
inductive Kind where
  /-- A message inside the program. -/
  | popup
  /-- A notification by a command. -/
  | desktop
  /-- A message of a chat bot. -/
  | chatbot
  /-- A mail through a relay. -/
  | email
deriving DecidableEq, Inhabited

namespace Kind

/-- All kinds, sorted by name. -/
def all : List Kind := [chatbot, desktop, email, popup]

/-- The name of a kind. -/
def name : Kind → String
  | popup => "popup"
  | desktop => "desktop"
  | chatbot => "chatbot"
  | email => "email"

/-- The kind of a name. -/
def ofName? (s : String) : Option Kind := all.find? fun k => k.name = s

end Kind

/-- Whether an optional text is missing or blank. -/
def isUnset (s : Option String) : Bool := s.all isBlankText

/-- What a popup can be told. -/
structure PopupSettings where
  /-- The number of characters that a message shows. -/
  maxLength : UInt64 := 200
  /-- The number of messages that are kept. -/
  maxHistory : UInt64 := 100
deriving DecidableEq, Inhabited

/-- What a desktop channel can be told. -/
structure DesktopSettings where
  /-- The command that notifies. -/
  command : String := "notify-send"
  /-- The name of the program that notifies. -/
  appName : String := "alert-dispatch"
  /-- How long a notification stays, in milliseconds. -/
  expireMs : UInt64 := 10000
  /-- How long the command may take, in seconds. -/
  timeoutSecs : UInt64 := 5
deriving DecidableEq, Inhabited

/-- What a chat bot can be told. -/
structure ChatbotSettings where
  /-- The bot's secret. -/
  botToken : Option String := none
  /-- Whom it writes to. -/
  chatId : Option String := none
  /-- Where its requests go. -/
  apiBase : String := "https://api.telegram.org"
  /-- The markup of its messages: `HTML`, `Markdown`, `MarkdownV2`, or anything else for none. -/
  parseMode : String := "HTML"
  /-- How many messages may go out in a second. -/
  messagesPerSecond : UInt32 := 1
  /-- How long a request may take, in seconds. -/
  timeoutSecs : UInt64 := 10
deriving DecidableEq, Inhabited

/-- What a mail channel can be told. -/
structure EmailSettings where
  /-- The relay. -/
  apiUrl : Option String := none
  /-- The key to the relay. -/
  apiKey : Option String := none
  /-- The sender. -/
  sender : Option String := none
  /-- The recipients. -/
  recipients : List String := []
  /-- How subjects begin. -/
  subjectMark : String := "[alert]"
  /-- How long a request may take, in seconds. -/
  timeoutSecs : UInt64 := 15
deriving DecidableEq, Inhabited

/-- What a rehearsal can be told. -/
structure RehearsalSettings where
  /-- Where messages are said to go. -/
  target : Option String := some "inbox"
  /-- Whether messages fail. -/
  fails : Bool := false
  /-- Whether messages never arrive. -/
  hangs : Bool := false
  /-- How long a message may take, in milliseconds. -/
  timeoutMs : UInt64 := 200
deriving DecidableEq, Inhabited

/-- The settings of a channel. -/
inductive Settings where
  /-- Of a popup. -/
  | popup (s : PopupSettings)
  /-- Of a desktop channel. -/
  | desktop (s : DesktopSettings)
  /-- Of a chat bot. -/
  | chatbot (s : ChatbotSettings)
  /-- Of a mail channel. -/
  | email (s : EmailSettings)
  /-- Of a rehearsal. -/
  | rehearsal (s : RehearsalSettings)
deriving DecidableEq, Inhabited

/-- Why a popup cannot show anything. -/
def PopupSettings.problem? (s : PopupSettings) : Option String :=
  if s.maxLength = 0 then some "max_length must be positive" else none

/-- Why a desktop channel cannot notify. -/
def DesktopSettings.problem? (s : DesktopSettings) : Option String :=
  if isBlankText s.command then some "command is empty" else none

/-- Why a chat bot cannot write. -/
def ChatbotSettings.problem? (s : ChatbotSettings) : Option String :=
  match isUnset s.botToken, isUnset s.chatId with
  | true, true => some "bot_token and chat_id are not set"
  | true, false => some "bot_token is not set"
  | false, true => some "chat_id is not set"
  | false, false => none

/-- The settings that a mail channel lacks. -/
def EmailSettings.missing (s : EmailSettings) : List String :=
  [("api_url", isUnset s.apiUrl), ("api_key", isUnset s.apiKey), ("from", isUnset s.sender),
    ("to", s.recipients.all isBlankText)].filterMap fun (name, isMissing) =>
      if isMissing then some name else none

/-- Why a mail channel cannot send. -/
def EmailSettings.problem? (s : EmailSettings) : Option String :=
  if s.missing.isEmpty then none else some ("missing " ++ String.intercalate ", " s.missing)

/-- Why a rehearsal cannot keep anything. -/
def RehearsalSettings.problem? (s : RehearsalSettings) : Option String :=
  if s.target.isNone then some "target is not set" else none

namespace Settings

/-- The kind of channel that the settings are for. -/
def kind : Settings → Kind
  | popup _ => .popup
  | desktop _ => .desktop
  | chatbot _ => .chatbot
  | email _ => .email
  | rehearsal _ => .popup

/-- Why a channel with these settings cannot deliver, if it cannot. -/
def problem? : Settings → Option String
  | popup s => s.problem?
  | desktop s => s.problem?
  | chatbot s => s.problem?
  | email s => s.problem?
  | rehearsal s => s.problem?

end Settings

/-- The markup of a chat bot's messages. -/
def ChatbotSettings.medium (s : ChatbotSettings) : Template.Medium :=
  if s.parseMode = "HTML" then .html
  else if s.parseMode = "Markdown" ∨ s.parseMode = "MarkdownV2" then .markdown
  else .plain

/-- The markup of a channel's messages. -/
def Settings.medium : Settings → Template.Medium
  | chatbot s => s.medium
  | email _ => .html
  | _ => .plain

end MarketAlerts.Channel

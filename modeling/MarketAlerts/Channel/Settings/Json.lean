import MarketAlerts.Channel.Settings
import MarketAlerts.Json.Decode

/-!
# Settings as JSON

Settings are read from a record. A field that is missing has its default, and unknown members are
ignored. The settings of a live channel are changed by an object whose members take the place of
the current ones; they change only if the result can be read.
-/

namespace MarketAlerts

namespace Json

/-- The object of the members, with those of the patch in their places; `none` if the patch is no
object. -/
def overlay? (members : List (String × Json)) : Json → Option Json
  | .obj patch => some (.obj (lastWins (members ++ patch)))
  | _ => none

end Json

namespace Channel

/-- The settings as members. -/
def PopupSettings.members (s : PopupSettings) : List (String × Json) :=
  [("max_length", .nat s.maxLength.toNat), ("max_history", .nat s.maxHistory.toNat)]

/-- Settings from a record. -/
def PopupSettings.ofJson? (v : Json) : Option PopupSettings := do
  let r ← v.record? ["max_length", "max_history"]
  let default : PopupSettings := {}
  return {
    maxLength := ← r.fieldOr? "max_length" default.maxLength Json.word64?
    maxHistory := ← r.fieldOr? "max_history" default.maxHistory Json.word64? }

/-- The settings as members. -/
def DesktopSettings.members (s : DesktopSettings) : List (String × Json) :=
  [("command", .str s.command), ("app_name", .str s.appName), ("expire_ms", .nat s.expireMs.toNat),
    ("timeout_secs", .nat s.timeoutSecs.toNat)]

/-- Settings from a record. -/
def DesktopSettings.ofJson? (v : Json) : Option DesktopSettings := do
  let r ← v.record? ["command", "app_name", "expire_ms", "timeout_secs"]
  let default : DesktopSettings := {}
  return {
    command := ← r.fieldOr? "command" default.command Json.string?
    appName := ← r.fieldOr? "app_name" default.appName Json.string?
    expireMs := ← r.fieldOr? "expire_ms" default.expireMs Json.word64?
    timeoutSecs := ← r.fieldOr? "timeout_secs" default.timeoutSecs Json.word64? }

/-- The settings as members. -/
def ChatbotSettings.members (s : ChatbotSettings) : List (String × Json) :=
  [("bot_token", .strOrNull s.botToken), ("chat_id", .strOrNull s.chatId),
    ("api_base", .str s.apiBase), ("parse_mode", .str s.parseMode),
    ("messages_per_second", .nat s.messagesPerSecond.toNat),
    ("timeout_secs", .nat s.timeoutSecs.toNat)]

/-- Settings from a record. -/
def ChatbotSettings.ofJson? (v : Json) : Option ChatbotSettings := do
  let r ← v.record?
    ["bot_token", "chat_id", "api_base", "parse_mode", "messages_per_second", "timeout_secs"]
  let default : ChatbotSettings := {}
  return {
    botToken := ← r.fieldOr? "bot_token" default.botToken (Json.orNull? Json.string?)
    chatId := ← r.fieldOr? "chat_id" default.chatId (Json.orNull? Json.string?)
    apiBase := ← r.fieldOr? "api_base" default.apiBase Json.string?
    parseMode := ← r.fieldOr? "parse_mode" default.parseMode Json.string?
    messagesPerSecond :=
      ← r.fieldOr? "messages_per_second" default.messagesPerSecond Json.word32?
    timeoutSecs := ← r.fieldOr? "timeout_secs" default.timeoutSecs Json.word64? }

/-- The settings as members. -/
def EmailSettings.members (s : EmailSettings) : List (String × Json) :=
  [("api_url", .strOrNull s.apiUrl), ("api_key", .strOrNull s.apiKey),
    ("from", .strOrNull s.sender), ("to", .arr (s.recipients.map .str)),
    ("subject_prefix", .str s.subjectMark), ("timeout_secs", .nat s.timeoutSecs.toNat)]

/-- Settings from a record. -/
def EmailSettings.ofJson? (v : Json) : Option EmailSettings := do
  let r ← v.record? ["api_url", "api_key", "from", "to", "subject_prefix", "timeout_secs"]
  let default : EmailSettings := {}
  return {
    apiUrl := ← r.fieldOr? "api_url" default.apiUrl (Json.orNull? Json.string?)
    apiKey := ← r.fieldOr? "api_key" default.apiKey (Json.orNull? Json.string?)
    sender := ← r.fieldOr? "from" default.sender (Json.orNull? Json.string?)
    recipients := ← r.fieldOr? "to" default.recipients (Json.list? Json.string?)
    subjectMark := ← r.fieldOr? "subject_prefix" default.subjectMark Json.string?
    timeoutSecs := ← r.fieldOr? "timeout_secs" default.timeoutSecs Json.word64? }

/-- The settings as members. -/
def RehearsalSettings.members (s : RehearsalSettings) : List (String × Json) :=
  [("target", .strOrNull s.target), ("fail", .bool s.fails), ("hang", .bool s.hangs),
    ("timeout_ms", .nat s.timeoutMs.toNat)]

/-- Settings from a record. -/
def RehearsalSettings.ofJson? (v : Json) : Option RehearsalSettings := do
  let r ← v.record? ["target", "fail", "hang", "timeout_ms"]
  let default : RehearsalSettings := {}
  return {
    target := ← r.fieldOr? "target" default.target (Json.orNull? Json.string?)
    fails := ← r.fieldOr? "fail" default.fails Json.bool?
    hangs := ← r.fieldOr? "hang" default.hangs Json.bool?
    timeoutMs := ← r.fieldOr? "timeout_ms" default.timeoutMs Json.word64? }

/-- What a channel is made from: `null` stands for no settings at all. -/
def settingsOrNone : Json → Json
  | .null => .obj []
  | v => v

namespace Settings

/-- The settings of a channel of this kind. -/
def ofJson? (k : Kind) (v : Json) : Option Settings :=
  match k with
  | .popup => (PopupSettings.ofJson? (settingsOrNone v)).map popup
  | .desktop => (DesktopSettings.ofJson? (settingsOrNone v)).map desktop
  | .chatbot => (ChatbotSettings.ofJson? (settingsOrNone v)).map chatbot
  | .email => (EmailSettings.ofJson? (settingsOrNone v)).map email

/-- The settings of a rehearsal. -/
def ofRehearsal? (v : Json) : Option Settings :=
  (RehearsalSettings.ofJson? (settingsOrNone v)).map rehearsal

/-- The settings changed by a patch; `none` if the patch is no object or does not fit. -/
def merge? (s : Settings) (patch : Json) : Option Settings :=
  match s with
  | popup s => ((Json.overlay? s.members patch).bind PopupSettings.ofJson?).map popup
  | desktop s => ((Json.overlay? s.members patch).bind DesktopSettings.ofJson?).map desktop
  | chatbot s => ((Json.overlay? s.members patch).bind ChatbotSettings.ofJson?).map chatbot
  | email s => ((Json.overlay? s.members patch).bind EmailSettings.ofJson?).map email
  | rehearsal s => ((Json.overlay? s.members patch).bind RehearsalSettings.ofJson?).map rehearsal

end Settings

end Channel

end MarketAlerts

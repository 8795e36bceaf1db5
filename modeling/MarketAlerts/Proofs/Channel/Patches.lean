import MarketAlerts.Proofs.Channel.Fields
import MarketAlerts.Proofs.Dispatch.Turns

/-!
# Changes of settings

The settings of every kind of channel are records that are changed field by field. So all that holds
of such records holds of settings, and of the channels that have them: an update that is refused
leaves everything as it is, and one that is not changes the fields that it names.

- `PopupSettings.isRecord` and its like: the settings of each kind are such records;
- `Settings.merge?_eq_none_iff`, `Settings.merge?_eq_some_iff`: which patches are refused, and what
  becomes of the settings by the others;
- `merge_fieldwise`: what an update does to a channel.
-/

namespace MarketAlerts

namespace Channel

open Json (member? patched overlay? lastWins)

/-! ## The settings of each kind -/

open FieldType

/-- The fields of the settings of a popup. -/
def PopupSettings.fields : List (String × FieldType) :=
  [("max_length", .word 64), ("max_history", .word 64)]

/-- Settings of popups are written and read field by field. -/
theorem PopupSettings.isRecord : IsRecord fields members ofJson? {} where
  nodup := by decide
  fits_write s :=
    .cons isWritten_word64 _ _ <|
    .cons isWritten_word64 _ _ .nil
  exists_write h := by
    obtain ⟨a, _, rfl, h₁⟩ := h.exists_cons isWritten_word64
    obtain ⟨b, _, rfl, h₂⟩ := h₁.exists_cons isWritten_word64
    obtain rfl := h₂.eq_nil
    exact ⟨⟨a, b⟩, rfl⟩
  read?_iff {ms} hms s := by
    simp (disch := decide) only [ofJson?, Json.record?_obj hms, Option.bind_eq_bind,
      Option.bind_some, Option.bind_eq_some_iff, Option.pure_def, Option.some.injEq,
      Json.Record.fieldOr?_eq_some_iff Json.isExact_word64?]
    -- what is read of each field is what stands in its place, member by member
    constructor
    · rintro ⟨a, ha, b, hb, rfl⟩
      simp only [members, patched, List.map_cons, List.map_nil, ha, hb]
    · intro h
      simp only [members, patched, List.map_cons, List.map_nil, List.cons.injEq, Prod.mk.injEq,
        true_and, and_true] at h
      obtain ⟨ha, hb⟩ := h
      exact ⟨_, ha, _, hb, rfl⟩

/-- The fields of the settings of a desktop channel. -/
def DesktopSettings.fields : List (String × FieldType) :=
  [("command", .text), ("app_name", .text), ("expire_ms", .word 64), ("timeout_secs", .word 64)]

/-- Settings of desktop notifications are written and read field by field. -/
theorem DesktopSettings.isRecord : IsRecord fields members ofJson? {} where
  nodup := by decide
  fits_write s :=
    .cons isWritten_text _ _ <|
    .cons isWritten_text _ _ <|
    .cons isWritten_word64 _ _ <|
    .cons isWritten_word64 _ _ .nil
  exists_write h := by
    obtain ⟨a, _, rfl, h₁⟩ := h.exists_cons isWritten_text
    obtain ⟨b, _, rfl, h₂⟩ := h₁.exists_cons isWritten_text
    obtain ⟨c, _, rfl, h₃⟩ := h₂.exists_cons isWritten_word64
    obtain ⟨d, _, rfl, h₄⟩ := h₃.exists_cons isWritten_word64
    obtain rfl := h₄.eq_nil
    exact ⟨⟨a, b, c, d⟩, rfl⟩
  read?_iff {ms} hms s := by
    simp (disch := decide) only [ofJson?, Json.record?_obj hms, Option.bind_eq_bind,
      Option.bind_some, Option.bind_eq_some_iff, Option.pure_def, Option.some.injEq,
      Json.Record.fieldOr?_eq_some_iff Json.isExact_string?,
      Json.Record.fieldOr?_eq_some_iff Json.isExact_word64?]
    -- each field is read from what stands in its place in the patched members
    constructor
    · rintro ⟨a, ha, b, hb, c, hc, d, hd, rfl⟩
      simp only [members, patched, List.map_cons, List.map_nil, ha, hb, hc, hd]
    · intro h
      simp only [members, patched, List.map_cons, List.map_nil, List.cons.injEq, Prod.mk.injEq,
        true_and, and_true] at h
      obtain ⟨ha, hb, hc, hd⟩ := h
      exact ⟨_, ha, _, hb, _, hc, _, hd, rfl⟩

/-- The fields of the settings of a chat bot. -/
def ChatbotSettings.fields : List (String × FieldType) :=
  [("bot_token", .optionalText), ("chat_id", .optionalText), ("api_base", .text),
    ("parse_mode", .text), ("messages_per_second", .word 32), ("timeout_secs", .word 64)]

/-- Settings of a bot are written and read field by field. -/
theorem ChatbotSettings.isRecord : IsRecord fields members ofJson? {} where
  nodup := by decide
  fits_write s :=
    .cons isWritten_optionalText _ _ <|
    .cons isWritten_optionalText _ _ <|
    .cons isWritten_text _ _ <|
    .cons isWritten_text _ _ <|
    .cons isWritten_word32 _ _ <|
    .cons isWritten_word64 _ _ .nil
  exists_write h := by
    obtain ⟨a, _, rfl, h₁⟩ := h.exists_cons isWritten_optionalText
    obtain ⟨b, _, rfl, h₂⟩ := h₁.exists_cons isWritten_optionalText
    obtain ⟨c, _, rfl, h₃⟩ := h₂.exists_cons isWritten_text
    obtain ⟨d, _, rfl, h₄⟩ := h₃.exists_cons isWritten_text
    obtain ⟨e, _, rfl, h₅⟩ := h₄.exists_cons isWritten_word32
    obtain ⟨f, _, rfl, h₆⟩ := h₅.exists_cons isWritten_word64
    obtain rfl := h₆.eq_nil
    exact ⟨⟨a, b, c, d, e, f⟩, rfl⟩
  read?_iff {ms} hms s := by
    simp (disch := decide) only [ofJson?, Json.record?_obj hms, Option.bind_eq_bind,
      Option.bind_some, Option.bind_eq_some_iff, Option.pure_def, Option.some.injEq,
      Json.Record.fieldOr?_eq_some_iff Json.isExact_orNull?,
      Json.Record.fieldOr?_eq_some_iff Json.isExact_string?,
      Json.Record.fieldOr?_eq_some_iff Json.isExact_word32?,
      Json.Record.fieldOr?_eq_some_iff Json.isExact_word64?]
    -- each field is read from what stands in its place in the patched members
    constructor
    · rintro ⟨a, ha, b, hb, c, hc, d, hd, e, he, f, hf, rfl⟩
      simp only [members, patched, List.map_cons, List.map_nil, ha, hb, hc, hd, he, hf]
    · intro h
      simp only [members, patched, List.map_cons, List.map_nil, List.cons.injEq, Prod.mk.injEq,
        true_and, and_true] at h
      obtain ⟨ha, hb, hc, hd, he, hf⟩ := h
      exact ⟨_, ha, _, hb, _, hc, _, hd, _, he, _, hf, rfl⟩

/-- The fields of the settings of a mail channel. -/
def EmailSettings.fields : List (String × FieldType) :=
  [("api_url", .optionalText), ("api_key", .optionalText), ("from", .optionalText),
    ("to", .texts), ("subject_prefix", .text), ("timeout_secs", .word 64)]

/-- Settings of mail are written and read field by field. -/
theorem EmailSettings.isRecord : IsRecord fields members ofJson? {} where
  nodup := by decide
  fits_write s :=
    .cons isWritten_optionalText _ _ <|
    .cons isWritten_optionalText _ _ <|
    .cons isWritten_optionalText _ _ <|
    .cons isWritten_texts _ _ <|
    .cons isWritten_text _ _ <|
    .cons isWritten_word64 _ _ .nil
  exists_write h := by
    obtain ⟨a, _, rfl, h₁⟩ := h.exists_cons isWritten_optionalText
    obtain ⟨b, _, rfl, h₂⟩ := h₁.exists_cons isWritten_optionalText
    obtain ⟨c, _, rfl, h₃⟩ := h₂.exists_cons isWritten_optionalText
    obtain ⟨d, _, rfl, h₄⟩ := h₃.exists_cons isWritten_texts
    obtain ⟨e, _, rfl, h₅⟩ := h₄.exists_cons isWritten_text
    obtain ⟨f, _, rfl, h₆⟩ := h₅.exists_cons isWritten_word64
    obtain rfl := h₆.eq_nil
    exact ⟨⟨a, b, c, d, e, f⟩, rfl⟩
  read?_iff {ms} hms s := by
    simp (disch := decide) only [ofJson?, Json.record?_obj hms, Option.bind_eq_bind,
      Option.bind_some, Option.bind_eq_some_iff, Option.pure_def, Option.some.injEq,
      Json.Record.fieldOr?_eq_some_iff Json.isExact_orNull?,
      Json.Record.fieldOr?_eq_some_iff Json.isExact_string?,
      Json.Record.fieldOr?_eq_some_iff Json.isExact_texts?,
      Json.Record.fieldOr?_eq_some_iff Json.isExact_word64?]
    -- each field is read from what stands in its place in the patched members
    constructor
    · rintro ⟨a, ha, b, hb, c, hc, d, hd, e, he, f, hf, rfl⟩
      simp only [members, patched, List.map_cons, List.map_nil, ha, hb, hc, hd, he, hf]
    · intro h
      simp only [members, patched, List.map_cons, List.map_nil, List.cons.injEq, Prod.mk.injEq,
        true_and, and_true] at h
      obtain ⟨ha, hb, hc, hd, he, hf⟩ := h
      exact ⟨_, ha, _, hb, _, hc, _, hd, _, he, _, hf, rfl⟩

/-- The fields of the settings of a rehearsal. -/
def RehearsalSettings.fields : List (String × FieldType) :=
  [("target", .optionalText), ("fail", .truth), ("hang", .truth), ("timeout_ms", .word 64)]

/-- Settings of a rehearsal are written and read field by field. -/
theorem RehearsalSettings.isRecord : IsRecord fields members ofJson? {} where
  nodup := by decide
  fits_write s :=
    .cons isWritten_optionalText _ _ <|
    .cons isWritten_truth _ _ <|
    .cons isWritten_truth _ _ <|
    .cons isWritten_word64 _ _ .nil
  exists_write h := by
    obtain ⟨a, _, rfl, h₁⟩ := h.exists_cons isWritten_optionalText
    obtain ⟨b, _, rfl, h₂⟩ := h₁.exists_cons isWritten_truth
    obtain ⟨c, _, rfl, h₃⟩ := h₂.exists_cons isWritten_truth
    obtain ⟨d, _, rfl, h₄⟩ := h₃.exists_cons isWritten_word64
    obtain rfl := h₄.eq_nil
    exact ⟨⟨a, b, c, d⟩, rfl⟩
  read?_iff {ms} hms s := by
    simp (disch := decide) only [ofJson?, Json.record?_obj hms, Option.bind_eq_bind,
      Option.bind_some, Option.bind_eq_some_iff, Option.pure_def, Option.some.injEq,
      Json.Record.fieldOr?_eq_some_iff Json.isExact_orNull?,
      Json.Record.fieldOr?_eq_some_iff Json.isExact_bool?,
      Json.Record.fieldOr?_eq_some_iff Json.isExact_word64?]
    -- each field is read from what stands in its place in the patched members
    constructor
    · rintro ⟨a, ha, b, hb, c, hc, d, hd, rfl⟩
      simp only [members, patched, List.map_cons, List.map_nil, ha, hb, hc, hd]
    · intro h
      simp only [members, patched, List.map_cons, List.map_nil, List.cons.injEq, Prod.mk.injEq,
        true_and, and_true] at h
      obtain ⟨ha, hb, hc, hd⟩ := h
      exact ⟨_, ha, _, hb, _, hc, _, hd, rfl⟩

/-! ## Settings of any kind -/

namespace Settings

/-- The fields of settings. -/
def fields : Settings → List (String × FieldType)
  | popup _ => PopupSettings.fields
  | desktop _ => DesktopSettings.fields
  | chatbot _ => ChatbotSettings.fields
  | email _ => EmailSettings.fields
  | rehearsal _ => RehearsalSettings.fields

/-- The settings as members. -/
def members : Settings → List (String × Json)
  | popup s => s.members
  | desktop s => s.members
  | chatbot s => s.members
  | email s => s.members
  | rehearsal s => s.members

/-- The settings of a channel that was told nothing. -/
def standard : Kind → Settings
  | .popup => popup {}
  | .desktop => desktop {}
  | .chatbot => chatbot {}
  | .email => email {}

/-- Settings that are made in one way are merged as records. -/
structure IsForm {σ : Type} (make : σ → Settings) (fields : List (String × FieldType))
    (write : σ → List (String × Json)) (read? : Json → Option σ) (standard : σ) : Prop where
  /-- What they are made of is a record. -/
  isRecord : IsRecord fields write read? standard
  fields_make : ∀ x, (make x).fields = fields
  members_make : ∀ x, (make x).members = write x
  merge?_make : ∀ x patch, (make x).merge? patch = ((overlay? (write x) patch).bind read?).map make
  /-- No other settings have these keys. -/
  exists_make : ∀ s : Settings, s.members.map Prod.fst = fields.map Prod.fst → ∃ x, make x = s

/-- Popups have the fields of their settings. -/
theorem isForm_popup :
    IsForm popup PopupSettings.fields PopupSettings.members PopupSettings.ofJson? {} where
  isRecord := PopupSettings.isRecord
  fields_make _ := rfl
  members_make _ := rfl
  merge?_make _ _ := rfl
  exists_make s h := by
    cases s with
    | popup s => exact ⟨s, rfl⟩
    | desktop | chatbot | email | rehearsal =>
      simp [members, DesktopSettings.members, ChatbotSettings.members, EmailSettings.members,
        RehearsalSettings.members, PopupSettings.fields] at h

/-- Desktop notifications have the fields of their settings. -/
theorem isForm_desktop :
    IsForm desktop DesktopSettings.fields DesktopSettings.members DesktopSettings.ofJson? {} where
  isRecord := DesktopSettings.isRecord
  fields_make _ := rfl
  members_make _ := rfl
  merge?_make _ _ := rfl
  exists_make s h := by
    cases s with
    | desktop s => exact ⟨s, rfl⟩
    | popup | chatbot | email | rehearsal =>
      simp [members, PopupSettings.members, ChatbotSettings.members, EmailSettings.members,
        RehearsalSettings.members, DesktopSettings.fields] at h

/-- A bot has the fields of its settings. -/
theorem isForm_chatbot :
    IsForm chatbot ChatbotSettings.fields ChatbotSettings.members ChatbotSettings.ofJson? {} where
  isRecord := ChatbotSettings.isRecord
  fields_make _ := rfl
  members_make _ := rfl
  merge?_make _ _ := rfl
  exists_make s h := by
    cases s with
    | chatbot s => exact ⟨s, rfl⟩
    | popup | desktop | email | rehearsal =>
      simp [members, PopupSettings.members, DesktopSettings.members, EmailSettings.members,
        RehearsalSettings.members, ChatbotSettings.fields] at h

/-- Mail has the fields of its settings. -/
theorem isForm_email :
    IsForm email EmailSettings.fields EmailSettings.members EmailSettings.ofJson? {} where
  isRecord := EmailSettings.isRecord
  fields_make _ := rfl
  members_make _ := rfl
  merge?_make _ _ := rfl
  exists_make s h := by
    cases s with
    | email s => exact ⟨s, rfl⟩
    | popup | desktop | chatbot | rehearsal =>
      simp [members, PopupSettings.members, DesktopSettings.members, ChatbotSettings.members,
        RehearsalSettings.members, EmailSettings.fields] at h

/-- A rehearsal has the fields of its settings. -/
theorem isForm_rehearsal :
    IsForm rehearsal RehearsalSettings.fields RehearsalSettings.members RehearsalSettings.ofJson?
      {} where
  isRecord := RehearsalSettings.isRecord
  fields_make _ := rfl
  members_make _ := rfl
  merge?_make _ _ := rfl
  exists_make s h := by
    cases s with
    | rehearsal s => exact ⟨s, rfl⟩
    | popup | desktop | chatbot | email =>
      simp [members, PopupSettings.members, DesktopSettings.members, ChatbotSettings.members,
        EmailSettings.members, RehearsalSettings.fields] at h

/-- Whatever holds of settings of every form holds of all settings. -/
theorem forall_of_forms {P : Settings → Prop}
    (h : ∀ {σ : Type} {make : σ → Settings} {fields : List (String × FieldType)}
      {write : σ → List (String × Json)} {read? : Json → Option σ} {standard : σ},
      IsForm make fields write read? standard → ∀ x, P (make x)) (s : Settings) : P s := by
  cases s with
  | popup s => exact h isForm_popup s
  | desktop s => exact h isForm_desktop s
  | chatbot s => exact h isForm_chatbot s
  | email s => exact h isForm_email s
  | rehearsal s => exact h isForm_rehearsal s

/-- Settings are written as values for their fields. -/
theorem fits_members (s : Settings) : Fits s.fields s.members := by
  induction s using forall_of_forms with | _ form x
  rw [form.fields_make, form.members_make]
  exact form.isRecord.fits_write x

/-- No kind has two fields of one name. -/
theorem nodup_fields (s : Settings) : (s.fields.map Prod.fst).Nodup := by
  induction s using forall_of_forms with | _ form x
  rw [form.fields_make]
  exact form.isRecord.nodup

/-- A patch is refused if it is no object, or if it names a field with a value that the field cannot
hold, and for no other reason. -/
theorem merge?_eq_none_iff (s : Settings) (patch : Json) :
    s.merge? patch = none ↔
      (∀ ps, patch ≠ .obj ps) ∨
        ∃ ps, patch = .obj ps ∧ ∃ f ∈ s.fields, ∃ v, member? ps f.1 = some v ∧ ¬f.2.Admits v := by
  induction s using forall_of_forms with | _ form x
  rw [form.merge?_make, form.fields_make, Option.map_eq_none_iff, form.isRecord.merge_eq_none_iff]

/-- A merge gives the only settings that are written as the patched members. -/
theorem merge?_eq_some_iff (s s' : Settings) (ps : List (String × Json)) :
    s.merge? (.obj ps) = some s' ↔ s'.members = patched s.members ps := by
  induction s using forall_of_forms with | _ form x
  rw [form.merge?_make, Option.map_eq_some_iff, form.members_make]
  constructor
  · rintro ⟨y, hy, rfl⟩
    rw [form.members_make]
    exact (form.isRecord.merge_eq_some_iff x y ps).1 hy
  · intro h
    -- the keys tell the form of the settings
    have hkeys : s'.members.map Prod.fst = _ := h ▸ Json.map_fst_patched _ ps
    obtain ⟨y, rfl⟩ := form.exists_make s' (hkeys.trans (form.isRecord.fits_write x).map_fst)
    rw [form.members_make] at h
    exact ⟨y, (form.isRecord.merge_eq_some_iff x y ps).2 h, rfl⟩

/-- Only what a patch says of the fields matters. -/
theorem merge?_congr {s : Settings} {ps qs : List (String × Json)}
    (h : ∀ f ∈ s.fields, member? ps f.1 = member? qs f.1) :
    s.merge? (.obj ps) = s.merge? (.obj qs) := by
  have hpatched : patched s.members ps = patched s.members qs := s.fits_members.patched_congr h
  ext s'
  rw [merge?_eq_some_iff, merge?_eq_some_iff, hpatched]

/-- A patch that names nothing changes nothing. -/
theorem merge?_nil (s : Settings) : s.merge? (.obj []) = some s := by
  rw [merge?_eq_some_iff, Json.patched_nil]

/-- One merge after the other is one with the second patch laid over the first. -/
theorem merge?_merge? {s s₁ : Settings} {ps : List (String × Json)}
    (h : s.merge? (.obj ps) = some s₁) (qs : List (String × Json)) :
    s₁.merge? (.obj qs) = s.merge? (.obj (lastWins (ps ++ qs))) := by
  rw [merge?_eq_some_iff] at h
  ext s₂
  rw [merge?_eq_some_iff, merge?_eq_some_iff, h, Json.patched_patched]

/-- To be made from settings is to be told them by a merge. -/
theorem ofJson?_eq_merge? (k : Kind) {ms : List (String × Json)} (h : (ms.map Prod.fst).Nodup) :
    ofJson? k (.obj ms) = (standard k).merge? (.obj ms) := by
  cases k with
  | popup => exact congrArg (Option.map popup) (PopupSettings.isRecord.read?_eq_merge h)
  | desktop => exact congrArg (Option.map desktop) (DesktopSettings.isRecord.read?_eq_merge h)
  | chatbot => exact congrArg (Option.map chatbot) (ChatbotSettings.isRecord.read?_eq_merge h)
  | email => exact congrArg (Option.map email) (EmailSettings.isRecord.read?_eq_merge h)

end Settings

/-! ## Channels -/

/-- Where a patch cannot be read, an update is refused. -/
theorem update_of_merge?_eq_none {c : Channel} {patch : Json} (h : c.settings.merge? patch = none) :
    c.update patch = .error (.unreadable c.name) := by
  rw [update, h]

/-- An update changes nothing but the settings, and a popup may let go of old messages. -/
theorem exists_update_of_merge? {c : Channel} {patch : Json} {s : Settings}
    (h : c.settings.merge? patch = some s) :
    ∃ history, history <:+ c.history ∧ c.update patch = .ok { c with settings := s, history } := by
  rw [update, h]
  cases s with
  | popup s => exact ⟨newest s.maxHistory.toNat c.history, List.drop_suffix _ _, rfl⟩
  | _ => exact ⟨c.history, List.suffix_refl _, rfl⟩

/-- Every kind is found under its name. -/
theorem ofName?_name (k : Kind) : Kind.ofName? k.name = some k := by
  cases k <;> decide

/-- A channel that is told nothing has the standard settings. -/
theorem ofSettings_null (k : Kind) (name : String) :
    ofSettings k.name name .null = .ok { name, settings := .standard k } := by
  have hstandard : Settings.ofJson? k .null = some (.standard k) := by
    have hnull : Settings.ofJson? k .null = Settings.ofJson? k (.obj []) := by cases k <;> rfl
    have hkeys : (([] : List (String × Json)).map Prod.fst).Nodup := List.nodup_nil
    rw [hnull, Settings.ofJson?_eq_merge? k hkeys, Settings.merge?_nil]
  rw [ofSettings, ofName?_name]
  dsimp only
  rw [hstandard]

/-- A new channel is one with the standard settings that is updated. -/
theorem ofSettings_eq_update (k : Kind) (name : String) {ms : List (String × Json)}
    (h : (ms.map Prod.fst).Nodup) :
    ofSettings k.name name (.obj ms) =
      ({ name, settings := .standard k } : Channel).update (.obj ms) := by
  rw [ofSettings, ofName?_name, update]
  dsimp only
  rw [Settings.ofJson?_eq_merge? k h]
  cases (Settings.standard k).merge? (.obj ms) with
  | none => rfl
  | some s =>
    cases s with
    | popup s => simp [newest]
    | _ => rfl

/-- A session is as before if the channel refuses an update. -/
theorem apply_update_of_merge?_eq_none {c : Channel} {patch : Json}
    (h : c.settings.merge? patch = none) {s : Dispatcher.Session}
    (hc : s.dispatcher.channel? c.name = some c) (now : Instant) :
    s.apply now (.update c.name patch) = s := by
  rw [Dispatcher.Session.apply, Dispatcher.Session.change]
  cases hd : s.dispatcher.update c.name patch with
  | error e => rfl
  | ok d =>
    -- the channel of this name would have taken the update
    obtain ⟨x, x', hx, hupdate, -⟩ := Dispatcher.update_eq_ok hd
    rw [Dispatcher.channel_eq_ok_iff, hc, Option.some.injEq] at hx
    rw [← hx, update_of_merge?_eq_none h] at hupdate
    cases hupdate

/-- What a patch does to a channel. The settings of a channel are written as values for their
fields, each of which has a name of its own.

- A patch is refused if it is no object, or has a value for a field that the field cannot hold.
  The channel then says so, and a session in which it is changed so stays as it is.
- Any other patch gives the only settings that are written with its values in the fields that it
  names and with the former values in the others. Nothing else of the channel changes, but for the
  messages that a popup can no longer keep.
- Keys that are no fields have no effect.
- A patch without members changes nothing.
- One patch after another is one patch, the second laid over the first.
- A new channel of any kind is one with the standard settings to which the object that it is made
  from is applied as a patch.
-/
theorem merge_fieldwise (c : Channel) :
    (Fits c.settings.fields c.settings.members ∧ (c.settings.fields.map Prod.fst).Nodup) ∧
    (∀ patch,
      (c.settings.merge? patch = none ↔
        (∀ ps, patch ≠ .obj ps) ∨
          ∃ ps, patch = .obj ps ∧
            ∃ f ∈ c.settings.fields, ∃ v, member? ps f.1 = some v ∧ ¬f.2.Admits v) ∧
      (c.settings.merge? patch = none →
        c.update patch = .error (.unreadable c.name) ∧
        ∀ (s : Dispatcher.Session) (now : Instant), s.dispatcher.channel? c.name = some c →
          s.apply now (.update c.name patch) = s)) ∧
    (∀ ps s,
      (c.settings.merge? (.obj ps) = some s ↔
        s.members = c.settings.members.map fun m => (m.1, (member? ps m.1).getD m.2)) ∧
      (c.settings.merge? (.obj ps) = some s →
        ∃ history, history <:+ c.history ∧
          c.update (.obj ps) = .ok { c with settings := s, history })) ∧
    (∀ ps qs, (∀ f ∈ c.settings.fields, member? ps f.1 = member? qs f.1) →
      c.settings.merge? (.obj ps) = c.settings.merge? (.obj qs)) ∧
    c.settings.merge? (.obj []) = some c.settings ∧
    (∀ ps s, c.settings.merge? (.obj ps) = some s → ∀ qs,
      s.merge? (.obj qs) = c.settings.merge? (.obj (lastWins (ps ++ qs)))) ∧
    ∀ (k : Kind) (name : String),
      ofSettings k.name name .null = .ok { name, settings := .standard k } ∧
      ∀ ms : List (String × Json), (ms.map Prod.fst).Nodup →
        ofSettings k.name name (.obj ms) =
          ({ name, settings := .standard k } : Channel).update (.obj ms) := by
  -- every part is one of the lemmas on settings, whatever their kind
  refine ⟨⟨c.settings.fits_members, c.settings.nodup_fields⟩, fun patch => ⟨?_, fun h => ⟨?_, ?_⟩⟩,
    fun ps s => ⟨?_, exists_update_of_merge?⟩, fun ps qs => Settings.merge?_congr,
    c.settings.merge?_nil, fun ps s => Settings.merge?_merge?, fun k name => ⟨?_, ?_⟩⟩
  · exact c.settings.merge?_eq_none_iff patch
  · exact update_of_merge?_eq_none h
  · exact fun s now hc => apply_update_of_merge?_eq_none h hc now
  · exact c.settings.merge?_eq_some_iff s ps
  · exact ofSettings_null k name
  · exact fun ms => ofSettings_eq_update k name

/-- A chat bot that is switched off. It refuses a text for its timeout; then it is told its markup
together with something that it does not know, and after that whom to write to no longer. -/
theorem merge_fieldwise_ofBot :
    let bot : Channel := {
      name := "bot", enabled := false, tally := ⟨1, 0, 1⟩
      settings := .chatbot { chatId := some "7" } }
    let session : Dispatcher.Session := ⟨{ outlets := [⟨bot, {}⟩] }, []⟩
    let bad : Json := .obj [("chat_id", .str "8"), ("timeout_secs", .str "soon")]
    let ps : List (String × Json) := [("parse_mode", .str "Markdown"), ("colour", .str "red")]
    let qs : List (String × Json) := [("chat_id", .null), ("parse_mode", .str "HTML")]
    let s : Settings := .chatbot { chatId := some "7", parseMode := "Markdown" }
    (bot.settings.merge? bad = none ∧ session.apply ⟨0, 0⟩ (.update "bot" bad) = session) ∧
      bot.settings.merge? (.obj ps) = some s ∧
      bot.update (.obj ps) = .ok { bot with settings := s } ∧
      bot.settings.merge? (.obj ps) = bot.settings.merge? (.obj [("parse_mode", .str "Markdown")]) ∧
      s.merge? (.obj qs) = bot.settings.merge? (.obj (lastWins (ps ++ qs))) ∧
      ofSettings "chatbot" "bot" (.obj ps) =
        ({ name := "bot", settings := .standard .chatbot } : Channel).update (.obj ps) := by
  intro bot session bad ps qs s
  obtain ⟨-, hrefused, hmerged, hagree, -, htwice, hnew⟩ := merge_fieldwise bot
  -- the text in the field for a number is what makes the patch unreadable
  have hbad : bot.settings.merge? bad = none :=
    (hrefused bad).1.2 <| .inr ⟨_, rfl, ("timeout_secs", .word 64), by decide, .str "soon", rfl,
      nofun⟩
  have hps : bot.settings.merge? (.obj ps) = some s := (hmerged ps s).1.2 rfl
  obtain ⟨history, hhistory, hupdate⟩ := (hmerged ps s).2 hps
  -- a bot shows nothing, so that it has nothing to let go of
  obtain rfl : history = [] := List.suffix_nil.1 hhistory
  refine ⟨⟨hbad, ((hrefused bad).2 hbad).2 session ⟨0, 0⟩ rfl⟩, hps, hupdate,
    hagree ps _ ?_, htwice ps s hps qs, (hnew .chatbot "bot").2 ps (by decide)⟩
  simp [bot, ps, Settings.fields, ChatbotSettings.fields, member?, List.findRev?]

end Channel

end MarketAlerts

import MarketAlerts.Message
import MarketAlerts.Proofs.Template.Rendering

/-!
# Templates of events

An event has the variables that every event has, the standing ones, and one for each further text
that it carries.

## Main definitions

- `Event.standing`: the variables that every event has;
- `Event.Supplies`: a template can use a name for this event.

## Main results

- `Event.exists_formatValue_of_mem_standing`: no standing variable is refused by its formatter;
- `Event.exists_render_variables_iff`: which templates can be rendered for an event;
- `Event.exists_ofEvent_of_mem_prebuilt`: prebuilt templates can, for every event and channel;
- `Event.of_render_variables_eq_error`: why a template that is valid without an event cannot;
- `Event.render_variables`: all of this.
-/

namespace MarketAlerts

open Template

/-! ## Looking up variables -/

namespace Template.Variables

variable {vars : Variables} {name : String} {v : Value}

/-- The first variables come first in a search. -/
theorem get?_append (vars vars' : Variables) (name : String) :
    get? (vars ++ vars') name = (vars.get? name).or (vars'.get? name) := by
  simp only [get?, List.find?_append, Option.map_or]

/-- A variable of another name is passed over. -/
theorem get?_cons_of_ne {p : String × Value} (h : p.1 ≠ name) :
    get? (p :: vars) name = vars.get? name := by
  rw [get?, List.find?_cons_of_neg (by simpa using h), get?]

/-- What no variable is called is not found. -/
theorem get?_eq_none_iff : vars.get? name = none ↔ name ∉ vars.map Prod.fst := by
  simp only [get?, Option.map_eq_none_iff, List.find?_eq_none, List.mem_map, decide_eq_true_eq,
    not_exists, not_and]

/-- A value that is found is there under its name. -/
theorem mem_of_get?_eq_some (h : vars.get? name = some v) : (name, v) ∈ vars := by
  obtain ⟨p, hp, rfl⟩ := Option.map_eq_some_iff.1 h
  have hname : p.1 = name := by simpa using List.find?_some hp
  exact hname ▸ List.mem_of_find?_eq_some hp

end Template.Variables

namespace Event

variable (e : Event)

/-! ## Standing variables -/

/-- The variables that every event has. -/
def standing : Variables := e.variables.take referenceVariables.length

/-- The variables of an event are those that every event has, and its metadata. -/
theorem variables_eq : e.variables =
    e.standing ++ e.metadata.map fun (k, v) => (metadataMark ++ k, .text v) :=
  rfl

theorem map_fst_standing : e.standing.map Prod.fst = referenceVariables :=
  rfl

/-- Every priority has a sign. -/
theorem isSome_emojiText? (p : Priority) :
    (Formatter.emojiText? (Int64.ofNat p.level).toInt).isSome := by
  obtain ⟨level, hone, hfive⟩ := p
  obtain rfl | rfl | rfl | rfl | rfl :
      level = 1 ∨ level = 2 ∨ level = 3 ∨ level = 4 ∨ level = 5 := by omega
  all_goals rfl

/-- No standing variable is refused by its formatter. -/
theorem exists_formatValue_of_mem_standing :
    ∀ p ∈ e.standing, ∃ s, formatValue p.1 p.2 = .ok s := by
  have hsign : ∃ s, formatValue "priority_emoji" (.integer (Int64.ofNat e.priority.level)) =
      .ok s := by
    have hname : Formatter.forVariable? "priority_emoji" = some .emoji := rfl
    obtain ⟨sign, hsign⟩ := Option.isSome_iff_exists.1 (isSome_emojiText? e.priority)
    exact ⟨sign, by simp only [formatValue, hname, Formatter.text?, hsign]⟩
  simp only [standing, Event.variables, referenceVariables, List.length_cons, List.length_nil,
    List.cons_append, List.take_succ_cons, List.take_zero, List.forall_mem_cons]
  -- the sign of the priority is the only one that depends on the value
  exact ⟨⟨_, rfl⟩, ⟨_, rfl⟩, ⟨_, rfl⟩, ⟨_, rfl⟩, ⟨_, rfl⟩, ⟨_, rfl⟩, hsign, ⟨_, rfl⟩, ⟨_, rfl⟩,
    ⟨_, rfl⟩, ⟨_, rfl⟩, ⟨_, rfl⟩, ⟨_, rfl⟩, ⟨_, rfl⟩, ⟨_, rfl⟩, ⟨_, rfl⟩, ⟨_, rfl⟩, nofun⟩

/-- Every name of the reference has a value that every event has. -/
theorem exists_get?_of_mem_referenceVariables {name : String} (h : name ∈ referenceVariables) :
    ∃ v, e.variables.get? name = some v ∧ (name, v) ∈ e.standing := by
  rw [← e.map_fst_standing] at h
  cases hget : e.standing.get? name with
  | none => exact absurd h (Variables.get?_eq_none_iff.1 hget)
  | some v =>
    refine ⟨v, ?_, Variables.mem_of_get?_eq_some hget⟩
    rw [variables_eq, Variables.get?_append, hget, Option.some_or]

/-! ## Further texts -/

/-- No standing variable has a name that starts like those of further texts. -/
theorem metadataMark_append_notMem (k : String) : metadataMark ++ k ∉ referenceVariables := by
  have hnot : ∀ name ∈ referenceVariables, ¬metadataMark.toList <+: name.toList := by
    decide +kernel
  -- the mark is at the front of the name, whatever the key
  intro h
  refine hnot _ h ?_
  rw [String.toList_append]
  exact List.prefix_append _ _

/-- A key of the metadata is found behind its mark. -/
theorem get?_metadataMark_append (k : String) :
    e.variables.get? (metadataMark ++ k) = (e.metadata.lookup k).map .text := by
  have hstanding : e.standing.get? (metadataMark ++ k) = none :=
    Variables.get?_eq_none_iff.2 (e.map_fst_standing ▸ metadataMark_append_notMem k)
  rw [variables_eq, Variables.get?_append, hstanding, Option.none_or]
  -- no standing variable is in the way, so the first further text with this key counts
  induction e.metadata with
  | nil => rfl
  | cons p rest ih =>
    rw [List.map_cons, List.lookup_cons]
    by_cases hk : k = p.1
    · subst hk
      simp [Variables.get?]
    · have hne : metadataMark ++ p.1 ≠ metadataMark ++ k :=
        fun heq => hk ((String.append_right_inj _).1 heq).symm
      rw [Variables.get?_cons_of_ne hne, ih, beq_eq_false_iff_ne.2 hk]

/-- Every variable of an event is a standing one or stands for a further text. -/
theorem mem_or_exists_of_get?_eq_some {name : String} {v : Value}
    (h : e.variables.get? name = some v) :
    name ∈ referenceVariables ∨
      ∃ k s, name = metadataMark ++ k ∧ e.metadata.lookup k = some s ∧ v = .text s := by
  have hmem : name ∈ e.variables.map Prod.fst :=
    List.mem_map_of_mem (f := Prod.fst) (Variables.mem_of_get?_eq_some h)
  rw [variables_eq, List.map_append, map_fst_standing, List.mem_append] at hmem
  refine hmem.imp_right fun hmem => ?_
  -- the value is looked up again, as an earlier text may have the same key
  simp only [List.map_map, List.mem_map, Function.comp_apply] at hmem
  obtain ⟨p, -, rfl⟩ := hmem
  rw [get?_metadataMark_append, Option.map_eq_some_iff] at h
  obtain ⟨s, hs, rfl⟩ := h
  exact ⟨p.1, s, rfl, hs, rfl⟩

/-! ## Templates for an event -/

/-- A template can use the name for this event: it is that of a standing variable, or of a further
text of the event that the formatter for which the name asks, if any, takes. -/
def Supplies (name : String) : Prop :=
  name ∈ referenceVariables ∨ ∃ k s, name = metadataMark ++ k ∧ e.metadata.lookup k = some s ∧
    ∀ f : Formatter, f.Serves name → (f.text? (.text s)).isSome

/-- Every standing variable has a value, and the formatter for which its name asks takes it. -/
theorem exists_formatValue_of_mem_referenceVariables {name : String}
    (h : name ∈ referenceVariables) :
    ∃ v s, e.variables.get? name = some v ∧ formatValue name v = .ok s := by
  obtain ⟨v, hv, hstanding⟩ := e.exists_get?_of_mem_referenceVariables h
  obtain ⟨s, hs⟩ := e.exists_formatValue_of_mem_standing _ hstanding
  exact ⟨v, s, hv, hs⟩

/-- The variables of an event fill exactly the names that it supplies. -/
theorem fills_variables_iff {name : String} : Fills e.variables name ↔ e.Supplies name := by
  constructor
  · rintro ⟨v, hv, haccepts⟩
    refine (e.mem_or_exists_of_get?_eq_some hv).imp_right ?_
    rintro ⟨k, s, hname, hs, rfl⟩
    exact ⟨k, s, hname, hs, haccepts⟩
  · rintro (hmem | ⟨k, s, rfl, hs, haccepts⟩)
    · obtain ⟨v, s, hv, hs⟩ := e.exists_formatValue_of_mem_referenceVariables hmem
      exact ⟨v, hv, exists_formats_iff.1 ⟨s, formatValue_eq_ok_iff.1 hs⟩⟩
    · exact ⟨.text s, by rw [get?_metadataMark_append, hs, Option.map_some], haccepts⟩

/-- A template can be rendered for an event if it parses and uses only names that the event
supplies. -/
theorem exists_render_variables_iff {m : Medium} {text : String} :
    (∃ out, render m e.variables text = .ok out) ↔
      ∃ names, placeholders text = .ok names ∧ ∀ name ∈ names, e.Supplies name := by
  simp only [exists_render_iff, fills_variables_iff]
  constructor
  · rintro ⟨segments, hparse, hsupplies⟩
    obtain ⟨names, hnames, hmem⟩ := placeholders_of_ok hparse
    refine ⟨names, hnames, fun name hname => ?_⟩
    obtain ⟨s, hs, hsname⟩ := (hmem name).1 hname
    exact hsupplies s hs name hsname
  · rintro ⟨names, hnames, hsupplies⟩
    obtain ⟨segments, hparse, hmem⟩ := exists_parse_of_placeholders hnames
    refine ⟨segments, hparse, fun s hs name hname => ?_⟩
    exact hsupplies name ((hmem name).2 ⟨s, hs, hname⟩)

/-! ## Titles and prebuilt templates -/

/-- Titles and prebuilt templates parse and use standing variables only. -/
theorem exists_placeholders_of_mem_prebuilt : ∀ text ∈ title :: prebuilt.map Template.text,
    ∃ names, placeholders text = .ok names ∧ ∀ name ∈ names, name ∈ referenceVariables := by
  have hall : ∀ text ∈ title :: prebuilt.map Template.text,
      ((placeholders text).toOption.any fun names => names.all referenceVariables.contains) =
        true := by
    decide +kernel
  intro text htext
  have hnames := hall text htext
  cases hparse : placeholders text with
  | error fault =>
    rw [hparse] at hnames
    contradiction
  | ok names =>
    rw [hparse] at hnames
    have hmem : ∀ name ∈ names, referenceVariables.contains name = true := List.all_eq_true.1 hnames
    exact ⟨names, rfl, fun name hname => List.contains_iff_mem.1 (hmem name hname)⟩

/-- Titles and prebuilt templates are rendered for every event. -/
theorem exists_render_of_mem_prebuilt (m : Medium) {text : String}
    (h : text ∈ title :: prebuilt.map Template.text) :
    ∃ out, render m e.variables text = .ok out := by
  obtain ⟨names, hnames, hmem⟩ := exists_placeholders_of_mem_prebuilt text h
  exact e.exists_render_variables_iff.2 ⟨names, hnames, fun name hname => .inl (hmem name hname)⟩

/-- A custom template does not hide a prebuilt one. -/
theorem get?_of_mem_prebuilt (lib : Library) : ∀ t ∈ prebuilt, lib.get? t.name = some t := by
  have hfind : ∀ t ∈ prebuilt, (prebuilt.find? fun u => u.name = t.name) = some t := by
    decide +kernel
  intro t ht
  rw [Library.get?, hfind t ht, Option.some_or]

/-- An event has an alert, and a message for every channel, from each prebuilt template. -/
theorem exists_ofEvent_of_mem_prebuilt (lib : Library) (m : Medium) (channel : String) (id : Uuid)
    (now : Instant) {t : Template} (ht : t ∈ prebuilt) :
    (∃ out, lib.renderEvent t.name e m = .ok out) ∧
      ∃ message, Message.ofEvent lib t.name e channel m id now = .ok message := by
  have hget := get?_of_mem_prebuilt lib t ht
  obtain ⟨titleText, htitle⟩ := e.exists_render_of_mem_prebuilt .plain List.mem_cons_self
  obtain ⟨body, hbody⟩ := e.exists_render_of_mem_prebuilt m
    (List.mem_cons_of_mem title (List.mem_map_of_mem (f := Template.text) ht))
  constructor
  · exact ⟨body, by rw [Library.renderEvent, hget]; exact hbody⟩
  · have halert : lib.renderAlert t.name e m = .ok (titleText, body) := by
      simp [Library.renderAlert, hget, htitle, hbody, bind, Except.bind, pure, Except.pure]
    simp [Message.ofEvent, halert, bind, Except.bind, pure, Except.pure]

/-! ## Templates that are valid without an event -/

/-- The names that are known are those of the reference and those behind the mark of metadata. -/
theorem isKnownVariable_iff {name : String} : isKnownVariable name = true ↔
    name ∈ referenceVariables ∨ ∃ k, name = metadataMark ++ k := by
  have hmark : metadataMark.toList <+: name.toList ↔ ∃ k, name = metadataMark ++ k := by
    constructor
    · rintro ⟨rest, hrest⟩
      refine ⟨String.ofList rest, String.ext ?_⟩
      rw [← hrest, String.toList_append, String.toList_ofList]
    · rintro ⟨k, rfl⟩
      exact String.toList_append ▸ List.prefix_append _ _
  rw [isKnownVariable, Bool.or_eq_true, List.isPrefixOf_iff_prefix, List.contains_iff_mem, hmark,
    or_comm]

/-- A text is valid if it parses and an event may have all its names. -/
theorem isValid_validate_iff {text : String} : (validate text).isValid = true ↔
    ∃ names, placeholders text = .ok names ∧ ∀ name ∈ names, isKnownVariable name = true := by
  rw [validate]
  cases placeholders text <;> simp [Validation.isValid]

/-- No placeholder of a standing variable is refused. -/
theorem notMem_of_refuses {name : String} {braced : Bool} {err : Error}
    (h : Refuses e.variables (.placeholder name braced) err) : name ∉ referenceVariables := by
  intro hmem
  have hfills : Fills e.variables name := e.fills_variables_iff.2 (.inl hmem)
  have hwrites : ∃ piece, Writes .plain e.variables (.placeholder name braced) piece :=
    exists_writes_iff.2 fun _ hname => Option.some.inj hname ▸ hfills
  exact exists_writes_iff_not_refuses.1 hwrites err h

/-- A valid template fails only where the event lacks a further text or the formatter for which its
name asks does not take it. -/
theorem of_render_variables_eq_error {m : Medium} {text : String} {err : Error}
    (hvalid : (validate text).isValid = true) (herr : render m e.variables text = .error err) :
    ∃ k, (e.metadata.lookup k = none ∧ err = .missingVariable (metadataMark ++ k)) ∨
      ∃ s, e.metadata.lookup k = some s ∧ ∃ f : Formatter, f.Serves (metadataMark ++ k) ∧
        f.text? (.text s) = none ∧ err = .format f (metadataMark ++ k) := by
  obtain ⟨names, hnames, hknown⟩ := isValid_validate_iff.1 hvalid
  obtain ⟨segments, hparse, hmem⟩ := exists_parse_of_placeholders hnames
  rcases render_eq_error_iff.1 herr with
    ⟨fault, hfault, -⟩ | ⟨before, s, after, hsegments, -, hrefuses⟩
  · rw [hparse] at hfault
    contradiction
  · rw [hparse, Except.ok.injEq] at hsegments
    subst hsegments
    -- a placeholder that is refused is known but not standing, so it is for a further text
    have hmark (name : String) (hs : s.name? = some name) (hnot : name ∉ referenceVariables) :
        ∃ k, name = metadataMark ++ k := by
      have hname := (hmem name).2 ⟨s, List.mem_append_right before List.mem_cons_self, hs⟩
      exact (isKnownVariable_iff.1 (hknown name hname)).resolve_left hnot
    have hnot := fun name braced (hs : s = .placeholder name braced) =>
      e.notMem_of_refuses (hs ▸ hrefuses)
    cases hrefuses with
    | missingVariable braced hnone =>
      obtain ⟨k, rfl⟩ := hmark _ rfl (hnot _ braced rfl)
      rw [get?_metadataMark_append, Option.map_eq_none_iff] at hnone
      exact ⟨k, .inl ⟨hnone, rfl⟩⟩
    | format braced hv hserves ht =>
      obtain ⟨k, rfl⟩ := hmark _ rfl (hnot _ braced rfl)
      rw [get?_metadataMark_append, Option.map_eq_some_iff] at hv
      obtain ⟨s, hs, rfl⟩ := hv
      exact ⟨k, .inr ⟨s, hs, _, hserves, ht, rfl⟩⟩

/-- A template can be rendered for an event exactly if it parses and each of its placeholders is for
a standing variable or for a further text of the event that the formatter for which the name asks
takes. No standing variable is missing or refused by its formatter, so titles and prebuilt templates
can be rendered for every event. A template that is valid without an event fails only because of a
further text that the event does not have or that a formatter does not take. -/
theorem render_variables (e : Event) :
    (∀ m text, (∃ out, render m e.variables text = .ok out) ↔
      ∃ names, placeholders text = .ok names ∧ ∀ name ∈ names, e.Supplies name) ∧
    (∀ name ∈ referenceVariables,
      ∃ v s, e.variables.get? name = some v ∧ formatValue name v = .ok s) ∧
    (∀ m, ∀ text ∈ title :: prebuilt.map Template.text,
      ∃ out, render m e.variables text = .ok out) ∧
    (∀ t ∈ prebuilt, ∀ (lib : Library) m channel id now,
      (∃ out, lib.renderEvent t.name e m = .ok out) ∧
        ∃ message, Message.ofEvent lib t.name e channel m id now = .ok message) ∧
    (∀ m text err, (validate text).isValid = true → render m e.variables text = .error err →
      ∃ k, (e.metadata.lookup k = none ∧ err = .missingVariable (metadataMark ++ k)) ∨
        ∃ s, e.metadata.lookup k = some s ∧ ∃ f : Formatter, f.Serves (metadataMark ++ k) ∧
          f.text? (.text s) = none ∧ err = .format f (metadataMark ++ k)) :=
  ⟨fun _ _ => e.exists_render_variables_iff,
    fun _ => e.exists_formatValue_of_mem_referenceVariables,
    fun m _ => e.exists_render_of_mem_prebuilt m,
    fun _ ht lib m channel id now => e.exists_ofEvent_of_mem_prebuilt lib m channel id now ht,
    fun _ _ _ => e.of_render_variables_eq_error⟩

/-- An event with a price in words has its messages, and a template that asks for the price is
valid and refused. -/
theorem render_variables_ofPriceInWords :
    let e : Event := { (default : Event) with
      metadata := [("desk", "spot"), ("last_price", "none")] }
    (∃ out, render .markdown e.variables "$symbol $meta_desk" = .ok out) ∧
    (∃ message, Message.ofEvent {} "compact" e "desk" .html default default = .ok message) ∧
    (validate "$meta_last_price").isValid = true ∧
    render .html e.variables "$meta_last_price" =
      .error (.format .currency "meta_last_price") ∧
    ∃ k, (e.metadata.lookup k = none ∧
        Error.format .currency "meta_last_price" = .missingVariable (metadataMark ++ k)) ∨
      ∃ s, e.metadata.lookup k = some s ∧ ∃ f : Formatter, f.Serves (metadataMark ++ k) ∧
        f.text? (.text s) = none ∧
          Error.format .currency "meta_last_price" = .format f (metadataMark ++ k) := by
  intro e
  have hnames : placeholders "$symbol $meta_desk" = .ok ["symbol", "meta_desk"] := by decide +kernel
  have hdesk : e.Supplies "meta_desk" := by
    refine .inr ⟨"desk", "spot", by decide +kernel, by decide +kernel, fun f hserves => ?_⟩
    rw [← Formatter.forVariable?_eq_some_iff] at hserves
    contradiction
  have hvalid : (validate "$meta_last_price").isValid = true := by decide +kernel
  have hprice : e.variables.get? "meta_last_price" = some (.text "none") :=
    e.get?_metadataMark_append "last_price"
  have hrefuses : Refuses e.variables (.placeholder "meta_last_price" false)
      (.format .currency "meta_last_price") :=
    .format false hprice (Formatter.forVariable?_eq_some_iff.1 rfl) (by decide +kernel)
  have herr : render .html e.variables "$meta_last_price" =
      .error (.format .currency "meta_last_price") :=
    render_eq_error_iff.2 (.inr ⟨[], _, [], by decide +kernel, nofun, hrefuses⟩)
  obtain ⟨hrender, -, -, hmessage, hfails⟩ := render_variables e
  refine ⟨(hrender .markdown _).2 ⟨_, hnames, ?_⟩, ?_, hvalid, herr, hfails _ _ _ hvalid herr⟩
  · simp only [List.forall_mem_cons]
    exact ⟨.inl (by simp [referenceVariables]), hdesk, nofun⟩
  · obtain ⟨t, ht, hname⟩ : ∃ t ∈ prebuilt, t.name = "compact" := ⟨_, List.mem_cons_self, rfl⟩
    exact hname ▸ (hmessage t ht {} .html "desk" default default).2

end Event

end MarketAlerts

import Mathlib.Data.List.Nodup
import MarketAlerts.Configuration.Validation

/-!
# What a valid configuration promises

Validation goes through a configuration part by part and stops at the first fault. What it then
knows of a configuration without faults does not depend on the order in which it looked.

## Main definitions

- `General.IsValid`, `ChannelEntry.IsValid`: what is checked of one part;
- `IsValid`: what is checked of a configuration.

## Main results

- `validate_eq_ok_iff`: a configuration has no faults exactly if it is valid;
- `Condition.parseEntry_eq`: the identifier that is drawn for a condition has no part in whether its
  entry makes sense.
-/

namespace MarketAlerts

/-- An entry makes sense or not whatever identifier is drawn for it. -/
theorem Condition.parseEntry_eq (freshId : String) (e : Entry) :
    parseEntry freshId e =
      (parseEntry "" e).map fun c => { c with id := e.id.getD freshId } := by
  unfold parseEntry
  cases e.parseObservable with
  | error defect => rfl
  | ok observable =>
    cases e.parseOperator with
    | error defect => rfl
    | ok operator => cases e.parsePriority <;> rfl

namespace Configuration

/-- What is promised of the general part. -/
structure General.IsValid (g : General) : Prop where
  /-- There is such a way to log. -/
  logFormat : g.logFormat = "text" ∨ g.logFormat = "json"
  /-- There is such a strategy. -/
  strategy : (Strategy.ofName? g.strategy).isSome
  /-- Conditions are not due at once. -/
  interval : g.interval ≠ some 0
  /-- Some prices are kept. -/
  historyLimit : g.historyLimit ≠ 0

/-- What is promised of a channel, in a configuration with these identifiers of conditions and this
test for names of templates. -/
structure ChannelEntry.IsValid (ids : List String) (hasTemplate : String → Bool)
    (e : ChannelEntry) : Prop where
  /-- There is such a kind. -/
  kind : (Channel.Kind.ofName? e.kind).isSome
  /-- There is such a priority. -/
  minPriority : (Priority.ofLevel? e.minPriority).isSome
  /-- There is such a template. -/
  template : hasTemplate e.template = true
  /-- There are such conditions. -/
  conditions : ∀ id ∈ e.conditions, id ∈ ids

/-- What is promised of a configuration. -/
structure IsValid (c : Configuration) : Prop where
  /-- The general part is valid. -/
  general : c.general.IsValid
  /-- Every condition makes sense. -/
  conditions : ∀ e ∈ c.conditions, ∃ condition, Condition.parseEntry "" e = .ok condition
  /-- No identifier is given twice. -/
  conditionIds : c.conditionIds.Nodup
  /-- No custom template takes the name of a prebuilt one. -/
  templates : ∀ t ∈ c.templates, Template.isPrebuilt t.name = false
  /-- No name of a template is given twice. -/
  templateNames : (c.templates.map Template.name).Nodup
  /-- Every channel is valid. -/
  channels : ∀ e ∈ c.channels, e.IsValid c.conditionIds c.hasTemplate
  /-- No name of a channel is given twice. -/
  channelNames : (c.channels.map ChannelEntry.name).Nodup

/-! ## Checks in a row -/

/-- A requirement is met if it holds. -/
theorem require_eq_ok_iff {holds : Bool} {fault : Fault} :
    require holds fault = .ok () ↔ holds = true := by
  unfold require
  split <;> simp [*]

/-- Two checks in a row find no fault if neither does. -/
theorem bind_eq_ok_iff {x y : Except Fault Unit} :
    (x >>= fun _ => y) = .ok () ↔ x = .ok () ∧ y = .ok () := by
  cases x with
  | error fault => exact ⟨nofun, nofun⟩
  | ok _ => exact (and_iff_right rfl).symm

/-- The next of distinct names is not among those seen, and the others are neither among them nor
equal to it. -/
theorem forall_notMem_nodup_cons {seen names : List String} {name : String} :
    (name ∉ seen ∧ (∀ n ∈ names, n ∉ name :: seen) ∧ names.Nodup) ↔
      (∀ n ∈ name :: names, n ∉ seen) ∧ (name :: names).Nodup := by
  rw [List.nodup_cons, List.forall_mem_cons]
  simp only [List.mem_cons, not_or]
  constructor
  · rintro ⟨hname, hnames, hnodup⟩
    exact ⟨⟨hname, fun n hn => (hnames n hn).2⟩, fun hmem => (hnames name hmem).1 rfl, hnodup⟩
  · rintro ⟨⟨hname, hnames⟩, hnotMem, hnodup⟩
    exact ⟨hname, fun n hn => ⟨fun heq => hnotMem (heq ▸ hn), hnames n hn⟩, hnodup⟩

/-! ## Each part -/

/-- The general settings pass if they are valid. -/
theorem General.validate_eq_ok_iff {g : General} : g.validate = .ok () ↔ g.IsValid := by
  unfold validate
  simp only [bind_eq_ok_iff, require_eq_ok_iff, Bool.or_eq_true, decide_eq_true_eq]
  exact ⟨fun ⟨h₁, h₂, h₃, h₄⟩ => ⟨h₁, h₂, h₃, h₄⟩, fun h => ⟨h.1, h.2, h.3, h.4⟩⟩

/-- A condition passes if it can be parsed. -/
theorem validateCondition_eq_ok_iff {e : Condition.Entry} :
    validateCondition e = .ok () ↔ ∃ condition, Condition.parseEntry "" e = .ok condition := by
  unfold validateCondition
  cases Condition.parseEntry "" e <;> simp

/-- Conditions pass if each can be parsed and no identifier is given twice, nor one that was seen
before. -/
theorem validateConditions_eq_ok_iff {seen : List String} {es : List Condition.Entry} :
    validateConditions seen es = .ok () ↔
      (∀ e ∈ es, ∃ condition, Condition.parseEntry "" e = .ok condition) ∧
        (∀ id ∈ es.filterMap (·.id), id ∉ seen) ∧ (es.filterMap (·.id)).Nodup := by
  induction es generalizing seen with
  | nil => simp [validateConditions]
  | cons e es ih =>
    rw [List.forall_mem_cons, List.filterMap_cons, validateConditions]
    cases hid : e.id with
    | none =>
      simp only [bind_eq_ok_iff, validateCondition_eq_ok_iff, ih]
      rw [and_assoc]
    | some id =>
      simp only [bind_eq_ok_iff, validateCondition_eq_ok_iff, ih, require_eq_ok_iff]
      rw [← forall_notMem_nodup_cons]
      simp only [Bool.not_eq_true', List.contains_eq_mem, decide_eq_false_iff_not]
      tauto

/-- Templates pass if no name is that of a prebuilt one, none is given twice and none was seen
before. -/
theorem validateTemplates_eq_ok_iff {seen : List String} {ts : List Template} :
    validateTemplates seen ts = .ok () ↔
      (∀ t ∈ ts, Template.isPrebuilt t.name = false) ∧
        (∀ name ∈ ts.map Template.name, name ∉ seen) ∧ (ts.map Template.name).Nodup := by
  induction ts generalizing seen with
  | nil => simp [validateTemplates]
  | cons t ts ih =>
    rw [validateTemplates, List.forall_mem_cons, List.map_cons, ← forall_notMem_nodup_cons]
    simp only [bind_eq_ok_iff, require_eq_ok_iff, ih, Bool.not_eq_true', List.contains_eq_mem,
      decide_eq_false_iff_not]
    tauto

/-- A channel passes if its entry is valid. -/
theorem validateChannel_eq_ok_iff {c : Configuration} {e : ChannelEntry} :
    c.validateChannel e = .ok () ↔ e.IsValid c.conditionIds c.hasTemplate := by
  unfold validateChannel
  simp only [bind_eq_ok_iff, require_eq_ok_iff]
  cases hfind : e.conditions.find? fun id => !c.conditionIds.contains id with
  | none =>
    have hconditions : ∀ id ∈ e.conditions, id ∈ c.conditionIds := by simpa using hfind
    exact ⟨fun ⟨hkind, hpriority, htemplate, _⟩ => ⟨hkind, hpriority, htemplate, hconditions⟩,
      fun h => ⟨h.kind, h.minPriority, h.template, rfl⟩⟩
  | some id =>
    -- the search has found a condition that is not there
    have hid : id ∉ c.conditionIds := by simpa using List.find?_some hfind
    refine iff_of_false (fun h => nomatch h.2.2.2) fun h => ?_
    exact hid (h.conditions id (List.mem_of_find?_eq_some hfind))

/-- Channels pass if each entry is valid, no name is given twice and none was seen before. -/
theorem validateChannels_eq_ok_iff {c : Configuration} {seen : List String}
    {es : List ChannelEntry} :
    c.validateChannels seen es = .ok () ↔
      (∀ e ∈ es, e.IsValid c.conditionIds c.hasTemplate) ∧
        (∀ name ∈ es.map ChannelEntry.name, name ∉ seen) ∧ (es.map ChannelEntry.name).Nodup := by
  induction es generalizing seen with
  | nil => simp [validateChannels]
  | cons e es ih =>
    rw [validateChannels, List.forall_mem_cons, List.map_cons, ← forall_notMem_nodup_cons]
    simp only [bind_eq_ok_iff, require_eq_ok_iff, validateChannel_eq_ok_iff, ih,
      Bool.not_eq_true', List.contains_eq_mem, decide_eq_false_iff_not]
    tauto

/-- A configuration has no faults exactly if it is valid. -/
theorem validate_eq_ok_iff {c : Configuration} : c.validate = .ok () ↔ c.IsValid := by
  unfold validate
  simp only [bind_eq_ok_iff, General.validate_eq_ok_iff, validateConditions_eq_ok_iff,
    validateTemplates_eq_ok_iff, validateChannels_eq_ok_iff]
  constructor
  · rintro ⟨hgeneral, ⟨hconditions, -, hids⟩, ⟨htemplates, -, hnames⟩, hchannels, -, hchannelNames⟩
    exact ⟨hgeneral, hconditions, hids, htemplates, hnames, hchannels, hchannelNames⟩
  · intro h
    exact ⟨h.general, ⟨h.conditions, fun _ _ => List.not_mem_nil, h.conditionIds⟩,
      ⟨h.templates, fun _ _ => List.not_mem_nil, h.templateNames⟩,
      h.channels, fun _ _ => List.not_mem_nil, h.channelNames⟩

/-- To see that a configuration is valid, it is enough to compute that there is no fault. -/
theorem validate_eq_ok_of_isOk {c : Configuration} (h : c.validate.isOk = true) :
    c.validate = .ok () := by
  cases hvalidate : c.validate with
  | ok _ => rfl
  | error fault => simp [hvalidate, Except.isOk, Except.toBool] at h

end Configuration

end MarketAlerts

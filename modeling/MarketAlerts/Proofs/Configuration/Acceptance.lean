import MarketAlerts.Proofs.Configuration.Validation
import MarketAlerts.Proofs.Template.Library

/-!
# Which configurations are accepted

What validation asks for, in the words of somebody who writes a configuration: which names there
are, which numbers are too small or too large, and which names must not be given twice. No part of
it depends on the order in which conditions, templates or channels are written down.

## Main definitions

- `Reorders c c'`: the two configurations differ in the order of their lists only.

## Main results

- `isSome_ofName?_iff`, `isSome_ofLevel?_iff`: which kinds, strategies and priorities there are;
- `IsValid.reorder`: a reordered configuration is as valid;
- `validate_accepts_iff`: which configurations are accepted, in whatever order they are written.
-/

namespace MarketAlerts

/-! ## Names and levels -/

/-- The names under which a kind is found are those of the kinds. -/
theorem Channel.Kind.isSome_ofName?_iff {s : String} :
    (ofName? s).isSome ↔ ∃ kind : Kind, kind.name = s := by
  have hall : ∀ kind : Kind, kind ∈ all := fun kind => by cases kind <;> decide
  simp [ofName?, List.find?_isSome, hall]

/-- The names under which a strategy is found are those of the strategies. -/
theorem Strategy.isSome_ofName?_iff {s : String} :
    (ofName? s).isSome ↔ ∃ strategy : Strategy, strategy.name = s := by
  have hall : ∀ strategy : Strategy, strategy ∈ [sequential, parallel] := fun strategy => by
    cases strategy <;> decide
  simp only [ofName?, List.find?_isSome, hall, true_and, decide_eq_true_eq]

/-- Levels from 1 to 5 are priorities, and no others. -/
theorem Priority.isSome_ofLevel?_iff {level : Nat} :
    (ofLevel? level).isSome ↔ 1 ≤ level ∧ level ≤ 5 := by
  rw [ofLevel?]
  split <;> simp [*]

/-- An entry that makes sense becomes a condition, whatever identifier is drawn for it. -/
theorem Condition.forall_exists_ofEntry_iff {e : Entry} :
    (∀ freshId, ∃ condition, ofEntry freshId e = .ok condition) ↔
      ∃ condition, parseEntry "" e = .ok condition := by
  have hofEntry : ∀ freshId, (∃ condition, ofEntry freshId e = .ok condition) ↔
      ∃ condition, parseEntry "" e = .ok condition := fun freshId => by
    rw [ofEntry, parseEntry_eq freshId]
    cases parseEntry "" e <;> simp [Except.map]
  simp only [hofEntry, forall_const]

namespace Configuration

variable {c c' : Configuration}

/-- The identifiers of conditions are those that the entries give. -/
theorem mem_conditionIds_iff {id : String} :
    id ∈ c.conditionIds ↔ ∃ entry ∈ c.conditions, entry.id = some id := by
  rw [conditionIds, List.mem_filterMap]

/-- A template is there if it comes with the program or stands in the configuration. -/
theorem hasTemplate_iff {name : String} : c.hasTemplate name = true ↔
    name ∈ Template.prebuilt.map Template.name ∨ name ∈ c.templates.map Template.name := by
  simp [hasTemplate, Template.Library.isPrebuilt_iff]

/-! ## Order -/

/-- The two configurations say the same, with their conditions, templates and channels in whatever
order. -/
structure Reorders (c c' : Configuration) : Prop where
  /-- The general parts are equal. -/
  general : c.general = c'.general
  /-- The conditions are the same. -/
  conditions : c.conditions.Perm c'.conditions
  /-- The templates are the same. -/
  templates : c.templates.Perm c'.templates
  /-- The channels are the same. -/
  channels : c.channels.Perm c'.channels

namespace Reorders

theorem symm (h : c.Reorders c') : c'.Reorders c :=
  ⟨h.general.symm, h.conditions.symm, h.templates.symm, h.channels.symm⟩

/-- The order of templates does not matter to whether one is there. -/
theorem hasTemplate_eq (h : c.Reorders c') : c'.hasTemplate = c.hasTemplate := by
  funext name
  rw [Bool.eq_iff_iff, hasTemplate_iff, hasTemplate_iff, (h.templates.map Template.name).mem_iff]

/-- The identifiers of conditions are reordered as well. -/
theorem conditionIds_perm (h : c.Reorders c') : c.conditionIds.Perm c'.conditionIds :=
  h.conditions.filterMap _

end Reorders

/-- A valid configuration stays valid in another order: what is asked of an entry is asked of it
wherever it stands, and names are distinct in every order. -/
theorem IsValid.reorder (hvalid : c.IsValid) (h : c.Reorders c') : c'.IsValid where
  general := h.general ▸ hvalid.general
  conditions e he := hvalid.conditions e (h.conditions.mem_iff.2 he)
  conditionIds := h.conditionIds_perm.nodup_iff.1 hvalid.conditionIds
  templates t ht := hvalid.templates t (h.templates.mem_iff.2 ht)
  templateNames := (h.templates.map _).nodup_iff.1 hvalid.templateNames
  channels e he := by
    have hchannel := hvalid.channels e (h.channels.mem_iff.2 he)
    rw [h.hasTemplate_eq]
    exact { hchannel with
      conditions := fun id hid => h.conditionIds_perm.mem_iff.1 (hchannel.conditions id hid) }
  channelNames := (h.channels.map _).nodup_iff.1 hvalid.channelNames

/-! ## Acceptance -/

/-- What is required of the general settings, one by one. -/
theorem General.isValid_iff {g : General} : g.IsValid ↔
    (g.logFormat = "text" ∨ g.logFormat = "json") ∧
      (∃ strategy : Strategy, strategy.name = g.strategy) ∧
      (∀ seconds, g.interval = some seconds → 0 < seconds) ∧ 0 < g.historyLimit := by
  rw [← Strategy.isSome_ofName?_iff, Nat.pos_iff_ne_zero]
  have hinterval : g.interval ≠ some 0 ↔ ∀ seconds, g.interval = some seconds → 0 < seconds := by
    cases g.interval <;> simp [Nat.pos_iff_ne_zero]
  rw [← hinterval]
  exact ⟨fun h => ⟨h.logFormat, h.strategy, h.interval, h.historyLimit⟩,
    fun ⟨hformat, hstrategy, hinterval, hlimit⟩ => ⟨hformat, hstrategy, hinterval, hlimit⟩⟩

/-- What is required of a channel, one by one. -/
theorem ChannelEntry.isValid_iff {e : ChannelEntry} :
    e.IsValid c.conditionIds c.hasTemplate ↔
      (∃ kind : Channel.Kind, kind.name = e.kind) ∧ (1 ≤ e.minPriority ∧ e.minPriority ≤ 5) ∧
      (e.template ∈ Template.prebuilt.map Template.name ∨
        e.template ∈ c.templates.map Template.name) ∧
      ∀ id ∈ e.conditions, ∃ entry ∈ c.conditions, entry.id = some id := by
  simp only [← Channel.Kind.isSome_ofName?_iff, ← Priority.isSome_ofLevel?_iff, ← hasTemplate_iff,
    ← mem_conditionIds_iff]
  exact ⟨fun h => ⟨h.kind, h.minPriority, h.template, h.conditions⟩,
    fun ⟨hkind, hpriority, htemplate, hids⟩ => ⟨hkind, hpriority, htemplate, hids⟩⟩

/-- Which configurations are accepted, part by part. The order of the conditions, of the templates
and of the channels has no say in it. -/
theorem validate_accepts_iff (c : Configuration) :
    (c.validate = .ok () ↔
      -- the general part
      ((c.general.logFormat = "text" ∨ c.general.logFormat = "json") ∧
        (∃ strategy : Strategy, strategy.name = c.general.strategy) ∧
        (∀ seconds, c.general.interval = some seconds → 0 < seconds) ∧
        0 < c.general.historyLimit) ∧
      -- the conditions
      (c.conditionIds.Nodup ∧ ∀ e ∈ c.conditions, ∀ freshId,
        ∃ condition, Condition.ofEntry freshId e = .ok condition) ∧
      -- the templates
      ((c.templates.map Template.name).Nodup ∧
        ∀ t ∈ c.templates, t.name ∉ Template.prebuilt.map Template.name) ∧
      -- the channels
      ((c.channels.map ChannelEntry.name).Nodup ∧ ∀ e ∈ c.channels,
        (∃ kind : Channel.Kind, kind.name = e.kind) ∧
        (1 ≤ e.minPriority ∧ e.minPriority ≤ 5) ∧
        (e.template ∈ Template.prebuilt.map Template.name ∨
          e.template ∈ c.templates.map Template.name) ∧
        ∀ id ∈ e.conditions, ∃ entry ∈ c.conditions, entry.id = some id)) ∧
    ∀ c', c.Reorders c' → (c'.validate = .ok () ↔ c.validate = .ok ()) := by
  constructor
  · have hprebuilt : ∀ t : Template,
        t.name ∉ Template.prebuilt.map Template.name ↔ Template.isPrebuilt t.name = false :=
      fun t => by rw [← Template.Library.isPrebuilt_iff, Bool.not_eq_true]
    simp only [validate_eq_ok_iff, ← General.isValid_iff, ← ChannelEntry.isValid_iff,
      Condition.forall_exists_ofEntry_iff, hprebuilt]
    constructor
    · intro h
      exact ⟨h.general, ⟨h.conditionIds, h.conditions⟩, ⟨h.templateNames, h.templates⟩,
        h.channelNames, h.channels⟩
    · rintro ⟨hgeneral, ⟨hids, hconditions⟩, ⟨hnames, htemplates⟩, hchannelNames, hchannels⟩
      exact ⟨hgeneral, hconditions, hids, htemplates, hnames, hchannels, hchannelNames⟩
  · intro c' h
    rw [validate_eq_ok_iff, validate_eq_ok_iff]
    exact ⟨fun hvalid => hvalid.reorder h.symm, fun hvalid => hvalid.reorder h⟩

end Configuration

end MarketAlerts

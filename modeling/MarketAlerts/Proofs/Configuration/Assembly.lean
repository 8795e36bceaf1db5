import MarketAlerts.Configuration.Assembly
import MarketAlerts.Proofs.Configuration.Validation
import MarketAlerts.Proofs.Dispatch.Histories
import MarketAlerts.Proofs.Template.Library
import MarketAlerts.Proofs.Watchlist.Edits

/-!
# Assembling valid configurations

Validation and assembly go through the same configuration and check different things. What
validation leaves open are the texts of templates and the settings of channels, and a valid
configuration fails at nothing else.

## Main definitions

- `identifiers`: the identifiers under which conditions are registered;
- `IsFresh`: an identifier that is drawn is that of no other condition;
- `IsFlaw`: the failures that are left to a valid configuration;
- `ChannelEntry.MakesOutlet`, `Makes`: what an assembled monitor has to do with its configuration.

## Main results

- `foldlM_create_cases`, `registerAll_eq_ok`, `foldlM_addChannel_cases`: each of the three parts of
  the assembly;
- `assemble_validated`: all of it, for every valid configuration.
-/

namespace MarketAlerts

open Template (Library)

/-! ## Templates -/

/-- A custom template that is new is refused only if its text does not parse. -/
theorem Template.Library.create_of_new {lib : Library} {t : Template}
    (hprebuilt : isPrebuilt t.name = false) (hnew : lib.customOf? t.name = none) :
    lib.create t false =
      match Segment.parse t.text with
      | .ok _ => .ok (true, lib.store t)
      | .error fault => .error (.malformed fault) := by
  rw [create, attempt, perform_create, checkWritable, hprebuilt, hnew]
  cases Segment.parse t.text <;> rfl

/-- What was stored and what was there before is there after more templates are stored. -/
theorem Template.Library.isSome_customOf?_foldl_store {lib : Library} {ts : List Template}
    {name : String} (h : name ∈ ts.map Template.name ∨ (lib.customOf? name).isSome) :
    ((ts.foldl store lib).customOf? name).isSome := by
  induction ts generalizing lib with
  | nil => simpa using h
  | cons t ts ih =>
    refine ih ?_
    by_cases hname : name = t.name
    · right
      -- of two templates of a name the later one takes the place of the earlier one
      rw [hname, customOf?_store_self, Option.isSome_some]
    · rw [customOf?_store_of_ne hname]
      simpa [hname] using h

namespace Configuration

/-- New templates of distinct names are all stored, unless the text of one does not parse. -/
theorem foldlM_create_cases {lib : Library} {ts : List Template}
    (hprebuilt : ∀ t ∈ ts, Template.isPrebuilt t.name = false)
    (hnew : ∀ t ∈ ts, lib.customOf? t.name = none) (hnodup : (ts.map Template.name).Nodup) :
    let made : Except AssemblyError Library := ts.foldlM (fun lib t =>
      match lib.create t false with
      | .ok (_, lib) => .ok lib
      | .error cause => .error (.template t.name cause)) lib
    (∃ t ∈ ts, ∃ fault, Template.Segment.parse t.text = .error fault ∧
        made = .error (.template t.name (.malformed fault))) ∨
      (∀ t ∈ ts, ∃ segments, Template.Segment.parse t.text = .ok segments) ∧
        made = .ok (ts.foldl Library.store lib) := by
  induction ts generalizing lib with
  | nil => exact .inr ⟨nofun, rfl⟩
  | cons t ts ih =>
    rw [List.forall_mem_cons] at hprebuilt hnew
    rw [List.map_cons, List.nodup_cons] at hnodup
    have hcreate := Library.create_of_new hprebuilt.1 hnew.1
    cases hparse : Template.Segment.parse t.text with
    | error fault =>
      rw [hparse] at hcreate
      refine .inl ⟨t, List.mem_cons_self, fault, hparse, ?_⟩
      rw [List.foldlM_cons, hcreate]
      rfl
    | ok segments =>
      rw [hparse] at hcreate
      -- the others are new to the library with this one too, since they have other names
      have hothers : ∀ u ∈ ts, (lib.store t).customOf? u.name = none := fun u hu => by
        have hne : u.name ≠ t.name := fun heq =>
          hnodup.1 (heq ▸ List.mem_map_of_mem (f := Template.name) hu)
        rw [Library.customOf?_store_of_ne hne, hnew.2 u hu]
      dsimp only
      rw [List.foldlM_cons, hcreate]
      rcases ih hprebuilt.2 hothers hnodup.2 with ⟨u, hu, hfault⟩ | ⟨hall, hmade⟩
      · exact .inl ⟨u, List.mem_cons_of_mem t hu, hfault⟩
      · exact .inr ⟨List.forall_mem_cons.2 ⟨⟨segments, hparse⟩, hall⟩, hmade⟩

/-! ## Conditions -/

/-- The identifiers under which the conditions of entries are registered. One is drawn for each
entry, and used if the entry gives none. -/
def identifiers (supply : Uuid.Supply) : List Condition.Entry → List String
  | [] => []
  | e :: rest => e.id.getD (toString supply.head) :: identifiers (supply.drop 1) rest

/-- There is an identifier for each entry. -/
theorem length_identifiers (supply : Uuid.Supply) (es : List Condition.Entry) :
    (identifiers supply es).length = es.length := by
  induction es generalizing supply with
  | nil => rfl
  | cons e es ih => exact congrArg (· + 1) (ih _)

/-- An entry has the identifier that it gives, or one out of the supply at its place. -/
theorem getElem?_identifiers (supply : Uuid.Supply) (es : List Condition.Entry) (i : Nat) :
    (identifiers supply es)[i]? =
      es[i]?.map fun e => e.id.getD (toString (supply.drop i).head) := by
  induction es generalizing supply i with
  | nil => rfl
  | cons e es ih =>
    cases i with
    | zero => rfl
    | succ i =>
      have hdrop : (supply.drop 1).drop i = supply.drop (i + 1) :=
        congrArg Uuid.Supply.mk (Nat.add_right_comm supply.chance 1 i)
      rw [identifiers, List.getElem?_cons_succ, List.getElem?_cons_succ, ih, hdrop]

/-- An identifier that is drawn for a condition is that of no other condition. -/
def IsFresh (c : Configuration) (supply : Uuid.Supply) : Prop :=
  ∀ (i j : Nat) (e e' : Condition.Entry), c.conditions[i]? = some e → c.conditions[j]? = some e' →
    i ≠ j → e.id = none →
      e'.id.getD (toString (supply.drop j).head) ≠ toString (supply.drop i).head

/-- Where no identifier is given twice and none is drawn that is in use, all are distinct. -/
theorem nodup_identifiers {c : Configuration} {supply : Uuid.Supply}
    (hgiven : c.conditionIds.Nodup) (hfresh : c.IsFresh supply) :
    (identifiers supply c.conditions).Nodup := by
  rw [conditionIds, List.Nodup, List.pairwise_filterMap, List.pairwise_iff_getElem] at hgiven
  rw [List.nodup_iff_getElem?_ne_getElem?]
  intro i j hij hj heq
  rw [getElem?_identifiers, getElem?_identifiers] at heq
  rw [length_identifiers] at hj
  have hi := List.getElem?_eq_getElem (hij.trans hj)
  have hj := List.getElem?_eq_getElem hj
  rw [hi, hj, Option.map_some, Option.map_some, Option.some.injEq] at heq
  -- an identifier that is drawn is in use nowhere else, and those that are given are distinct
  cases hidi : (c.conditions[i]).id with
  | none =>
    rw [hidi] at heq
    exact hfresh i j _ _ hi hj hij.ne hidi heq.symm
  | some a =>
    cases hidj : (c.conditions[j]).id with
    | none =>
      rw [hidj] at heq
      exact hfresh j i _ _ hj hi hij.ne' hidj heq
    | some b =>
      rw [hidi, hidj] at heq
      exact hgiven i j _ _ hij a hidi b hidj heq

/-- Conditions that make sense are all registered if their identifiers are new and distinct. -/
theorem registerAll_eq_ok (audit : Option Audit) {l : Watchlist} {supply : Uuid.Supply}
    (saved : Nat → Instant) {es : List Condition.Entry}
    (hes : ∀ e ∈ es, ∃ condition, Condition.parseEntry "" e = .ok condition)
    (hnodup : (l.ids ++ identifiers supply es).Nodup) :
    ∃ l', (registerAll audit l supply saved es).2 = .ok l' ∧
      l'.ids = l.ids ++ identifiers supply es := by
  induction es generalizing audit l supply saved with
  | nil => exact ⟨l, rfl, (List.append_nil _).symm⟩
  | cons e es ih =>
    rw [List.forall_mem_cons] at hes
    obtain ⟨⟨condition, hcondition⟩, hothers⟩ := hes
    -- an entry without an identifier gets the one that is drawn for it
    let drawn := toString supply.head
    let registered : Condition := { condition with id := e.id.getD drawn }
    have hentry : Condition.ofEntry drawn e = .ok registered := by
      rw [Condition.ofEntry, Condition.parseEntry_eq, hcondition]
      rfl
    rw [identifiers] at hnodup
    have hnew : registered.id ∉ l.ids := fun hmem =>
      (List.nodup_cons.1 (List.nodup_middle.1 hnodup)).1 (List.mem_append_left _ hmem)
    have hregister :
        l.register registered = .ok ⟨l.watches ++ [Watch.ofCondition registered]⟩ := by
      rw [Watchlist.register, if_neg (by rwa [Watchlist.isSome_watch?_iff])]
    have hids : (Watchlist.mk (l.watches ++ [Watch.ofCondition registered])).ids =
        l.ids ++ [e.id.getD drawn] := by
      rw [Watchlist.ids, List.map_append]
      rfl
    -- the others are registered behind it, with what is left of the supply
    obtain ⟨l', hl', hids'⟩ := ih (audit.map (·.saveCondition (saved 0) registered))
      (fun i => saved (i + 1)) hothers (l := ⟨l.watches ++ [Watch.ofCondition registered]⟩)
      (by rwa [hids, ← List.append_cons])
    refine ⟨l', ?_, by rw [hids', hids, identifiers, ← List.append_cons]⟩
    rw [registerAll, hentry]
    simp only [hregister]
    exact hl'

/-! ## Channels -/

/-- How the outlet of a channel follows its entry. -/
structure ChannelEntry.MakesOutlet (e : ChannelEntry) (o : Outlet) : Prop where
  /-- It has its name. -/
  name : o.channel.name = e.name
  /-- It is of its kind. -/
  kind : Channel.Kind.ofName? e.kind = some o.channel.settings.kind
  /-- It has its settings. -/
  settings : Channel.Settings.ofJson? o.channel.settings.kind e.settingsJson =
    some o.channel.settings
  /-- It is switched on as it says. -/
  enabled : o.channel.enabled = e.enabled
  /-- It has its least priority. -/
  minPriority : o.route.minPriority.level = e.minPriority
  /-- It has its conditions. -/
  conditions : o.route.conditions = e.conditions
  /-- It has its template. -/
  template : o.route.template = e.template

/-- Settings are read as those of the kind that is asked for. -/
theorem kind_of_ofJson? {kind : Channel.Kind} {v : Json} {s : Channel.Settings}
    (h : Channel.Settings.ofJson? kind v = some s) : s.kind = kind := by
  cases kind <;> obtain ⟨_, -, rfl⟩ := Option.map_eq_some_iff.1 h <;> rfl

/-- A channel of a known kind and a known priority is added under a new name, unless its settings
cannot be read. -/
theorem addChannel_cases {ids : List String} {hasTemplate : String → Bool} {e : ChannelEntry}
    (he : e.IsValid ids hasTemplate) {d : Dispatcher} (hnew : e.name ∉ d.channels.map (·.name)) :
    (∃ kind, Channel.Kind.ofName? e.kind = some kind ∧
        Channel.Settings.ofJson? kind e.settingsJson = none ∧
        addChannel d e = .error (.settings e.name (.unreadable e.name))) ∨
      ∃ o, e.MakesOutlet o ∧ addChannel d e = .ok { d with outlets := d.outlets ++ [o] } := by
  obtain ⟨kind, hkind⟩ := Option.isSome_iff_exists.1 he.kind
  obtain ⟨minPriority, hpriority⟩ := Option.isSome_iff_exists.1 he.minPriority
  -- what the entry says is well formed, so that only its settings can be unreadable
  have hlevel : minPriority.level = e.minPriority := by
    unfold Priority.ofLevel? at hpriority
    split at hpriority <;> cases hpriority
    rfl
  have hchannel : (d.channel? e.name).isSome = false := by
    rw [Option.isSome_eq_false_iff, Option.isNone_iff_eq_none, Dispatcher.channel?,
      List.find?_eq_none]
    intro c hc hname
    exact hnew (List.mem_map.2 ⟨c, hc, of_decide_eq_true hname⟩)
  unfold addChannel
  rw [Channel.ofSettings, hkind]
  dsimp only
  cases hsettings : Channel.Settings.ofJson? kind e.settingsJson with
  | none => exact .inl ⟨kind, rfl, hsettings, rfl⟩
  | some settings =>
    have hkindOf := kind_of_ofJson? hsettings
    refine .inr ⟨⟨{ name := e.name, settings, enabled := e.enabled },
      ⟨minPriority, e.conditions, e.template⟩⟩,
      ⟨rfl, by rw [hkind, hkindOf], by rw [hkindOf]; exact hsettings, rfl, hlevel, rfl, rfl⟩, ?_⟩
    simp [hpriority, Dispatcher.add, Channel.setEnabled, hchannel]

/-- Channels of new and distinct names are all added, unless the settings of one cannot be read. -/
theorem foldlM_addChannel_cases {ids : List String} {hasTemplate : String → Bool}
    {es : List ChannelEntry} (hes : ∀ e ∈ es, e.IsValid ids hasTemplate) {d : Dispatcher}
    (hnodup : (d.channels.map (·.name) ++ es.map ChannelEntry.name).Nodup) :
    (∃ e ∈ es, ∃ kind, Channel.Kind.ofName? e.kind = some kind ∧
        Channel.Settings.ofJson? kind e.settingsJson = none ∧
        es.foldlM addChannel d = .error (.settings e.name (.unreadable e.name))) ∨
      ∃ os, List.Forall₂ ChannelEntry.MakesOutlet es os ∧
        es.foldlM addChannel d = .ok { d with outlets := d.outlets ++ os } := by
  induction es generalizing d with
  | nil => exact .inr ⟨[], .nil, by rw [List.append_nil]; rfl⟩
  | cons e es ih =>
    rw [List.forall_mem_cons] at hes
    rw [List.map_cons] at hnodup
    have hnew : e.name ∉ d.channels.map (·.name) := fun hmem =>
      (List.nodup_cons.1 (List.nodup_middle.1 hnodup)).1 (List.mem_append_left _ hmem)
    rw [List.foldlM_cons]
    rcases addChannel_cases hes.1 hnew with ⟨kind, hkind, hsettings, hadd⟩ | ⟨o, ho, hadd⟩
    · refine .inl ⟨e, List.mem_cons_self, kind, hkind, hsettings, ?_⟩
      rw [hadd]
      rfl
    · rw [hadd]
      have hnames : (({ d with outlets := d.outlets ++ [o] } : Dispatcher).channels.map (·.name)) =
          d.channels.map (·.name) ++ [e.name] := by
        simp [Dispatcher.channels, ho.name]
      rw [List.append_cons, ← hnames] at hnodup
      -- the other names are still new, also beside the channel that is added
      rcases ih hes.2 (d := { d with outlets := d.outlets ++ [o] }) hnodup with
        ⟨e', he', hflaw⟩ | ⟨os, hos, hfold⟩
      · exact .inl ⟨e', List.mem_cons_of_mem e he', hflaw⟩
      · refine .inr ⟨o :: os, .cons ho hos, hfold.trans ?_⟩
        rw [List.append_assoc, List.singleton_append]

/-! ## The whole assembly -/

/-- The failures that are left to a valid configuration. -/
inductive IsFlaw (c : Configuration) : AssemblyError → Prop
  /-- The text of a template does not parse. -/
  | template {t : Template} {fault : Template.SyntaxFault} (hmem : t ∈ c.templates)
    (hparse : Template.Segment.parse t.text = .error fault) :
    IsFlaw c (.template t.name (.malformed fault))
  /-- The settings of a channel cannot be read. -/
  | settings {e : ChannelEntry} {kind : Channel.Kind} (hmem : e ∈ c.channels)
    (hkind : Channel.Kind.ofName? e.kind = some kind)
    (hread : Channel.Settings.ofJson? kind e.settingsJson = none) :
    IsFlaw c (.channel (.settings e.name (.unreadable e.name)))

/-- How a monitor follows its configuration. -/
structure Makes (c : Configuration) (supply : Uuid.Supply) (m : Monitor) : Prop where
  /-- Its conditions are registered, in their order. -/
  conditions : m.engine.watchlist.ids = identifiers supply c.conditions
  /-- Its channels have their outlets, in their order. -/
  outlets : List.Forall₂ ChannelEntry.MakesOutlet c.channels m.dispatcher.outlets
  /-- The template of every route can be looked up. -/
  templates : ∀ o ∈ m.dispatcher.outlets,
    (m.dispatcher.templates.get? o.route.template).isSome
  /-- Every route names registered conditions only. -/
  routes : ∀ o ∈ m.dispatcher.outlets, ∀ id ∈ o.route.conditions,
    (m.engine.watchlist.get? id).isSome

section Parts

variable {c : Configuration}

/-- All templates are stored, unless the text of one does not parse. -/
theorem library_cases (hc : c.IsValid) :
    (∃ error, c.library = .error error ∧ c.IsFlaw error) ∨
      (∀ t ∈ c.templates, ∃ segments, Template.Segment.parse t.text = .ok segments) ∧
        c.library = .ok (c.templates.foldl Library.store {}) := by
  have hnew : ∀ t ∈ c.templates, Library.customOf? {} t.name = none := fun t _ => rfl
  rcases foldlM_create_cases hc.templates hnew hc.templateNames with
    ⟨t, ht, fault, hparse, hmade⟩ | hmade
  · exact .inl ⟨_, hmade, .template ht hparse⟩
  · exact .inr hmade

/-- All channels are added, unless the settings of one cannot be read. -/
theorem dispatcher_cases (hc : c.IsValid) (templates : Library) :
    (∃ cause, c.dispatcher templates = .error cause ∧ c.IsFlaw (.channel cause)) ∨
      ∃ os, List.Forall₂ ChannelEntry.MakesOutlet c.channels os ∧
        c.dispatcher templates = .ok { templates, outlets := os } := by
  rcases foldlM_addChannel_cases hc.channels (d := { templates }) hc.channelNames with
    ⟨e, he, kind, hkind, hread, hmade⟩ | ⟨os, hos, hmade⟩
  · exact .inl ⟨_, hmade, .settings he hkind hread⟩
  · exact .inr ⟨os, hos, hmade⟩

/-- What channels name is there once all templates are stored and all conditions are registered. -/
theorem makes_of_parts (hc : c.IsValid) {supply : Uuid.Supply} {m : Monitor}
    (hids : m.engine.watchlist.ids = identifiers supply c.conditions)
    (houtlets : List.Forall₂ ChannelEntry.MakesOutlet c.channels m.dispatcher.outlets)
    (htemplates : m.dispatcher.templates = c.templates.foldl Library.store {}) :
    c.Makes supply m := by
  have hentry : ∀ o ∈ m.dispatcher.outlets, ∃ e ∈ c.channels, e.MakesOutlet o := fun o ho =>
    Dispatcher.exists_mem_of_forall₂ houtlets ho
  refine ⟨hids, houtlets, fun o ho => ?_, fun o ho id hid => ?_⟩
  · obtain ⟨e, he, hmakes⟩ := hentry o ho
    have hknown := (hc.channels e he).template
    rw [← hmakes.template] at hknown
    rw [← Library.contains_eq, Library.contains, htemplates, Bool.or_eq_true]
    refine (Bool.or_eq_true _ _ ▸ hknown).imp_right fun hcustom => ?_
    refine Library.isSome_customOf?_foldl_store (.inl ?_)
    simpa [List.mem_map] using hcustom
  · obtain ⟨e, he, hmakes⟩ := hentry o ho
    rw [hmakes.conditions] at hid
    -- the identifier is given to a condition, which is registered under it
    obtain ⟨entry, hentry, hgiven⟩ :=
      List.mem_filterMap.1 ((hc.channels e he).conditions id hid)
    obtain ⟨i, hi⟩ := List.mem_iff_getElem?.1 hentry
    have hmem : id ∈ m.engine.watchlist.ids := by
      rw [hids]
      refine List.mem_of_getElem? (i := i) ?_
      rw [getElem?_identifiers, hi, Option.map_some, hgiven, Option.getD_some]
    rwa [Watchlist.get?, Option.isSome_map, Watchlist.isSome_watch?_iff]

/-- Where all templates can be parsed and all channels have their outlets, there is no flaw. -/
theorem not_isFlaw_of_parts
    (hparse : ∀ t ∈ c.templates, ∃ segments, Template.Segment.parse t.text = .ok segments)
    {os : List Outlet} (hos : List.Forall₂ ChannelEntry.MakesOutlet c.channels os)
    (error : AssemblyError) : ¬c.IsFlaw error := by
  rintro (@⟨t, fault, hmem, hfault⟩ | @⟨e, kind, hmem, hkind, hread⟩)
  · obtain ⟨segments, hsegments⟩ := hparse t hmem
    cases hsegments.symm.trans hfault
  · obtain ⟨o, -, hmakes⟩ := Dispatcher.exists_mem_of_forall₂ hos.flip hmem
    cases hmakes.kind.symm.trans hkind
    cases hmakes.settings.symm.trans hread

end Parts

/-- A valid configuration fails at a flaw, or it has none and makes a monitor that follows it. -/
theorem assemble_cases {c : Configuration} (hc : c.IsValid) {supply : Uuid.Supply}
    (hfresh : c.IsFresh supply) (saved : Nat → Instant) (audit : Option Audit) :
    (∃ error, (c.assemble supply saved audit).2 = .error error ∧ c.IsFlaw error) ∨
      (∃ m, (c.assemble supply saved audit).2 = .ok m ∧ c.Makes supply m) ∧
        ∀ error, ¬c.IsFlaw error := by
  have hnodup : (({} : Watchlist).ids ++ identifiers supply c.conditions).Nodup :=
    nodup_identifiers hc.conditionIds hfresh
  obtain ⟨l, hregister, hids⟩ := registerAll_eq_ok audit saved hc.conditions hnodup
  unfold assemble
  -- templates come first, and their flaw is the one that is reported
  rcases library_cases hc with ⟨error, hlibrary, hflaw⟩ | ⟨hparse, hlibrary⟩
  · rw [hlibrary]
    exact .inl ⟨error, rfl, hflaw⟩
  rw [hlibrary]
  dsimp only
  rcases hboth : registerAll audit {} supply saved c.conditions with ⟨kept, registered⟩
  rw [hboth] at hregister
  cases hregister
  dsimp only
  -- then conditions, which have no flaw, and then channels
  rcases dispatcher_cases hc (c.templates.foldl Library.store {}) with
    ⟨cause, hdispatcher, hflaw⟩ | ⟨os, hos, hdispatcher⟩
  · rw [hdispatcher]
    exact .inl ⟨_, rfl, hflaw⟩
  · rw [hdispatcher]
    exact .inr ⟨⟨_, rfl, makes_of_parts hc hids hos rfl⟩, not_isFlaw_of_parts hparse hos⟩

/-- Validation leaves nothing to assembly but flaws. For every valid configuration, if identifiers
that are drawn are those of no other condition: its assembly fails at nothing but the text of a
template that does not parse or the settings of a channel that cannot be read. If it has no such
flaw, it makes a monitor, in which all conditions are registered and all channels have their
outlets, and every route names a template that can be looked up and registered conditions only. -/
theorem assemble_validated {c : Configuration} (hvalid : c.validate = .ok ()) {supply : Uuid.Supply}
    (hfresh : c.IsFresh supply) (saved : Nat → Instant) (audit : Option Audit) :
    (∀ error, (c.assemble supply saved audit).2 = .error error → c.IsFlaw error) ∧
    (∀ m, (c.assemble supply saved audit).2 = .ok m → c.Makes supply m) ∧
    ((∃ m, (c.assemble supply saved audit).2 = .ok m) ↔ ∀ error, ¬c.IsFlaw error) := by
  rcases assemble_cases (validate_eq_ok_iff.1 hvalid) hfresh saved audit with
    ⟨error, herror, hflaw⟩ | ⟨⟨m, hm, hmakes⟩, hnone⟩
  · rw [herror]
    refine ⟨fun error' h => ?_, nofun, iff_of_false nofun fun h => h error hflaw⟩
    cases h
    exact hflaw
  · rw [hm]
    refine ⟨nofun, fun m' h => ?_, iff_of_true ⟨m, rfl⟩ hnone⟩
    cases h
    exact hmakes

/-- The rule that the price of BTCUSDT is above one hundred. -/
def priceEntry (id : Option String) : Condition.Entry where
  id
  name := "BTC"
  symbol := "BTCUSDT"
  typeName := "price"
  metric := none
  indicator := none
  params := []
  operator := "greater_than"
  threshold := .hundred
  priority := none
  active := true
  metadata := []

/-- Two conditions, one of them without an identifier, and a channel for the other one with a
template of its own. -/
def ofPair : Configuration where
  general := {}
  conditions := [priceEntry (some "c1"), priceEntry none]
  channels := [{
    name := "popup", kind := "popup", enabled := true, minPriority := 1, conditions := ["c1"]
    template := "ops", settings := [("max_length", .int 40)] }]
  templates := [{ name := "ops", text := "$symbol: $condition_name", description := "" }]

/-- The two conditions are registered and the channel is there. -/
theorem assemble_validated_ofPair :
    ofPair.validate = .ok () ∧ ofPair.IsFresh ⟨0⟩ ∧
      ∃ m, (ofPair.assemble ⟨0⟩ (fun _ => .epoch) none).2 = .ok m ∧ ofPair.Makes ⟨0⟩ m := by
  have hvalid : ofPair.validate = .ok () := validate_eq_ok_of_isOk (by decide +kernel)
  have hfresh : ofPair.IsFresh ⟨0⟩ := by
    intro i j e e' hi hj hij hdrawn
    match i, j with
    | 0, _ => cases hi; cases hdrawn
    | 1, 0 =>
      cases hj
      decide +kernel
    | 1, 1 => exact absurd rfl hij
    | 1, _ + 2 => cases hj
    | _ + 2, _ => cases hi
  have hok : (ofPair.assemble ⟨0⟩ (fun _ => .epoch) none).2.isOk = true := by decide +kernel
  cases h : (ofPair.assemble ⟨0⟩ (fun _ => .epoch) none).2 with
  | error error => simp [h, Except.isOk, Except.toBool] at hok
  | ok m => exact ⟨hvalid, hfresh, m, rfl, (assemble_validated hvalid hfresh _ none).2.1 m h⟩

end Configuration

end MarketAlerts

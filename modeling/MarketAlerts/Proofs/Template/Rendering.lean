import MarketAlerts.Proofs.Except
import MarketAlerts.Template.Render

/-!
# What a template becomes

A template is written segment by segment, and the first segment that cannot be written is named.

## Main definitions

- `Formatter.Serves`: the name of a variable asks for a formatter;
- `Formats name v s`: the value `v` of the variable `name` is written `s`;
- `Writes m vars s piece`: the segment `s` becomes `piece`;
- `Refuses vars s e`: the segment `s` cannot be written, because of `e`;
- `Fills vars name`: there is a value for a placeholder, and it can be written.

## Main results

- `render_eq_ok_iff`, `render_eq_error_iff`: when a template becomes a text, and which, and when it
  is refused, and why;
- `render_congr`: only the values of the names in a text matter;
- `render_exact`: all of this, and that no variable is missing where all of the text have a value.
-/

namespace MarketAlerts.Template

/-! ## Values -/

/-- The name of a variable asks for the formatter: it ends in its suffix. -/
def Formatter.Serves (f : Formatter) (name : String) : Prop := f.suffix.toList <:+ name.toList

/-- The value `v` of the variable `name` is written in the way for which the name asks, or plainly
if it asks for none. -/
inductive Formats (name : String) (v : Value) : String → Prop where
  | plain : (∀ f : Formatter, ¬f.Serves name) → Formats name v v.display
  | formatted {f : Formatter} {s : String} : f.Serves name → f.text? v = some s → Formats name v s

/-- No suffix is the end of another. -/
theorem Formatter.Serves.unique {f g : Formatter} {name : String} (hf : f.Serves name)
    (hg : g.Serves name) : f = g := by
  -- two ends of one name: the shorter is an end of the longer
  have hsuffix := List.suffix_or_suffix_of_suffix hf hg
  revert hsuffix
  cases f <;> cases g <;> decide +kernel

/-- A variable has the formatter that serves it. -/
theorem Formatter.forVariable?_eq_some_iff {f : Formatter} {name : String} :
    forVariable? name = some f ↔ f.Serves name := by
  have hserves (g : Formatter) : g.suffix.toList.isSuffixOf name.toList = true ↔ g.Serves name :=
    List.isSuffixOf_iff_suffix
  unfold forVariable?
  constructor
  · intro h
    have hfound := List.find?_some h
    exact (hserves f).1 hfound
  · intro h
    have hmem : f ∈ all := by cases f <;> decide
    cases hfind : all.find? fun g => g.suffix.toList.isSuffixOf name.toList with
    | none => exact absurd ((hserves f).2 h) (List.find?_eq_none.1 hfind f hmem)
    | some g =>
      have hfound := List.find?_some hfind
      rw [h.unique ((hserves g).1 hfound)]

/-- A variable that no formatter serves has none. -/
theorem Formatter.forVariable?_eq_none_iff {name : String} :
    forVariable? name = none ↔ ∀ f : Formatter, ¬f.Serves name := by
  rw [Option.eq_none_iff_forall_ne_some]
  exact forall_congr' fun f => not_congr forVariable?_eq_some_iff

/-- A value is formatted as it is to be under its name. -/
theorem formatValue_eq_ok_iff {name s : String} {v : Value} :
    formatValue name v = .ok s ↔ Formats name v s := by
  unfold formatValue
  cases hname : Formatter.forVariable? name with
  | none =>
    have hnone := Formatter.forVariable?_eq_none_iff.1 hname
    constructor
    · intro h
      cases h
      exact .plain hnone
    · rintro (_ | ⟨hserves, _⟩)
      · rfl
      · exact absurd hserves (hnone _)
  | some f =>
    have hserves := Formatter.forVariable?_eq_some_iff.1 hname
    dsimp only
    constructor
    · intro h
      split at h
      next t ht =>
        cases h
        exact .formatted hserves ht
      next => contradiction
    · rintro (hnone | ⟨hserves', ht⟩)
      · exact absurd hserves (hnone f)
      · -- a name is served by one formatter at most
        rw [hserves.unique hserves', ht]

/-- A value is not formatted where the formatter of its variable has no text for it. -/
theorem formatValue_eq_error_iff {name : String} {v : Value} {e : Error} :
    formatValue name v = .error e ↔
      ∃ f : Formatter, f.Serves name ∧ f.text? v = none ∧ e = .format f name := by
  unfold formatValue
  cases hname : Formatter.forVariable? name with
  | none =>
    have hnone := Formatter.forVariable?_eq_none_iff.1 hname
    exact iff_of_false nofun fun ⟨f, hserves, _⟩ => hnone f hserves
  | some f =>
    have hserves := Formatter.forVariable?_eq_some_iff.1 hname
    dsimp only
    constructor
    · intro h
      split at h
      next => contradiction
      next ht =>
        cases h
        exact ⟨f, hserves, ht, rfl⟩
    · rintro ⟨g, hserves', ht, rfl⟩
      rw [← hserves.unique hserves'] at ht ⊢
      rw [ht]

/-! ## Segments -/

/-- What a segment becomes. What comes from a value is escaped, whatever it holds. -/
inductive Writes (m : Medium) (vars : Variables) : Segment → String → Prop where
  | literal (text : List Char) : Writes m vars (.literal text) (String.ofList text)
  | dollar : Writes m vars .dollar "$"
  | placeholder {name s : String} {v : Value} (braced : Bool) : vars.get? name = some v →
      Formats name v s → Writes m vars (.placeholder name braced) (escape m s)

/-- Why a segment cannot be written. -/
inductive Refuses (vars : Variables) : Segment → Error → Prop where
  | missingVariable {name : String} (braced : Bool) : vars.get? name = none →
      Refuses vars (.placeholder name braced) (.missingVariable name)
  | format {name : String} {v : Value} {f : Formatter} (braced : Bool) : vars.get? name = some v →
      f.Serves name → f.text? v = none → Refuses vars (.placeholder name braced) (.format f name)

/-- There is a value of this name, and the formatter for which the name asks, if any, takes it. -/
def Fills (vars : Variables) (name : String) : Prop :=
  ∃ v, vars.get? name = some v ∧ ∀ f : Formatter, f.Serves name → (f.text? v).isSome

variable {m : Medium} {vars : Variables}

/-- A segment is rendered as what it writes. -/
theorem renderSegment_eq_ok_iff {s : Segment} {piece : String} :
    renderSegment m vars s = .ok piece ↔ Writes m vars s piece := by
  constructor
  · intro h
    cases s with
    | literal text => cases h; exact .literal text
    | dollar => cases h; exact .dollar
    | placeholder name braced =>
      rw [renderSegment] at h
      cases hv : vars.get? name with
      | none => simp [hv] at h
      | some v =>
        rw [hv] at h
        dsimp only at h
        cases hs : formatValue name v with
        | error e => simp [hs, Except.map] at h
        | ok s =>
          rw [hs] at h
          cases h
          exact .placeholder braced hv (formatValue_eq_ok_iff.1 hs)
  · intro h
    cases h with
    | literal text => rfl
    | dollar => rfl
    | placeholder braced hv hs => simp [renderSegment, hv, formatValue_eq_ok_iff.2 hs, Except.map]

/-- A segment is not rendered where it is refused, and for that reason. -/
theorem renderSegment_eq_error_iff {s : Segment} {e : Error} :
    renderSegment m vars s = .error e ↔ Refuses vars s e := by
  constructor
  · intro h
    cases s with
    | literal text => cases h
    | dollar => cases h
    | placeholder name braced =>
      rw [renderSegment] at h
      cases hv : vars.get? name with
      | none =>
        rw [hv] at h
        cases h
        exact .missingVariable braced hv
      | some v =>
        rw [hv] at h
        dsimp only at h
        cases hs : formatValue name v with
        | ok s => simp [hs, Except.map] at h
        | error e' =>
          rw [hs] at h
          cases h
          obtain ⟨f, hserves, ht, rfl⟩ := formatValue_eq_error_iff.1 hs
          exact .format braced hv hserves ht
  · intro h
    cases h with
    | missingVariable braced hv => simp [renderSegment, hv]
    | format braced hv hserves ht =>
      have hs := formatValue_eq_error_iff.2 ⟨_, hserves, ht, rfl⟩
      simp [renderSegment, hv, hs, Except.map]

/-- A value is formatted if the formatter that serves the variable has a text for it. -/
theorem exists_formats_iff {name : String} {v : Value} :
    (∃ s, Formats name v s) ↔ ∀ f : Formatter, f.Serves name → (f.text? v).isSome := by
  constructor
  · rintro ⟨s, hnone | ⟨hserves, ht⟩⟩ f hf
    · exact absurd hf (hnone f)
    · rw [hf.unique hserves, ht, Option.isSome_some]
  · intro h
    by_cases hname : ∃ f : Formatter, f.Serves name
    · obtain ⟨f, hserves⟩ := hname
      obtain ⟨s, ht⟩ := Option.isSome_iff_exists.1 (h f hserves)
      exact ⟨s, .formatted hserves ht⟩
    · exact ⟨_, .plain (not_exists.1 hname)⟩

/-- A segment can be written unless it is a placeholder that cannot be filled. -/
theorem exists_writes_iff {s : Segment} :
    (∃ piece, Writes m vars s piece) ↔ ∀ name ∈ s.name?, Fills vars name := by
  cases s with
  | literal text => exact iff_of_true ⟨_, .literal text⟩ nofun
  | dollar => exact iff_of_true ⟨_, .dollar⟩ nofun
  | placeholder name braced =>
    constructor
    · rintro ⟨_, _ | _ | ⟨_, hv, hs⟩⟩ _ ⟨⟩
      exact ⟨_, hv, exists_formats_iff.1 ⟨_, hs⟩⟩
    · intro h
      obtain ⟨v, hv, haccepts⟩ := h name rfl
      obtain ⟨s, hs⟩ := exists_formats_iff.2 haccepts
      exact ⟨_, .placeholder braced hv hs⟩

/-- Either a segment can be written or there is a reason why not. -/
theorem exists_writes_iff_not_refuses {s : Segment} :
    (∃ piece, Writes m vars s piece) ↔ ∀ e, ¬Refuses vars s e := by
  simp only [← renderSegment_eq_ok_iff, ← renderSegment_eq_error_iff (m := m)]
  cases renderSegment m vars s <;> simp

/-! ## Texts -/

/-- A template that cannot be parsed is not rendered. -/
theorem render_of_error {text : String} {fault : SyntaxFault}
    (h : Segment.parse text = .error fault) : render m vars text = .error (.malformed fault) := by
  rw [render, h]
  rfl

/-- A template that can be parsed is rendered segment by segment. -/
theorem render_of_ok {text : String} {segments : List Segment}
    (h : Segment.parse text = .ok segments) :
    render m vars text = (segments.mapM (renderSegment m vars)).map String.join := by
  rw [render, h]
  cases hmap : segments.mapM (renderSegment m vars) <;>
    simp [bind, Except.bind, hmap, pure, Except.pure, Except.map]

/-- A template becomes what its segments become, one after the other. -/
theorem render_eq_ok_iff {text out : String} :
    render m vars text = .ok out ↔ ∃ segments pieces, Segment.parse text = .ok segments ∧
      List.Forall₂ (Writes m vars) segments pieces ∧ out = String.join pieces := by
  cases hparse : Segment.parse text with
  | error fault => simp [render_of_error hparse]
  | ok segments =>
    have hpieces (pieces : List String) : segments.mapM (renderSegment m vars) = .ok pieces ↔
        List.Forall₂ (Writes m vars) segments pieces := by
      simp only [mapM_eq_ok_iff, renderSegment_eq_ok_iff]
    rw [render_of_ok hparse]
    constructor
    · intro h
      cases hmap : segments.mapM (renderSegment m vars) with
      | error e =>
        rw [hmap] at h
        contradiction
      | ok pieces =>
        rw [hmap] at h
        cases h
        exact ⟨segments, pieces, rfl, (hpieces pieces).1 hmap, rfl⟩
    · rintro ⟨_, pieces, hsegments, hwrites, rfl⟩
      cases hsegments
      rw [(hpieces pieces).2 hwrites]
      rfl

/-- A template is refused because its text does not parse, or else because of the first segment that
cannot be written. -/
theorem render_eq_error_iff {text : String} {e : Error} :
    render m vars text = .error e ↔
      (∃ fault, Segment.parse text = .error fault ∧ e = .malformed fault) ∨
      ∃ before s after, Segment.parse text = .ok (before ++ s :: after) ∧
        (∀ t ∈ before, ∀ e', ¬Refuses vars t e') ∧ Refuses vars s e := by
  cases hparse : Segment.parse text with
  | error fault => simp [render_of_error hparse, eq_comm]
  | ok segments =>
    have hmap : (segments.mapM (renderSegment m vars)).map String.join = .error e ↔
        segments.mapM (renderSegment m vars) = .error e := by
      cases segments.mapM (renderSegment m vars) <;> simp [Except.map]
    rw [render_of_ok hparse, hmap, mapM_eq_error_iff]
    simp only [renderSegment_eq_ok_iff, renderSegment_eq_error_iff, exists_writes_iff_not_refuses,
      Except.ok.injEq]
    constructor
    · rintro ⟨before, s, after, rfl, hbefore, hrefuses⟩
      exact .inr ⟨before, s, after, rfl, hbefore, hrefuses⟩
    · rintro (⟨_, hfault, -⟩ | ⟨before, s, after, heq, hbefore, hrefuses⟩)
      · contradiction
      · exact ⟨before, s, after, heq, hbefore, hrefuses⟩

/-- A template becomes a text if its text parses and all its placeholders can be filled. -/
theorem exists_render_iff {text : String} :
    (∃ out, render m vars text = .ok out) ↔ ∃ segments, Segment.parse text = .ok segments ∧
      ∀ s ∈ segments, ∀ name ∈ s.name?, Fills vars name := by
  simp only [render_eq_ok_iff, ← exists_writes_iff (m := m), ← exists_forall₂_iff]
  constructor
  · rintro ⟨_, segments, pieces, hparse, hwrites, -⟩
    exact ⟨segments, hparse, pieces, hwrites⟩
  · rintro ⟨segments, hparse, pieces, hwrites⟩
    exact ⟨_, segments, pieces, hparse, hwrites, rfl⟩

/-! ## Names -/

/-- Names that are gathered without repetition are all there. -/
theorem mem_foldl_unless_contained {name : String} (names acc : List String) :
    name ∈ names.foldl (fun acc n => if acc.contains n then acc else n :: acc) acc ↔
      name ∈ acc ∨ name ∈ names := by
  induction names generalizing acc with
  | nil => simp
  | cons n names ih =>
    rw [List.foldl_cons, ih, List.mem_cons]
    split
    next hcontains =>
      rw [List.contains_iff_mem] at hcontains
      constructor
      · rintro (h | h)
        · exact .inl h
        · exact .inr (.inr h)
      · rintro (h | rfl | h)
        · exact .inl h
        · exact .inl hcontains
        · exact .inr h
    next => rw [List.mem_cons, or_assoc, or_left_comm]

/-- The names to which a text refers are those of its placeholders. -/
theorem placeholders_of_ok {text : String} {segments : List Segment}
    (h : Segment.parse text = .ok segments) :
    ∃ names, placeholders text = .ok names ∧
      ∀ name, name ∈ names ↔ ∃ s ∈ segments, s.name? = some name := by
  rw [placeholders, h]
  refine ⟨_, rfl, fun name => ?_⟩
  rw [List.mem_reverse, mem_foldl_unless_contained, List.mem_filterMap]
  simp

/-- A text that refers to names parses. -/
theorem exists_parse_of_placeholders {text : String} {names : List String}
    (h : placeholders text = .ok names) : ∃ segments, Segment.parse text = .ok segments ∧
      ∀ name, name ∈ names ↔ ∃ s ∈ segments, s.name? = some name := by
  cases hparse : Segment.parse text with
  | error fault =>
    rw [placeholders, hparse] at h
    contradiction
  | ok segments =>
    obtain ⟨names', hnames', hmem⟩ := placeholders_of_ok hparse
    rw [h, Except.ok.injEq] at hnames'
    exact ⟨segments, rfl, hnames' ▸ hmem⟩

/-- Only the values of the names in a text matter. -/
theorem render_congr {vars' : Variables} {text : String}
    (h : ∀ names, placeholders text = .ok names →
      ∀ name ∈ names, vars.get? name = vars'.get? name) :
    render m vars text = render m vars' text := by
  cases hparse : Segment.parse text with
  | error fault => rw [render_of_error hparse, render_of_error hparse]
  | ok segments =>
    obtain ⟨names, hnames, hmem⟩ := placeholders_of_ok hparse
    -- a segment looks up its own name only
    have hsegments : ∀ s ∈ segments, renderSegment m vars s = renderSegment m vars' s := by
      intro s hs
      cases s with
      | literal text => rfl
      | dollar => rfl
      | placeholder name braced =>
        have hget := h names hnames name ((hmem name).2 ⟨_, hs, rfl⟩)
        rw [renderSegment, renderSegment, hget]
    rw [render_of_ok hparse, render_of_ok hparse, mapM_congr_of_mem hsegments]

/-- No variable is missing where all names of a text have a value. -/
theorem render_ne_missingVariable {text : String}
    (h : ∀ names, placeholders text = .ok names → ∀ name ∈ names, (vars.get? name).isSome)
    (name : String) : render m vars text ≠ .error (.missingVariable name) := by
  rw [Ne, render_eq_error_iff]
  rintro (⟨_, _, _⟩ | ⟨before, s, after, hparse, -, hrefuses⟩)
  · contradiction
  · obtain ⟨names, hnames, hmem⟩ := placeholders_of_ok hparse
    cases hrefuses with
    | missingVariable braced hnone =>
      have hsome := h names hnames name
        ((hmem name).2 ⟨_, List.mem_append_right before List.mem_cons_self, rfl⟩)
      rw [hnone] at hsome
      contradiction

/-- A template becomes a text exactly if its text parses, all its names have a value, and the
formatters for which the names ask take these values. The text is that of its segments from the
left, with every value formatted and escaped and not looked at again. Otherwise the error is that of
the text, or else that of the leftmost placeholder that cannot be filled. So only the values of the
names in the text matter, and if all of them have one, none is missing. -/
theorem render_exact (m : Medium) (vars : Variables) (text : String) :
    ((∃ out, render m vars text = .ok out) ↔ ∃ segments, Segment.parse text = .ok segments ∧
      ∀ name braced, .placeholder name braced ∈ segments → ∃ v, vars.get? name = some v ∧
        ∀ f : Formatter, f.Serves name → (f.text? v).isSome) ∧
    (∀ out, render m vars text = .ok out ↔ ∃ segments pieces,
      Segment.parse text = .ok segments ∧ List.Forall₂ (Writes m vars) segments pieces ∧
        out = String.join pieces) ∧
    (∀ e, render m vars text = .error e ↔
      (∃ fault, Segment.parse text = .error fault ∧ e = .malformed fault) ∨
      ∃ before s after, Segment.parse text = .ok (before ++ s :: after) ∧
        (∀ t ∈ before, ∀ e', ¬Refuses vars t e') ∧ Refuses vars s e) ∧
    (∀ vars' : Variables, (∀ names, placeholders text = .ok names →
      ∀ name ∈ names, vars.get? name = vars'.get? name) →
        render m vars text = render m vars' text) ∧
    ((∀ names, placeholders text = .ok names → ∀ name ∈ names, (vars.get? name).isSome) →
      ∀ name, render m vars text ≠ .error (.missingVariable name)) := by
  refine ⟨exists_render_iff.trans ?_, fun out => render_eq_ok_iff, fun e => render_eq_error_iff,
    fun vars' => render_congr, render_ne_missingVariable⟩
  refine exists_congr fun segments => and_congr_right fun _ => ⟨?_, ?_⟩
  · intro h name braced hmem
    exact h _ hmem name rfl
  · rintro h (_ | _ | ⟨name, braced⟩) hmem _ ⟨⟩
    exact h name braced hmem

/-- A value that looks like a placeholder is written as it is, escaped, whatever else has a value;
a price in words is refused. -/
theorem render_exact_ofPlaceholderText :
    (∀ vars' : Variables, (Variables.get? [("a", .text "<$b>")] "a" = vars'.get? "a") →
      render .html vars' "$a$$" = .ok "&lt;$b&gt;$") ∧
    render .html [("a", .text "x"), ("b_price", .text "much")] "$a $b_price $c" =
      .error (.format .currency "b_price") ∧
    ∀ name, render .html [("a", .text "<$b>")] "$a$$" ≠ .error (.missingVariable name) := by
  have hnames : placeholders "$a$$" = .ok ["a"] := by decide +kernel
  have hexact := render_exact .html [("a", .text "<$b>")] "$a$$"
  refine ⟨fun vars' h => ?_, by decide +kernel, hexact.2.2.2.2 fun names hparse => ?_⟩
  · rw [← hexact.2.2.2.1 vars' fun names hparse => ?_]
    · decide +kernel
    · rw [hnames, Except.ok.injEq] at hparse
      subst hparse
      simpa using h
  · rw [hnames, Except.ok.injEq] at hparse
    subst hparse
    decide

end MarketAlerts.Template

import MarketAlerts.Proofs.Template.Rendering

/-!
# Values in HTML

In HTML, what comes from a value is inert: it brings no markup, and a reader who decodes it finds
the value.

## Main definitions

- `markup`: the characters of a text that delimit tags and attributes;
- `entities`, `decode`: what an escaped text holds in place of such characters, and its reading;
- `IsInert`: a text holds no markup, and ampersands only in entities.

## Main results

- `isInert_escape`: an escaped text is inert;
- `decode_escape`: it reads as the text;
- `markup_join`: all markup of a rendered template is that of its literal segments;
- `render_html_inert`: so values cannot change it.
-/

namespace MarketAlerts.Template

/-- The characters that delimit tags and attributes, in their order. -/
def markup (cs : List Char) : List Char := cs.filter fun c => c ∈ ['<', '>', '"', '\'']

/-- What stands for an ampersand and for each character of markup. -/
def entities : List String := ["&amp;", "&lt;", "&gt;", "&quot;", "&#39;"]

/-- Some characters with every entity read, once, from the left. -/
def decodeChars : List Char → List Char
  | [] => []
  | '&' :: 'a' :: 'm' :: 'p' :: ';' :: rest => '&' :: decodeChars rest
  | '&' :: 'l' :: 't' :: ';' :: rest => '<' :: decodeChars rest
  | '&' :: 'g' :: 't' :: ';' :: rest => '>' :: decodeChars rest
  | '&' :: 'q' :: 'u' :: 'o' :: 't' :: ';' :: rest => '"' :: decodeChars rest
  | '&' :: '#' :: '3' :: '9' :: ';' :: rest => '\'' :: decodeChars rest
  | c :: rest => c :: decodeChars rest

/-- A text with every entity read. -/
def decode (s : String) : String := String.ofList (decodeChars s.toList)

/-- The characters hold no markup, and each ampersand among them starts an entity. -/
structure IsInert (cs : List Char) : Prop where
  /-- There is no markup. -/
  markup_eq_nil : markup cs = []
  /-- Ampersands start entities. -/
  exists_entity : ∀ before after, cs = before ++ '&' :: after →
    ∃ entity ∈ entities, entity.toList <+: '&' :: after

/-- The markup that a segment brings by itself. -/
def Segment.markup : Segment → List Char
  | .literal text => Template.markup text
  | _ => []

theorem markup_append (cs ds : List Char) : markup (cs ++ ds) = markup cs ++ markup ds :=
  List.filter_append cs ds

/-! ## Escaped texts -/

theorem isInert_nil : IsInert [] where
  markup_eq_nil := rfl
  exists_entity _ _ h := by simp at h

/-- Inert texts make an inert text. -/
theorem IsInert.append {cs ds : List Char} (hcs : IsInert cs) (hds : IsInert ds) :
    IsInert (cs ++ ds) where
  markup_eq_nil := by rw [markup_append, hcs.markup_eq_nil, hds.markup_eq_nil, List.nil_append]
  exists_entity := by
    intro before after heq
    rcases List.append_eq_append_iff.1 heq with ⟨skipped, -, hskipped⟩ | ⟨tail, hcs', htail⟩
    · exact hds.exists_entity skipped after hskipped
    · cases tail with
      | nil => exact hds.exists_entity [] after htail.symm
      | cons c tail =>
        obtain ⟨rfl, rfl⟩ := List.cons.inj htail
        -- the entity ends within `cs`, so what follows does not matter
        obtain ⟨entity, hentity, hprefix⟩ := hcs.exists_entity before tail hcs'
        exact ⟨entity, hentity, hprefix.trans (List.prefix_append ('&' :: tail) ds)⟩

/-- A character that is not special is inert. -/
theorem isInert_singleton {c : Char} (hc : c ≠ '&') (hmarkup : c ∉ ['<', '>', '"', '\'']) :
    IsInert [c] where
  markup_eq_nil := List.filter_eq_nil_iff.2 (by simpa using hmarkup)
  exists_entity before after heq := by
    rcases List.cons_eq_append_iff.1 heq with ⟨-, heq⟩ | ⟨rest, -, heq⟩
    · exact absurd (List.cons.inj heq).1.symm hc
    · simp at heq

/-- An entity is inert: only its first character is an ampersand. -/
theorem isInert_of_mem_entities : ∀ entity ∈ entities, IsInert entity.toList := by
  have hmarkup : ∀ entity ∈ entities, markup entity.toList = [] := by decide +kernel
  have hfirst : ∀ entity ∈ entities, '&' ∉ entity.toList.tail := by decide +kernel
  refine fun entity hentity => ⟨hmarkup entity hentity, fun before after heq => ?_⟩
  cases before with
  | nil => exact ⟨entity, hentity, heq ▸ List.prefix_rfl⟩
  | cons c before =>
    -- an ampersand further behind would be a second one
    refine absurd ?_ (hfirst entity hentity)
    rw [heq, List.cons_append, List.tail_cons]
    exact List.mem_append_right before List.mem_cons_self

/-- A character is escaped as an entity that reads as the character, or it stands for itself. -/
theorem escapeChar_html_cases (c : Char) :
    (∃ entity ∈ entities, escapeChar .html c = entity.toList ∧
      ∀ rest, decodeChars (entity.toList ++ rest) = c :: decodeChars rest) ∨
    (c ≠ '&' ∧ c ∉ ['<', '>', '"', '\''] ∧ escapeChar .html c = [c]) := by
  by_cases hc : c = '&' ∨ c = '<' ∨ c = '>' ∨ c = '"' ∨ c = '\''
  · left
    rcases hc with rfl | rfl | rfl | rfl | rfl
    · exact ⟨"&amp;", by simp [entities], rfl, fun _ => rfl⟩
    · exact ⟨"&lt;", by simp [entities], rfl, fun _ => rfl⟩
    · exact ⟨"&gt;", by simp [entities], rfl, fun _ => rfl⟩
    · exact ⟨"&quot;", by simp [entities], rfl, fun _ => rfl⟩
    · exact ⟨"&#39;", by simp [entities], rfl, fun _ => rfl⟩
  · right
    simp only [not_or] at hc
    obtain ⟨hamp, hlt, hgt, hquot, hapos⟩ := hc
    refine ⟨hamp, by simp [hlt, hgt, hquot, hapos], ?_⟩
    simp only [escapeChar, if_neg hamp, if_neg hlt, if_neg hgt, if_neg hquot, if_neg hapos]

/-- A character that begins no entity stands for itself. -/
theorem decodeChars_cons_of_ne {c : Char} (h : c ≠ '&') (rest : List Char) :
    decodeChars (c :: rest) = c :: decodeChars rest := by
  rw [decodeChars]
  all_goals exact fun _ heq _ => h heq

/-- An escaped text holds no markup, and ampersands only in entities. -/
theorem isInert_escape (s : String) : IsInert (escape .html s).toList := by
  rw [escape, String.toList_ofList]
  induction s.toList with
  | nil => exact isInert_nil
  | cons c cs ih =>
    refine IsInert.append ?_ ih
    -- what one character becomes is inert on its own, whatever follows it
    rcases escapeChar_html_cases c with ⟨entity, hentity, heq, -⟩ | ⟨hc, hmarkup, heq⟩
    · exact heq ▸ isInert_of_mem_entities entity hentity
    · exact heq ▸ isInert_singleton hc hmarkup

/-- An escaped text reads as the text. -/
theorem decode_escape (s : String) : decode (escape .html s) = s := by
  have hchars (cs : List Char) : decodeChars (cs.flatMap (escapeChar .html)) = cs := by
    induction cs with
    | nil => rfl
    | cons c cs ih =>
      rw [List.flatMap_cons]
      rcases escapeChar_html_cases c with ⟨entity, -, heq, hdecode⟩ | ⟨hc, -, heq⟩
      · rw [heq, hdecode, ih]
      · rw [heq, List.singleton_append, decodeChars_cons_of_ne hc, ih]
  rw [decode, escape, String.toList_ofList, hchars, String.ofList_toList]

/-! ## Rendered templates -/

variable {vars : Variables} {text out : String}

/-- A segment brings the markup that it has by itself, whatever the values. -/
theorem markup_of_writes {s : Segment} {piece : String} (h : Writes .html vars s piece) :
    markup piece.toList = s.markup := by
  cases h with
  | literal text => rw [String.toList_ofList, Segment.markup]
  | dollar => rfl
  | placeholder braced hv hs => exact (isInert_escape _).markup_eq_nil

/-- What is written for a placeholder is inert. -/
theorem isInert_of_writes {s : Segment} {piece : String} (h : Writes .html vars s piece) :
    ∀ name ∈ s.name?, IsInert piece.toList := by
  cases h with
  | literal text => nofun
  | dollar => nofun
  | placeholder braced hv hs => exact fun _ _ => isInert_escape _

/-- All markup of a rendered template is that of its segments. -/
theorem markup_join {segments : List Segment} {pieces : List String}
    (h : List.Forall₂ (Writes .html vars) segments pieces) :
    markup (String.join pieces).toList = segments.flatMap Segment.markup := by
  induction h with
  | nil => rfl
  | cons hpiece _ ih =>
    rw [String.join_cons, String.toList_append, markup_append, markup_of_writes hpiece, ih,
      List.flatMap_cons]

/-- In HTML, values cannot change the markup of a template: the markup of the text for one choice of
values is that of the literal segments, and so is that for any other. What comes from a value holds
none, and each ampersand in it starts an entity. An escaped text reads as the text. -/
theorem render_html_inert (text : String) (vars vars' : Variables) (out out' : String)
    (h : render .html vars text = .ok out) (h' : render .html vars' text = .ok out') :
    markup out.toList = markup out'.toList ∧
    (∃ segments pieces, Segment.parse text = .ok segments ∧
      markup out.toList = segments.flatMap Segment.markup ∧ out = String.join pieces ∧
      List.Forall₂ (Writes .html vars) segments pieces ∧
      List.Forall₂ (fun s piece => ∀ name ∈ s.name?, IsInert piece.toList) segments pieces) ∧
    ∀ s, decode (escape .html s) = s := by
  obtain ⟨segments, pieces, hparse, hwrites, rfl⟩ := render_eq_ok_iff.1 h
  obtain ⟨segments', pieces', hparse', hwrites', rfl⟩ := render_eq_ok_iff.1 h'
  -- both texts come from the same segments, as the values do not take part in the parsing
  have hsegments : segments = segments' := Except.ok.inj (hparse.symm.trans hparse')
  subst hsegments
  refine ⟨?_, ⟨segments, pieces, hparse, markup_join hwrites, rfl, hwrites, ?_⟩, decode_escape⟩
  · rw [markup_join hwrites, markup_join hwrites']
  · exact hwrites.imp fun _ _ => isInert_of_writes

/-- A value that would close an attribute and open an element leaves both as they are. -/
theorem render_html_inert_ofQuotedTag :
    render .html [("a", .text "\">"), ("b", .text "<b>&")] "<p title=\"$a\">$b" =
      .ok "<p title=\"&quot;&gt;\">&lt;b&gt;&amp;" ∧
    render .html [("a", .text ""), ("b", .bool true)] "<p title=\"$a\">$b" =
      .ok "<p title=\"\">true" ∧
    markup "<p title=\"&quot;&gt;\">&lt;b&gt;&amp;".toList =
      markup "<p title=\"\">true".toList := by
  have hquoted : render .html [("a", .text "\">"), ("b", .text "<b>&")] "<p title=\"$a\">$b" =
      .ok "<p title=\"&quot;&gt;\">&lt;b&gt;&amp;" := by decide +kernel
  have hplain : render .html [("a", .text ""), ("b", .bool true)] "<p title=\"$a\">$b" =
      .ok "<p title=\"\">true" := by decide +kernel
  exact ⟨hquoted, hplain, (render_html_inert _ _ _ _ _ hquoted hplain).1⟩

end MarketAlerts.Template

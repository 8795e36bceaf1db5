import MarketAlerts.Proofs.Template.Grammar
import MarketAlerts.Proofs.Template.Rendering

/-!
# Putting templates together

A template can be put together from texts and from names of variables: in a text every dollar sign
is doubled, and a name is put in braces behind a dollar sign. What is put together never runs into
one another, whatever the texts hold and however they end.

## Main definitions

- `Piece`, `compose`: texts and variables, and the template that is put together from them;
- `Piece.Becomes m vars p out`: what is to stand in the rendered text for a piece.

## Main results

- `scans_compose`: the scan sees the pieces as they were put in;
- `render_compose`: rendering the template is rendering the pieces one after the other;
- `render_compose_exact`: texts come out unchanged, and variables as their escaped values.
-/

namespace MarketAlerts.Template

open Segment (consChar)

/-- What a template is put together from. -/
inductive Piece where
  /-- A text that stands for itself. -/
  | text (s : String)
  /-- The value of a variable. -/
  | placeholder (name : String)

namespace Piece

/-- A character that stands for itself in a template. -/
def quoteChar (c : Char) : List Char := if c = '$' then ['$', '$'] else [c]

/-- A piece as it is written in a template. -/
def source : Piece → List Char
  | text s => s.toList.flatMap quoteChar
  | placeholder name => '$' :: '{' :: (name.toList ++ ['}'])

/-- What the scan sees of a character that stands for itself. -/
def tokenOf (c : Char) : Token := if c = '$' then .dollar else .char c

/-- What the scan sees of a piece. -/
def tokens : Piece → List Token
  | text s => s.toList.map tokenOf
  | placeholder name => [.placeholder name.toList true]

/-- The text of a piece. -/
def render (m : Medium) (vars : Variables) : Piece → Except Error String
  | text s => .ok s
  | placeholder name => renderSegment m vars (.placeholder name true)

/-- What stands in the rendered text for a piece. -/
inductive Becomes (m : Medium) (vars : Variables) : Piece → String → Prop where
  /-- A text stays as it is. -/
  | text (s : String) : Becomes m vars (.text s) s
  /-- The value of a variable is formatted and escaped. -/
  | placeholder {name s : String} {v : Value} : vars.get? name = some v → Formats name v s →
      Becomes m vars (.placeholder name) (escape m s)

end Piece

/-- The template that is put together from pieces. -/
def compose (pieces : List Piece) : String := String.ofList (pieces.flatMap Piece.source)

/-! ## Scanning -/

/-- A character that stands for itself is seen as such, whatever follows it. -/
theorem reads_quoteChar (c : Char) (rest : List Char) :
    Reads (Piece.quoteChar c ++ rest) (Piece.tokenOf c) rest := by
  by_cases hc : c = '$'
  · subst hc
    exact .dollar rest
  · rw [Piece.quoteChar, if_neg hc, Piece.tokenOf, if_neg hc]
    exact .other rest hc

/-- Characters that are quoted are scanned as themselves. -/
theorem scans_quoted (cs : List Char) {rest stop : List Char} {ts : List Token}
    (h : Scans rest ts stop) :
    Scans (cs.flatMap Piece.quoteChar ++ rest) (cs.map Piece.tokenOf ++ ts) stop := by
  induction cs with
  | nil => exact h
  | cons c cs ih =>
    rw [List.flatMap_cons, List.append_assoc]
    exact .cons (reads_quoteChar c _) ih

/-- No piece runs into what follows it. -/
theorem Piece.scans {p : Piece} (hp : ∀ name, p = .placeholder name → IsName name.toList)
    {rest stop : List Char} {ts : List Token} (h : Scans rest ts stop) :
    Scans (p.source ++ rest) (p.tokens ++ ts) stop := by
  cases p with
  | text s => exact scans_quoted s.toList h
  | placeholder name =>
    have hsource : (placeholder name).source ++ rest =
        '$' :: '{' :: (name.toList ++ '}' :: rest) := by simp [source]
    rw [hsource]
    exact .cons (.braced rest (hp name rfl)) h

section Compose

variable {pieces : List Piece}
  (hnames : ∀ name, .placeholder name ∈ pieces → IsName name.toList)

include hnames

/-- The scan sees the pieces as they were put in. -/
theorem scans_compose : Scans (compose pieces).toList (pieces.flatMap Piece.tokens) [] := by
  rw [compose, String.toList_ofList]
  induction pieces with
  | nil => exact .nil []
  | cons p pieces ih =>
    have hp : ∀ name, p = .placeholder name → IsName name.toList := fun name heq =>
      hnames name (heq ▸ List.mem_cons_self)
    exact Piece.scans hp (ih fun name hmem => hnames name (List.mem_cons_of_mem p hmem))

/-- A composed text is parsed as its pieces. -/
theorem parse_compose :
    Segment.parse (compose pieces) = .ok (group (pieces.flatMap Piece.tokens)) :=
  parse_of_scans (scans_compose hnames)

end Compose

/-! ## Rendering -/

section Rendering

variable (m : Medium) (vars : Variables)

/-- The text of a row of segments. -/
def renderAll (segments : List Segment) : Except Error String :=
  (segments.mapM (renderSegment m vars)).map String.join

/-- The first segment is rendered before the others. -/
theorem renderAll_cons (s : Segment) (segments : List Segment) :
    renderAll m vars (s :: segments) =
      (renderSegment m vars s >>= fun first => (renderAll m vars segments).map (first ++ ·)) := by
  rw [renderAll, renderAll, List.mapM_cons]
  cases renderSegment m vars s with
  | error e => rfl
  | ok first =>
    cases segments.mapM (renderSegment m vars) with
    | error e => rfl
    | ok pieces => exact congrArg Except.ok (String.join_cons)

/-- One more literal character comes out in front. -/
theorem renderAll_consChar (c : Char) (segments : List Segment) :
    renderAll m vars (consChar c segments) =
      (renderAll m vars segments).map (String.singleton c ++ ·) := by
  rcases segments with _ | ⟨_ | _ | _, rest⟩
  case cons.literal text =>
    -- the character joins the literal that stands in front
    have hjoin : String.ofList (c :: text) = String.singleton c ++ String.ofList text :=
      String.ofList_cons
    rw [consChar, renderAll_cons, renderAll_cons]
    cases renderAll m vars rest with
    | error e => rfl
    | ok out =>
      refine congrArg Except.ok ?_
      dsimp only
      rw [hjoin, String.append_assoc]
  all_goals exact renderAll_cons m vars _ _

/-- Characters in front are rendered as themselves. -/
theorem renderAll_foldr_tokenOf (cs : List Char) (segments : List Segment) :
    renderAll m vars ((cs.map Piece.tokenOf).foldr Token.prepend segments) =
      (renderAll m vars segments).map (String.ofList cs ++ ·) := by
  induction cs with
  | nil =>
    rw [List.map_nil, List.foldr_nil]
    cases renderAll m vars segments <;> simp [Except.map]
  | cons c cs ih =>
    have hfirst : ∀ rest, renderAll m vars ((Piece.tokenOf c).prepend rest) =
        (renderAll m vars rest).map (String.singleton c ++ ·) := fun rest => by
      by_cases hc : c = '$'
      · subst hc
        exact renderAll_cons m vars .dollar rest
      · rw [Piece.tokenOf, if_neg hc]
        exact renderAll_consChar m vars c rest
    rw [List.map_cons, List.foldr_cons, hfirst, ih, String.ofList_cons]
    cases renderAll m vars segments with
    | error e => rfl
    | ok out => exact congrArg Except.ok (String.append_assoc ..).symm

/-- A piece comes out in front. -/
theorem renderAll_piece (p : Piece) (segments : List Segment) :
    renderAll m vars (p.tokens.foldr Token.prepend segments) =
      (p.render m vars >>= fun first => (renderAll m vars segments).map (first ++ ·)) := by
  cases p with
  | text s =>
    rw [Piece.tokens, renderAll_foldr_tokenOf, String.ofList_toList]
    rfl
  | placeholder name =>
    have hprepend : (Piece.placeholder name).tokens.foldr Token.prepend segments =
        .placeholder name true :: segments := by
      simp [Piece.tokens, Token.prepend]
    rw [hprepend, renderAll_cons]
    rfl

variable {pieces : List Piece}

/-- Rendering a template that was put together is rendering its pieces one after the other. -/
theorem render_compose (hnames : ∀ name, .placeholder name ∈ pieces → IsName name.toList) :
    render m vars (compose pieces) = (pieces.mapM (Piece.render m vars)).map String.join := by
  rw [render_of_ok (parse_compose hnames), ← renderAll]
  clear hnames
  induction pieces with
  | nil => rfl
  | cons p pieces ih =>
    rw [group] at ih ⊢
    rw [List.flatMap_cons, List.foldr_append, renderAll_piece, ih, List.mapM_cons]
    cases p.render m vars with
    | error e => rfl
    | ok first =>
      cases pieces.mapM (Piece.render m vars) with
      | error e => rfl
      | ok outs => exact congrArg Except.ok String.join_cons.symm

end Rendering

variable {m : Medium} {vars : Variables}

/-- A piece is rendered as what it becomes. -/
theorem Piece.render_eq_ok_iff {p : Piece} {out : String} :
    p.render m vars = .ok out ↔ p.Becomes m vars out := by
  cases p with
  | text s =>
    refine ⟨fun h => ?_, fun h => ?_⟩
    · cases h
      exact .text out
    · cases h
      rfl
  | placeholder name =>
    rw [render, renderSegment_eq_ok_iff]
    refine ⟨fun h => ?_, fun h => ?_⟩
    · cases h with
      | placeholder _ hv hs => exact .placeholder hv hs
    · cases h with
      | placeholder hv hs => exact .placeholder true hv hs

/-- A piece becomes something unless it is a placeholder that nothing fills. -/
theorem Piece.exists_becomes_iff {p : Piece} :
    (∃ out, p.Becomes m vars out) ↔ ∀ name, p = .placeholder name → Fills vars name := by
  simp only [← render_eq_ok_iff]
  cases p with
  | text s => exact iff_of_true ⟨s, rfl⟩ nofun
  | placeholder name =>
    simp only [render, renderSegment_eq_ok_iff, exists_writes_iff]
    constructor
    · rintro h _ ⟨⟩
      exact h name rfl
    · rintro h _ ⟨⟩
      exact h name rfl

/-- A template that is put together from texts, their dollar signs doubled, and from names in braces
behind a dollar sign parses, for any texts and names. It becomes a text exactly if all its variables
have values that can be formatted, and in that text stand the given texts unchanged and the escaped
values, in their order. In particular a text whose dollar signs are doubled becomes the text itself,
in every medium and for all variables. -/
theorem render_compose_exact {pieces : List Piece}
    (hnames : ∀ name, .placeholder name ∈ pieces → IsName name.toList) :
    (∃ segments, Segment.parse (compose pieces) = .ok segments) ∧
    (∀ m vars, (∀ name, .placeholder name ∈ pieces → Fills vars name) →
      ∃ out, render m vars (compose pieces) = .ok out) ∧
    (∀ m vars out, render m vars (compose pieces) = .ok out ↔
      ∃ outs, List.Forall₂ (Piece.Becomes m vars) pieces outs ∧ out = String.join outs) ∧
    ∀ m vars s, render m vars (String.ofList (s.toList.flatMap Piece.quoteChar)) = .ok s := by
  have hiff : ∀ m vars out, render m vars (compose pieces) = .ok out ↔
      ∃ outs, List.Forall₂ (Piece.Becomes m vars) pieces outs ∧ out = String.join outs := by
    intro m vars out
    -- each piece of the composition is rendered on its own
    have hparts : ∀ outs, pieces.mapM (Piece.render m vars) = .ok outs ↔
        List.Forall₂ (Piece.Becomes m vars) pieces outs := fun outs => by
      simp only [mapM_eq_ok_iff, Piece.render_eq_ok_iff]
    rw [render_compose m vars hnames]
    simp only [← hparts]
    cases pieces.mapM (Piece.render m vars) <;> simp [Except.map, eq_comm]
  refine ⟨⟨_, parse_compose hnames⟩, fun m vars hfills => ?_, hiff, fun m vars s => ?_⟩
  · obtain ⟨outs, houts⟩ := exists_forall₂_iff.2 fun p hp =>
      Piece.exists_becomes_iff.2 fun name heq => hfills name (heq ▸ hp)
    exact ⟨_, (hiff m vars _).2 ⟨outs, houts, rfl⟩⟩
  · -- the text on its own, in which there are no names
    have hnone : ∀ name, .placeholder name ∈ [Piece.text s] → IsName name.toList := by simp
    have hquoted := render_compose m vars hnone
    rw [compose, List.flatMap_singleton] at hquoted
    exact hquoted

/-- Texts that end in a dollar sign or look like a placeholder do not run into what follows. -/
theorem render_compose_exact_ofDollars :
    let pieces := [Piece.text "$", .placeholder "a", .text "\x7b$\x7bb\x7d$", .placeholder "a"]
    (∀ name, .placeholder name ∈ pieces → IsName name.toList) ∧
      compose pieces = "$$$\x7ba\x7d\x7b$$\x7bb\x7d$$$\x7ba\x7d" ∧
      (∃ segments, Segment.parse (compose pieces) = .ok segments) ∧
      render .html [("a", .text "<")] (compose pieces) =
        .ok "$&lt;\x7b$\x7bb\x7d$&lt;" := by
  intro pieces
  have hnames : ∀ name, .placeholder name ∈ pieces → IsName name.toList := by
    intro name hmem
    have hname : name = "a" := by simpa [pieces] using hmem
    subst hname
    exact (isName_iff _).1 (by decide)
  obtain ⟨hparse, -, hiff, -⟩ := render_compose_exact hnames
  have ha : Piece.Becomes .html [("a", .text "<")] (.placeholder "a") "&lt;" :=
    Piece.render_eq_ok_iff.1 (by decide +kernel)
  have hpieces : List.Forall₂ (Piece.Becomes .html [("a", .text "<")]) pieces
      ["$", "&lt;", "\x7b$\x7bb\x7d$", "&lt;"] :=
    .cons (.text _) (.cons ha (.cons (.text _) (.cons ha .nil)))
  exact ⟨hnames, by decide +kernel, hparse, (hiff _ _ _).2 ⟨_, hpieces, by decide +kernel⟩⟩

end MarketAlerts.Template

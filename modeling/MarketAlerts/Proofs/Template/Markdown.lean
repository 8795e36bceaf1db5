import Mathlib.Data.Bool.Basic
import MarketAlerts.Channel.Delivery
import MarketAlerts.Proofs.Template.Rendering

/-!
# Values in Markdown

In Markdown a backslash makes the special character behind it an ordinary one. There is no escape
for the backslash itself, so one at the end of a value reaches into the template.

## Main definitions

- `marks`: which characters of a text are markup;
- `ownMarks`: which ones are in the pieces of a rendered template, each piece read on its own.

## Main results

- `marks_escape`: an escaped text brings no markup, whatever stands before it;
- `marks_join_le`: values add no markup to a template;
- `marks_join_eq_iff`: they take none away unless a special character of the template comes to stand
  behind a backslash;
- `marks_render_eq_iff`: both, for rendered templates and for messages of a bot.
-/

namespace MarketAlerts.Template

/-- Whether a character can be markup. -/
def isSpecial (c : Char) : Bool := c = '_' ∨ c = '*' ∨ c = '`' ∨ c = '['

/-- For each character whether it is markup: it can be, and no backslash stands directly before it.
`behind` says whether one stands before the first. -/
def marks : (behind : Bool) → List Char → List Bool
  | _, [] => []
  | behind, c :: cs => (isSpecial c && !behind) :: marks (c = '\\') cs

/-- Whether a backslash stands directly before what follows some characters. -/
def leaves : (behind : Bool) → List Char → Bool
  | behind, [] => behind
  | _, c :: cs => leaves (c = '\\') cs

/-- The markup of what a segment becomes, read on its own: that of a literal text, and none else. -/
def Segment.marks : Segment → String → List Bool
  | .literal text, _ => Template.marks false text
  | _, piece => List.replicate piece.toList.length false

/-- The markup of what some segments become, each read on its own. -/
def ownMarks (segments : List Segment) (pieces : List String) : List Bool :=
  (List.zipWith Segment.marks segments pieces).flatten

/-! ## Reading piece by piece -/

section Reading

variable {behind : Bool} {cs ds : List Char}

/-- Each character is a mark or none. -/
theorem length_marks (behind : Bool) (cs : List Char) : (marks behind cs).length = cs.length := by
  induction cs generalizing behind with
  | nil => rfl
  | cons c cs ih => rw [marks, List.length_cons, List.length_cons, ih]

theorem marks_append (behind : Bool) (cs ds : List Char) :
    marks behind (cs ++ ds) = marks behind cs ++ marks (leaves behind cs) ds := by
  induction cs generalizing behind with
  | nil => rfl
  | cons c cs ih => rw [List.cons_append, marks, marks, leaves, ih, List.cons_append]

theorem leaves_append (behind : Bool) (cs ds : List Char) :
    leaves behind (cs ++ ds) = leaves (leaves behind cs) ds := by
  induction cs generalizing behind with
  | nil => rfl
  | cons c cs ih => rw [List.cons_append, leaves, leaves, ih]

/-- A text leaves a backslash if it ends in one. -/
theorem leaves_false_iff : leaves false cs = true ↔ cs.getLast? = some '\\' := by
  rcases List.eq_nil_or_concat cs with rfl | ⟨cs, c, rfl⟩
  · simp [leaves]
  · simp [leaves_append, leaves]

/-- A backslash before a text changes the first character only. -/
theorem marks_eq_marks_false_iff :
    marks behind cs = marks false cs ↔ (∃ c ∈ cs.head?, isSpecial c = true) → behind = false := by
  cases cs with
  | nil => simp [marks]
  | cons c cs => cases behind <;> simp [marks]

/-- A backslash in front only takes marks away. -/
theorem marks_le_marks_false (behind : Bool) (cs : List Char) :
    List.Forall₂ (· ≤ ·) (marks behind cs) (marks false cs) := by
  cases cs with
  | nil => exact .nil
  | cons c cs =>
    refine .cons ?_ (List.forall₂_refl _)
    cases behind <;> simp

end Reading

/-! ## Escaped texts -/

section Escaped

/-- A character is escaped by a backslash before it, or it can be no markup. -/
theorem escapeChar_markdown_cases (c : Char) :
    (c ≠ '\\' ∧ escapeChar .markdown c = ['\\', c]) ∨
    (isSpecial c = false ∧ escapeChar .markdown c = [c]) := by
  by_cases hc : c = '_' ∨ c = '*' ∨ c = '`' ∨ c = '['
  · left
    refine ⟨?_, by rw [escapeChar, if_pos hc]⟩
    rcases hc with rfl | rfl | rfl | rfl
    all_goals decide
  · right
    exact ⟨decide_eq_false hc, by rw [escapeChar, if_neg hc]⟩

/-- An escaped text brings no markup, whatever stands before it. -/
theorem marks_escape (behind : Bool) (s : String) :
    marks behind (escape .markdown s).toList =
      List.replicate (escape .markdown s).toList.length false := by
  rw [escape, String.toList_ofList]
  induction s.toList generalizing behind with
  | nil => rfl
  | cons c cs ih =>
    rw [List.flatMap_cons, marks_append, ih, List.length_append, List.replicate_add]
    congr 1
    -- a special character stands behind the backslash that escapes it
    rcases escapeChar_markdown_cases c with ⟨-, heq⟩ | ⟨hordinary, heq⟩
    · rw [heq]
      simp [marks, isSpecial]
    · rw [heq]
      simp [marks, hordinary]

/-- Escaping changes nothing about a backslash at the end. -/
theorem leaves_escape (behind : Bool) (s : String) :
    leaves behind (escape .markdown s).toList = leaves behind s.toList := by
  rw [escape, String.toList_ofList]
  induction s.toList generalizing behind with
  | nil => rfl
  | cons c cs ih =>
    rw [List.flatMap_cons, leaves_append, ih, leaves]
    congr 1
    -- a character stays the last one of what it is escaped as
    rcases escapeChar_markdown_cases c with ⟨-, heq⟩ | ⟨-, heq⟩ <;> rw [heq] <;> rfl

end Escaped

/-! ## Rendered templates -/

section Rendered

variable {vars : Variables} {behind : Bool} {s : Segment} {piece : String}
  {segments : List Segment} {pieces : List String}

/-- Each character that is written is a mark or none. -/
theorem length_marks_of_writes (h : Writes .markdown vars s piece) :
    (s.marks piece).length = piece.toList.length := by
  cases h with
  | literal text => rw [Segment.marks, length_marks, String.toList_ofList]
  | dollar => rfl
  | placeholder => exact List.length_replicate

/-- Behind a backslash, only a literal text that starts with a special character loses markup. -/
theorem marks_of_writes_iff (h : Writes .markdown vars s piece) :
    marks behind piece.toList = s.marks piece ↔
      ∀ text, s = .literal text → (∃ c ∈ text.head?, isSpecial c = true) → behind = false := by
  cases h with
  | literal text =>
    rw [String.toList_ofList, Segment.marks, marks_eq_marks_false_iff]
    constructor
    · rintro h _ ⟨⟩
      exact h
    · intro h
      exact h text rfl
  | dollar => exact iff_of_true rfl nofun
  | placeholder => exact iff_of_true (marks_escape _ _) nofun

/-- A text that is written has no marks but those of its segment. -/
theorem marks_le_of_writes (behind : Bool) (h : Writes .markdown vars s piece) :
    List.Forall₂ (· ≤ ·) (marks behind piece.toList) (s.marks piece) := by
  cases h with
  | literal text =>
    rw [String.toList_ofList]
    exact marks_le_marks_false behind text
  | dollar => exact .cons le_rfl .nil
  | placeholder =>
    rw [marks_escape]
    exact List.forall₂_refl _

/-- Values add no markup. -/
theorem marks_join_le (behind : Bool) (h : List.Forall₂ (Writes .markdown vars) segments pieces) :
    List.Forall₂ (· ≤ ·) (marks behind (String.join pieces).toList) (ownMarks segments pieces) := by
  induction h generalizing behind with
  | nil => exact .nil
  | cons hpiece _ ih =>
    rw [String.join_cons, String.toList_append, marks_append]
    exact List.rel_append (marks_le_of_writes behind hpiece) (ih _)

/-- All markup is kept if that of the first piece is, and that of the others behind it. -/
theorem marks_join_cons_iff (h : Writes .markdown vars s piece) :
    marks behind (String.join (piece :: pieces)).toList =
        ownMarks (s :: segments) (piece :: pieces) ↔
      marks behind piece.toList = s.marks piece ∧
        marks (leaves behind piece.toList) (String.join pieces).toList =
          ownMarks segments pieces := by
  have hown : ownMarks (s :: segments) (piece :: pieces) =
      s.marks piece ++ ownMarks segments pieces := rfl
  have hlength : (marks behind piece.toList).length = (s.marks piece).length := by
    rw [length_marks, length_marks_of_writes h]
  rw [String.join_cons, String.toList_append, marks_append, hown]
  constructor
  · intro heq
    exact List.append_inj heq hlength
  · rintro ⟨hfirst, hrest⟩
    rw [hfirst, hrest]

/-- Values take no markup away unless a literal text that starts with a special character comes to
stand behind a backslash. -/
theorem marks_join_eq_iff (h : List.Forall₂ (Writes .markdown vars) segments pieces) :
    marks behind (String.join pieces).toList = ownMarks segments pieces ↔
      ∀ before text after, segments = before ++ .literal text :: after →
        (∃ c ∈ text.head?, isSpecial c = true) →
          leaves behind (String.join (pieces.take before.length)).toList = false := by
  induction h generalizing behind with
  | nil => exact iff_of_true rfl fun before text after heq => by simp at heq
  | @cons s piece segments pieces hpiece _ ih =>
    rw [marks_join_cons_iff hpiece, marks_of_writes_iff hpiece, ih]
    -- a literal text is the first segment, or it stands among the others behind the first piece
    constructor
    · rintro ⟨hfirst, hrest⟩ before text after heq hspecial
      cases before with
      | nil => exact hfirst text (List.cons.inj heq).1 hspecial
      | cons t before =>
        rw [List.length_cons, List.take_succ_cons, String.join_cons, String.toList_append,
          leaves_append]
        exact hrest before text after (List.cons.inj heq).2 hspecial
    · intro h
      refine ⟨fun text heq => h [] text segments (by rw [heq, List.nil_append]),
        fun before text after heq hspecial => ?_⟩
      have hleaves := h (s :: before) text after (by rw [heq, List.cons_append]) hspecial
      rwa [List.length_cons, List.take_succ_cons, String.join_cons, String.toList_append,
        leaves_append] at hleaves

end Rendered

/-! ## Messages of a bot -/

/-- The first asterisk around a title is markup, and the second one is unless the title ends in a
backslash. Nothing of the title is, and what follows reads as it does on its own. -/
theorem marks_text {settings : Channel.ChatbotSettings} (h : settings.medium = .markdown)
    (m : Message) :
    marks false (settings.text m).toList =
      true :: (List.replicate (escape .markdown m.title).toList.length false ++
        decide (m.title.toList.getLast? ≠ some '\\') :: false :: false ::
          marks false m.content.toList) := by
  have hlast : (!leaves false m.title.toList) = decide (m.title.toList.getLast? ≠ some '\\') := by
    rw [decide_not, ← Bool.decide_coe (leaves false m.title.toList),
      decide_eq_decide.2 leaves_false_iff]
  have htext : (settings.text m).toList = '*' :: ((escape .markdown m.title).toList ++
      '*' :: '\n' :: '\n' :: m.content.toList) := by
    simp [Channel.ChatbotSettings.text, h]
  -- two line feeds keep the body apart from the second asterisk
  rw [htext, marks, marks_append, marks_escape, leaves_escape, ← hlast]
  rfl

/-- Values never add markup to a Markdown template. They leave all that it has by itself exactly if
no literal text that starts with a special character comes to stand behind a backslash. In the
message of a bot, nothing of the title is markup; the first asterisk around it is, and the second
one exactly if the title does not end in a backslash. -/
theorem marks_render_eq_iff (vars : Variables) (text out : String)
    (h : render .markdown vars text = .ok out) (settings : Channel.ChatbotSettings)
    (hsettings : settings.medium = .markdown) (m : Message) :
    (∃ segments pieces, Segment.parse text = .ok segments ∧
      List.Forall₂ (Writes .markdown vars) segments pieces ∧ out = String.join pieces ∧
      List.Forall₂ (· ≤ ·) (marks false out.toList) (ownMarks segments pieces) ∧
      (marks false out.toList = ownMarks segments pieces ↔
        ∀ before own after, segments = before ++ .literal own :: after →
          (∃ c ∈ own.head?, isSpecial c = true) →
            (String.join (pieces.take before.length)).toList.getLast? ≠ some '\\')) ∧
    marks false (settings.text m).toList =
      true :: (List.replicate (escape .markdown m.title).toList.length false ++
        decide (m.title.toList.getLast? ≠ some '\\') :: false :: false ::
          marks false m.content.toList) := by
  obtain ⟨segments, pieces, hparse, hwrites, rfl⟩ := render_eq_ok_iff.1 h
  refine ⟨⟨segments, pieces, hparse, hwrites, rfl, marks_join_le false hwrites, ?_⟩,
    marks_text hsettings m⟩
  simp only [marks_join_eq_iff hwrites, ← leaves_false_iff, ne_eq, Bool.not_eq_true]

/-- A value that ends in an underscore leaves the asterisk behind it as it is, and so does a title
that ends in an asterisk. -/
theorem marks_render_eq_iff_ofUnderscore :
    let settings : Channel.ChatbotSettings := { parseMode := "Markdown" }
    let m : Message := { (default : Message) with title := "a*", content := "_" }
    render .markdown [("a", .text "x_")] "*$a*" = .ok "*x\\_*" ∧
    marks false "*x\\_*".toList = [true, false, false, false, true] ∧
    (∃ segments pieces, Segment.parse "*$a*" = .ok segments ∧ "*x\\_*" = String.join pieces ∧
      List.Forall₂ (· ≤ ·) (marks false "*x\\_*".toList) (ownMarks segments pieces)) ∧
    settings.medium = .markdown ∧
    marks false (settings.text m).toList =
      [true, false, false, false, true, false, false, true] := by
  intro settings m
  have hrender : render .markdown [("a", .text "x_")] "*$a*" = .ok "*x\\_*" := by decide +kernel
  have hmedium : settings.medium = .markdown := by decide +kernel
  obtain ⟨⟨segments, pieces, hparse, -, hout, hle, -⟩, htext⟩ :=
    marks_render_eq_iff _ _ _ hrender settings hmedium m
  exact ⟨hrender, by decide +kernel, ⟨segments, pieces, hparse, hout, hle⟩, hmedium,
    htext.trans (by decide +kernel)⟩

/-- The second asterisk of the template is markup there, but no longer behind a value that ends in a
backslash. Neither is the one behind a title that does. -/
theorem render_takes_asterisk_behind_backslash :
    let settings : Channel.ChatbotSettings := { parseMode := "Markdown" }
    let m : Message := { (default : Message) with title := "x\\", content := "" }
    Segment.parse "*$a*" = .ok [.literal ['*'], .placeholder "a" false, .literal ['*']] ∧
    render .markdown [("a", .text "x\\")] "*$a*" = .ok "*x\\*" ∧
    (Segment.literal ['*']).marks "*" = [true] ∧
    marks false "*x\\*".toList = [true, false, false, false] ∧
    settings.medium = .markdown ∧ settings.text m = "*x\\*\n\n" ∧
    marks false (settings.text m).toList = [true, false, false, false, false, false] := by
  decide +kernel

end MarketAlerts.Template

import Mathlib.Data.List.Chain
import Mathlib.Data.List.TakeWhile
import MarketAlerts.Template.Segment

/-!
# The grammar of templates

A template text is scanned from the left, piece by piece. The grammar says which piece stands at
the front of a text; it knows nothing of how the text is parsed.

## Main definitions

- `Reads text t rest`: the piece `t` stands at the front of `text`, and `rest` behind it;
- `Scans text ts rest`: the same of a row of pieces;
- `BreaksOff text before rest`: the scan stands behind `before`, at a `${` that opens no
  placeholder;
- `IsGrouped segments`: literals are as long as they can be.

## Main results

- `parseFrom_of_reads`, `parseFrom_of_scans`: what the parser does with one piece, and with a row;
- `exists_scans`: every text is scanned to its end or to a `${` that opens no placeholder;
- `parse_tiles`: the parser takes a text apart into the pieces that the grammar sees, and refuses it
  at the first `${` that opens no placeholder.
-/

namespace MarketAlerts.Template

/-! ## Names -/

/-- A letter without diacritics or an underscore. -/
def IsNameStart (c : Char) : Prop := ('A' ≤ c ∧ c ≤ 'Z') ∨ ('a' ≤ c ∧ c ≤ 'z') ∨ c = '_'

/-- Such a character or a decimal digit. -/
def IsNameChar (c : Char) : Prop := IsNameStart c ∨ ('0' ≤ c ∧ c ≤ '9')

/-- A name: `[A-Za-z_][A-Za-z0-9_]*`. -/
def IsName (cs : List Char) : Prop :=
  ∃ c rest, cs = c :: rest ∧ IsNameStart c ∧ ∀ d ∈ rest, IsNameChar d

/-- Letters are those of the Latin alphabet. -/
theorem isAlpha_iff (c : Char) :
    c.isAlpha = true ↔ ('A' ≤ c ∧ c ≤ 'Z') ∨ ('a' ≤ c ∧ c ≤ 'z') := by
  delta Char.isAlpha Char.isUpper Char.isLower
  simp [Char.le_def]

/-- The parser and the grammar agree on how a name starts. -/
theorem isNameStart_iff (c : Char) : Segment.isNameStart c = true ↔ IsNameStart c := by
  rw [Segment.isNameStart, Bool.or_eq_true, beq_iff_eq, isAlpha_iff, or_assoc, IsNameStart]

/-- The parser and the grammar agree on how a name goes on. -/
theorem isNameChar_iff (c : Char) : Segment.isNameChar c = true ↔ IsNameChar c := by
  have hdigit : c.isDigit = true ↔ '0' ≤ c ∧ c ≤ '9' := by simp [Char.isDigit, Char.le_def]
  rw [Segment.isNameChar, Char.isAlphanum, Bool.or_eq_true, Bool.or_eq_true, beq_iff_eq, hdigit,
    isAlpha_iff, or_right_comm, or_assoc, or_assoc, IsNameChar, IsNameStart, or_assoc, or_assoc]

/-- The parser and the grammar agree on names. -/
theorem isName_iff (cs : List Char) : Segment.isName cs = true ↔ IsName cs := by
  cases cs with
  | nil => simp [Segment.isName, IsName]
  | cons c rest =>
    simp only [Segment.isName, IsName, Bool.and_eq_true, List.all_eq_true, isNameStart_iff,
      isNameChar_iff, List.mem_cons, forall_eq_or_imp]
    constructor
    · rintro ⟨hc, -, hrest⟩
      exact ⟨c, rest, rfl, hc, hrest⟩
    · rintro ⟨_, _, hcons, hc, hrest⟩
      cases hcons
      exact ⟨hc, .inl hc, hrest⟩

/-- A name has nothing but characters of names. -/
theorem IsName.isNameChar {name : List Char} (h : IsName name) : ∀ c ∈ name, IsNameChar c := by
  obtain ⟨c, rest, rfl, hc, hrest⟩ := h
  exact List.forall_mem_cons.2 ⟨.inl hc, hrest⟩

/-- Neither a dollar sign nor a brace belongs to a name. -/
theorem IsNameChar.ne {c : Char} (h : IsNameChar c) : c ≠ '$' ∧ c ≠ '{' ∧ c ≠ '}' := by
  refine ⟨?_, ?_, ?_⟩ <;>
  · rintro rfl
    revert h
    simp [IsNameChar, IsNameStart]

/-- No name has a closing brace. -/
theorem IsName.notMem {name : List Char} (h : IsName name) : '}' ∉ name :=
  fun hmem => (h.isNameChar _ hmem).ne.2.2 rfl

/-! ## Pieces -/

/-- A piece of a text that is scanned from the left. -/
inductive Token where
  /-- A character that stands for itself. -/
  | char (c : Char)
  /-- Two dollar signs, for one. -/
  | dollar
  /-- The name of a variable behind a dollar sign; `braced` says whether it stands in braces. -/
  | placeholder (name : List Char) (braced : Bool)

/-- A piece as it is written in a text. -/
def Token.source : Token → List Char
  | char c => [c]
  | dollar => ['$', '$']
  | placeholder name true => '$' :: '{' :: (name ++ ['}'])
  | placeholder name false => '$' :: name

/-- The pieces of a segment: each character of a literal is one of its own. -/
def Segment.tokens : Segment → List Token
  | literal text => text.map .char
  | dollar => [.dollar]
  | placeholder name braced => [.placeholder name.toList braced]

/-- The piece at the front of a text, and the text behind it. -/
inductive Reads : List Char → Token → List Char → Prop where
  /-- `$$` stands for a dollar sign. -/
  | dollar (rest : List Char) : Reads ('$' :: '$' :: rest) .dollar rest
  /-- `${name}` is a placeholder. -/
  | braced {name : List Char} (rest : List Char) : IsName name →
      Reads ('$' :: '{' :: (name ++ '}' :: rest)) (.placeholder name true) rest
  /-- `$name` is a placeholder, its name as long as it can be. -/
  | bare {name rest : List Char} : IsName name → (∀ c ∈ rest.head?, ¬IsNameChar c) →
      Reads ('$' :: (name ++ rest)) (.placeholder name false) rest
  /-- Any other dollar sign stands for itself, except one with `{` behind it. -/
  | loneDollar {rest : List Char} : (∀ c ∈ rest.head?, c ≠ '$' ∧ c ≠ '{' ∧ ¬IsNameStart c) →
      Reads ('$' :: rest) (.char '$') rest
  /-- Everything else stands for itself. -/
  | other {c : Char} (rest : List Char) : c ≠ '$' → Reads (c :: rest) (.char c) rest

/-- The pieces at the front of a text, from the left, and the text behind them. -/
inductive Scans : List Char → List Token → List Char → Prop where
  | nil (text : List Char) : Scans text [] text
  | cons {text rest stop : List Char} {t : Token} {ts : List Token} :
      Reads text t rest → Scans rest ts stop → Scans text (t :: ts) stop

/-- The scan of a text stands behind `before`, at a `${` that no name and `}` follow. -/
def BreaksOff (text before rest : List Char) : Prop :=
  text = before ++ '$' :: '{' :: rest ∧ (∃ ts, Scans text ts ('$' :: '{' :: rest)) ∧
    ¬∃ name after, IsName name ∧ rest = name ++ '}' :: after

/-- What is wrong with the text behind a `${`. -/
inductive Spoils : List Char → Flaw → Prop where
  /-- No brace closes. -/
  | unterminated {rest : List Char} : '}' ∉ rest → Spoils rest .unterminated
  /-- What stands before the first closing brace is no name. -/
  | invalidName {inside : List Char} (after : List Char) : '}' ∉ inside → ¬IsName inside →
      Spoils (inside ++ '}' :: after) (.invalidName (String.ofList inside))

variable {text rest stop : List Char} {t : Token} {ts : List Token}

/-- A token is read off the front of a text. -/
theorem Reads.eq_append (h : Reads text t rest) : text = t.source ++ rest := by
  cases h <;> simp [Token.source]

/-- Tokens are scanned off the front of a text. -/
theorem Scans.eq_append (h : Scans text ts stop) : text = ts.flatMap Token.source ++ stop := by
  induction h with
  | nil => rfl
  | cons hreads _ ih => rw [hreads.eq_append, ih, List.flatMap_cons, List.append_assoc]

theorem Token.source_ne_nil (t : Token) : t.source ≠ [] := by
  cases t with
  | placeholder name braced => cases braced <;> exact List.cons_ne_nil _ _
  | _ => exact List.cons_ne_nil _ _

/-- After a token less of the text is left. -/
theorem Reads.length_lt (h : Reads text t rest) : rest.length < text.length := by
  have hpos := List.length_pos_iff.2 t.source_ne_nil
  rw [h.eq_append, List.length_append]
  omega

/-- A run of characters of a class ends where a character is not of the class. -/
theorem takeWhile_dropWhile_append {p : Char → Bool} {run rest : List Char}
    (hrun : ∀ c ∈ run, p c = true) (hrest : ∀ c ∈ rest.head?, p c = false) :
    (run ++ rest).takeWhile p = run ∧ (run ++ rest).dropWhile p = rest := by
  rw [List.takeWhile_append_of_pos hrun, List.dropWhile_append_of_pos hrun]
  cases rest with
  | nil => simp
  | cons c rest =>
    have hc : p c = false := hrest c rfl
    simp [hc]

/-- What stands before the first closing brace is found. -/
theorem takeWhile_ne_append {inside : List Char} (h : '}' ∉ inside) (after : List Char) :
    (inside ++ '}' :: after).takeWhile (· != '}') = inside ∧
      (inside ++ '}' :: after).dropWhile (· != '}') = '}' :: after :=
  takeWhile_dropWhile_append (fun c hc => bne_iff_ne.2 fun heq => h (heq ▸ hc))
    (by simp)

/-- The text behind a `${` is spoiled unless a name and a closing brace stand there. -/
theorem exists_spoils_iff :
    (∃ flaw, Spoils rest flaw) ↔ ¬∃ name after, IsName name ∧ rest = name ++ '}' :: after := by
  constructor
  · rintro ⟨flaw, hflaw⟩ ⟨name, after, hname, hrest⟩
    cases hflaw with
    | unterminated hnot => exact hnot (by simp [hrest])
    | @invalidName inside after' hinside hnot =>
      -- both stand before the first closing brace
      have heq := (takeWhile_ne_append hinside after').1
      rw [hrest, (takeWhile_ne_append hname.notMem after).1] at heq
      exact hnot (heq ▸ hname)
  · intro hnot
    by_cases hmem : '}' ∈ rest
    · obtain ⟨inside, after, rfl, hinside⟩ := List.eq_append_cons_of_mem hmem
      exact ⟨_, .invalidName after hinside fun hname => hnot ⟨inside, after, hname, rfl⟩⟩
    · exact ⟨_, .unterminated hmem⟩

/-! ## Parsing -/

namespace Segment

@[simp]
theorem byteCount_append (cs ds : List Char) :
    byteCount (cs ++ ds) = byteCount cs + byteCount ds := by
  induction cs with
  | nil => simp [byteCount]
  | cons c cs ih => simp [byteCount, ih, Nat.add_assoc]

/-- A text has the bytes of its characters. -/
theorem utf8ByteSize_ofList (cs : List Char) : (String.ofList cs).utf8ByteSize = byteCount cs := by
  induction cs with
  | nil => rfl
  | cons c cs ih => rw [String.ofList_cons, String.utf8ByteSize_append, ih,
      String.utf8ByteSize_singleton, byteCount]

/-- Whether the segment stands for itself. -/
def IsLiteral : Segment → Prop
  | literal _ => True
  | _ => False

/-- Literals are as long as they can be: none is empty, and no two are adjacent. -/
structure IsGrouped (segments : List Segment) : Prop where
  notMem : literal [] ∉ segments
  isChain : segments.IsChain fun s s' => ¬(s.IsLiteral ∧ s'.IsLiteral)

end Segment

/-- The segments of a piece and the segments behind it. -/
def Token.prepend : Token → List Segment → List Segment
  | char c => Segment.consChar c
  | dollar => (.dollar :: ·)
  | placeholder name braced => (.placeholder (String.ofList name) braced :: ·)

open Segment

/-- A placeholder in braces has three bytes more than its name. -/
theorem byteCount_source_braced (name : List Char) :
    byteCount (Token.placeholder name true).source = byteCount name + 3 := by
  have hdollar : '$'.utf8Size = 1 := rfl
  have hopen : '{'.utf8Size = 1 := rfl
  have hclose : '}'.utf8Size = 1 := rfl
  simp only [Token.source, byteCount, byteCount_append, hdollar, hopen, hclose]
  omega

/-- A placeholder without braces has one byte more than its name. -/
theorem byteCount_source_bare (name : List Char) :
    byteCount (Token.placeholder name false).source = byteCount name + 1 :=
  Nat.add_comm _ _

/-- The parser takes off the piece that stands at the front. -/
theorem parseFrom_of_reads (h : Reads text t rest) (position : Nat) :
    parseFrom position text =
      (parseFrom (position + byteCount t.source) rest).map t.prepend := by
  cases h with
  | dollar => rw [parseFrom]; rfl
  | @braced name _ hname =>
    -- no brace is in a name, so it ends at the first closing one
    obtain ⟨htake, hdrop⟩ := takeWhile_ne_append hname.notMem rest
    rw [parseFrom, byteCount_source_braced, ← Nat.add_assoc]
    split
    next hnil => simp [hdrop] at hnil
    next hcons =>
      rw [hdrop, List.cons.injEq] at hcons
      obtain ⟨-, rfl⟩ := hcons
      dsimp only
      rw [htake, if_pos ((isName_iff name).2 hname)]
      rfl
  | @bare name _ hname hrest =>
    obtain ⟨c, cs, rfl, hc, -⟩ := id hname
    obtain ⟨htake, hdrop⟩ := takeWhile_dropWhile_append (p := isNameChar)
      (fun d hd => (isNameChar_iff d).2 (hname.isNameChar d hd))
      (fun d hd => Bool.eq_false_iff.2 (mt (isNameChar_iff d).1 (hrest d hd)))
    -- what starts a name is neither a dollar sign nor a brace, so the earlier cases do not apply
    obtain ⟨hdollar, hbrace, -⟩ := IsNameChar.ne (.inl hc)
    rw [List.cons_append] at htake hdrop ⊢
    rw [parseFrom.eq_4 _ _ _ hdollar hbrace, if_pos ((isNameStart_iff c).2 hc)]
    dsimp only
    rw [htake, hdrop, byteCount_source_bare, ← Nat.add_assoc]
    rfl
  | loneDollar hrest =>
    cases rest with
    | nil =>
      rw [parseFrom.eq_5 position '$' [] (by simp) (by simp) (by simp)]
      rfl
    | cons c rest =>
      obtain ⟨hdollar, hbrace, hstart⟩ := hrest c rfl
      rw [parseFrom.eq_4 _ _ _ hdollar hbrace, if_neg (by rwa [isNameStart_iff])]
      rfl
  | @other c _ hc =>
    rw [parseFrom.eq_5 _ _ _ (fun _ heq _ => hc heq) (fun _ heq _ => hc heq)
      (fun _ _ heq _ => hc heq)]
    rfl

/-- The parser takes off one piece after the other. -/
theorem parseFrom_of_scans (h : Scans text ts stop) (position : Nat) :
    parseFrom position text =
      (parseFrom (position + byteCount (ts.flatMap Token.source)) stop).map
        (ts.foldr Token.prepend) := by
  -- on the scan; the position moves on by the bytes of each piece
  induction h generalizing position with
  | nil text =>
    cases hparse : parseFrom position text <;> simp [byteCount, hparse, Except.map]
  | @cons text rest stop t ts hreads _ ih =>
    rw [parseFrom_of_reads hreads, ih, List.flatMap_cons, byteCount_append, Nat.add_assoc]
    cases parseFrom (position + (byteCount t.source + byteCount (ts.flatMap Token.source))) stop <;>
      rfl

/-- The parser refuses a `${` behind which the text is spoiled. -/
theorem parseFrom_of_spoils {flaw : Flaw} (h : Spoils rest flaw) (position : Nat) :
    parseFrom position ('$' :: '{' :: rest) = .error ⟨position, flaw⟩ := by
  rw [parseFrom]
  cases h with
  | unterminated hnot =>
    have hdrop : rest.dropWhile (· != '}') = [] :=
      List.dropWhile_eq_nil_iff.2 fun c hc => bne_iff_ne.2 fun heq => hnot (heq ▸ hc)
    split
    next => rfl
    next hcons => simp [hdrop] at hcons
  | @invalidName inside after hinside hnot =>
    obtain ⟨htake, hdrop⟩ := takeWhile_ne_append hinside after
    split
    next hnil => simp [hdrop] at hnil
    next =>
      dsimp only
      rw [htake, if_neg (by rwa [isName_iff])]

/-! ## Every text is scanned -/

/-- Behind a character that may start a name, the name is as long as it can be. -/
theorem exists_longest_name {c : Char} (h : IsNameStart c) (rest : List Char) :
    ∃ name after, IsName name ∧ c :: rest = name ++ after ∧
      ∀ d ∈ after.head?, ¬IsNameChar d := by
  refine ⟨c :: rest.takeWhile isNameChar, rest.dropWhile isNameChar, ⟨c, _, rfl, h, ?_⟩, ?_, ?_⟩
  · intro d hd
    exact (isNameChar_iff d).1 (List.mem_takeWhile_imp hd)
  · rw [List.cons_append, List.takeWhile_append_dropWhile]
  · intro d hd hchar
    have hnot := List.head?_dropWhile_not isNameChar rest
    rw [Option.mem_def.1 hd] at hnot
    simp [(isNameChar_iff d).2 hchar] at hnot

/-- A text that is neither at its end nor at a spoiled `${` begins with a piece. -/
theorem exists_reads (text : List Char) :
    text = [] ∨ (∃ t rest, Reads text t rest) ∨
      ∃ rest flaw, text = '$' :: '{' :: rest ∧ Spoils rest flaw := by
  cases text with
  | nil => exact .inl rfl
  | cons c text =>
    refine .inr ?_
    by_cases hc : c = '$'
    · subst hc
      cases text with
      | nil => exact .inl ⟨_, _, .loneDollar nofun⟩
      | cons d rest =>
        -- what a dollar sign begins is decided by the character behind it
        by_cases hdollar : d = '$'
        · subst hdollar
          exact .inl ⟨_, _, .dollar rest⟩
        by_cases hbrace : d = '{'
        · subst hbrace
          by_cases hname : ∃ name after, IsName name ∧ rest = name ++ '}' :: after
          · obtain ⟨name, after, hname, rfl⟩ := hname
            exact .inl ⟨_, _, .braced after hname⟩
          · obtain ⟨flaw, hflaw⟩ := exists_spoils_iff.2 hname
            exact .inr ⟨rest, flaw, rfl, hflaw⟩
        by_cases hstart : IsNameStart d
        · obtain ⟨name, after, hname, heq, hafter⟩ := exists_longest_name hstart rest
          rw [heq]
          exact .inl ⟨_, _, .bare hname hafter⟩
        · exact .inl ⟨_, _, .loneDollar fun _ h => Option.some.inj h ▸ ⟨hdollar, hbrace, hstart⟩⟩
    · exact .inl ⟨_, _, .other text hc⟩

/-- Every text is scanned to its end or to a spoiled `${`. -/
theorem exists_scans (text : List Char) :
    (∃ ts, Scans text ts []) ∨
      ∃ ts rest flaw, Scans text ts ('$' :: '{' :: rest) ∧ Spoils rest flaw := by
  -- on the length: a piece may be longer than one character
  induction hn : text.length using Nat.strongRecOn generalizing text with
  | _ n ih =>
    rcases exists_reads text with rfl | ⟨t, rest, hreads⟩ | ⟨rest, flaw, rfl, hflaw⟩
    · exact .inl ⟨[], .nil []⟩
    · rcases ih rest.length (hn ▸ hreads.length_lt) rest rfl with
        ⟨ts, hscans⟩ | ⟨ts, rest', flaw, hscans, hflaw⟩
      · exact .inl ⟨t :: ts, .cons hreads hscans⟩
      · exact .inr ⟨t :: ts, rest', flaw, .cons hreads hscans, hflaw⟩
    · exact .inr ⟨[], rest, flaw, .nil _, hflaw⟩

/-! ## Segments -/

/-- The segments of a row of pieces. -/
def group (ts : List Token) : List Segment := ts.foldr Token.prepend []

/-- A token in front is the first one of the segments. -/
theorem tokens_prepend (t : Token) (segments : List Segment) :
    (t.prepend segments).flatMap tokens = t :: segments.flatMap tokens := by
  cases t with
  | char c =>
    rcases segments with _ | ⟨_ | _ | _, rest⟩ <;>
      simp [Token.prepend, consChar, tokens]
  | dollar => simp [Token.prepend, tokens]
  | placeholder name braced => simp [Token.prepend, tokens]

/-- Grouping loses no tokens. -/
theorem tokens_group (ts : List Token) : (group ts).flatMap tokens = ts := by
  induction ts with
  | nil => rfl
  | cons t ts ih => rw [group, List.foldr_cons, tokens_prepend, ← group, ih]

/-- Segments stay grouped when a token comes in front. -/
theorem Segment.IsGrouped.prepend {segments : List Segment} (h : IsGrouped segments) (t : Token) :
    IsGrouped (t.prepend segments) := by
  obtain ⟨hmem, hchain⟩ := h
  cases t with
  | char c =>
    rcases segments with _ | ⟨_ | _ | _, rest⟩ <;>
      constructor <;> simp_all [Token.prepend, consChar, List.isChain_cons, IsLiteral]
  | dollar => constructor <;> simp_all [Token.prepend, List.isChain_cons, IsLiteral]
  | placeholder name braced =>
    constructor <;> simp_all [Token.prepend, List.isChain_cons, IsLiteral]

/-- Grouped tokens are grouped. -/
theorem isGrouped_group (ts : List Token) : IsGrouped (group ts) := by
  induction ts with
  | nil => exact ⟨List.not_mem_nil, .nil⟩
  | cons t ts ih => exact ih.prepend t

/-- Characters before a segment that is no literal make a literal of their own. -/
theorem foldr_consChar {segments : List Segment} (h : ∀ s ∈ segments.head?, ¬s.IsLiteral)
    {cs : List Char} (hne : cs ≠ []) : cs.foldr consChar segments = literal cs :: segments := by
  induction cs with
  | nil => contradiction
  | cons c cs ih =>
    rw [List.foldr_cons]
    cases cs with
    | nil =>
      rcases segments with _ | ⟨_ | _ | _, rest⟩
      · rfl
      · exact absurd trivial (h _ rfl)
      all_goals rfl
    | cons d cs => rw [ih (List.cons_ne_nil d cs), consChar]

/-- Literals that are as long as they can be are found again. -/
theorem group_tokens {segments : List Segment} (h : IsGrouped segments) :
    group (segments.flatMap tokens) = segments := by
  -- from the right, as a literal grows at its front
  induction segments with
  | nil => rfl
  | cons s rest ih =>
    obtain ⟨hmem, hchain⟩ := h
    rw [List.mem_cons, not_or] at hmem
    rw [List.isChain_cons] at hchain
    have hrest : group (rest.flatMap tokens) = rest := ih ⟨hmem.2, hchain.2⟩
    rw [group] at hrest
    rw [group, List.flatMap_cons, List.foldr_append, hrest]
    cases s with
    | literal text =>
      rw [tokens, List.foldr_map]
      refine foldr_consChar (fun s hs hlit => hchain.1 s hs ⟨trivial, hlit⟩) fun hnil => ?_
      exact hmem.1 (hnil ▸ rfl)
    | dollar => rfl
    | placeholder name braced => simp [tokens, Token.prepend]

/-- The text of segments is that of their tokens. -/
theorem source_eq (segments : List Segment) :
    segments.flatMap source = (segments.flatMap tokens).flatMap Token.source := by
  rw [List.flatMap_assoc]
  refine List.flatMap_congr fun s _ => ?_
  cases s with
  | literal text => simp [source, tokens, List.flatMap_map, Token.source]
  | dollar => rfl
  | placeholder name braced => cases braced <;> simp [source, tokens, Token.source]

/-! ## What the parser accepts and refuses -/

/-- A text that is scanned to its end is parsed. -/
theorem parse_of_scans {text : String} (h : Scans text.toList ts []) :
    parse text = .ok (group ts) := by
  rw [parse, parseFrom_of_scans h, parseFrom]
  rfl

/-- A placeholder that is spoilt is reported at its place. -/
theorem parse_of_spoils {text : String} {flaw : Flaw}
    (h : Scans text.toList ts ('$' :: '{' :: rest)) (hflaw : Spoils rest flaw) :
    parse text = .error ⟨byteCount (ts.flatMap Token.source), flaw⟩ := by
  rw [parse, parseFrom_of_scans h, parseFrom_of_spoils hflaw, Nat.zero_add]
  rfl

/-- The parser gives the segments of the pieces of which a text consists. -/
theorem parse_eq_ok_iff {text : String} {segments : List Segment} :
    parse text = .ok segments ↔
      Scans text.toList (segments.flatMap tokens) [] ∧ IsGrouped segments := by
  constructor
  · intro h
    rcases exists_scans text.toList with ⟨ts, hscans⟩ | ⟨ts, rest, flaw, hscans, hflaw⟩
    · rw [parse_of_scans hscans, Except.ok.injEq] at h
      subst h
      exact ⟨(tokens_group ts).symm ▸ hscans, isGrouped_group ts⟩
    · rw [parse_of_spoils hscans hflaw] at h
      contradiction
  · rintro ⟨hscans, hgrouped⟩
    rw [parse_of_scans hscans, group_tokens hgrouped]

/-- The parser refuses a text exactly at a spoiled `${` that the scan comes to. -/
theorem parse_eq_error_iff {text : String} {fault : SyntaxFault} :
    parse text = .error fault ↔ ∃ ts rest, Scans text.toList ts ('$' :: '{' :: rest) ∧
      Spoils rest fault.flaw ∧ fault.position = byteCount (ts.flatMap Token.source) := by
  constructor
  · intro h
    rcases exists_scans text.toList with ⟨ts, hscans⟩ | ⟨ts, rest, flaw, hscans, hflaw⟩
    · rw [parse_of_scans hscans] at h
      contradiction
    · rw [parse_of_spoils hscans hflaw, Except.error.injEq] at h
      subst h
      exact ⟨ts, rest, hscans, hflaw, rfl⟩
  · rintro ⟨ts, rest, hscans, hflaw, hposition⟩
    rw [parse_of_spoils hscans hflaw, ← hposition]

/-- Written one after the other, the segments are the text. -/
theorem ofList_flatMap_source {text : String} {segments : List Segment}
    (h : parse text = .ok segments) : String.ofList (segments.flatMap source) = text := by
  have hscans := (parse_eq_ok_iff.1 h).1
  rw [source_eq, ← List.append_nil (List.flatMap _ _), ← hscans.eq_append, String.ofList_toList]

/-- The place of a spoiled `${` that the scan comes to is the place that the parser names. -/
theorem position_of_breaksOff {text : String} {before rest : List Char}
    (h : BreaksOff text.toList before rest) :
    ∃ flaw, Spoils rest flaw ∧
      parse text = .error ⟨(String.ofList before).utf8ByteSize, flaw⟩ := by
  obtain ⟨htext, ⟨ts, hscans⟩, hnot⟩ := h
  obtain ⟨flaw, hflaw⟩ := exists_spoils_iff.2 hnot
  have hbefore : ts.flatMap Token.source = before :=
    List.append_cancel_right (hscans.eq_append.symm.trans htext)
  exact ⟨flaw, hflaw, by rw [parse_of_spoils hscans hflaw, hbefore, utf8ByteSize_ofList]⟩

/-- The parser accepts exactly the texts whose scan does not come to a `${` without a name and `}`
behind it. It takes them apart into the pieces that the scan sees, with literals as long as they can
be, and nothing of the text is lost. Of any other text it names the place of the leftmost such `${`,
in bytes. -/
theorem parse_tiles (text : String) :
    (∀ segments, parse text = .ok segments ↔
      Scans text.toList (segments.flatMap tokens) [] ∧ IsGrouped segments) ∧
    (∀ segments, parse text = .ok segments → String.ofList (segments.flatMap source) = text) ∧
    ((∃ fault, parse text = .error fault) ↔ ∃ before rest, BreaksOff text.toList before rest) ∧
    ∀ fault, parse text = .error fault →
      (∃ before rest, BreaksOff text.toList before rest ∧ Spoils rest fault.flaw ∧
        fault.position = (String.ofList before).utf8ByteSize) ∧
      ∀ before rest, BreaksOff text.toList before rest →
        fault.position ≤ (String.ofList before).utf8ByteSize := by
  -- the parser's own scan shows where the text breaks off
  have hbreaks : ∀ fault, parse text = .error fault →
      ∃ before rest, BreaksOff text.toList before rest ∧ Spoils rest fault.flaw ∧
        fault.position = (String.ofList before).utf8ByteSize := by
    intro fault h
    obtain ⟨ts, rest, hscans, hflaw, hposition⟩ := parse_eq_error_iff.1 h
    refine ⟨ts.flatMap Token.source, rest, ⟨hscans.eq_append, ⟨ts, hscans⟩, ?_⟩, hflaw, ?_⟩
    · exact exists_spoils_iff.1 ⟨_, hflaw⟩
    · rw [hposition, utf8ByteSize_ofList]
  refine ⟨fun segments => parse_eq_ok_iff, fun segments => ofList_flatMap_source, ⟨?_, ?_⟩,
    fun fault h => ⟨hbreaks fault h, fun before rest hbreak => ?_⟩⟩
  · rintro ⟨fault, h⟩
    obtain ⟨before, rest, hbreak, -⟩ := hbreaks fault h
    exact ⟨before, rest, hbreak⟩
  · rintro ⟨before, rest, hbreak⟩
    obtain ⟨flaw, -, h⟩ := position_of_breaksOff hbreak
    exact ⟨_, h⟩
  · -- the scan of a text comes to one place only
    obtain ⟨flaw, -, h'⟩ := position_of_breaksOff hbreak
    rw [h, Except.error.injEq] at h'
    exact le_of_eq (congrArg SyntaxFault.position h')

/-- A brace behind `$$` opens nothing, and the place of a later one is counted in bytes. -/
theorem parse_tiles_unclosed :
    parse "é$$\x7ba\x7d$\x7bb" = .error ⟨7, .unterminated⟩ ∧
      ∃ before rest, BreaksOff "é$$\x7ba\x7d$\x7bb".toList before rest ∧
        Spoils rest .unterminated ∧ 7 = (String.ofList before).utf8ByteSize := by
  have h : parse "é$$\x7ba\x7d$\x7bb" = .error ⟨7, .unterminated⟩ := by decide +kernel
  obtain ⟨before, rest, hbreak, hflaw, hposition⟩ := ((parse_tiles _).2.2.2 _ h).1
  exact ⟨h, before, rest, hbreak, hflaw, hposition⟩

end MarketAlerts.Template

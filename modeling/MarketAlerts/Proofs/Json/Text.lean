import Mathlib.Data.Nat.Digits.Defs
import MarketAlerts.Json.Reader
import MarketAlerts.Json.Writer

/-!
# Reading what was written

A value that holds no numbers is read back from its text, whatever characters its strings hold.

## Main definitions

- `IsReadable scope depth v`: a value holds no numbers, nests at most so deep, and every member of
  it is read;
- `ReadsBack scope depth v`: it is read from its text, whatever follows, if the fuel is as much as
  the length of the text.

## Main results

- `stringBody?_flatMap_quotedChar`: a string is read back, character by character;
- `IsReadable.readsBack`: so is a value, by the cases of what it is made of;
- `parse?_pretty`: a whole text is read as the value that it was written from.
-/

namespace MarketAlerts.Json

/-! ## Strings -/

/-- A hexadecimal digit is read back. -/
theorem hexDigit?_digitChar : ∀ n < 16, hexDigit? (Nat.digitChar n) = some n := by decide

/-- The escape of a control character is read back. -/
theorem escape?_hex2 {n : Nat} (h : n < 0x20) (rest : List Char) :
    escape? ('u' :: '0' :: '0' :: (hex2 n ++ rest)) = some (Char.ofNat n, rest) := by
  have hhigh := hexDigit?_digitChar (n / 16) (by omega)
  have hlow := hexDigit?_digitChar (n % 16) (by omega)
  have hzero : hexDigit? '0' = some 0 := rfl
  have hsum : n / 16 * 16 + n % 16 = n := Nat.div_add_mod' n 16
  simp [escape?, hex2, hex4?, hhigh, hlow, hzero, hsum]
  omega

/-- A character is written as an escape that reads as the character, or it stands for itself. -/
theorem quotedChar_cases (c : Char) :
    (∃ code, quotedChar c = '\\' :: code ∧ ∀ rest, escape? (code ++ rest) = some (c, rest)) ∨
    (c ≠ '"' ∧ c ≠ '\\' ∧ ¬c.toNat < 0x20 ∧ quotedChar c = [c]) := by
  by_cases hshort : c = '"' ∨ c = '\\' ∨ c = '\n' ∨ c = '\r' ∨ c = '\t' ∨ c = '\x08' ∨ c = '\x0c'
  · left
    rcases hshort with rfl | rfl | rfl | rfl | rfl | rfl | rfl
    all_goals exact ⟨_, rfl, fun _ => rfl⟩
  · simp only [not_or] at hshort
    obtain ⟨hquote, hbackslash, hline, hreturn, htab, hback, hfeed⟩ := hshort
    by_cases hcontrol : c.toNat < 0x20
    · left
      refine ⟨'u' :: '0' :: '0' :: hex2 c.toNat, ?_, fun rest => ?_⟩
      · simp [quotedChar, hquote, hbackslash, hline, hreturn, htab, hback, hfeed, hcontrol]
      · rw [List.cons_append, List.cons_append, List.cons_append, escape?_hex2 hcontrol,
          Char.ofNat_toNat]
    · right
      refine ⟨hquote, hbackslash, hcontrol, ?_⟩
      simp [quotedChar, hquote, hbackslash, hline, hreturn, htab, hback, hfeed, hcontrol]

/-- One character is read back for one step of fuel. -/
theorem stringBody?_quotedChar (fuel : Nat) (read : List Char) (c : Char) (rest : List Char) :
    stringBody? (fuel + 1) read (quotedChar c ++ rest) = stringBody? fuel (c :: read) rest := by
  rcases quotedChar_cases c with ⟨code, hcode, hread⟩ | ⟨hquote, hbackslash, hcontrol, hself⟩
  · rw [hcode, List.cons_append]
    simp [stringBody?, hread]
  · rw [hself, List.singleton_append, stringBody?]
    · rw [if_neg hcontrol]
    · exact hquote
    · exact hbackslash

/-- A string is read back, up to its closing quote. -/
theorem stringBody?_flatMap_quotedChar {fuel : Nat} {cs : List Char} (h : cs.length < fuel)
    (read rest : List Char) :
    stringBody? fuel read (cs.flatMap quotedChar ++ '"' :: rest) =
      some (String.ofList (read.reverse ++ cs), rest) := by
  induction cs generalizing fuel read with
  | nil =>
    obtain ⟨fuel, rfl⟩ := Nat.exists_eq_add_one.2 h
    simp [stringBody?]
  | cons c cs ih =>
    obtain ⟨fuel, rfl⟩ := Nat.exists_eq_add_one.2 (Nat.zero_lt_of_lt h)
    rw [List.flatMap_cons, List.append_assoc, stringBody?_quotedChar,
      ih (Nat.lt_of_succ_lt_succ h), List.reverse_cons, List.append_assoc, List.singleton_append]

/-- Escapes make a text no shorter. -/
theorem length_le_length_flatMap_quotedChar (cs : List Char) :
    cs.length ≤ (cs.flatMap quotedChar).length := by
  induction cs with
  | nil => exact Nat.le_refl 0
  | cons c cs ih =>
    have hpos : 0 < (quotedChar c).length := by
      rcases quotedChar_cases c with ⟨code, hcode, -⟩ | ⟨-, -, -, hself⟩
      · rw [hcode]
        exact Nat.succ_pos _
      · rw [hself]
        exact Nat.one_pos
    rw [List.flatMap_cons, List.length_append, List.length_cons]
    omega

/-- A quoted text stands between quotation marks. -/
theorem toList_quoted (s : String) :
    (quoted s).toList = '"' :: (s.toList.flatMap quotedChar ++ ['"']) := by
  simp [quoted]

/-- A string between quotes is read back. -/
theorem stringBody?_quoted {fuel : Nat} {s : String} (h : (quoted s).toList.length ≤ fuel + 1)
    (rest : List Char) :
    stringBody? fuel [] (s.toList.flatMap quotedChar ++ '"' :: rest) = some (s, rest) := by
  have hlength := length_le_length_flatMap_quotedChar s.toList
  rw [toList_quoted, List.length_cons, List.length_append, List.length_singleton] at h
  rw [stringBody?_flatMap_quotedChar (by omega), List.reverse_nil, List.nil_append,
    String.ofList_toList]

/-! ## Blanks -/

/-- The character starts a value. -/
def IsOpening (c : Char) : Prop := c ∈ ['n', 't', 'f', '"', '[', '\x7b']

/-- Spaces are skipped. -/
theorem skipBlanks_replicate (n : Nat) (rest : List Char) :
    skipBlanks (List.replicate n ' ' ++ rest) = skipBlanks rest := by
  induction n with
  | zero => rfl
  | succ n ih => rwa [List.replicate_succ, List.cons_append, skipBlanks, if_pos (.inl rfl)]

/-- The beginning of a line is skipped. -/
theorem skipBlanks_newline (level : Nat) (rest : List Char) :
    skipBlanks ((newline level).toList ++ rest) = skipBlanks rest := by
  have hline : (newline level).toList = '\n' :: List.replicate (2 * level) ' ' := by simp [newline]
  rw [hline, List.cons_append, skipBlanks, if_pos (.inr (.inl rfl)), skipBlanks_replicate]

/-- The beginning of a line is not empty. -/
theorem one_le_length_newline (level : Nat) : 1 ≤ (newline level).toList.length := by
  simp [newline]

/-- Blanks are skipped once and for all. -/
theorem skipBlanks_skipBlanks (text : List Char) :
    skipBlanks (skipBlanks text) = skipBlanks text := by
  induction text with
  | nil => rfl
  | cons c rest ih =>
    rw [skipBlanks]
    split
    next => exact ih
    next hc => rw [skipBlanks, if_neg hc]

/-- A value does not begin with a blank. -/
theorem skipBlanks_of_isOpening {c : Char} (h : IsOpening c) (rest : List Char) :
    skipBlanks (c :: rest) = c :: rest := by
  rw [skipBlanks, if_neg]
  rintro (rfl | rfl | rfl | rfl)
  all_goals simp [IsOpening] at h

/-- Blanks before a value make no difference. -/
theorem value?_skipBlanks (fuel depth : Nat) (scope : Scope) (text : List Char) :
    value? fuel depth scope (skipBlanks text) = value? fuel depth scope text := by
  cases fuel <;> simp only [value?, skipBlanks_skipBlanks]

/-- A value may stand on a line of its own. -/
theorem value?_newline (fuel depth level : Nat) (scope : Scope) (rest : List Char) :
    value? fuel depth scope ((newline level).toList ++ rest) = value? fuel depth scope rest := by
  rw [← value?_skipBlanks, skipBlanks_newline, value?_skipBlanks]

/-- Blanks before the elements do not matter. -/
theorem elements?_skipBlanks (fuel depth : Nat) (scope : Scope) (text : List Char)
    (read : List Json) :
    elements? fuel depth scope (skipBlanks text) read = elements? fuel depth scope text read := by
  cases fuel <;> simp only [elements?, value?_skipBlanks]

/-- Blanks before the members do not matter. -/
theorem members?_skipBlanks (fuel depth : Nat) (scope : Scope) (text : List Char)
    (read : List (String × Json)) :
    members? fuel depth scope (skipBlanks text) read = members? fuel depth scope text read := by
  cases fuel <;> simp only [members?, skipBlanks_skipBlanks]

/-! ## Elements and members -/

/-- The value is read from its text, whatever follows, if the fuel is as much as the length of the
text. -/
def ReadsBack (scope : Scope) (depth : Nat) (v : Json) : Prop :=
  ∀ level fuel rest, (prettyAt level v).toList.length ≤ fuel →
    value? fuel depth scope ((prettyAt level v).toList ++ rest) = some (v, rest)

section Rows

variable {scope : Scope} {depth fuel level : Nat}

/-- An element with another one behind it. -/
theorem elements?_comma {v : Json} (h : ReadsBack scope depth v)
    (hfuel : (prettyAt level v).toList.length ≤ fuel) (rest : List Char) (read : List Json) :
    elements? (fuel + 1) depth scope
        ((newline level).toList ++ ((prettyAt level v).toList ++ ',' :: rest)) read =
      elements? fuel depth scope rest (v :: read) := by
  have hvalue := h level fuel (',' :: rest) hfuel
  simp [elements?, value?_newline, hvalue, skipBlanks]

/-- The last element. -/
theorem elements?_bracket {v : Json} (h : ReadsBack scope depth v)
    (hfuel : (prettyAt level v).toList.length ≤ fuel) (level' : Nat) (rest : List Char)
    (read : List Json) :
    elements? (fuel + 1) depth scope
        ((newline level).toList ++
          ((prettyAt level v).toList ++ ((newline level').toList ++ ']' :: rest))) read =
      some (read.reverse ++ [v], rest) := by
  have hvalue := h level fuel ((newline level').toList ++ ']' :: rest) hfuel
  simp [elements?, value?_newline, hvalue, skipBlanks_newline, skipBlanks]

/-- A row of elements is read back, up to its bracket. -/
theorem elements?_prettyElements {vs : List Json} (hne : vs ≠ [])
    (h : ∀ v ∈ vs, ReadsBack scope depth v)
    (hfuel : (prettyElements level vs).toList.length ≤ fuel) (level' : Nat) (rest : List Char)
    (read : List Json) :
    elements? fuel depth scope
        ((prettyElements level vs).toList ++ ((newline level').toList ++ ']' :: rest)) read =
      some (read.reverse ++ vs, rest) := by
  have hline := one_le_length_newline level
  induction vs generalizing fuel read with
  | nil => exact absurd rfl hne
  | cons v vs ih =>
    obtain ⟨hv, hvs⟩ := List.forall_mem_cons.1 h
    cases vs with
    | nil =>
      rw [prettyElements, String.toList_append, List.length_append] at hfuel
      obtain ⟨fuel, rfl⟩ := Nat.exists_eq_add_one.2 (show 0 < fuel by omega)
      rw [prettyElements, String.toList_append, List.append_assoc,
        elements?_bracket hv (by omega)]
    -- the comma uses up one unit of fuel, and the elements behind it are read with the rest
    | cons w vs =>
      simp only [prettyElements, String.toList_append, List.length_append] at hfuel
      obtain ⟨fuel, rfl⟩ := Nat.exists_eq_add_one.2 (show 0 < fuel by omega)
      have hlength : (prettyElements level (w :: vs)).toList.length ≤ fuel := by omega
      have htail := ih (by simp) hvs hlength (v :: read)
      have hcomma (tail : List Char) : ",".toList ++ tail = ',' :: tail := rfl
      simp only [prettyElements, String.toList_append, List.append_assoc]
      rw [hcomma, elements?_comma hv (by omega), htail, List.reverse_cons, List.append_assoc,
        List.singleton_append]

/-- One member. -/
theorem readMember?_quoted {key : String} {v : Json} (hkey : scope.reads key = true)
    (h : ReadsBack .whole depth v)
    (hfuel : (quoted key).toList.length + (prettyAt level v).toList.length ≤ fuel)
    (tail : List Char) (read : List (String × Json)) :
    readMember? (fuel + 1) depth scope
        ((quoted key).toList ++ (": ".toList ++ ((prettyAt level v).toList ++ tail))) read =
      some ((key, v) :: read, tail) := by
  have hstring (rest : List Char) :
      stringBody? fuel [] (key.toList.flatMap quotedChar ++ '"' :: rest) = some (key, rest) :=
    stringBody?_quoted (by omega) rest
  have hcolon (rest : List Char) : skipBlanks (": ".toList ++ rest) = ':' :: ' ' :: rest := rfl
  have hvalue : value? fuel depth .whole (' ' :: ((prettyAt level v).toList ++ tail)) =
      some (v, tail) := by
    rw [← value?_skipBlanks, skipBlanks, if_pos (.inl rfl), value?_skipBlanks]
    exact h level fuel tail (by omega)
  rw [toList_quoted, List.cons_append, List.append_assoc, List.singleton_append]
  simp only [readMember?, hstring, hcolon, hkey, hvalue, if_true, Option.map_some]

/-- A quoted text does not begin with a blank. -/
theorem skipBlanks_quoted (key : String) (rest : List Char) :
    skipBlanks ((quoted key).toList ++ rest) = (quoted key).toList ++ rest := by
  rw [toList_quoted, List.cons_append, skipBlanks_of_isOpening (by simp [IsOpening])]

/-- A member with another one behind it. -/
theorem members?_comma {key : String} {v : Json} (hkey : scope.reads key = true)
    (h : ReadsBack .whole depth v)
    (hfuel : (quoted key).toList.length + (prettyAt level v).toList.length ≤ fuel)
    (rest : List Char) (read : List (String × Json)) :
    members? (fuel + 2) depth scope
        ((newline level).toList ++
          ((quoted key).toList ++ (": ".toList ++ ((prettyAt level v).toList ++ ',' :: rest))))
        read =
      members? (fuel + 1) depth scope rest ((key, v) :: read) := by
  have hmember := readMember?_quoted hkey h hfuel (',' :: rest) read
  rw [members?, skipBlanks_newline, skipBlanks_quoted, hmember]
  simp [skipBlanks]

/-- The last member. -/
theorem members?_brace {key : String} {v : Json} (hkey : scope.reads key = true)
    (h : ReadsBack .whole depth v)
    (hfuel : (quoted key).toList.length + (prettyAt level v).toList.length ≤ fuel)
    (level' : Nat) (rest : List Char) (read : List (String × Json)) :
    members? (fuel + 2) depth scope
        ((newline level).toList ++
          ((quoted key).toList ++ (": ".toList ++ ((prettyAt level v).toList ++
            ((newline level').toList ++ '}' :: rest)))))
        read =
      some (read.reverse ++ [(key, v)], rest) := by
  have hmember := readMember?_quoted hkey h hfuel ((newline level').toList ++ '}' :: rest) read
  rw [members?, skipBlanks_newline, skipBlanks_quoted, hmember]
  simp [skipBlanks_newline, skipBlanks]

/-- A row of members is read back, up to its bracket. -/
theorem members?_prettyMembers {ms : List (String × Json)} (hne : ms ≠ [])
    (hkeys : ∀ m ∈ ms, scope.reads m.1 = true) (h : ∀ m ∈ ms, ReadsBack .whole depth m.2)
    (hfuel : (prettyMembers level ms).toList.length ≤ fuel) (level' : Nat) (rest : List Char)
    (read : List (String × Json)) :
    members? fuel depth scope
        ((prettyMembers level ms).toList ++ ((newline level').toList ++ '}' :: rest)) read =
      some (read.reverse ++ ms, rest) := by
  have hline := one_le_length_newline level
  have hcolon : ": ".toList.length = 2 := rfl
  induction ms generalizing fuel read with
  | nil => exact absurd rfl hne
  | cons m ms ih =>
    obtain ⟨key, v⟩ := m
    obtain ⟨hkey : scope.reads key = true, hkeys⟩ := List.forall_mem_cons.1 hkeys
    obtain ⟨hv : ReadsBack .whole depth v, hvs⟩ := List.forall_mem_cons.1 h
    cases ms with
    | nil =>
      simp only [prettyMembers, String.toList_append, List.length_append] at hfuel
      obtain ⟨fuel, rfl⟩ := Nat.exists_eq_add_of_le' (show 2 ≤ fuel by omega)
      simp only [prettyMembers, String.toList_append, List.append_assoc]
      rw [members?_brace hkey hv (by omega)]
    | cons m ms =>
      obtain ⟨key', w⟩ := m
      simp only [prettyMembers, String.toList_append, List.length_append] at hfuel
      obtain ⟨fuel, rfl⟩ := Nat.exists_eq_add_of_le' (show 2 ≤ fuel by omega)
      have hlength : (prettyMembers level ((key', w) :: ms)).toList.length ≤ fuel + 1 := by omega
      have htail := ih (by simp) hkeys hvs hlength ((key, v) :: read)
      have hcomma (tail : List Char) : ",".toList ++ tail = ',' :: tail := rfl
      simp only [prettyMembers, String.toList_append, List.append_assoc]
      rw [hcomma, members?_comma hkey hv (by omega), htail, List.reverse_cons, List.append_assoc,
        List.singleton_append]

/-- Behind a bracket, what starts as a value does is read as elements. -/
theorem value?_elements {text : List Char}
    (h : ∃ c cs, skipBlanks text = c :: cs ∧ IsOpening c) :
    value? (fuel + 1) (depth + 1) scope ('[' :: text) =
      (elements? fuel depth scope.ofElements text []).map fun (vs, rest) => (.arr vs, rest) := by
  obtain ⟨c, cs, htext, hc⟩ := h
  have hclose : c ≠ ']' := by
    rintro rfl
    simp [IsOpening] at hc
  rw [value?, skipBlanks_of_isOpening (by simp [IsOpening]), ← elements?_skipBlanks]
  simp [htext, hclose]

/-- Behind a brace, what starts as a string does is read as members. -/
theorem value?_members {text : List Char} (h : ∃ cs, skipBlanks text = '"' :: cs) :
    value? (fuel + 1) (depth + 1) scope ('\x7b' :: text) =
      (members? fuel depth scope text []).map fun (ms, rest) => (.obj ms, rest) := by
  obtain ⟨cs, htext⟩ := h
  rw [value?, skipBlanks_of_isOpening (by simp [IsOpening]), ← members?_skipBlanks]
  simp [htext]

end Rows

/-! ## Values -/

/-- The value holds no numbers and nests at most `depth` deep, and every member of it is read. -/
inductive IsReadable : Scope → Nat → Json → Prop where
  | null {scope : Scope} {depth : Nat} : IsReadable scope depth .null
  | bool {scope : Scope} {depth : Nat} (b : Bool) : IsReadable scope depth (.bool b)
  | str {scope : Scope} {depth : Nat} (s : String) : IsReadable scope depth (.str s)
  | arr {scope : Scope} {depth : Nat} {vs : List Json} :
      (∀ v ∈ vs, IsReadable scope.ofElements depth v) → IsReadable scope (depth + 1) (.arr vs)
  | obj {scope : Scope} {depth : Nat} {ms : List (String × Json)} :
      (∀ m ∈ ms, scope.reads m.1 = true) → (∀ m ∈ ms, IsReadable .whole depth m.2) →
      IsReadable scope (depth + 1) (.obj ms)

namespace IsReadable

variable {scope : Scope} {depth : Nat} {v : Json}

/-- A value that is readable begins with a character that opens a value. -/
theorem exists_isOpening (h : IsReadable scope depth v) (level : Nat) :
    ∃ c cs, (prettyAt level v).toList = c :: cs ∧ IsOpening c := by
  cases h with
  | null => exact ⟨'n', ['u', 'l', 'l'], by simp [prettyAt], by simp [IsOpening]⟩
  | bool b =>
    cases b with
    | false => exact ⟨'f', ['a', 'l', 's', 'e'], by simp [prettyAt], by simp [IsOpening]⟩
    | true => exact ⟨'t', ['r', 'u', 'e'], by simp [prettyAt], by simp [IsOpening]⟩
  | str s =>
    refine ⟨'"', s.toList.flatMap quotedChar ++ ['"'], ?_, by simp [IsOpening]⟩
    rw [prettyAt, toList_quoted]
  | @arr _ _ vs _ =>
    refine ⟨'[', ?_⟩
    cases vs <;> simp [prettyAt, IsOpening]
  | @obj _ _ ms _ _ =>
    refine ⟨'\x7b', ?_⟩
    cases ms <;> simp [prettyAt, IsOpening]

/-- The first element starts as a value does. -/
theorem exists_isOpening_elements (h : IsReadable scope depth v) (vs : List Json) (level : Nat)
    (tail : List Char) : ∃ c cs,
      skipBlanks ((prettyElements level (v :: vs)).toList ++ tail) = c :: cs ∧ IsOpening c := by
  obtain ⟨c, cs, heq, hc⟩ := h.exists_isOpening level
  cases vs <;>
    simp [prettyElements, String.toList_append, List.append_assoc, skipBlanks_newline, heq,
      skipBlanks_of_isOpening hc, hc]

/-- No text of a value is empty, so there is fuel for one step. -/
theorem readsBack_of_succ (h : IsReadable scope depth v)
    (hread : ∀ level fuel rest, (prettyAt level v).toList.length ≤ fuel + 1 →
      value? (fuel + 1) depth scope ((prettyAt level v).toList ++ rest) = some (v, rest)) :
    ReadsBack scope depth v := by
  intro level fuel rest hfuel
  obtain ⟨c, cs, heq, -⟩ := h.exists_isOpening level
  have hpos : 0 < fuel := by
    rw [heq, List.length_cons] at hfuel
    omega
  obtain ⟨fuel, rfl⟩ := Nat.exists_eq_add_one.2 hpos
  exact hread level fuel rest hfuel

/-- An array is read back if its elements are. -/
theorem readsBack_arr {vs : List Json} (hvs : ∀ v ∈ vs, IsReadable scope.ofElements depth v)
    (hback : ∀ v ∈ vs, ReadsBack scope.ofElements depth v) :
    ReadsBack scope (depth + 1) (.arr vs) := by
  refine readsBack_of_succ (.arr hvs) fun level fuel rest hfuel => ?_
  cases vs with
  | nil => simp [prettyAt, value?, skipBlanks]
  | cons v vs =>
    have hbracket : "[".toList.length = 1 := rfl
    simp only [prettyAt, String.toList_append, List.length_append] at hfuel
    have hlength : (prettyElements (level + 1) (v :: vs)).toList.length ≤ fuel := by omega
    have hrow := elements?_prettyElements (List.cons_ne_nil v vs) hback hlength level rest []
    have hopening := (hvs v List.mem_cons_self).exists_isOpening_elements vs (level + 1)
    simp only [prettyAt, String.toList_append, List.append_assoc]
    exact (value?_elements (hopening _)).trans (congrArg _ hrow)

/-- An object is read back if its members are. -/
theorem readsBack_obj {ms : List (String × Json)} (hkeys : ∀ m ∈ ms, scope.reads m.1 = true)
    (hms : ∀ m ∈ ms, IsReadable .whole depth m.2) (hback : ∀ m ∈ ms, ReadsBack .whole depth m.2) :
    ReadsBack scope (depth + 1) (.obj ms) := by
  refine readsBack_of_succ (.obj hkeys hms) fun level fuel rest hfuel => ?_
  cases ms with
  | nil => simp [prettyAt, value?, skipBlanks]
  | cons m ms =>
    have hbrace : "\x7b".toList.length = 1 := rfl
    simp only [prettyAt, String.toList_append, List.length_append] at hfuel
    have hlength : (prettyMembers (level + 1) (m :: ms)).toList.length ≤ fuel := by omega
    have hrow := members?_prettyMembers (List.cons_ne_nil m ms) hkeys hback hlength level rest []
    have hquote (tail : List Char) : ∃ cs,
        skipBlanks ((prettyMembers (level + 1) (m :: ms)).toList ++ tail) = '"' :: cs := by
      cases ms <;>
        simp [prettyMembers, String.toList_append, List.append_assoc, skipBlanks_newline,
          toList_quoted, skipBlanks]
    simp only [prettyAt, String.toList_append, List.append_assoc]
    exact (value?_members (hquote _)).trans (congrArg _ hrow)

/-- A value is read back. -/
theorem readsBack (h : IsReadable scope depth v) : ReadsBack scope depth v := by
  induction h with
  | null =>
    refine readsBack_of_succ .null fun level fuel rest _ => ?_
    simp [prettyAt, value?, skipBlanks, word?]
  | bool b =>
    refine readsBack_of_succ (.bool b) fun level fuel rest _ => ?_
    cases b <;> simp [prettyAt, value?, skipBlanks, word?]
  | str s =>
    refine readsBack_of_succ (.str s) fun level fuel rest hfuel => ?_
    rw [prettyAt] at hfuel ⊢
    rw [toList_quoted, List.cons_append, List.append_assoc, List.singleton_append, value?,
      skipBlanks_of_isOpening (by simp [IsOpening])]
    simp [stringBody?_quoted hfuel]
  | arr hvs ih => exact readsBack_arr hvs ih
  | obj hkeys hms ih => exact readsBack_obj hkeys hms ih

end IsReadable

/-- A value that holds no numbers is read from its text. -/
theorem parse?_pretty {scope : Scope} {v : Json} (h : IsReadable scope 127 v) :
    parse? v.pretty scope = some v := by
  have hread := h.readsBack 0 (3 * (prettyAt 0 v).toList.length + 3) [] (by omega)
  rw [List.append_nil] at hread
  rw [parse?, pretty, hread]
  rfl

end MarketAlerts.Json

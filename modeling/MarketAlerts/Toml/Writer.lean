import MarketAlerts.Toml.Basic

/-!
# Writing TOML values

`Toml.toText` writes a value on one line as far as its strings allow. A string takes the plainest
form that needs no escapes: quotes, then apostrophes, then three quotes, then three apostrophes;
only a string that has none of these is escaped.
-/

namespace MarketAlerts.Toml

/-- What decides how a string is quoted. -/
structure Metrics where
  /-- The longest run of apostrophes. -/
  apostrophes : Nat
  /-- The longest run of quotes. -/
  quotes : Nat
  /-- Whether there is a backslash. -/
  backslash : Bool
  /-- Whether there is a control character other than tab and line feed. -/
  control : Bool
  /-- Whether there is a line feed. -/
  newline : Bool

/-- The longest run of `c`. -/
def longestRun (c : Char) (cs : List Char) : Nat :=
  (cs.foldl (fun (run, longest) d =>
    let run := if d = c then run + 1 else 0
    (run, max longest run)) (0, 0)).2

/-- Whether a character has no form outside an escape. -/
def isControl (c : Char) : Bool :=
  (c.toNat < 0x20 && c != '\t' && c != '\n') || c.toNat == 0x7F

/-- The metrics of a string. -/
def metrics (cs : List Char) : Metrics :=
  ⟨longestRun '\'' cs, longestRun '"' cs, cs.contains '\\', cs.any isControl, cs.contains '\n'⟩

/-- A character escaped for a basic string. -/
def escaped (c : Char) : List Char :=
  if c = '\x08' then ['\\', 'b']
  else if c = '\t' then ['\\', 't']
  else if c = '\n' then ['\\', 'n']
  else if c = '\x0c' then ['\\', 'f']
  else if c = '\r' then ['\\', 'r']
  else if c = '\\' then ['\\', '\\']
  else if isControl c then
    let hex (n : Nat) : Char := (Nat.digitChar (n % 16)).toUpper
    ['\\', 'u', '0', '0', hex (c.toNat / 16), hex c.toNat]
  else [c]

/-- The body of a basic string: at most `allowed` quotes stand together without escape, and line
feeds stay when there are several lines. -/
def basicBody (allowed : Nat) (lines : Bool) : Nat → List Char → List Char
  | _, [] => []
  | run, '"' :: cs =>
    if run < allowed then '"' :: basicBody allowed lines (run + 1) cs
    else ['\\', '"'] ++ basicBody allowed lines 0 cs
  | _, c :: cs =>
    (if lines ∧ c = '\n' then ['\n'] else escaped c) ++ basicBody allowed lines 0 cs

/-- A string in its plainest form. -/
def quoted (s : String) : String :=
  let cs := s.toList
  let m := metrics cs
  let basic := "\"" ++ String.ofList (basicBody 0 false 0 cs) ++ "\""
  let lineFeed := if m.newline then "\n" else ""
  let mlBasic := "\"\"\"" ++ lineFeed ++ String.ofList (basicBody 2 true 0 cs) ++ "\"\"\""
  let mlLiteral := "'''" ++ lineFeed ++ s ++ "'''"
  -- forms without escapes come first
  if !m.control ∧ !m.backslash ∧ m.quotes = 0 ∧ !m.newline then basic
  else if !m.control ∧ m.apostrophes = 0 ∧ !m.newline then "'" ++ s ++ "'"
  else if !m.control ∧ !m.backslash ∧ m.quotes ≤ 2 then mlBasic
  else if !m.control ∧ m.apostrophes ≤ 2 then mlLiteral
  else if m.newline then mlBasic
  else basic

/-- Whether a character may stand in a bare key. -/
def isBareKeyChar (c : Char) : Bool := c.isAlphanum || c == '_' || c == '-'

/-- A key, bare where it can be. -/
def keyText (key : String) : String :=
  let cs := key.toList
  if !cs.isEmpty && cs.all isBareKeyChar then key
  else
    let m := metrics cs
    let basic := "\"" ++ String.ofList (basicBody 0 false 0 cs) ++ "\""
    if !m.control ∧ !m.backslash ∧ m.quotes = 0 ∧ !m.newline then basic
    else if !m.control ∧ m.apostrophes = 0 ∧ !m.newline then "'" ++ key ++ "'"
    else basic

mutual

/-- A value. -/
def toText : Toml → String
  | .str s => quoted s
  | .int n => toString n
  | .float x => Binary64.toPointedText x
  | .negativeNaN => "-nan"
  | .bool b => if b then "true" else "false"
  | .datetime text => text
  | .arr vs => "[" ++ elementsText vs ++ "]"
  | .table [] => "\x7b\x7d"
  | .table (e :: es) => "\x7b " ++ entriesText (e :: es) ++ " \x7d"

/-- Elements with commas between them. -/
def elementsText : List Toml → String
  | [] => ""
  | [v] => toText v
  | v :: w :: rest => toText v ++ ", " ++ elementsText (w :: rest)

/-- Entries with commas between them. -/
def entriesText : List (String × Toml) → String
  | [] => ""
  | [(k, v)] => keyText k ++ " = " ++ toText v
  | (k, v) :: e :: rest => keyText k ++ " = " ++ toText v ++ ", " ++ entriesText (e :: rest)

end

end MarketAlerts.Toml

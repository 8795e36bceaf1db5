import MarketAlerts.Toml.Scalar
import MarketAlerts.Toml.Draft

/-!
# Reading TOML text

`Toml.parse?` reads a whole TOML text as a table. Line breaks are a line feed, alone or after a
carriage return. Inline tables may span lines and end in a comma.
-/

namespace MarketAlerts.Toml

/-! ### Blanks and comments -/

/-- Skips spaces and tabs. -/
def skipSpaces : List Char → List Char
  | c :: rest => if c = ' ' ∨ c = '\t' then skipSpaces rest else c :: rest
  | [] => []

/-- A line break. -/
def lineBreak? : List Char → Option (List Char)
  | '\n' :: rest => some rest
  | '\r' :: '\n' :: rest => some rest
  | _ => none

/-- Whether a character may stand in a comment or a literal string. -/
def isPlain (c : Char) : Bool := c == '\t' || (0x20 ≤ c.toNat && c.toNat != 0x7F)

/-- Skips a comment up to the end of its line, if one starts here. -/
def skipComment (text : List Char) : List Char :=
  match text with
  | '#' :: rest => rest.dropWhile isPlain
  | rest => rest

/-- Skips blanks, line breaks and comments. -/
def skipTrivia : Nat → List Char → List Char
  | 0, text => text
  | fuel + 1, text =>
    let text := skipSpaces text
    match lineBreak? text with
    | some rest => skipTrivia fuel rest
    | none =>
      match text with
      | '#' :: _ =>
        -- a comment ends at a line break, at the end, or at a character that it may not hold
        match lineBreak? (skipComment text) with
        | some rest => skipTrivia fuel rest
        | none => skipComment text
      | _ => text

/-- The end of a statement: blanks, an optional comment, and a line break or the end of the
text. -/
def endOfLine? (text : List Char) : Option (List Char) :=
  match skipComment (skipSpaces text) with
  | [] => some []
  | rest => lineBreak? rest

/-! ### Strings -/

/-- A character given by its number in `count` hexadecimal digits. -/
def codePoint? (count : Nat) (text : List Char) : Option (Char × List Char) :=
  let ds := text.take count
  if ds.length = count ∧ ds.all (fun c => (digitIn? 16 c).isSome) then
    let n := numberIn 16 ds
    if n < 0xD800 ∨ (0xE000 ≤ n ∧ n < 0x110000) then some (Char.ofNat n, text.drop count) else none
  else none

/-- The character after a backslash. -/
def escape? : List Char → Option (Char × List Char)
  | 'b' :: rest => some ('\x08', rest)
  | 't' :: rest => some ('\t', rest)
  | 'n' :: rest => some ('\n', rest)
  | 'f' :: rest => some ('\x0c', rest)
  | 'r' :: rest => some ('\r', rest)
  | 'e' :: rest => some ('\x1b', rest)
  | '"' :: rest => some ('"', rest)
  | '\\' :: rest => some ('\\', rest)
  | 'x' :: rest => codePoint? 2 rest
  | 'u' :: rest => codePoint? 4 rest
  | 'U' :: rest => codePoint? 8 rest
  | _ => none

/-- A basic string after its opening quote; `read` holds its characters so far, last first. -/
def basic? : Nat → List Char → List Char → Option (String × List Char)
  | 0, _, _ => none
  | fuel + 1, read, text =>
    match text with
    | '"' :: rest => some (String.ofList read.reverse, rest)
    | '\\' :: rest =>
      match escape? rest with
      | some (c, rest) => basic? fuel (c :: read) rest
      | none => none
    | c :: rest => if isPlain c then basic? fuel (c :: read) rest else none
    | [] => none

/-- A literal string after its opening apostrophe. -/
def literal? (text : List Char) : Option (String × List Char) :=
  let body := text.takeWhile fun c => isPlain c && c != '\''
  match text.drop body.length with
  | '\'' :: rest => some (String.ofList body, rest)
  | _ => none

/-- The first line break of a string of several lines is not part of it. -/
def dropFirstBreak (text : List Char) : List Char := (lineBreak? text).getD text

/-- How many times `c` stands at the front, at most five. -/
def runLength (c : Char) (text : List Char) : Nat := ((text.take 5).takeWhile (· = c)).length

/-- Skips blanks and line breaks. -/
def skipLines : List Char → List Char
  | ' ' :: rest => skipLines rest
  | '\t' :: rest => skipLines rest
  | '\n' :: rest => skipLines rest
  | '\r' :: '\n' :: rest => skipLines rest
  | rest => rest

/-- Skips the blanks and line breaks after a backslash at the end of a line; `none` when the line
goes on. -/
def foldLine? (text : List Char) : Option (List Char) :=
  (lineBreak? (skipSpaces text)).map skipLines

/-- The body of a string of several lines; up to two quotes `q` before the closing three belong to
it. `escapes` tells a basic string from a literal one. -/
def lines? (q : Char) (escapes : Bool) : Nat → List Char → List Char → Option (String × List Char)
  | 0, _, _ => none
  | fuel + 1, read, text =>
    let run := runLength q text
    -- The last three quotes of a run end the string; those before them belong to it.
    if 3 ≤ run then
      some (String.ofList (List.replicate (run - 3) q ++ read).reverse, text.drop run)
    else
      match text with
      | [] => none
      | '\r' :: '\n' :: rest => lines? q escapes fuel ('\n' :: '\r' :: read) rest
      | '\n' :: rest => lines? q escapes fuel ('\n' :: read) rest
      | '\\' :: rest =>
        if escapes then
          match foldLine? rest with
          | some rest => lines? q escapes fuel read rest
          | none =>
            match escape? rest with
            | some (c, rest) => lines? q escapes fuel (c :: read) rest
            | none => none
        else lines? q escapes fuel ('\\' :: read) rest
      | c :: rest => if isPlain c then lines? q escapes fuel (c :: read) rest else none

/-- A string of any kind. -/
def string? (text : List Char) : Option (String × List Char) :=
  let fuel := text.length + 1
  match text with
  | '"' :: '"' :: '"' :: rest => lines? '"' true fuel [] (dropFirstBreak rest)
  | '\'' :: '\'' :: '\'' :: rest => lines? '\'' false fuel [] (dropFirstBreak rest)
  | '"' :: rest => basic? fuel [] rest
  | '\'' :: rest => literal? rest
  | _ => none

/-! ### Keys -/

/-- Whether a character may stand in a bare key. -/
def isBare (c : Char) : Bool := c.isAlphanum || c == '_' || c == '-'

/-- One part of a key. -/
def keyPart? (text : List Char) : Option (String × List Char) :=
  match text with
  | '"' :: rest => basic? (rest.length + 1) [] rest
  | '\'' :: rest => literal? rest
  | _ =>
    let part := text.takeWhile isBare
    if part.isEmpty then none else some (String.ofList part, text.drop part.length)

/-- The parts of a key with points between them, blanks around each. -/
def keyParts? : Nat → List Char → Option (List String × List Char)
  | 0, _ => none
  | fuel + 1, text =>
    match keyPart? (skipSpaces text) with
    | none => none
    | some (part, rest) =>
      match skipSpaces rest with
      | '.' :: rest => (keyParts? fuel rest).map fun (parts, rest) => (part :: parts, rest)
      | rest => some ([part], rest)

/-- How deep arrays and inline tables nest at most, and how many tables a key leads through. -/
def maxDepth : Nat := 80

/-- A key: its last part is the name in a table, those before lead to the table. -/
def key? (fuel : Nat) (text : List Char) : Option (List String × List Char) :=
  (keyParts? fuel text).filter fun (parts, _) => parts.length ≤ maxDepth + 1

/-! ### Values -/

/-- Whether a character ends a word. -/
def endsWord (c : Char) : Bool :=
  c == ' ' || c == '\t' || c == '\n' || c == '\r' || c == ',' || c == ']' || c == '}' || c == '#'

/-- A scalar: one word, or a date and a time with a space between them. -/
def word? (text : List Char) : Option (Toml × List Char) :=
  let first := text.takeWhile (!endsWord ·)
  let rest := text.drop first.length
  match (date? first).map (·.2), rest with
  | some [], ' ' :: c :: more =>
    -- A time may follow its date after a space.
    if c.isDigit then
      let second := (c :: more).takeWhile (!endsWord ·)
      (scalar? (first ++ ' ' :: second)).map fun v => (v, (c :: more).drop second.length)
    else (scalar? first).map fun v => (v, rest)
  | _, _ => (scalar? first).map fun v => (v, rest)

mutual

/-- A value; `depth` bounds the nesting and `fuel` the length. -/
def value? : Nat → Nat → List Char → Option (Toml × List Char)
  | 0, _, _ => none
  | fuel + 1, depth, text =>
    match text, depth with
    | '[' :: rest, depth + 1 => elements? fuel depth [] rest
    | '{' :: rest, depth + 1 => entries? fuel depth .empty rest
    | '[' :: _, 0 | '{' :: _, 0 => none
    | '"' :: _, _ | '\'' :: _, _ => (string? text).map fun (s, rest) => (.str s, rest)
    | _, _ => word? text

/-- The elements of an array up to its end; `read` holds those so far, last first. -/
def elements? : Nat → Nat → List Toml → List Char → Option (Toml × List Char)
  | 0, _, _, _ => none
  | fuel + 1, depth, read, text =>
    match skipTrivia fuel text with
    | ']' :: rest => some (.arr read.reverse, rest)
    | text =>
      match value? fuel depth text with
      | none => none
      | some (v, rest) =>
        match skipTrivia fuel rest with
        | ',' :: rest => elements? fuel depth (v :: read) rest
        | ']' :: rest => some (.arr (v :: read).reverse, rest)
        | _ => none

/-- The entries of an inline table up to its end. -/
def entries? : Nat → Nat → Draft.Table → List Char → Option (Toml × List Char)
  | 0, _, _, _ => none
  | fuel + 1, depth, t, text =>
    match skipTrivia fuel text with
    | '}' :: rest => some (.table (Draft.finishEntries t.entries), rest)
    | text =>
      match key? fuel text with
      | some (path, '=' :: rest) =>
        match value? fuel depth (skipSpaces rest) with
        | none => none
        | some (v, rest) =>
          match t.assign? [] path v with
          | none => none
          | some t =>
            match skipTrivia fuel rest with
            | ',' :: rest => entries? fuel depth t rest
            | '}' :: rest => some (.table (Draft.finishEntries t.entries), rest)
            | _ => none
      | _ => none

end

/-! ### Statements -/

/-- Reads statements up to the end of the text; `base` is the path of the open table. -/
def statements? : Nat → List String → Draft.Table → List Char → Option Draft.Table
  | 0, _, _, _ => none
  | fuel + 1, base, t, text =>
    match skipTrivia fuel text with
    | [] => some t
    -- two brackets open a new element of an array, one opens a table
    | '[' :: '[' :: rest =>
      match key? fuel rest with
      | some (path, ']' :: ']' :: rest) =>
        match t.openElement? path, endOfLine? rest with
        | some t, some rest => statements? fuel path t rest
        | _, _ => none
      | _ => none
    | '[' :: rest =>
      match key? fuel rest with
      | some (path, ']' :: rest) =>
        match t.open? path, endOfLine? rest with
        | some t, some rest => statements? fuel path t rest
        | _, _ => none
      | _ => none
    | text =>
      match key? fuel text with
      | some (path, '=' :: rest) =>
        match value? fuel maxDepth (skipSpaces rest) with
        | none => none
        | some (v, rest) =>
          -- a statement ends with its line, so that two on one line are refused
          match t.assign? base path v, endOfLine? rest with
          | some t, some rest => statements? fuel base t rest
          | _, _ => none
      | _ => none

/-- Reads a whole text as a table. A byte order mark at its front is skipped. -/
def parse? (text : String) : Option Toml :=
  let cs := match text.toList with
    | '\ufeff' :: rest => rest
    | rest => rest
  (statements? (2 * cs.length + 2) [] .empty cs).map fun t =>
    .table (Draft.finishEntries t.entries)

end MarketAlerts.Toml

import MarketAlerts.Json.Basic

/-!
# Writing JSON text

`Json.compact` writes a value without blanks, `Json.pretty` with two spaces per level and a line
per member. Floats are written in shortest positional notation; those that are no number are
`null`.
-/

namespace MarketAlerts.Json

/-- Two hexadecimal digits, in lower case. -/
def hex2 (n : Nat) : List Char := [Nat.digitChar (n / 16), Nat.digitChar (n % 16)]

/-- A character inside a string. -/
def quotedChar (c : Char) : List Char :=
  if c = '"' then ['\\', '"']
  else if c = '\\' then ['\\', '\\']
  else if c = '\n' then ['\\', 'n']
  else if c = '\r' then ['\\', 'r']
  else if c = '\t' then ['\\', 't']
  else if c = '\x08' then ['\\', 'b']
  else if c = '\x0c' then ['\\', 'f']
  else if c.toNat < 0x20 then ['\\', 'u', '0', '0'] ++ hex2 c.toNat
  else [c]

/-- A string between quotes. -/
def quoted (s : String) : String :=
  "\"" ++ String.ofList (s.toList.flatMap quotedChar) ++ "\""

/-- A number. -/
def Number.text : Number → String
  | .int n => toString n
  | .float x => if x.isFinite then Binary64.toPointedText x else "null"
  | .negativeNaN => "null"

mutual

/-- A value without blanks. -/
def compact : Json → String
  | .null => "null"
  | .bool b => if b then "true" else "false"
  | .num n => n.text
  | .str s => quoted s
  | .arr vs => "[" ++ compactElements vs ++ "]"
  | .obj ms => "\x7b" ++ compactMembers ms ++ "\x7d"

/-- Elements with commas between them. -/
def compactElements : List Json → String
  | [] => ""
  | [v] => compact v
  | v :: w :: rest => compact v ++ "," ++ compactElements (w :: rest)

/-- Members with commas between them. -/
def compactMembers : List (String × Json) → String
  | [] => ""
  | [(k, v)] => quoted k ++ ":" ++ compact v
  | (k, v) :: m :: rest => quoted k ++ ":" ++ compact v ++ "," ++ compactMembers (m :: rest)

end

/-- A line break and the indentation of a level. -/
def newline (level : Nat) : String := "\n" ++ String.ofList (List.replicate (2 * level) ' ')

mutual

/-- A value at a nesting level, one member or element a line. -/
def prettyAt (level : Nat) : Json → String
  | .null => "null"
  | .bool b => if b then "true" else "false"
  | .num n => n.text
  | .str s => quoted s
  | .arr [] => "[]"
  | .arr (v :: vs) => "[" ++ prettyElements (level + 1) (v :: vs) ++ newline level ++ "]"
  | .obj [] => "\x7b\x7d"
  | .obj (m :: ms) => "\x7b" ++ prettyMembers (level + 1) (m :: ms) ++ newline level ++ "\x7d"

/-- Elements, each on a line of its own. -/
def prettyElements (level : Nat) : List Json → String
  | [] => ""
  | [v] => newline level ++ prettyAt level v
  | v :: w :: rest => newline level ++ prettyAt level v ++ "," ++ prettyElements level (w :: rest)

/-- Members, each on a line of its own. -/
def prettyMembers (level : Nat) : List (String × Json) → String
  | [] => ""
  | [(k, v)] => newline level ++ quoted k ++ ": " ++ prettyAt level v
  | (k, v) :: m :: rest =>
    newline level ++ quoted k ++ ": " ++ prettyAt level v ++ "," ++ prettyMembers level (m :: rest)

end

/-- A value with two spaces per level and a line per member. -/
def pretty (v : Json) : String := prettyAt 0 v

end MarketAlerts.Json

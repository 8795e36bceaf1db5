/-!
# Segments of a template

A template text is a row of segments. `$name` and `$` with `name` in braces are placeholders,
`$$` stands for a dollar sign, and everything else is literal, also a dollar sign before anything
else but an opening brace. `Segment.parse` takes a text apart and `Segment.source` writes a
segment as it stood there.
-/

namespace MarketAlerts.Template

/-- A part of a template text. -/
inductive Segment where
  /-- Text that stands for itself. -/
  | literal (text : List Char)
  /-- Two dollar signs, for one. -/
  | dollar
  /-- The name of a variable; `braced` says whether it stood in braces. -/
  | placeholder (name : String) (braced : Bool)
deriving DecidableEq

/-- What is wrong with a text. -/
inductive Flaw where
  /-- An opening brace is not closed. -/
  | unterminated
  /-- What stands in braces is no name. -/
  | invalidName (name : String)
deriving DecidableEq

/-- The text of a flaw. -/
def Flaw.message : Flaw → String
  | .unterminated => "unterminated $\x7b"
  | .invalidName name => "invalid placeholder name \"" ++ name ++ "\""

/-- A text that is no template: where it goes wrong, counted in bytes, and why. -/
structure SyntaxFault where
  /-- The place of the dollar sign, in bytes of UTF-8. -/
  position : Nat
  /-- What is wrong there. -/
  flaw : Flaw
deriving DecidableEq

namespace Segment

/-- Whether a name may start with this character. -/
def isNameStart (c : Char) : Bool := c.isAlpha || c == '_'

/-- Whether this character may follow in a name. -/
def isNameChar (c : Char) : Bool := c.isAlphanum || c == '_'

/-- Whether some characters are a name. -/
def isName : List Char → Bool
  | [] => false
  | c :: cs => isNameStart c && (c :: cs).all isNameChar

/-- The segments with one more literal character before them. -/
def consChar (c : Char) : List Segment → List Segment
  | literal cs :: rest => literal (c :: cs) :: rest
  | segments => literal [c] :: segments

/-- The number of bytes of some characters. -/
def byteCount : List Char → Nat
  | [] => 0
  | c :: rest => c.utf8Size + byteCount rest

/-- The segments of the text that starts at byte `position`. -/
def parseFrom (position : Nat) : List Char → Except SyntaxFault (List Segment)
  | [] => .ok []
  | '$' :: '$' :: rest => (parseFrom (position + 2) rest).map (dollar :: ·)
  | '$' :: '{' :: rest =>
    match h : rest.dropWhile (· != '}') with
    | [] => .error ⟨position, .unterminated⟩
    | _ :: after =>
      have : after.length < rest.length := by
        have := (List.dropWhile_suffix (· != '}') (l := rest)).length_le
        simp only [h, List.length_cons] at this
        omega
      let name := rest.takeWhile (· != '}')
      if isName name then
        -- the dollar sign and the braces make up the other three bytes
        (parseFrom (position + byteCount name + 3) after).map
          (placeholder (String.ofList name) true :: ·)
      else .error ⟨position, .invalidName (String.ofList name)⟩
  | '$' :: c :: rest =>
    if isNameStart c then
      have : ((c :: rest).dropWhile isNameChar).length < rest.length + 2 := by
        have := (List.dropWhile_suffix isNameChar (l := c :: rest)).length_le
        simp only [List.length_cons] at this
        omega
      let name := (c :: rest).takeWhile isNameChar
      (parseFrom (position + byteCount name + 1) ((c :: rest).dropWhile isNameChar)).map
        (placeholder (String.ofList name) false :: ·)
    -- a dollar sign that begins nothing is a character like others
    else (parseFrom (position + 1) (c :: rest)).map (consChar '$')
  | c :: rest => (parseFrom (position + c.utf8Size) rest).map (consChar c)
termination_by text => text.length

/-- The segments of a text. -/
def parse (text : String) : Except SyntaxFault (List Segment) := parseFrom 0 text.toList

/-- A segment as it is written in a text. -/
def source : Segment → List Char
  | literal text => text
  | dollar => ['$', '$']
  | placeholder name true => '$' :: '{' :: name.toList ++ ['}']
  | placeholder name false => '$' :: name.toList

/-- The name in a placeholder. -/
def name? : Segment → Option String
  | placeholder name _ => some name
  | _ => none

end Segment

/-- The names that a text refers to, each once, in the order of their first use. -/
def placeholders (text : String) : Except SyntaxFault (List String) :=
  (Segment.parse text).map fun segments =>
    ((segments.filterMap Segment.name?).foldl
      (fun names name => if names.contains name then names else name :: names) []).reverse

end MarketAlerts.Template

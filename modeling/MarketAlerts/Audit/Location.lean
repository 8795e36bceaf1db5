import MarketAlerts.World.Basic

/-!
# Where the audit is kept

The audit is kept in one file of a folder. The folder is named by a path and the file by a URL made
of that path. So a scheme and slashes at the front of the path belong to the URL, a question mark
begins parameters, of which none are understood, and percent signs begin escapes.

What is left when these are gone is the name of the file, unless it begins with the scheme `file:`.
Then it is a URL once more, with a host, escapes and parameters of its own, and it may also ask for
an audit that is kept in memory only.
-/

namespace MarketAlerts.Audit

/-- Where the audit is kept. -/
structure Location where
  /-- The folder that there must be. -/
  folder : String
  /-- The file, which may be in another folder; there is none for an audit that is kept in memory
  only. -/
  file : Option String
deriving DecidableEq

/-- The name of the file. -/
def fileName : String := "alert-dispatch.db"

/-- The value of a hexadecimal digit in ASCII. -/
def hexValue? (b : UInt8) : Option Nat :=
  let n := b.toNat
  if 0x30 ≤ n ∧ n ≤ 0x39 then some (n - 0x30)
  else if 0x41 ≤ n ∧ n ≤ 0x46 then some (n - 0x41 + 10)
  else if 0x61 ≤ n ∧ n ≤ 0x66 then some (n - 0x61 + 10)
  else none

/-- The bytes without escapes: a percent sign and two hexadecimal digits stand for one byte, any
other percent sign stands for itself. -/
def unescaped : List UInt8 → List UInt8
  | b :: high :: low :: rest =>
    match hexValue? high, hexValue? low with
    | some h, some l =>
      if b = 0x25 then UInt8.ofNat (h * 16 + l) :: unescaped rest
      else b :: unescaped (high :: low :: rest)
    | _, _ => b :: unescaped (high :: low :: rest)
  | rest => rest

/-- The text without escapes, if that is a text. -/
def unescape? (text : List Char) : Option String :=
  String.fromUTF8? (unescaped (String.ofList text).toUTF8.toList).toByteArray

/-! ### The URL of a file -/

/-- The scheme of the URL that is made of a path. -/
def pathScheme : List Char := "sqlite:".toList

/-- The scheme of a file that is a URL itself. -/
def fileScheme : List Char := "file:".toList

/-- The text without the repetitions of a word at its front. -/
def dropRepeated (word text : List Char) : List Char :=
  if _ : word ≠ [] ∧ word <+: text then dropRepeated word (text.drop word.length) else text
termination_by text.length
decreasing_by
  have ⟨notEmpty, atFront⟩ := ‹word ≠ [] ∧ word <+: text›
  have := List.length_pos_iff.mpr notEmpty
  have := atFront.length_le
  simp only [List.length_drop]
  omega

/-- What follows the host. The host may be left out and may be this machine. -/
def afterHost? : List Char → Option (List Char)
  | '/' :: '/' :: rest =>
    let host := rest.takeWhile (· ≠ '/')
    if host = [] ∨ host = "localhost".toList then some (rest.drop host.length) else none
  | rest => some rest

/-- A part of a URL without escapes. An escaped zero character ends it. -/
def part? (text : List Char) : Option String :=
  (unescape? text).map fun part => String.ofList (part.toList.takeWhile (· ≠ '\x00'))

/-- Whether the audit is kept in memory only, after one more parameter. The audit is begun anew, so
that only those modes are of use which make a file or need none. -/
def parameter? (inMemory : Bool) (text : String) : Option Bool := do
  let name ← part? (text.toList.takeWhile (· ≠ '='))
  let value ← part? ((text.toList.dropWhile (· ≠ '=')).drop 1)
  match name, value with
  | "mode", "memory" => some true
  | "mode", "rwc" => some false
  | "cache", "shared" | "cache", "private" | "vfs", "unix" => some inMemory
  | "mode", _ | "cache", _ | "vfs", _ => none
  | _, _ => some inMemory

/-- The file that a URL names behind its scheme; there is none for an audit in memory only. A hash
ends the URL. -/
def fileOfUrl? (url : List Char) : Option (Option String) := do
  let url := (← afterHost? url).takeWhile (· ≠ '#')
  let file ← part? (url.takeWhile (· ≠ '?'))
  let parameters := match url.dropWhile (· ≠ '?') with
    | [] => []
    | _ :: query => (String.ofList query).splitOn "&"
  let inMemory ← parameters.foldlM parameter? (file = "" || file = ":memory:")
  return if inMemory then none else some file

/-- Where the audit of a folder is kept. -/
def Location.ofFolder? (folder : String) : Option Location := do
  let url := dropRepeated "//".toList (dropRepeated pathScheme (World.join folder fileName).toList)
  if url.contains '?' then none
  let file ← unescape? url
  if file.contains '\x00' then none
  if fileScheme <+: file.toList then
    return ⟨folder, ← fileOfUrl? (file.toList.drop fileScheme.length)⟩
  return ⟨folder, some file⟩

end MarketAlerts.Audit

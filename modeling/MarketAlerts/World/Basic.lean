import MarketAlerts.World.Http

/-!
# The world outside

A `World` says how the outside behaves: which files there are, how commands end and what comes
back for requests. Commands and requests may take some time at most; where the world gives no
answer, none came in that time.
-/

namespace MarketAlerts

/-- How a command ends. -/
inductive CommandEnd where
  /-- It succeeds. -/
  | succeeded
  /-- It fails. -/
  | failed
  /-- It could not be started. -/
  | notStarted
deriving DecidableEq

/-- How the outside behaves. -/
structure World where
  /-- The folders in which commands are looked up. -/
  searchPath : List String
  /-- Whether there is a file at a path. -/
  isFile : String → Bool
  /-- How a command with arguments ends within some milliseconds. -/
  run : Nat → String → List String → Option CommandEnd
  /-- What comes back for a request within some milliseconds. -/
  fetch : Nat → Http.Request → Option Http.Answer

namespace World

/-- The number of parts of a path. Empty parts do not count, nor does a dot after the first
part. -/
def pathParts (path : String) : Nat :=
  match path.splitOn "/" with
  | [] => 0
  | first :: rest =>
    (if first = "" then (if rest.isEmpty then 0 else 1) else 1)
      + (rest.filter fun part => part ≠ "" ∧ part ≠ ".").length

/-- How a command with arguments ends within some milliseconds. Texts are handed over with a zero
character at their end, so that none may hold one. -/
def runCommand (w : World) (milliseconds : Nat) (command : String) (arguments : List String) :
    Option CommandEnd :=
  if (command :: arguments).any (·.contains '\x00') then some .notStarted
  else w.run milliseconds command arguments

/-- A path in a folder. -/
def join (folder path : String) : String :=
  if folder.isEmpty || folder.endsWith "/" then folder ++ path else folder ++ "/" ++ path

/-- The file of a command. A path of several parts is taken as it is; any other is looked up in
the folders in order. -/
def findCommand? (w : World) (command : String) : Option String :=
  if 1 < pathParts command then
    if w.isFile command then some command else none
  else (w.searchPath.map (join · command)).find? w.isFile

end World

end MarketAlerts

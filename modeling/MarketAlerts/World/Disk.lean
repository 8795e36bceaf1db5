/-!
# Disks

A `Disk` holds folders and files, each known by the names on the way from the root. Paths lead
through folders only: a path that goes on behind a file leads nowhere, even where it goes back.
-/

namespace MarketAlerts

/-- A place on a disk, by the names on the way to it. -/
abbrev Place := List String

/-- Folders and files. -/
structure Disk where
  /-- The folders. -/
  folders : List Place
  /-- The files. -/
  files : List Place
  /-- The folder where relative paths begin. -/
  here : Place := []

namespace Disk

/-- Whether a part of a path only says that there must be a folder. -/
def staysAt (part : String) : Bool := part = "" || part = "."

/-- Where a path begins, and its parts. -/
def beginning (d : Disk) (path : String) : Place × List String :=
  (if path.startsWith "/" then [] else d.here, path.splitOn "/")

/-- The place that is reached from a folder by the parts of a path. -/
def follow? (d : Disk) : Place → List String → Option Place
  | place, [] => some place
  | place, part :: rest =>
    if !d.folders.contains place then none
    else if staysAt part then d.follow? place rest
    else if part = ".." then d.follow? place.dropLast rest
    else d.follow? (place ++ [part]) rest

/-- The place to which a path leads, whether or not there is anything. -/
def place? (d : Disk) (path : String) : Option Place :=
  let (start, parts) := d.beginning path
  if path.isEmpty then none else d.follow? start parts

/-- Whether a path leads to a file. -/
def isFile (d : Disk) (path : String) : Bool := (d.place? path).any d.files.contains

/-- Whether a part of a path can be a name. -/
def isName (part : String) : Bool := !part.contains '\x00' && part.utf8ByteSize ≤ 255

/-- The place that the parts of a path name from a folder. Nothing need be there on the way, and two
dots take back one name, but no file may be on the way. -/
def name? (d : Disk) : Place → List String → Option Place
  | place, [] => some place
  | place, part :: rest =>
    if staysAt part then d.name? place rest
    else if part = ".." then d.name? place.dropLast rest
    else if d.files.contains place || !isName part then none
    else d.name? (place ++ [part]) rest

/-- The disk with all folders that the parts of a path lead through, if no file is in their way. -/
def lead? (d : Disk) : Place → List String → Option Disk
  | _, [] => some d
  | place, part :: rest =>
    if staysAt part then d.lead? place rest
    else if part = ".." then d.lead? place.dropLast rest
    else
      let next := place ++ [part]
      if d.files.contains next || !isName part then none
      else lead? { d with folders := next :: d.folders } next rest

/-- The number of bytes in the full path of a place. -/
def pathBytes (place : Place) : Nat := place.foldl (fun n name => n + name.utf8ByteSize + 1) 0

/-- The disk with a new file at a place; its folder must be there. -/
def withFile? (d : Disk) (place : Place) : Option Disk :=
  if d.folders.contains place.dropLast && !d.folders.contains place && !d.files.contains place then
    some { d with files := place :: d.files }
  else none

/-- The disk with the folder of a path and all folders on the way to it. -/
def withFolder? (d : Disk) (path : String) : Option Disk :=
  let (start, parts) := d.beginning path
  d.lead? start parts

end Disk

end MarketAlerts

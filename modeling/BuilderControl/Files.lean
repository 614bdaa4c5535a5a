import BuilderControl.Error

/-! # Files in a directory

Paths start at a directory whose content is known, or at the root.  What is not listed does not
exist, except that whatever holds an entry is a directory.

* `Files.walk`       goes along the parts of a path
* `Files.readText`   reads the file at the end of it -/

namespace BuilderControl

inductive FileContent where
  | directory
  | bytes (content : List UInt8)
deriving DecidableEq, Inhabited

/-- Names along the way to a file; a place below the root starts with an empty name. -/
abbrev Place := List String

structure Files where
  entries : List (Place × FileContent) := []
deriving DecidableEq, Inhabited

namespace Files

/-- Parts of a path between slashes. -/
def parts (path : String) : List String := path.splitOn "/"

/-- The place where a path starts. -/
def start (path : String) : Place := if path.startsWith "/" then [""] else []

/-- The place above another; the root is above itself. -/
def above (place : Place) : Place :=
  if place = [""] then place
  else if place.all (· = "..") then place ++ [".."]
  else place.dropLast

/-- The place that a path names, if all names along it are those of directories. -/
def placeOf (path : String) : Place :=
  (parts path).foldl (fun place part =>
    if part = "" ∨ part = "." then place
    else if part = ".." then above place
    else place ++ [part]) (start path)

/-- Files by path. -/
def ofPaths (files : List (String × FileContent)) : Files :=
  ⟨files.map fun (path, content) => (placeOf path, content)⟩

/-- Whether a place is the start of paths, or above it. -/
def isTop (place : Place) : Bool := place.all (· = "..") || place = [""]

/-- What stands at a place. -/
def at? (files : Files) (place : Place) : Option FileContent :=
  if isTop place then some .directory
  else
    match files.entries.find? fun (entry, _) => entry = place with
    | some (_, content) => some content
    | none =>
      if files.entries.any fun (entry, _) => place.isPrefixOf entry then some .directory else none

/-- Length in bytes of the longest name. -/
def nameLimit : Nat := 255

/-- Length in bytes of the longest path. -/
def pathLimit : Nat := 4095

/-- Goes along a path from a place. -/
def walk (files : Files) (place : Place) : List String → Except StreamFault FileContent
  | [] => match files.at? place with
    | some content => .ok content
    | none => .error .notFound
  | part :: rest =>
    match files.at? place with
    | none => .error .notFound
    | some (.bytes _) => .error .notDirectory
    | some .directory =>
      if part = "" ∨ part = "." then files.walk place rest
      else if part = ".." then files.walk (above place) rest
      else if nameLimit < part.utf8ByteSize then .error .nameTooLong
      else files.walk (place ++ [part]) rest

/-- Reads a file as text. -/
def readText (files : Files) (path : String) : Except StreamFault String := do
  if path.contains '\x00' then throw .nulInName
  if pathLimit < path.utf8ByteSize then throw .nameTooLong
  if path.isEmpty then throw .notFound
  match ← files.walk (start path) (parts path) with
  | .directory => throw .isDirectory
  | .bytes content => match String.fromUTF8? ⟨content.toArray⟩ with
    | some text => return text
    | none => throw .notText

end Files

end BuilderControl

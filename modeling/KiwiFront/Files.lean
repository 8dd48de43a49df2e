/-!
# Files

Programs see files through a function that tells what stands at a path. Texts are
stored in UTF-8.
-/

namespace KiwiFront

/-- What stands at a path. -/
inductive FileEntry where
  | missing
  | directory
  | file (contents : ByteArray)

/-- What stands where. -/
abbrev Files := String -> FileEntry

/-- Why a path gives no text. -/
inductive ReadFault where
  | missing
  | directory
  | notUnicode
deriving DecidableEq

/-- The text at a path. -/
def FileEntry.text : FileEntry -> Except ReadFault String
  | .missing => .error .missing
  | .directory => .error .directory
  | .file contents =>
      match String.fromUTF8? contents with
      | some text => .ok text
      | none => .error .notUnicode

/-- What the system says when bytes are no text. -/
def notUnicodeMessage : String := "stream did not contain valid UTF-8"

/-- What the system says when a directory is read. -/
def directoryMessage : String := "Is a directory (os error 21)"

/-- The parts of a path; the ones that lead nowhere are left out. -/
def pathParts (path : String) : List String :=
  (path.splitOn "/").filter (fun part => part != "" && part != ".")

/-- A path without parts that lead nowhere. -/
def plainPath (path : String) : String :=
  (if path.toList.head? == some '/' then "/" else "") ++ String.intercalate "/" (pathParts path)

/-- A place, as seen from where the program runs. -/
inductive Place where
  /-- A directory further out. -/
  | outside
  /-- The end of a way inwards. -/
  | inside (parts : List String)
deriving DecidableEq

namespace Place

/-- The place that one more part of a path leads to from a directory. What else is
in the directories further out is not known. -/
def step? (part : String) : Place -> Option Place
  | .outside => if ["", ".", ".."].contains part then some .outside else none
  | .inside parts =>
      if part = "" ∨ part = "." then some (.inside parts)
      else if part = ".." then
        if parts.isEmpty then some .outside else some (.inside parts.dropLast)
      else some (.inside (parts ++ [part]))

end Place

namespace Files

/-- Whether a place holds other files, or is where the program runs. -/
def isInner (entries : List (List String × FileEntry)) (parts : List String) : Bool :=
  parts.isEmpty || entries.any (fun (name, _) => parts.isPrefixOf name)

/-- What stands at a place among entries with known places. -/
def entryAt (entries : List (List String × FileEntry)) : Place -> FileEntry
  | .outside => .directory
  | .inside parts =>
      match entries.lookup parts with
      | some entry => entry
      | none => if isInner entries parts then .directory else .missing

/-- What stands at the end of a way from a place. Every step has to start from a
directory. -/
def follow (entries : List (List String × FileEntry)) (place : Place) :
    List String -> FileEntry
  | [] => entryAt entries place
  | part :: rest =>
      match entryAt entries place, place.step? part with
      | .directory, some next => follow entries next rest
      | _, _ => .missing

/-- Files with known paths, in the directory where the program runs. -/
def ofEntries (entries : List (String × FileEntry)) : Files := fun path =>
  let placed := entries.map (fun (name, entry) => (pathParts name, entry))
  let start := if path.toList.head? == some '/' then Place.outside else .inside []
  if path.isEmpty then .missing else follow placed start (path.splitOn "/")

end Files

end KiwiFront

import Attest.Settings.Basic
/-!
# Finding settings

The settings of a directory are in the nearest file of a fixed name: in the directory itself,
or else in the directory around it, and so on. Only the nearest entry of that name counts that
can be looked up. If it cannot be read as settings, there are none. How texts are read as
settings is up to the caller.
-/

namespace Attest

/-- An entry of a tree of files. -/
inductive Entry where
  | file (text : String)
  /-- What is no directory and cannot be read as text. -/
  | unreadable
  | directory
  deriving DecidableEq, Repr

/-- The names that lead from the top of a tree to an entry, the last one first. -/
abbrev Path := List String

/-- What is at which path, and which paths cannot be looked up: because a directory may not be
searched, or because the path is too long. The directories around an entry are there as well. -/
structure FileTree where
  entries : List (Path × Entry)
  hidden : Path → Bool := fun _ => false

namespace FileTree

/-- The entry at a path. -/
def entry? (tree : FileTree) (path : Path) : Option Entry :=
  match List.lookup path tree.entries with
  | some e => some e
  | none => if path.isEmpty || tree.entries.any (path.isSuffixOf ·.1) then some .directory else none

/-- The entry that a look-up finds at a path. What cannot be looked up is not told from what is
not there. -/
def lookUp? (tree : FileTree) (path : Path) : Option Entry :=
  if tree.hidden path then none else tree.entry? path

/-- The path of the directory or file that a text of names leads to from a directory. A name
can be followed only from a directory; nothing is known above the top. -/
def follow? (tree : FileTree) : Path → List String → Option Path
  | path, [] => (tree.lookUp? path).map fun _ => path
  | path, name :: rest =>
    if tree.lookUp? path = some .directory then
      if name == "" || name == "." then follow? tree path rest
      else if name == ".." then
        match path with
        | [] => none
        | _ :: parent => follow? tree parent rest
      else follow? tree (name :: path) rest
    else none

/-- The names in a text that has slashes between them. -/
def names (text : String) : List String := (text.toList.splitOn '/').map String.ofList

/-- The path that a text of names leads to from the top. -/
def resolve? (tree : FileTree) (text : String) : Option Path := tree.follow? [] (names text)

end FileTree

namespace Settings

/-- The name of files with settings. -/
def fileName : String := ".verdict.yaml"

variable (read : String → Option Settings)

/-- The settings in an entry. -/
def ofEntry? : Entry → Option Settings
  | .file text => read text
  | .unreadable | .directory => none

/-- The settings that hold at a path. -/
def at? (tree : FileTree) : Path → Option Settings
  | [] => (tree.lookUp? [fileName]).bind ( ofEntry? read)
  | name :: parent =>
    match tree.lookUp? (fileName :: name :: parent) with
    -- The nearest entry decides, readable or not.
    | some e => ofEntry? read e
    | none => at? tree parent

/-- The settings that hold at the directory that a text of names leads to. -/
def discover? (tree : FileTree) (start : String) : Option Settings :=
  (tree.resolve? start).bind (at? read tree)

end Settings

end Attest

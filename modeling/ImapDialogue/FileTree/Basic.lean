import ImapDialogue.Text
import ImapDialogue.Wire.Utf8

/-!
Files, links and directories, each at a place: the names that lead to it from the root. A path
is walked name by name. Only a directory can be walked through, a link stands for the path it
holds, and a link that the path ends with is either followed or taken as it is.
-/

namespace ImapDialogue

abbrev Place := List String

inductive Entry where
  | file (content : String)
  | link (target : String)
  | directory
deriving DecidableEq, Repr

/-- The entries of a file tree with their places. The root is a directory without an entry. -/
structure FileTree where
  entries : List (Place × Entry)
deriving DecidableEq, Repr

inductive Stride where
  | reached (place : Place) (entry : Entry)
  | vacant (place : Place)
  | blocked
deriving DecidableEq, Repr

inductive Destination where
  | found (place : Place)
  | absent
  | blocked
deriving DecidableEq, Repr

def linkLimit : Nat := 40

def nameLimit : Nat := 255

def pathLimit : Nat := 4095

/-- The names of a path in order. A path that ends with a slash has an empty last name. -/
def pathNames (path : String) : List String :=
  (Parts.between '/' path.toList).map String.ofList

def pathOrigin (directory : Place) (path : String) : Place :=
  match path.toList with
  | '/' :: _ => []
  | _ => directory

namespace FileTree

def empty : FileTree := ⟨[]⟩

def entry? (tree : FileTree) (place : Place) : Option Entry :=
  if place.isEmpty then some .directory else tree.entries.lookup place

def erase (tree : FileTree) (place : Place) : FileTree :=
  ⟨tree.entries.filter fun (other, _) => other != place⟩

def insert (tree : FileTree) (place : Place) (entry : Entry) : FileTree :=
  ⟨(tree.erase place).entries ++ [(place, entry)]⟩

/-- Goes from a place to a name. An empty name and a single dot stay, two dots go up, and the
root is above itself. -/
def stride (tree : FileTree) (place : Place) (name : String) : Stride :=
  if tree.entry? place ≠ some .directory then .blocked
  else if name = "" ∨ name = "." then .reached place .directory
  else if name = ".." then .reached place.dropLast .directory
  else if nameLimit < (Utf8.encode name).length then .blocked
  else match tree.entry? (place ++ [name]) with
    | none => .vacant (place ++ [name])
    | some entry => .reached (place ++ [name]) entry

/-- Walks along names, given how to go on where a link is followed: from the place the link
lies in, with its target and the names behind it. -/
def walkNames (tree : FileTree) (follows : Bool)
    (jump : Place → String → List String → Destination) : Place → List String → Destination
  | place, [] => .found place
  | place, name :: rest =>
      match tree.stride place name with
      | .blocked => .blocked
      | .vacant _ => .absent
      | .reached here (.link target) =>
          if rest.isEmpty && !follows then .found here else jump place target rest
      | .reached here _ => walkNames tree follows jump here rest

def walk (tree : FileTree) (follows : Bool) : Nat → Place → List String → Destination
  | 0 => tree.walkNames follows fun _ _ _ => .blocked
  | links + 1 => tree.walkNames follows fun place target rest =>
      tree.walk follows links (pathOrigin place target) (pathNames target ++ rest)

/-- What a path leads to in a directory. The empty path leads nowhere, and one that is too
long or holds a null character is none. -/
def find (tree : FileTree) (follows : Bool) (directory : Place) (path : String) : Destination :=
  if path.toList.contains '\x00' || pathLimit < (Utf8.encode path).length then .blocked
  else if path.isEmpty then .absent
  else tree.walk follows linkLimit (pathOrigin directory path) (pathNames path)

def read? (tree : FileTree) (directory : Place) (path : String) : Option String :=
  match tree.find true directory path with
  | .found place =>
      match tree.entry? place with
      | some (.file content) => some content
      | _ => none
  | _ => none

/-- Removes the file or link that a path names; a link is not followed. Tells whether nothing
lies there any more: a directory is not removed, and what the path cannot reach stays. -/
def remove (tree : FileTree) (directory : Place) (path : String) : FileTree × Bool :=
  match tree.find false directory path with
  | .blocked => (tree, false)
  | .absent => (tree, true)
  | .found place =>
      if tree.entry? place = some .directory then (tree, false) else (tree.erase place, true)

end FileTree

end ImapDialogue

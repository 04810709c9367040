import ImapDialogue.FileTree.Basic

/-!
Making entries in a file tree, with the directories on the way to them.
-/

namespace ImapDialogue.FileTree

/-- Makes an entry at the end of a path of names, given how to go on where a link is followed.
What is missing on the way becomes a directory. A file at the end gets the new content, any
other entry stays. -/
def growNames (entry : Entry) (jump : FileTree → Place → String → List String → FileTree) :
    FileTree → Place → List String → FileTree
  | tree, _, [] => tree
  | tree, place, name :: rest =>
      match tree.stride place name with
      | .blocked => tree
      | .vacant here =>
          if rest.isEmpty then tree.insert here entry
          else growNames entry jump (tree.insert here .directory) here rest
      | .reached here (.file _) =>
          match rest, entry with
          | [], .file _ => tree.insert here entry
          | _, _ => tree
      | .reached _ (.link target) =>
          match rest, entry with
          | [], .link _ => tree
          | _, _ => jump tree place target rest
      | .reached here .directory => growNames entry jump tree here rest

/-- Makes an entry at the end of a path of names, following so many links at most. -/
def growWithin (entry : Entry) : Nat → FileTree → Place → List String → FileTree
  | 0 => growNames entry fun tree _ _ _ => tree
  | links + 1 => growNames entry fun tree place target rest =>
      growWithin entry links tree (pathOrigin place target) (pathNames target ++ rest)

def grow (tree : FileTree) (directory : Place) (path : String) (entry : Entry) : FileTree :=
  growWithin entry linkLimit tree (pathOrigin directory path) (pathNames path)

def withDirectory (place : Place) : FileTree :=
  growNames .directory (fun tree _ _ _ => tree) empty [] place

end ImapDialogue.FileTree

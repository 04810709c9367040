import ImapDialogue.FileTree.Basic

/-!
What lies below a directory, as sorted text. Texts are in the order of their 16-bit units: a
character beyond U+FFFF counts as the two units of its surrogate pair and so comes in front of the
characters from U+E000 on.
-/

namespace ImapDialogue

namespace Units

def ofChar (char : Char) : List Nat :=
  let code := char.toNat
  if code < 0x10000 then [code]
  else [0xD800 + (code - 0x10000) / 0x400, 0xDC00 + (code - 0x10000) % 0x400]

def ofText (text : String) : List Nat := text.toList.flatMap ofChar

def inOrder (first second : String) : Bool := !(ofText second < ofText first : Bool)

end Units

namespace FileTree

def line (names : List String) : Entry → String
  | .directory => "/".intercalate names ++ "/"
  | _ => "/".intercalate names

def listing (tree : FileTree) (directory : Place) : List String :=
  (tree.entries.filterMap fun (place, entry) =>
    if directory.isPrefixOf place && directory.length < place.length then
      some (line (place.drop directory.length) entry)
    else none).mergeSort Units.inOrder

end FileTree

end ImapDialogue

import ImapDialogue.FileTree.Basic
import ImapDialogue.Notice

/-!
Removing a lock file that an earlier session left behind. Whatever goes wrong is told and
otherwise ignored.
-/

namespace ImapDialogue

/-- How removing a lock file went: the files behind it, whether nothing lies there any more,
and what is told about it. -/
structure LockRemoval where
  files : FileTree
  removed : Bool
  notice : Notice
deriving Repr

def FileTree.removeLock (files : FileTree) (directory : Place) (path : String) : LockRemoval :=
  match files.remove directory path with
  | (files, true) => ⟨files, true, .lockRemoved path⟩
  | (files, false) => ⟨files, false, .lockKept path⟩

namespace LockFile

def path? : LockFile → Option String
  | .standard => some Settings.standardLockPath
  | .skip => none
  | .path given => some given

end LockFile

end ImapDialogue

import ImapDialogue.Proofs.FileTree.Growing
import ImapDialogue.Session.Lock

/-!
Removing a lock file touches nothing but the lock. What goes is the file or link that the path
itself names, and where nothing can go everything stays.
-/

namespace ImapDialogue

theorem pathNames_ne_nil (path : String) : pathNames path ≠ [] := by
  rw [pathNames, ne_eq, List.map_eq_nil_iff]
  unfold Parts.between
  split
  · exact List.cons_ne_nil _ _
  · split
    · exact List.cons_ne_nil _ _
    · split <;> exact List.cons_ne_nil _ _

namespace FileTree

variable {tree : FileTree} {directory place : Place} {path : String}

/-- A path itself names a place: under its last name, in the directory that the names in front of
that one lead to. Links in front are followed, and one under the last name is not. -/
def Names (tree : FileTree) (directory : Place) (path : String) (place : Place) : Prop :=
  ∃ front name parent, pathNames path = front ++ [name] ∧
    tree.walk true linkLimit (pathOrigin directory path) front = .found parent ∧
    tree.entry? parent = some .directory ∧
    name ∉ ["", ".", ".."] ∧ place = parent ++ [name]

theorem find_last {front : List String} {name : String} (parts : pathNames path = front ++ [name])
    (tree : FileTree) :
    tree.find false directory path =
      if path.toList.contains '\x00' || pathLimit < (Utf8.encode path).length then .blocked
      else if path.isEmpty then .absent
      else (tree.walk true linkLimit (pathOrigin directory path) front).further
        fun parent => (tree.stride parent name).arrival := by
  rw [find, parts, walk_concat]

/-- Where a path leads something lies, one stride on from where the names in front of the last one
lead. -/
theorem stride_of_find {front : List String} {name : String}
    (parts : pathNames path = front ++ [name]) (found : tree.find false directory path = .found place) :
    ∃ parent entry, tree.walk true linkLimit (pathOrigin directory path) front = .found parent ∧
      tree.stride parent name = .reached place entry := by
  rw [find_last parts] at found
  split at found
  · cases found
  split at found
  · cases found
  cases leads : tree.walk true linkLimit (pathOrigin directory path) front with
  | absent => rw [leads] at found; cases found
  | blocked => rw [leads] at found; cases found
  | found parent =>
      rw [leads, Destination.further] at found
      cases strides : tree.stride parent name with
      | blocked => rw [strides] at found; cases found
      | vacant here => rw [strides] at found; cases found
      | reached here entry =>
          rw [strides] at found
          cases found
          exact ⟨parent, entry, rfl, strides⟩

/-- A path that led to a file or link leads nowhere without it. -/
theorem find_erase {front : List String} {name : String} {parent : Place} {entry : Entry}
    (parts : pathNames path = front ++ [name]) (found : tree.find false directory path = .found place)
    (leads : tree.walk true linkLimit (pathOrigin directory path) front = .found parent)
    (strides : tree.stride parent name = .reached place entry)
    (lies : tree.entry? place = some entry) (other : entry ≠ .directory) :
    (tree.erase place).find false directory path = .absent := by
  have vacant : (tree.erase place).stride parent name = .vacant place := by
    rw [stride_erase lies other, if_pos strides]
  rw [find_last parts] at found ⊢
  split at found
  · cases found
  · next proper =>
      rw [if_neg proper]
      split
      · rfl
      · -- What is gone may have been on the way there too, and then the way ends before.
        rcases walk_erase lies other true linkLimit (pathOrigin directory path) front with
          same | absent
        · rw [same, leads, Destination.further, vacant]
          rfl
        · rw [absent]
          rfl

/-- What a removal comes to: nothing could go, nothing was there, or what the path names is gone. -/
theorem Rooted.remove_cases (rooted : tree.Rooted) (directory : Place) (path : String) :
    tree.remove directory path = (tree, false) ∨
      (tree.find false directory path = .absent ∧ tree.remove directory path = (tree, true)) ∨
      ∃ place entry, tree.Names directory path place ∧ tree.entry? place = some entry ∧
        entry ≠ .directory ∧ (tree.erase place).find false directory path = .absent ∧
        tree.remove directory path = (tree.erase place, true) := by
  unfold remove
  cases found : tree.find false directory path with
  | blocked => exact .inl rfl
  | absent => exact .inr (.inl ⟨rfl, rfl⟩)
  | found place =>
      have parts := (List.dropLast_concat_getLast (pathNames_ne_nil path)).symm
      obtain ⟨parent, entry, leads, strides⟩ := stride_of_find parts found
      obtain ⟨lies, named⟩ := rooted.stride_reached strides
      dsimp only
      rw [lies]
      by_cases whole : entry = .directory
      · left
        rw [if_pos (congrArg some whole)]
      · obtain ⟨inside, proper, last⟩ := named whole
        refine .inr (.inr ⟨place, entry, ⟨_, _, parent, parts, leads, inside, proper, last⟩, lies, whole,
          find_erase parts found leads strides lies whole, ?_⟩)
        rw [if_neg fun same => whole (Option.some.inj same)]

/-- Behind a removal every entry lies in a directory as before. -/
theorem Rooted.removeLock (rooted : tree.Rooted) (directory : Place) (path : String) :
    (tree.removeLock directory path).files.Rooted := by
  rcases rooted.remove_cases directory path with
    kept | ⟨_, nothing⟩ | ⟨place, entry, _, lies, other, _, taken⟩
  · rw [FileTree.removeLock, kept]
    exact rooted
  · rw [FileTree.removeLock, nothing]
    exact rooted
  · rw [FileTree.removeLock, taken]
    exact rooted.erase lies other

/-- Where a path leads nowhere, removing it changes nothing and succeeds. -/
theorem removeLock_absent (absent : tree.find false directory path = .absent) :
    tree.removeLock directory path = ⟨tree, true, .lockRemoved path⟩ := by
  rw [removeLock, remove, absent]

/-- Removing a lock takes at most the one file or link away that the path itself names. It tells how
that went, once, and only if it went well anything has changed; then the path leads nowhere, and
doing it again changes nothing. -/
theorem removeLock_touches_lock_only {files : FileTree} (rooted : files.Rooted) (directory : Place)
    (path : String) :
    let removal := files.removeLock directory path
    (removal.removed = false → removal.files = files ∧ removal.notice = .lockKept path) ∧
      (removal.removed = true →
        removal.notice = .lockRemoved path ∧
          removal.files.find false directory path = .absent ∧
          removal.files.removeLock directory path = ⟨removal.files, true, .lockRemoved path⟩ ∧
          (removal.files = files ∨
            ∃ place entry, files.Names directory path place ∧ files.entry? place = some entry ∧
              entry ≠ .directory ∧
              ∀ other, removal.files.entry? other =
                if other = place then none else files.entry? other)) := by
  rcases rooted.remove_cases directory path with
    kept | ⟨absent, nothing⟩ | ⟨place, entry, names, lies, other, absent, taken⟩
  · simp [removeLock, kept]
  · have same := removeLock_absent absent
    simp [same, absent]
  · have again := removeLock_absent absent
    have removal : files.removeLock directory path = ⟨files.erase place, true, .lockRemoved path⟩ := by
      rw [removeLock, taken]
    rw [removal]
    refine ⟨nofun, fun _ => ⟨rfl, absent, again, .inr ⟨place, entry, names, lies, other, ?_⟩⟩⟩
    exact entry?_erase (ne_root_of_entry lies other)

def linkedLock : FileTree :=
  ((empty.grow [] "kept" (.file "mail")).grow [] "maildir/.lock" (.link "../kept")).grow []
    "work/mail" (.link "../maildir")

theorem linked_lock_is_removed_and_target_kept :
    let removal := linkedLock.removeLock ["work"] "mail//./.lock"
    linkedLock.Rooted ∧ removal.removed = true ∧
      removal.files.find false ["work"] "mail//./.lock" = .absent ∧
      removal.files.entry? ["kept"] = some (.file "mail") := by
  have rooted : linkedLock.Rooted := ((rooted_empty.grow _ _ _).grow _ _ _).grow _ _ _
  have removed : (linkedLock.removeLock ["work"] "mail//./.lock").removed = true := by decide +kernel
  obtain ⟨_, absent, _, _⟩ := (removeLock_touches_lock_only rooted ["work"] "mail//./.lock").2 removed
  exact ⟨rooted, removed, absent, by decide +kernel⟩

end FileTree

end ImapDialogue

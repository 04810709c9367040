import ImapDialogue.FileTree.Growth
import ImapDialogue.Proofs.FileTree.Walking

/-!
Trees that are grown and cut. Entries are made in directories only and a directory is never taken
away, so every entry keeps lying in one.
-/

namespace ImapDialogue.FileTree

variable {tree : FileTree}

theorem rooted_empty : empty.Rooted := fun _ member => absurd member List.not_mem_nil

theorem entry?_insert {here : Place} (below : here ≠ []) (entry : Entry) (place : Place) :
    FileTree.entry? (tree.insert here entry) place =
      if place = here then some entry else tree.entry? place := by
  have erased := @entry?_erase tree here below place
  by_cases root : place.isEmpty = true
  · have other : place ≠ here := by
      rw [List.isEmpty_iff.mp root]
      exact below.symm
    rw [if_neg other, FileTree.entry?, FileTree.entry?, if_pos root, if_pos root]
  · rw [FileTree.entry?, if_neg root] at erased ⊢
    rw [insert, List.lookup_append, erased]
    by_cases same : place = here
    · simp [same]
    · have apart : (place == here) = false := beq_eq_false_iff_ne.mpr same
      simp [same, List.lookup_cons, apart]

theorem Rooted.insert (rooted : tree.Rooted) {parent : Place} {name : String}
    (inside : tree.entry? parent = some .directory)
    (free : tree.entry? (parent ++ [name]) ≠ some .directory) (entry : Entry) :
    (tree.insert (parent ++ [name]) entry).Rooted := by
  have below : parent ++ [name] ≠ [] := List.append_ne_nil_of_right_ne_nil _ (List.cons_ne_nil _ _)
  have kept : ∀ place, tree.entry? place = some .directory →
      FileTree.entry? (tree.insert (parent ++ [name]) entry) place = some .directory := by
    intro place lies
    have apart : place ≠ parent ++ [name] := by
      rintro rfl
      exact free lies
    rw [entry?_insert below, if_neg apart, lies]
  intro item member
  rcases List.mem_append.mp member with older | newer
  · exact kept _ (rooted item (List.mem_filter.mp older).1)
  · rw [List.mem_singleton.mp newer, List.dropLast_concat]
    exact kept parent inside

theorem Rooted.erase (rooted : tree.Rooted) {gone : Place} {entry : Entry}
    (lies : tree.entry? gone = some entry) (other : entry ≠ .directory) : (tree.erase gone).Rooted := by
  intro item member
  have inside := rooted item (List.mem_filter.mp member).1
  have apart : item.1.dropLast ≠ gone := by
    intro same
    rw [same, lies] at inside
    exact other (Option.some.inj inside)
  rw [entry?_erase (ne_root_of_entry lies other), if_neg apart, inside]

theorem stride_vacant {place here : Place} {name : String}
    (vacant : tree.stride place name = .vacant here) :
    tree.entry? place = some .directory ∧ here = place ++ [name] ∧ tree.entry? here = none := by
  unfold stride at vacant
  split at vacant
  · cases vacant
  · next inside =>
      split_ifs at vacant
      split at vacant
      · next none =>
          cases vacant
          exact ⟨not_not.mp inside, rfl, none⟩
      · cases vacant

theorem Rooted.growNames {entry : Entry}
    {jump : FileTree → Place → String → List String → FileTree}
    (keeps : ∀ tree place target rest, tree.Rooted → (jump tree place target rest).Rooted)
    (rooted : tree.Rooted) (place : Place) (names : List String) :
    (growNames entry jump tree place names).Rooted := by
  fun_induction FileTree.growNames entry jump tree place names with
  | case1 => exact rooted
  | case2 => exact rooted
  | case3 tree place name rest here vacant last =>
      obtain ⟨inside, rfl, none⟩ := stride_vacant vacant
      exact rooted.insert inside (by rw [none]; exact nofun) entry
  | case4 tree place name rest here vacant more induction =>
      obtain ⟨inside, rfl, none⟩ := stride_vacant vacant
      exact induction (rooted.insert inside (by rw [none]; exact nofun) .directory)
  | case5 tree place name here old reached content =>
      obtain ⟨lies, named⟩ := rooted.stride_reached reached
      obtain ⟨inside, _, rfl⟩ := named nofun
      exact rooted.insert inside (by rw [lies]; exact nofun) _
  | case6 => exact rooted
  | case7 => exact rooted
  | case8 tree place name rest here target reached followed => exact keeps _ _ _ _ rooted
  | case9 tree place name rest here reached induction => exact induction rooted

theorem Rooted.grow (rooted : tree.Rooted) (directory : Place) (path : String) (entry : Entry) :
    (tree.grow directory path entry).Rooted := by
  have within : ∀ links tree place names, Rooted tree →
      (growWithin entry links tree place names).Rooted := by
    intro links
    induction links with
    | zero =>
        intro tree place names rooted
        exact rooted.growNames (fun _ _ _ _ rooted => rooted) place names
    | succ links induction =>
        intro tree place names rooted
        exact rooted.growNames (fun _ _ _ _ rooted => induction _ _ _ rooted) place names
  exact within linkLimit tree _ _ rooted

end ImapDialogue.FileTree

import ImapDialogue.FileTree.Basic
import Mathlib.Tactic.Common

/-!
Where paths lead. The last name of a path, if it is not followed, is one stride from where the
names in front of it lead with every link followed. Behind a removal a path leads where it led
before, or nowhere.
-/

namespace ImapDialogue

def Stride.arrival : Stride → Destination
  | .reached place _ => .found place
  | .vacant _ => .absent
  | .blocked => .blocked

def Destination.further (next : Place → Destination) : Destination → Destination
  | .found place => next place
  | .absent => .absent
  | .blocked => .blocked

namespace FileTree

variable {tree : FileTree}

/-- Every entry lies in a directory. -/
def Rooted (tree : FileTree) : Prop :=
  ∀ item ∈ tree.entries, tree.entry? item.1.dropLast = some .directory

theorem Rooted.parent (rooted : tree.Rooted) {place : Place} {entry : Entry}
    (lies : tree.entry? place = some entry) : tree.entry? place.dropLast = some .directory := by
  by_cases root : place.isEmpty = true
  · rw [List.isEmpty_iff.mp root]
    rfl
  · rw [FileTree.entry?, if_neg root] at lies
    obtain ⟨front, back, parts, _⟩ := List.lookup_eq_some_iff.mp lies
    have member : (place, entry) ∈ tree.entries := by
      rw [parts]
      exact List.mem_append_right _ List.mem_cons_self
    exact rooted _ member

/-! ## Strides -/

theorem stride_cases {place here : Place} {name : String} {entry : Entry}
    (reaches : tree.stride place name = .reached here entry) :
    tree.entry? place = some .directory ∧
      (entry = .directory ∧ (here = place ∨ here = place.dropLast) ∨
        name ∉ ["", ".", ".."] ∧ here = place ++ [name] ∧ tree.entry? here = some entry) := by
  unfold stride at reaches
  split at reaches
  · cases reaches
  · next inside =>
      refine ⟨not_not.mp inside, ?_⟩
      split at reaches
      · cases reaches
        exact .inl ⟨rfl, .inl rfl⟩
      · next proper =>
          split at reaches
          · cases reaches
            exact .inl ⟨rfl, .inr rfl⟩
          · next down =>
              split at reaches
              · cases reaches
              · split at reaches
                · cases reaches
                · next found =>
                    cases reaches
                    refine .inr ⟨?_, rfl, found⟩
                    simp only [List.mem_cons, List.not_mem_nil, or_false, not_or] at proper ⊢
                    exact ⟨proper.1, proper.2, down⟩

/-- In a rooted tree what is reached lies there, and a file or a link is reached by its own name
only, from the directory that it lies in. -/
theorem Rooted.stride_reached (rooted : tree.Rooted) {place here : Place} {name : String}
    {entry : Entry} (reaches : tree.stride place name = .reached here entry) :
    tree.entry? here = some entry ∧
      (entry ≠ .directory →
        tree.entry? place = some .directory ∧ name ∉ ["", ".", ".."] ∧ here = place ++ [name]) := by
  obtain ⟨inside, ⟨rfl, stays | rises⟩ | ⟨proper, last, lies⟩⟩ := stride_cases reaches
  · exact ⟨stays ▸ inside, absurd rfl⟩
  · exact ⟨rises ▸ rooted.parent inside, absurd rfl⟩
  · exact ⟨lies, fun _ => ⟨inside, proper, last⟩⟩

/-! ## The last name -/

theorem walkNames_concat {name : String} {jump jump' : Place → String → List String → Destination}
    (same : ∀ place target front, jump place target (front ++ [name]) =
      (jump' place target front).further fun parent => (tree.stride parent name).arrival)
    (place : Place) (front : List String) :
    tree.walkNames false jump place (front ++ [name]) =
      (tree.walkNames true jump' place front).further
        fun parent => (tree.stride parent name).arrival := by
  induction front generalizing place with
  | nil =>
      simp only [List.nil_append, walkNames, Destination.further]
      cases tree.stride place name with
      | blocked => rfl
      | vacant here => rfl
      | reached here entry => cases entry <;> rfl
  | cons next front induction =>
      simp only [List.cons_append, walkNames]
      cases tree.stride place next with
      | blocked => rfl
      | vacant here => rfl
      | reached here entry =>
          cases entry with
          | file content => exact induction here
          | directory => exact induction here
          | link target =>
              -- This is not the last name, so a link is followed on either side.
              have more : (front ++ [name]).isEmpty = false := by simp
              simp only [more, Bool.false_and, Bool.not_true, Bool.and_false, Bool.false_eq_true,
                if_false]
              exact same place target front

theorem walk_concat (links : Nat) (place : Place) (front : List String) (name : String) :
    tree.walk false links place (front ++ [name]) =
      (tree.walk true links place front).further
        fun parent => (tree.stride parent name).arrival := by
  induction links generalizing place front with
  | zero => exact walkNames_concat (fun _ _ _ => rfl) place front
  | succ links induction =>
      apply walkNames_concat
      intro place target front
      rw [← List.append_assoc]
      exact induction _ _

/-! ## Removals -/

theorem entry?_erase {gone : Place} (below : gone ≠ []) (place : Place) :
    FileTree.entry? (tree.erase gone) place = if place = gone then none else tree.entry? place := by
  by_cases root : place.isEmpty = true
  · have other : place ≠ gone := by
      rw [List.isEmpty_iff.mp root]
      exact below.symm
    rw [if_neg other, FileTree.entry?, FileTree.entry?, if_pos root, if_pos root]
  · rw [FileTree.entry?, FileTree.entry?, if_neg root, if_neg root, erase]
    induction tree.entries with
    | nil => exact (ite_self _).symm
    | cons item items induction =>
        obtain ⟨here, lies⟩ := item
        by_cases erased : here = gone
        · subst erased
          rw [List.filter_cons_of_neg (by simp), induction, List.lookup_cons]
          by_cases same : place = here
          · rw [if_pos same, if_pos same]
          · rw [if_neg same, if_neg same, beq_eq_false_iff_ne.mpr same]
        · rw [List.filter_cons_of_pos (by simpa using erased), List.lookup_cons, List.lookup_cons,
            induction]
          by_cases same : place = here
          · subst same
            rw [beq_self_eq_true]
            exact (if_neg erased).symm
          · rw [beq_eq_false_iff_ne.mpr same]

variable {gone : Place} {entry : Entry}

section Removed

variable (lies : tree.entry? gone = some entry) (other : entry ≠ .directory)
include lies other

theorem ne_root_of_entry : gone ≠ [] := by
  rintro rfl
  exact other (Option.some.inj lies).symm

/-- Without a file or link every stride is the same, but for the one onto it. -/
theorem stride_erase (place : Place) (name : String) :
    (tree.erase gone).stride place name =
      if tree.stride place name = .reached gone entry then .vacant gone
      else tree.stride place name := by
  have erased := @entry?_erase tree gone (ne_root_of_entry lies other)
  -- What goes is no directory, so one can still be entered where one could.
  by_cases inside : tree.entry? place = some .directory
  · have apart : place ≠ gone := by
      rintro rfl
      rw [lies] at inside
      exact other (Option.some.inj inside)
    have inside' : FileTree.entry? (tree.erase gone) place = some .directory := by
      rw [erased, if_neg apart, inside]
    have unlike : ∀ here, Stride.reached here .directory ≠ .reached gone entry := by
      rintro here same
      exact other (Stride.reached.inj same).2.symm
    simp only [stride, inside, inside', ne_eq, not_true_eq_false, if_false, erased]
    by_cases stays : name = "" ∨ name = "."
    · rw [if_pos stays, if_pos stays, if_neg (unlike _)]
    by_cases rises : name = ".."
    · rw [if_neg stays, if_pos rises, if_neg stays, if_pos rises, if_neg (unlike _)]
    by_cases long : nameLimit < (Utf8.encode name).length
    · simp only [stays, rises, long, if_true, reduceCtorEq, if_false]
    by_cases onto : place ++ [name] = gone
    · simp only [stays, rises, long, onto, lies, if_true, if_false]
    · simp only [stays, rises, long, onto, if_false]
      cases tree.entry? (place ++ [name]) with
      | none => rfl
      | some found =>
          have past : Stride.reached (place ++ [name]) found ≠ .reached gone entry :=
            fun same => onto (Stride.reached.inj same).1
          simp only [past, if_false]
  · have outside : FileTree.entry? (tree.erase gone) place ≠ some .directory := by
      rw [erased]
      split
      · exact nofun
      · exact inside
    rw [stride, stride, if_pos inside, if_pos outside, if_neg nofun]

theorem walkNames_erase {follows : Bool} {jump jump' : Place → String → List String → Destination}
    (same : ∀ place target rest,
      jump' place target rest = jump place target rest ∨ jump' place target rest = .absent)
    (place : Place) (names : List String) :
    (tree.erase gone).walkNames follows jump' place names = tree.walkNames follows jump place names ∨
      (tree.erase gone).walkNames follows jump' place names = .absent := by
  induction names generalizing place with
  | nil => exact .inl rfl
  | cons name rest induction =>
      simp only [walkNames]
      rw [stride_erase lies other place name]
      by_cases onto : tree.stride place name = .reached gone entry
      · rw [if_pos onto]
        exact .inr rfl
      · rw [if_neg onto]
        cases tree.stride place name with
        | blocked => exact .inl rfl
        | vacant here => exact .inl rfl
        | reached here found =>
            cases found with
            | file content => exact induction here
            | directory => exact induction here
            | link target =>
                dsimp only
                split
                · exact .inl rfl
                · exact same place target rest

/-- Without a file or link a walk leads where it led, or nowhere. -/
theorem walk_erase (follows : Bool) (links : Nat) (place : Place) (names : List String) :
    (tree.erase gone).walk follows links place names = tree.walk follows links place names ∨
      (tree.erase gone).walk follows links place names = .absent := by
  induction links generalizing place names with
  | zero => exact walkNames_erase lies other (fun _ _ _ => .inl rfl) place names
  | succ links induction =>
      exact walkNames_erase lies other (fun _ _ _ => induction _ _) place names

end Removed

end FileTree

end ImapDialogue

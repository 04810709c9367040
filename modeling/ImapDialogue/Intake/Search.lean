import ImapDialogue.Literal
import ImapDialogue.Pattern.Basic

/-!
Finding the first of several patterns in unread data. A match may be barred from starting at
certain places; then the search goes on behind it. Of several patterns the one that starts
first is found, and of those that start together the one listed first.
-/

namespace ImapDialogue

structure Hit where
  start : Nat
  length : Nat
deriving DecidableEq, Repr

/-- A pattern found among several, with the data in front of it and the data it matched. -/
structure Match where
  index : Nat
  before : Bytes
  text : Bytes
deriving DecidableEq, Repr

namespace Search

open Pattern (Probe)

/-- The first hit of a pattern from a place on that does not start where starting is barred.
Every step moves at least one byte on, and behind the last byte there is one more place. -/
def locate (probe : Probe) (barred : Nat → Bool) (cursor : Cursor) : Option Hit :=
  match probe.lengthAt cursor with
  | some length =>
      if barred cursor.offset then
        if _more : cursor.rest = [] then none
        else locate probe barred (cursor.advance (max (probe.stride length) 1))
      else some ⟨cursor.offset, length⟩
  | none =>
      if _more : cursor.rest = [] then none
      else locate probe barred (cursor.advance 1)
termination_by cursor.rest.length
decreasing_by
  all_goals
    have : 0 < cursor.rest.length := List.length_pos_iff.mpr _more
    simp only [Cursor.rest_advance, List.length_drop]
    omega

def earlier : Option (Nat × Hit) → Option (Nat × Hit) → Option (Nat × Hit)
  | some first, some second => if second.2.start < first.2.start then some second else some first
  | some first, none => some first
  | none, second => second

def best (barred : Nat → Bool) (bytes : Bytes) : Nat → List Pattern → Option (Nat × Hit)
  | _, [] => none
  | index, pattern :: patterns =>
      earlier ((locate pattern.probe barred (.start bytes)).map (index, ·))
        (best barred bytes (index + 1) patterns)

def first (barred : Nat → Bool) (patterns : List Pattern) (bytes : Bytes) :
    Option (Match × Bytes) :=
  (best barred bytes 0 patterns).map fun (index, hit) =>
    (⟨index, bytes.take hit.start, (bytes.drop hit.start).take hit.length⟩,
      bytes.drop (hit.start + hit.length))

end Search

end ImapDialogue

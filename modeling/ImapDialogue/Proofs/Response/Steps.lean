import ImapDialogue.Response.Scan
import Mathlib.Tactic.Common

/-!
What each reader does, told by the byte that stands in front of it.
-/

namespace ImapDialogue.Response

namespace Reader

theorem head?_ne {bytes : Bytes} (byte : UInt8) (other : ∀ rest, bytes = byte :: rest → False) :
    bytes.head? ≠ some byte := by
  intro same
  obtain ⟨rest, full⟩ := List.head?_eq_some_iff.mp same
  exact other rest full

theorem name_eq (cursor : Cursor) :
    name cursor =
      if nameLength 0 cursor.rest = 0 ∨ (cursor.advance (nameLength 0 cursor.rest)).rest = [] then
        fail .attributeName (cursor.advance (nameLength 0 cursor.rest))
      else
        .ok (Capital.ofBytes (cursor.rest.take (nameLength 0 cursor.rest)),
          cursor.advance (nameLength 0 cursor.rest)) := by
  simp only [name, Bool.or_eq_true, decide_eq_true_eq, List.isEmpty_iff]

theorem scalar_eq (cursor : Cursor) :
    scalar cursor =
      if cursor.rest.head? = some Byte.quote then quoted cursor
      else if cursor.rest.head? = some Byte.openBrace then literal cursor
      else atom cursor := by
  unfold scalar
  split
  · next rest full => rw [full]; rfl
  · next rest full => rw [full]; rfl
  · next unquoted unbraced =>
      rw [if_neg (head?_ne Byte.quote unquoted), if_neg (head?_ne Byte.openBrace unbraced)]

theorem value_eq (cursor : Cursor) :
    value cursor =
      if cursor.rest.head? = some Byte.openParen then listRest [] [] (cursor.advance 1)
      else scalar cursor := by
  unfold value
  split
  · next rest full => rw [full]; rfl
  · next unopened => rw [if_neg (head?_ne Byte.openParen unopened)]

/-- Behind the spaces a list is closed, another one is opened in it, or a value follows. -/
theorem listRest_eq (outer : List (List Value)) (items : List Value) (cursor : Cursor) :
    listRest outer items cursor =
      match cursor.skipSpaces.rest.head? with
      | none => fail .closingParenthesis cursor.skipSpaces
      | some byte =>
          if byte == Byte.closeParen then
            match outer with
            | [] => .ok (closed items, cursor.skipSpaces.advance 1)
            | around :: outer =>
                listRest outer (closed items :: around) (cursor.skipSpaces.advance 1)
          else if byte == Byte.openParen then
            listRest (items :: outer) [] (cursor.skipSpaces.advance 1)
          else
            match scalar cursor.skipSpaces with
            | .error malformed => .error malformed
            | .ok (value, behind) => listRest outer (value :: items) behind := by
  rw [listRest.eq_def]
  split
  · next past => rw [past]; rfl
  · next byte rest full =>
      rw [full, List.head?_cons]
      dsimp only
      congr 2
      split
      · next failed => rw [failed]
      · next value behind read => rw [read]

theorem valueAfterName_eq (cursor : Cursor) :
    valueAfterName cursor =
      if cursor.skipSpaces.rest.head? = some Byte.closeParen then .ok (.nil, cursor.skipSpaces)
      else value cursor.skipSpaces := by
  unfold valueAfterName
  split
  · next rest full => rw [full]; rfl
  · next unclosed => rw [if_neg (head?_ne Byte.closeParen unclosed)]

/-- Behind the spaces the attributes end, or a name follows and the value that belongs to it. -/
theorem attributesFrom_eq (known : Attributes) (cursor : Cursor) :
    attributesFrom known cursor =
      if cursor.skipSpaces.rest.head? = some Byte.closeParen then
        .ok (known, cursor.skipSpaces.advance 1)
      else
        match name cursor.skipSpaces with
        | .error malformed => .error malformed
        | .ok (name, behind) =>
            match valueAfterName behind with
            | .error malformed => .error malformed
            | .ok (value, behind) => attributesFrom (known.set name value) behind := by
  rw [attributesFrom.eq_def]
  split
  · next rest full => rw [full]; rfl
  · next unclosed =>
      rw [if_neg (head?_ne Byte.closeParen unclosed)]
      split
      · next failed => rw [failed]
      · next found behind named =>
          rw [named]
          dsimp only
          split
          · next failed => rw [failed]
          · next value place read => rw [read]

end Reader

/-! ## The search -/

theorem scan_record {cursor behind : Cursor} {sequence : Number} {length : Nat}
    {attributes : Attributes} (found : opening? cursor = some (sequence, length))
    (read : Reader.attributes (cursor.advance length) = .ok (attributes, behind)) :
    scan cursor = .record ⟨sequence, attributes⟩ :: scan behind := by
  rw [scan.eq_def]
  split
  · next sequence' length' same =>
      rw [found] at same
      obtain ⟨rfl, rfl⟩ := Prod.mk.inj (Option.some.inj same)
      split
      · next attributes' behind' done =>
          rw [read] at done
          obtain ⟨rfl, rfl⟩ := Prod.mk.inj (Except.ok.inj done)
          rfl
      · next failed => simp [read] at failed
  · next none => simp [found] at none

theorem scan_fault {cursor : Cursor} {sequence : Number} {length : Nat} {malformed : Malformed}
    (found : opening? cursor = some (sequence, length))
    (failed : Reader.attributes (cursor.advance length) = .error malformed) :
    scan cursor = .fault ⟨sequence, malformed⟩ :: scan (cursor.advance length) := by
  rw [scan.eq_def]
  split
  · next sequence' length' same =>
      rw [found] at same
      obtain ⟨rfl, rfl⟩ := Prod.mk.inj (Option.some.inj same)
      split
      · next attributes behind read => simp [failed] at read
      · next malformed' same =>
          rw [failed] at same
          obtain rfl := Except.error.inj same
          rfl
  · next none => simp [found] at none

theorem scan_pass {cursor : Cursor} {byte : UInt8} {rest : Bytes} (none : opening? cursor = none)
    (full : cursor.rest = byte :: rest) : scan cursor = scan (cursor.advance 1) := by
  rw [scan.eq_def]
  split
  · next found => simp [none] at found
  · split
    · next empty => simp [full] at empty
    · rfl

theorem scan_end {cursor : Cursor} (past : cursor.rest = []) : scan cursor = [] := by
  have none : opening? cursor = none := by
    simp [opening?, past]
  rw [scan.eq_def]
  split
  · next found => simp [none] at found
  · split
    · rfl
    · next full => simp [past] at full

end ImapDialogue.Response

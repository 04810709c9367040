import ImapDialogue.Proofs.Literal
import ImapDialogue.Proofs.Wire.Cursor
import ImapDialogue.Response.Reader
import ImapDialogue.Literal

/-!
How far the readers of a response come, and which literals they accept on their way. A reader that
succeeds ends behind the data of every literal that it accepted.
-/

namespace ImapDialogue.Response.Reader

open Literal (Region)

/-! ## Ways -/

theorem leads_scalar {cursor behind : Cursor} {value : Value}
    (read : scalar cursor = .ok (value, behind)) : cursor.Leads behind := by
  unfold scalar at read
  split at read
  · unfold quoted at read
    split at read
    · cases read
      exact Cursor.leads_advance _ cursor
    · cases read
  · unfold literal at read
    split at read
    · cases read
    · dsimp only at read
      split at read
      · cases read
      · cases read
        exact Cursor.leads_advance _ cursor
  · unfold atom at read
    dsimp only at read
    split at read
    · cases read
    · cases read
      exact Cursor.leads_advance _ cursor

theorem leads_listRest {outer : List (List Value)} {items : List Value} {cursor behind : Cursor}
    {found : Value} (read : listRest outer items cursor = .ok (found, behind)) :
    cursor.Leads behind := by
  fun_induction listRest outer items cursor with
  | case1 => cases read
  | case2 items cursor byte rest full closing =>
      cases read
      exact cursor.leads_skipSpaces.trans (Cursor.leads_advance 1 _)
  | case3 items cursor byte rest full closing around outer induction =>
      exact (cursor.leads_skipSpaces.trans (Cursor.leads_advance 1 _)).trans (induction read)
  | case4 outer items cursor byte rest full closing opening induction =>
      exact (cursor.leads_skipSpaces.trans (Cursor.leads_advance 1 _)).trans (induction read)
  | case5 => cases read
  | case6 outer items cursor byte rest full closing opening value place scalarRead induction =>
      exact (cursor.leads_skipSpaces.trans (leads_scalar scalarRead)).trans (induction read)

theorem leads_value {cursor behind : Cursor} {found : Value}
    (read : value cursor = .ok (found, behind)) : cursor.Leads behind := by
  unfold value at read
  split at read
  · exact (Cursor.leads_advance 1 cursor).trans (leads_listRest read)
  · exact leads_scalar read

theorem leads_name {cursor behind : Cursor} {found : String}
    (read : name cursor = .ok (found, behind)) : cursor.Leads behind := by
  unfold name at read
  dsimp only at read
  split at read
  · cases read
  · cases read
    exact Cursor.leads_advance _ cursor

theorem leads_valueAfterName {cursor behind : Cursor} {found : Value}
    (read : valueAfterName cursor = .ok (found, behind)) : cursor.Leads behind := by
  unfold valueAfterName at read
  split at read
  · cases read
    exact cursor.leads_skipSpaces
  · exact cursor.leads_skipSpaces.trans (leads_value read)

theorem leads_attributesFrom {known found : Attributes} {cursor behind : Cursor}
    (read : attributesFrom known cursor = .ok (found, behind)) : cursor.Leads behind := by
  fun_induction attributesFrom known cursor with
  | case1 known cursor rest full =>
      cases read
      exact cursor.leads_skipSpaces.trans (Cursor.leads_advance 1 _)
  | case2 => cases read
  | case3 => cases read
  | case4 known cursor found place named value place' valued unclosed induction =>
      exact ((cursor.leads_skipSpaces.trans (leads_name named)).trans
        (leads_valueAfterName valued)).trans (induction read)

/-! ## Accepted literals -/

def literalData (cursor : Cursor) : List Region :=
  match literal cursor, Literal.header? (cursor.rest.take headerLimit) with
  | .ok _, some header =>
      [⟨cursor.offset + header.length, cursor.offset + header.length + header.size⟩]
  | _, _ => []

/-- The data of the literals that are accepted when a value other than a list is read. -/
def scalarData (cursor : Cursor) : List Region :=
  match cursor.rest with
  | 0x7B :: _ => literalData cursor
  | _ => []

/-- The data of the literals that are accepted when the rest of a list is read that has so many
lists around it, whether or not it can be read to its end. -/
def listData (around : Nat) (cursor : Cursor) : List Region :=
  match _full : cursor.skipSpaces.rest with
  | [] => []
  | byte :: _ =>
      if byte == Byte.closeParen then
        match around with
        | 0 => []
        | around + 1 => listData around (cursor.skipSpaces.advance 1)
      else if byte == Byte.openParen then listData (around + 1) (cursor.skipSpaces.advance 1)
      else
        match _read : scalar cursor.skipSpaces with
        | .error _ => []
        | .ok (_, behind) => scalarData cursor.skipSpaces ++ listData around behind
termination_by cursor.rest.length
decreasing_by
  all_goals
    have spaces := cursor.length_rest_skipSpaces_le
    have filled := congrArg List.length _full
    simp only [List.length_cons] at filled
  · simp only [Cursor.length_rest_advance]
    omega
  · simp only [Cursor.length_rest_advance]
    omega
  · have := length_scalar _read
    omega

def valueData (cursor : Cursor) : List Region :=
  match cursor.rest with
  | 0x28 :: _ => listData 0 (cursor.advance 1)
  | _ => scalarData cursor

def valueAfterNameData (cursor : Cursor) : List Region :=
  match cursor.skipSpaces.rest with
  | 0x29 :: _ => []
  | _ => valueData cursor.skipSpaces

/-- The data of the literals that are accepted when the attributes of a response are read, whether
or not all of them can be read. -/
def attributesData (cursor : Cursor) : List Region :=
  match cursor.skipSpaces.rest with
  | 0x29 :: _ => []
  | _ =>
      match _named : name cursor.skipSpaces with
      | .error _ => []
      | .ok (_, behind) =>
          match _read : valueAfterName behind with
          | .error _ => valueAfterNameData behind
          | .ok (_, behind') => valueAfterNameData behind ++ attributesData behind'
termination_by cursor.rest.length
decreasing_by
  have spaces := cursor.length_rest_skipSpaces_le
  have := length_name _named
  have := length_valueAfterName _read
  omega

/-! ## Accepted literals on a way -/

def Spans (cursor behind : Cursor) (regions : List Region) : Prop :=
  ∀ region ∈ regions, cursor.offset ≤ region.start ∧ region.stop ≤ behind.offset

theorem spans_nil (cursor behind : Cursor) : Spans cursor behind [] := by
  rintro region ⟨⟩

theorem Spans.widen {cursor first last behind : Cursor} {regions : List Region}
    (spans : Spans first last regions) (leads : cursor.Leads first) (leads' : last.Leads behind) :
    Spans cursor behind regions := by
  intro region member
  have inner := spans region member
  have := leads.offset_le
  have := leads'.offset_le
  omega

theorem Spans.append {cursor middle behind : Cursor} {first second : List Region}
    (spans : Spans cursor middle first) (spans' : Spans middle behind second)
    (leads : cursor.Leads middle) (leads' : middle.Leads behind) :
    Spans cursor behind (first ++ second) := by
  intro region member
  rcases List.mem_append.mp member with early | late
  · exact spans.widen (.refl cursor) leads' region early
  · exact spans'.widen leads (.refl behind) region late

theorem spans_literal {cursor behind : Cursor} {found : Value}
    (read : literal cursor = .ok (found, behind)) : Spans cursor behind (literalData cursor) := by
  unfold literalData
  rw [read]
  unfold literal at read
  split at read
  · cases read
  · next header begun =>
      dsimp only at read
      split at read
      · cases read
      · next complete =>
          cases read
          have fits := (Literal.length_header_pos begun).2
          have moved := cursor.offset_advance (header.length + header.size)
          simp only [List.length_take, List.length_drop] at complete fits
          rw [begun]
          intro region member
          rw [List.mem_singleton.mp member, moved]
          constructor <;> dsimp only <;> omega

theorem spans_scalar {cursor behind : Cursor} {found : Value}
    (read : scalar cursor = .ok (found, behind)) : Spans cursor behind (scalarData cursor) := by
  unfold scalarData
  split
  · next rest full =>
      unfold scalar at read
      rw [full] at read
      exact spans_literal read
  · exact spans_nil cursor behind

theorem listData_visible (around : Nat) {cursor : Cursor} {byte : UInt8} {rest : Bytes}
    (full : cursor.skipSpaces.rest = byte :: rest) :
    listData around cursor =
      if byte == Byte.closeParen then
        match around with
        | 0 => []
        | around + 1 => listData around (cursor.skipSpaces.advance 1)
      else if byte == Byte.openParen then listData (around + 1) (cursor.skipSpaces.advance 1)
      else
        match scalar cursor.skipSpaces with
        | .error _ => []
        | .ok (_, behind) => scalarData cursor.skipSpaces ++ listData around behind := by
  rw [listData.eq_def]
  split
  · next none => simp [full] at none
  · next other others same =>
      rw [full] at same
      obtain ⟨rfl, rfl⟩ := List.cons.inj same
      congr 2
      split
      · next failed => rw [failed]
      · next value behind read => rw [read]

theorem spans_listRest {outer : List (List Value)} {items : List Value} {cursor behind : Cursor}
    {found : Value} (read : listRest outer items cursor = .ok (found, behind)) :
    Spans cursor behind (listData outer.length cursor) := by
  fun_induction listRest outer items cursor with
  | case1 => cases read
  | case2 items cursor byte rest full closing =>
      rw [listData_visible _ full, if_pos closing]
      exact spans_nil cursor behind
  | case3 items cursor byte rest full closing around outer induction =>
      rw [listData_visible _ full, if_pos closing]
      exact (induction read).widen (cursor.leads_skipSpaces.trans (Cursor.leads_advance 1 _))
        (.refl behind)
  | case4 outer items cursor byte rest full closing opening induction =>
      rw [listData_visible _ full, if_neg closing, if_pos opening]
      exact (induction read).widen (cursor.leads_skipSpaces.trans (Cursor.leads_advance 1 _))
        (.refl behind)
  | case5 => cases read
  | case6 outer items cursor byte rest full closing opening value place scalarRead induction =>
      rw [listData_visible _ full, if_neg closing, if_neg opening, scalarRead]
      have further := leads_listRest read
      exact ((spans_scalar scalarRead).append (induction read) (leads_scalar scalarRead)
        further).widen cursor.leads_skipSpaces (.refl behind)

theorem spans_value {cursor behind : Cursor} {found : Value}
    (read : value cursor = .ok (found, behind)) : Spans cursor behind (valueData cursor) := by
  unfold valueData
  split
  · next rest full =>
      unfold value at read
      rw [full] at read
      exact (spans_listRest read).widen (Cursor.leads_advance 1 cursor) (.refl behind)
  · next other =>
      unfold value at read
      split at read
      · next rest full => exact (other rest full).elim
      · exact spans_scalar read

theorem spans_valueAfterName {cursor behind : Cursor} {found : Value}
    (read : valueAfterName cursor = .ok (found, behind)) :
    Spans cursor behind (valueAfterNameData cursor) := by
  unfold valueAfterNameData
  split
  · exact spans_nil cursor behind
  · next other =>
      unfold valueAfterName at read
      split at read
      · next rest full => exact (other rest full).elim
      · exact (spans_value read).widen cursor.leads_skipSpaces (.refl behind)

theorem spans_attributesFrom {known found : Attributes} {cursor behind : Cursor}
    (read : attributesFrom known cursor = .ok (found, behind)) :
    Spans cursor behind (attributesData cursor) := by
  fun_induction attributesFrom known cursor with
  | case1 known cursor rest full =>
      rw [attributesData.eq_def, full]
      exact spans_nil cursor behind
  | case2 => cases read
  | case3 => cases read
  | case4 known cursor found place named value place' valued unclosed induction =>
      have head : attributesData cursor = valueAfterNameData place ++ attributesData place' := by
        rw [attributesData.eq_def]
        split
        · next rest full => exact (unclosed rest full).elim
        · split
          · next failed => rw [named] at failed; cases failed
          · next same =>
              rw [named] at same
              cases same
              split
              · next failed => rw [valued] at failed; cases failed
              · next same => rw [valued] at same; cases same; rfl
      have leads := (cursor.leads_skipSpaces.trans (leads_name named))
      rw [head]
      exact ((spans_valueAfterName valued).append (induction read) (leads_valueAfterName valued)
        (leads_attributesFrom read)).widen leads (.refl behind)

end ImapDialogue.Response.Reader

import ImapDialogue.Wire.Cursor
import Mathlib.Tactic.Common

/-!
How far a cursor moves, and what stands in front of it then.
-/

namespace ImapDialogue.Cursor

theorem offset_advance (count : Nat) (cursor : Cursor) :
    (cursor.advance count).offset = cursor.offset + min count cursor.rest.length := by
  induction count generalizing cursor with
  | zero => simp [advance]
  | succ count induction =>
      obtain ⟨offset, previous, rest⟩ := cursor
      cases rest with
      | nil => simp [advance]
      | cons byte rest =>
          simp only [advance, induction, List.length_cons]
          omega

theorem offset_advance_of_le {cursor : Cursor} {count : Nat}
    (inside : count ≤ cursor.rest.length) :
    (cursor.advance count).offset = cursor.offset + count := by
  rw [offset_advance, Nat.min_eq_left inside]

theorem advance_advance (first second : Nat) (cursor : Cursor) :
    (cursor.advance first).advance second = cursor.advance (first + second) := by
  induction first generalizing cursor with
  | zero => simp [advance]
  | succ first induction =>
      obtain ⟨offset, previous, rest⟩ := cursor
      rw [Nat.add_right_comm]
      cases rest with
      | nil => cases second <;> rfl
      | cons byte rest => exact induction _

theorem advance_min (count : Nat) (cursor : Cursor) :
    cursor.advance (min count cursor.rest.length) = cursor.advance count := by
  induction count generalizing cursor with
  | zero => simp
  | succ count induction =>
      obtain ⟨offset, previous, rest⟩ := cursor
      cases rest with
      | nil => rfl
      | cons byte rest =>
          rw [List.length_cons, Nat.succ_min_succ]
          exact induction ⟨offset + 1, some byte, rest⟩

theorem startsLine_eq (cursor : Cursor) :
    cursor.startsLine = cursor.previous.all Byte.isLineEnd := by
  obtain ⟨offset, previous, rest⟩ := cursor
  cases previous <;> rfl

/-- Behind the first byte, the byte in front of a cursor is the one it moved over last. -/
theorem previous_advance {count : Nat} {cursor : Cursor} (within : count < cursor.rest.length) :
    (cursor.advance (count + 1)).previous = some cursor.rest[count] := by
  induction count generalizing cursor with
  | zero =>
      obtain ⟨offset, previous, rest⟩ := cursor
      cases rest with
      | nil => simp at within
      | cons byte rest => rfl
  | succ count induction =>
      obtain ⟨offset, previous, rest⟩ := cursor
      cases rest with
      | nil => simp at within
      | cons byte rest =>
          have inner : count < rest.length := by simpa using within
          rw [advance]
          exact induction inner

theorem advance_length (offset : Nat) (previous : Option UInt8) (bytes rest : Bytes) :
    advance bytes.length ⟨offset, previous, bytes ++ rest⟩ =
      ⟨offset + bytes.length, bytes.getLast?.or previous, rest⟩ := by
  induction bytes generalizing offset previous with
  | nil => rfl
  | cons byte bytes induction =>
      simp only [List.length_cons, List.cons_append, advance, induction]
      congr 1
      · omega
      · cases bytes with
        | nil => rfl
        | cons other others =>
            rw [List.getLast?_cons_cons]
            cases last : (other :: others).getLast? with
            | none => simp at last
            | some byte => rfl

theorem previous_advance_prefix {bytes : Bytes} {cursor : Cursor} {test : UInt8 → Bool}
    (begins : bytes <+: cursor.rest) (passes : bytes.getLast?.any test = true) :
    (cursor.advance bytes.length).previous.any test = true := by
  obtain ⟨offset, previous, whole⟩ := cursor
  obtain ⟨rest, rfl⟩ := begins
  rw [advance_length]
  cases last : bytes.getLast? with
  | none => simp [last] at passes
  | some byte => simpa [last] using passes

/-! ## Places further on -/

/-- A place is another one, or lies further on in the same data. -/
def Leads (cursor behind : Cursor) : Prop := ∃ count, behind = cursor.advance count

theorem Leads.refl (cursor : Cursor) : cursor.Leads cursor := ⟨0, rfl⟩

theorem Leads.trans {first second third : Cursor} (leads : first.Leads second)
    (leads' : second.Leads third) : first.Leads third := by
  obtain ⟨count, rfl⟩ := leads
  obtain ⟨count', rfl⟩ := leads'
  exact ⟨count + count', advance_advance count count' first⟩

theorem leads_advance (count : Nat) (cursor : Cursor) : cursor.Leads (cursor.advance count) :=
  ⟨count, rfl⟩

theorem leads_skipSpaces (cursor : Cursor) : cursor.Leads cursor.skipSpaces := ⟨_, rfl⟩

theorem Leads.offset_le {cursor behind : Cursor} (leads : cursor.Leads behind) :
    cursor.offset ≤ behind.offset := by
  obtain ⟨count, rfl⟩ := leads
  rw [offset_advance]
  exact Nat.le_add_right _ _

theorem Leads.eq_advance {cursor behind : Cursor} (leads : cursor.Leads behind) :
    behind = cursor.advance (behind.offset - cursor.offset) := by
  obtain ⟨count, rfl⟩ := leads
  rw [offset_advance, Nat.add_sub_cancel_left, advance_min]

/-- Of two places further on, the one with the greater distance lies further on. -/
theorem Leads.of_offset_le {first second third : Cursor} (leads : first.Leads second)
    (leads' : first.Leads third) (further : second.offset ≤ third.offset) :
    second.Leads third := by
  refine ⟨third.offset - second.offset, ?_⟩
  have before := leads.offset_le
  calc
    third = first.advance (third.offset - first.offset) := leads'.eq_advance
    _ = (first.advance (second.offset - first.offset)).advance (third.offset - second.offset) := by
      rw [advance_advance]
      congr 1
      omega
    _ = second.advance (third.offset - second.offset) := by rw [← leads.eq_advance]

theorem offset_le_length {text : Bytes} {cursor : Cursor} (leads : (start text).Leads cursor) :
    cursor.offset ≤ text.length := by
  obtain ⟨count, rfl⟩ := leads
  rw [offset_advance]
  show 0 + min count text.length ≤ text.length
  omega

theorem start_advance {text : Bytes} {count : Nat} (inside : count ≤ text.length) :
    (start text).advance count = ⟨count, (text.take count).getLast?, text.drop count⟩ := by
  have moved := advance_length 0 none (text.take count) (text.drop count)
  rw [List.take_append_drop, List.length_take, Nat.min_eq_left inside, Nat.zero_add,
    Option.or_none] at moved
  exact moved

end ImapDialogue.Cursor

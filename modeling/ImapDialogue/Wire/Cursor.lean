import ImapDialogue.Wire.Bytes

/-!
Places in a run of bytes. A place knows how far it is from the start and which byte stands in
front of it, so that failures can name it and line starts can be told.
-/

namespace ImapDialogue

/-- A place in the data: how far it is from the start, the byte in front of it and the bytes
behind it. -/
structure Cursor where
  offset : Nat
  previous : Option UInt8
  rest : Bytes
deriving DecidableEq, Repr

namespace Cursor

def start (bytes : Bytes) : Cursor := ⟨0, none, bytes⟩

/-- The place some bytes further on, at most at the end of the data. -/
def advance : Nat → Cursor → Cursor
  | 0, cursor => cursor
  | count + 1, cursor =>
      match cursor.rest with
      | [] => cursor
      | byte :: rest => advance count ⟨cursor.offset + 1, some byte, rest⟩

def skipWhile (test : UInt8 → Bool) (cursor : Cursor) : Cursor :=
  cursor.advance (cursor.rest.takeWhile test).length

def skipSpaces (cursor : Cursor) : Cursor := cursor.skipWhile (· == Byte.space)

def startsLine (cursor : Cursor) : Bool :=
  cursor.previous.isNone || cursor.previous.any Byte.isLineEnd

theorem rest_advance (count : Nat) (cursor : Cursor) :
    (cursor.advance count).rest = cursor.rest.drop count := by
  induction count generalizing cursor with
  | zero => rfl
  | succ count induction =>
      unfold advance
      split
      · next empty => simp [empty]
      · next byte rest full => simp [induction, full]

theorem length_rest_advance (count : Nat) (cursor : Cursor) :
    (cursor.advance count).rest.length = cursor.rest.length - count := by
  simp [rest_advance]

theorem length_rest_skipWhile_le (test : UInt8 → Bool) (cursor : Cursor) :
    (cursor.skipWhile test).rest.length ≤ cursor.rest.length := by
  simp [skipWhile, length_rest_advance]

theorem length_rest_skipSpaces_le (cursor : Cursor) :
    cursor.skipSpaces.rest.length ≤ cursor.rest.length :=
  length_rest_skipWhile_le _ cursor

end Cursor

end ImapDialogue

import ImapDialogue.Response.Reader

/-!
Finding and decoding every FETCH response in received data. A response begins at the start
of a line. After one that was decoded the search goes on behind it; after one that could not
be decoded it goes on right behind that one's opening parenthesis.
-/

namespace ImapDialogue.Response

/-- A response that could not be decoded, by its sequence number. -/
structure Fault where
  sequence : Number
  malformed : Malformed
deriving DecidableEq, Repr

inductive Item where
  | record (decoded : Record)
  | fault (reported : Fault)
deriving Repr

def keyword : Bytes := Bytes.ofNarrow " FETCH ("

def opening? (cursor : Cursor) : Option (Number × Nat) :=
  if cursor.startsLine then
    match cursor.rest with
    | 0x2A :: 0x20 :: rest =>
        let digits := rest.takeWhile Byte.isDigit
        if digits.isEmpty then none
        else (Bytes.afterAnyCase? keyword (rest.dropWhile Byte.isDigit)).map fun _ =>
          (Number.ofNat (Bytes.decimal digits), 2 + digits.length + keyword.length)
    | _ => none
  else none

theorem length_opening? {cursor : Cursor} {sequence : Number} {length : Nat}
    (found : opening? cursor = some (sequence, length)) : 0 < length := by
  unfold opening? at found
  split at found
  · split at found
    · dsimp only at found
      split at found
      · simp at found
      · obtain ⟨_, _, same⟩ := Option.map_eq_some_iff.mp found
        simp only [Prod.mk.injEq] at same
        omega
    · simp at found
  · simp at found

theorem rest_ne_nil_of_opening? {cursor : Cursor} {answer : Number × Nat}
    (found : opening? cursor = some answer) : cursor.rest ≠ [] := by
  intro empty
  unfold opening? at found
  simp [empty] at found

def scan (cursor : Cursor) : List Item :=
  match _found : opening? cursor with
  | some (sequence, length) =>
      match _read : Reader.attributes (cursor.advance length) with
      | .ok (attributes, behind) => .record ⟨sequence, attributes⟩ :: scan behind
      | .error malformed => .fault ⟨sequence, malformed⟩ :: scan (cursor.advance length)
  | none =>
      match _rest : cursor.rest with
      | [] => []
      | _ :: _ => scan (cursor.advance 1)
termination_by cursor.rest.length
decreasing_by
  · have := Reader.length_attributesFrom _read
    rw [Cursor.length_rest_advance] at this
    omega
  · have := length_opening? _found
    have := List.length_pos_iff.mpr (rest_ne_nil_of_opening? _found)
    rw [Cursor.length_rest_advance]
    omega
  · have filled := congrArg List.length _rest
    rw [Cursor.length_rest_advance]
    simp only [List.length_cons] at filled
    omega

def Item.record? : Item → Option Record
  | .record decoded => some decoded
  | .fault _ => none

def Item.fault? : Item → Option Fault
  | .record _ => none
  | .fault reported => some reported

/-- The responses that could be decoded and the faults of the others, each in order. -/
def collect (bytes : Bytes) : List Record × List Fault :=
  let items := scan (.start bytes)
  (items.filterMap Item.record?, items.filterMap Item.fault?)

def strictFrom (cursor : Cursor) : Except Malformed (List Record) :=
  match _found : opening? cursor with
  | some (sequence, length) =>
      match _read : Reader.attributes (cursor.advance length) with
      | .ok (attributes, behind) => (strictFrom behind).map (⟨sequence, attributes⟩ :: ·)
      | .error malformed => .error malformed
  | none =>
      match _rest : cursor.rest with
      | [] => .ok []
      | _ :: _ => strictFrom (cursor.advance 1)
termination_by cursor.rest.length
decreasing_by
  · have := Reader.length_attributesFrom _read
    rw [Cursor.length_rest_advance] at this
    omega
  · have filled := congrArg List.length _rest
    rw [Cursor.length_rest_advance]
    simp only [List.length_cons] at filled
    omega

def strict (bytes : Bytes) : Except Malformed (List Record) := strictFrom (.start bytes)

end ImapDialogue.Response

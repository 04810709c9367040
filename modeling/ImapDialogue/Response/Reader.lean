import ImapDialogue.Literal
import ImapDialogue.Response.Value
import ImapDialogue.Wire.Bytes
import ImapDialogue.Wire.Cursor

/-!
Reading the attributes of one FETCH response: names and values up to the closing
parenthesis. Each reader either moves on by at least one byte or says what it missed and
where. Lists nest to any depth, so open lists are kept beside the one being read.
-/

namespace ImapDialogue.Response

inductive Missing where
  | attributeName
  | value
  | closingParenthesis
  | closingQuote
  | literalHeader
  | literalData (size : Number)
deriving DecidableEq, Repr

/-- Why a response cannot be decoded. -/
structure Malformed where
  missing : Missing
  offset : Nat
deriving DecidableEq, Repr

def Missing.shown : Missing → String
  | .attributeName => "attribute name"
  | .value => "value"
  | .closingParenthesis => "closing parenthesis"
  | .closingQuote => "closing quote"
  | .literalHeader => "literal header"
  | .literalData size => size.text ++ " byte literal"

def Malformed.message (malformed : Malformed) : String :=
  "Malformed FETCH response: expected " ++ malformed.missing.shown ++ " at offset " ++
    toString malformed.offset

namespace Reader

abbrev Answer (α : Type) := Except Malformed (α × Cursor)

def fail {α : Type} (missing : Missing) (cursor : Cursor) : Answer α :=
  .error ⟨missing, cursor.offset⟩

/-- How many bytes of a name follow, given how many brackets are open. Spaces and closing
parentheses end a name unless brackets are open or too many were closed; a line end always
does. -/
def nameLength : Int → Bytes → Nat
  | _, [] => 0
  | depth, byte :: rest =>
      if byte == Byte.openBracket then nameLength (depth + 1) rest + 1
      else if byte == Byte.closeBracket then nameLength (depth - 1) rest + 1
      else if depth = 0 && (byte == Byte.space || byte == Byte.closeParen) then 0
      else if Byte.isLineEnd byte then 0
      else nameLength depth rest + 1

def name (cursor : Cursor) : Answer String :=
  let length := nameLength 0 cursor.rest
  let behind := cursor.advance length
  if length = 0 || behind.rest.isEmpty then fail .attributeName behind
  else .ok (Capital.ofBytes (cursor.rest.take length), behind)

/-- The bytes of a quoted string up to its closing quote, and how many bytes that took. A
backslash makes the byte behind it stand for itself. -/
def unquote : Bytes → Option (Bytes × Nat)
  | [] => none
  | byte :: rest =>
      if byte == Byte.quote then some ([], 1)
      else if byte == Byte.backslash then
        match rest with
        | [] => none
        | escaped :: rest' =>
            (unquote rest').map fun (bytes, length) => (escaped :: bytes, length + 2)
      else (unquote rest).map fun (bytes, length) => (byte :: bytes, length + 1)

def quoted (cursor : Cursor) : Answer Value :=
  match unquote (cursor.rest.drop 1) with
  | some (bytes, length) => .ok (.text (Utf8.decode bytes), cursor.advance (length + 1))
  | none => fail .closingQuote (cursor.advance cursor.rest.length)

/-- How many bytes a literal header may take here. -/
def headerLimit : Nat := 24

def literal (cursor : Cursor) : Answer Value :=
  match Literal.header? (cursor.rest.take headerLimit) with
  | none => fail .literalHeader cursor
  | some header =>
      let data := (cursor.rest.drop header.length).take header.size
      if data.length < header.size then fail (.literalData (Number.ofNat header.size)) cursor
      else .ok (.bytes data, cursor.advance (header.length + header.size))

def endsAtom (byte : UInt8) : Bool :=
  byte == Byte.space || byte == Byte.openParen || byte == Byte.closeParen || Byte.isLineEnd byte

def atomValue (bytes : Bytes) : Value :=
  if bytes.all Byte.isDigit then .number (Number.ofNat (Bytes.decimal bytes))
  else if bytes.map Byte.lower = Bytes.ofNarrow "nil" then .nil
  else .text (Bytes.toNarrow bytes)

def atom (cursor : Cursor) : Answer Value :=
  let bytes := cursor.rest.takeWhile (!endsAtom ·)
  if bytes.isEmpty then fail .value cursor
  else .ok (atomValue bytes, cursor.advance bytes.length)

def scalar (cursor : Cursor) : Answer Value :=
  match cursor.rest with
  | 0x22 :: _ => quoted cursor
  | 0x7B :: _ => literal cursor
  | _ => atom cursor

theorem length_scalar {cursor behind : Cursor} {value : Value}
    (read : scalar cursor = .ok (value, behind)) :
    behind.rest.length < cursor.rest.length := by
  unfold scalar at read
  split at read
  · next rest full =>
      unfold quoted at read
      split at read
      · simp only [Except.ok.injEq, Prod.mk.injEq] at read
        rw [← read.2, Cursor.length_rest_advance, full]
        simp only [List.length_cons]
        omega
      · simp [fail] at read
  · next rest full =>
      unfold literal at read
      split at read
      · simp [fail] at read
      · next header found =>
          dsimp only at read
          split at read
          · simp [fail] at read
          · simp only [Except.ok.injEq, Prod.mk.injEq] at read
            have positive : 0 < header.length := by
              unfold Literal.header? at found
              split at found
              · dsimp only at found
                split at found
                · simp at found
                · obtain ⟨length, _, rfl⟩ := Option.map_eq_some_iff.mp found
                  show 0 < 1 + _ + length
                  omega
              · simp at found
            rw [← read.2, Cursor.length_rest_advance, full]
            simp only [List.length_cons]
            omega
  · unfold atom at read
    dsimp only at read
    split at read
    · simp [fail] at read
    · next filled =>
        simp only [Except.ok.injEq, Prod.mk.injEq] at read
        have positive : 0 < (cursor.rest.takeWhile (!endsAtom ·)).length := by
          rw [List.length_pos_iff]
          intro empty
          simp [empty] at filled
        have bounded : (cursor.rest.takeWhile (!endsAtom ·)).length ≤ cursor.rest.length :=
          (List.takeWhile_prefix _).length_le
        rw [← read.2, Cursor.length_rest_advance]
        omega

def closed (items : List Value) : Value := .list items.reverse

/-- The rest of a list, behind its opening parenthesis. `outer` holds the items read so far of
the lists around it and `items` its own, the last first. -/
def listRest (outer : List (List Value)) (items : List Value) (cursor : Cursor) : Answer Value :=
  match _full : cursor.skipSpaces.rest with
  | [] => fail .closingParenthesis cursor.skipSpaces
  | byte :: _ =>
      if byte == Byte.closeParen then
        match outer with
        | [] => .ok (closed items, cursor.skipSpaces.advance 1)
        | around :: outer => listRest outer (closed items :: around) (cursor.skipSpaces.advance 1)
      else if byte == Byte.openParen then
        listRest (items :: outer) [] (cursor.skipSpaces.advance 1)
      else
        match _read : scalar cursor.skipSpaces with
        | .error malformed => .error malformed
        | .ok (value, behind) => listRest outer (value :: items) behind
termination_by cursor.rest.length
decreasing_by
  all_goals
    have spaces := cursor.length_rest_skipSpaces_le
    have filled := congrArg List.length _full
    simp only [List.length_cons] at filled
  · simp only [Cursor.length_rest_advance]
    omega
  · simp only [Cursor.length_rest_advance]
    omega
  · have := length_scalar _read
    omega

def value (cursor : Cursor) : Answer Value :=
  match cursor.rest with
  | 0x28 :: _ => listRest [] [] (cursor.advance 1)
  | _ => scalar cursor

theorem length_listRest {outer : List (List Value)} {items : List Value} {cursor behind : Cursor}
    {found : Value} (read : listRest outer items cursor = .ok (found, behind)) :
    behind.rest.length < cursor.rest.length := by
  fun_induction listRest outer items cursor with
  | case1 => simp [fail] at read
  | case2 items cursor byte rest full closing =>
      have spaces := cursor.length_rest_skipSpaces_le
      have filled := congrArg List.length full
      simp only [Except.ok.injEq, Prod.mk.injEq] at read
      rw [← read.2, Cursor.length_rest_advance]
      simp only [List.length_cons] at filled
      omega
  | case3 items cursor byte rest full closing around outer induction =>
      have spaces := cursor.length_rest_skipSpaces_le
      have shorter := induction read
      rw [Cursor.length_rest_advance] at shorter
      omega
  | case4 outer items cursor byte rest full closing opening induction =>
      have spaces := cursor.length_rest_skipSpaces_le
      have shorter := induction read
      rw [Cursor.length_rest_advance] at shorter
      omega
  | case5 => simp at read
  | case6 outer items cursor byte rest full closing opening value place scalarRead induction =>
      have spaces := cursor.length_rest_skipSpaces_le
      have step := length_scalar scalarRead
      have shorter := induction read
      omega

theorem length_value {cursor behind : Cursor} {found : Value}
    (read : value cursor = .ok (found, behind)) : behind.rest.length < cursor.rest.length := by
  unfold value at read
  split at read
  · next rest full =>
      have shorter := length_listRest read
      rw [Cursor.length_rest_advance] at shorter
      omega
  · exact length_scalar read

theorem length_name {cursor behind : Cursor} {found : String}
    (read : name cursor = .ok (found, behind)) : behind.rest.length < cursor.rest.length := by
  unfold name at read
  dsimp only at read
  split at read
  · simp [fail] at read
  · next passed =>
      simp only [Except.ok.injEq, Prod.mk.injEq] at read
      simp only [Bool.or_eq_true, decide_eq_true_eq, not_or, Bool.not_eq_true] at passed
      have filled : 0 < (cursor.advance (nameLength 0 cursor.rest)).rest.length :=
        List.length_pos_iff.mpr (by simpa using passed.2)
      rw [← read.2]
      rw [Cursor.length_rest_advance] at filled ⊢
      omega

def valueAfterName (cursor : Cursor) : Answer Value :=
  match cursor.skipSpaces.rest with
  | 0x29 :: _ => .ok (.nil, cursor.skipSpaces)
  | _ => value cursor.skipSpaces

theorem length_valueAfterName {cursor behind : Cursor} {found : Value}
    (read : valueAfterName cursor = .ok (found, behind)) :
    behind.rest.length ≤ cursor.rest.length := by
  have spaces := cursor.length_rest_skipSpaces_le
  unfold valueAfterName at read
  split at read
  · simp only [Except.ok.injEq, Prod.mk.injEq] at read
    rw [← read.2]
    exact spaces
  · have shorter := length_value read
    omega

def attributesFrom (known : Attributes) (cursor : Cursor) : Answer Attributes :=
  match cursor.skipSpaces.rest with
  | 0x29 :: _ => .ok (known, cursor.skipSpaces.advance 1)
  | _ =>
      match _named : name cursor.skipSpaces with
      | .error malformed => .error malformed
      | .ok (name, behind) =>
          match _read : valueAfterName behind with
          | .error malformed => .error malformed
          | .ok (value, behind) => attributesFrom (known.set name value) behind
termination_by cursor.rest.length
decreasing_by
  have spaces := cursor.length_rest_skipSpaces_le
  have := length_name _named
  have := length_valueAfterName _read
  omega

def attributes (cursor : Cursor) : Answer Attributes := attributesFrom .empty cursor

theorem length_attributesFrom {known found : Attributes} {cursor behind : Cursor}
    (read : attributesFrom known cursor = .ok (found, behind)) :
    behind.rest.length < cursor.rest.length := by
  fun_induction attributesFrom known cursor with
  | case1 known cursor rest full =>
      have spaces := cursor.length_rest_skipSpaces_le
      have filled := congrArg List.length full
      simp only [Except.ok.injEq, Prod.mk.injEq] at read
      rw [← read.2, Cursor.length_rest_advance]
      simp only [List.length_cons] at filled
      omega
  | case2 => simp at read
  | case3 => simp at read
  | case4 known cursor found place named value place' valued unclosed induction =>
      have spaces := cursor.length_rest_skipSpaces_le
      have := length_name named
      have := length_valueAfterName valued
      have := induction read
      omega

end Reader

end ImapDialogue.Response

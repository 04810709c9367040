import ImapDialogue.Proofs.Literal
import ImapDialogue.Proofs.Response.Progress
import ImapDialogue.Proofs.Response.Steps
import Mathlib.Data.List.TakeWhile

/-!
A reading that succeeds depends on nothing but the data up to where it ended. Atoms and names
look one byte further, at the byte that ends them, but that byte is read before the attributes
end. So the same attributes are read from all data that begins alike, and none from data that is
cut off in front of their end.
-/

namespace ImapDialogue

/-! ## Places in data that begins alike -/

/-- The same place in two runs of data that do not differ before some further place. -/
structure Cursor.Agrees (stop : Nat) (cursor other : Cursor) : Prop where
  offset : other.offset = cursor.offset
  previous : other.previous = cursor.previous
  shared : ∃ common first second, cursor.rest = common ++ first ∧
    other.rest = common ++ second ∧ cursor.offset + common.length = stop

namespace Cursor

namespace Agrees

variable {stop : Nat} {cursor other : Cursor}

theorem advance (agrees : Agrees stop cursor other) {count : Nat}
    (within : cursor.offset + count ≤ stop) :
    Agrees stop (cursor.advance count) (other.advance count) := by
  obtain ⟨place, front, rest⟩ := other
  obtain ⟨_, _, _⟩ := cursor
  obtain ⟨rfl, rfl, common, first, second, rfl, rfl, rfl⟩ := agrees
  dsimp only at within ⊢
  have length : (common.take count).length = count := by
    rw [List.length_take]
    omega
  have parts : common = common.take count ++ common.drop count := (List.take_append_drop _ _).symm
  have moved : ∀ tail, Cursor.advance count ⟨place, front, common ++ tail⟩ =
      ⟨place + count, (common.take count).getLast?.or front, common.drop count ++ tail⟩ := by
    intro tail
    have step := advance_length place front (common.take count) (common.drop count ++ tail)
    rw [← List.append_assoc, ← parts, length] at step
    exact step
  rw [moved, moved]
  refine ⟨rfl, rfl, common.drop count, first, second, rfl, rfl, ?_⟩
  rw [List.length_drop]
  dsimp only
  omega

theorem take (agrees : Agrees stop cursor other) {count : Nat}
    (within : cursor.offset + count ≤ stop) : other.rest.take count = cursor.rest.take count := by
  obtain ⟨-, -, common, first, second, left, right, length⟩ := agrees
  rw [left, right, List.take_append_of_le_length (by omega),
    List.take_append_of_le_length (by omega)]

theorem head (agrees : Agrees stop cursor other) (before : cursor.offset < stop) :
    other.rest.head? = cursor.rest.head? := by
  have within : cursor.offset + 1 ≤ stop := before
  have one := congrArg List.head? (agrees.take within)
  simpa only [List.head?_take, Nat.succ_ne_zero, if_false] using one

theorem filled (agrees : Agrees stop cursor other) (before : cursor.offset < stop) :
    other.rest ≠ [] := by
  obtain ⟨-, -, common, first, second, -, right, length⟩ := agrees
  rintro none
  rw [none] at right
  rw [(List.append_eq_nil_iff.mp right.symm).1, List.length_nil] at length
  omega

/-- What passes a test in a row is the same if it ends before the data may differ. -/
theorem takeWhile (agrees : Agrees stop cursor other) {test : UInt8 → Bool}
    (short : cursor.offset + (cursor.rest.takeWhile test).length < stop) :
    other.rest.takeWhile test = cursor.rest.takeWhile test := by
  obtain ⟨-, -, common, first, second, left, right, length⟩ := agrees
  rw [left, List.takeWhile_append] at short
  rw [left, right, List.takeWhile_append, List.takeWhile_append]
  split at short
  · rw [List.length_append] at short
    omega
  · next ended => rw [if_neg ended, if_neg ended]

theorem skipSpaces (agrees : Agrees stop cursor other) (short : cursor.skipSpaces.offset < stop) :
    Agrees stop cursor.skipSpaces other.skipSpaces := by
  have bounded : (cursor.rest.takeWhile (· == Byte.space)).length ≤ cursor.rest.length :=
    (List.takeWhile_prefix _).length_le
  rw [Cursor.skipSpaces, Cursor.skipWhile, offset_advance_of_le bounded] at short
  have same := agrees.takeWhile short
  rw [Cursor.skipSpaces, Cursor.skipWhile, Cursor.skipSpaces, Cursor.skipWhile, same]
  exact agrees.advance (Nat.le_of_lt short)

end Agrees

end Cursor

namespace Response.Reader

variable {stop : Nat} {cursor other behind : Cursor}

/-! ## Names and scalars -/

theorem nameLength_le (depth : Int) (bytes : Bytes) : nameLength depth bytes ≤ bytes.length := by
  induction bytes generalizing depth with
  | nil => exact Nat.le_refl 0
  | cons byte bytes induction =>
      simp only [nameLength, List.length_cons]
      split_ifs
      · exact Nat.succ_le_succ (induction _)
      · exact Nat.succ_le_succ (induction _)
      · exact Nat.zero_le _
      · exact Nat.zero_le _
      · exact Nat.succ_le_succ (induction _)

theorem nameLength_shared {depth : Int} {common first : Bytes}
    (short : nameLength depth (common ++ first) < common.length) (second : Bytes) :
    nameLength depth (common ++ second) = nameLength depth (common ++ first) := by
  induction common generalizing depth with
  | nil => simp at short
  | cons byte common induction =>
      simp only [List.cons_append, nameLength, List.length_cons] at short ⊢
      split_ifs at short ⊢
      · rw [induction (by omega)]
      · rw [induction (by omega)]
      · rfl
      · rfl
      · rw [induction (by omega)]

theorem name_agrees (agrees : cursor.Agrees stop other) {found : String}
    (read : name cursor = .ok (found, behind)) (short : behind.offset < stop) :
    ∃ behind', name other = .ok (found, behind') ∧ behind.Agrees stop behind' := by
  rw [name_eq] at read
  split_ifs at read with missing
  · cases read
  · cases read
    have inside := short
    rw [Cursor.offset_advance_of_le (nameLength_le 0 cursor.rest)] at inside
    have same : nameLength 0 other.rest = nameLength 0 cursor.rest := by
      obtain ⟨-, -, common, first, second, left, right, length⟩ := agrees
      rw [left] at inside ⊢
      rw [right]
      exact nameLength_shared (by omega) second
    have later := agrees.advance (Nat.le_of_lt inside)
    have present : ¬(nameLength 0 cursor.rest = 0 ∨
        (other.advance (nameLength 0 cursor.rest)).rest = []) := by
      rintro (none | past)
      · exact missing (Or.inl none)
      · exact later.filled short past
    refine ⟨_, ?_, later⟩
    rw [name_eq, same, if_neg present, agrees.take (Nat.le_of_lt inside)]

theorem unquote_shared {bytes value : Bytes} {length : Nat}
    (found : unquote bytes = some (value, length)) :
    length ≤ bytes.length ∧ ∀ more, unquote (bytes.take length ++ more) = some (value, length) := by
  fun_induction unquote bytes generalizing value length with
  | case1 => cases found
  | case2 byte rest quote =>
      cases found
      refine ⟨Nat.succ_le_succ (Nat.zero_le _), fun more => ?_⟩
      rw [List.take_succ_cons, List.take_zero, List.cons_append, unquote.eq_def]
      simp only [quote, if_true]
  | case3 byte quote slash => cases found
  | case4 byte quote slash escaped rest induction =>
      obtain ⟨⟨value, length⟩, inner, same⟩ := Option.map_eq_some_iff.mp found
      cases same
      obtain ⟨bounded, kept⟩ := induction inner
      refine ⟨Nat.succ_le_succ (Nat.succ_le_succ bounded), fun more => ?_⟩
      rw [List.take_succ_cons, List.take_succ_cons, List.cons_append, List.cons_append,
        unquote.eq_def]
      simp only [quote, slash, kept more, if_true, Bool.false_eq_true, if_false, Option.map_some]
  | case5 byte rest quote slash induction =>
      obtain ⟨⟨value, length⟩, inner, same⟩ := Option.map_eq_some_iff.mp found
      cases same
      obtain ⟨bounded, kept⟩ := induction inner
      refine ⟨Nat.succ_le_succ bounded, fun more => ?_⟩
      rw [List.take_succ_cons, List.cons_append, unquote.eq_def]
      simp only [quote, slash, kept more, Bool.false_eq_true, if_false, Option.map_some]

theorem quoted_agrees (agrees : cursor.Agrees stop other) {found : Value}
    (begins : cursor.rest ≠ []) (read : quoted cursor = .ok (found, behind))
    (short : behind.offset < stop) :
    ∃ behind', quoted other = .ok (found, behind') ∧ behind.Agrees stop behind' := by
  unfold quoted at read
  split at read
  · next bytes length inner =>
      cases read
      obtain ⟨bounded, kept⟩ := unquote_shared inner
      have filled := List.length_pos_iff.mpr begins
      have inside : length + 1 ≤ cursor.rest.length := by
        rw [List.length_drop] at bounded
        omega
      rw [Cursor.offset_advance_of_le inside] at short
      have same : (other.rest.drop 1).take length = (cursor.rest.drop 1).take length := by
        have whole := congrArg (List.drop 1) (agrees.take (Nat.le_of_lt short))
        simpa only [List.drop_take, Nat.add_sub_cancel] using whole
      have again := kept ((other.rest.drop 1).drop length)
      rw [← same, List.take_append_drop] at again
      refine ⟨_, ?_, agrees.advance (Nat.le_of_lt short)⟩
      simp only [quoted, again]
  · cases read

/-- A literal header is known by its own bytes, and the data behind it by its size. -/
theorem literal_agrees (agrees : cursor.Agrees stop other) {found : Value}
    (read : literal cursor = .ok (found, behind)) (short : behind.offset < stop) :
    ∃ behind', literal other = .ok (found, behind') ∧ behind.Agrees stop behind' := by
  unfold literal at read
  split at read
  · cases read
  · next header begun =>
      dsimp only at read
      split at read
      · cases read
      · next complete =>
          cases read
          have fits := (Literal.length_header_pos begun).2
          simp only [List.length_take, List.length_drop] at complete fits
          rw [Cursor.offset_advance_of_le (by omega)] at short
          have same := agrees.take (Nat.le_of_lt short)
          have data : (other.rest.drop header.length).take header.size =
              (cursor.rest.drop header.length).take header.size := by
            have whole := congrArg (List.drop header.length) same
            simpa only [List.drop_take, Nat.add_sub_cancel_left] using whole
          have begun' : Literal.header? (other.rest.take headerLimit) = some header := by
            have front : ∀ bytes : Bytes, bytes.take headerLimit =
                bytes.take header.length ++ (bytes.take headerLimit).drop header.length := by
              intro bytes
              have parts := List.take_append_drop header.length (bytes.take headerLimit)
              rw [List.take_take, Nat.min_eq_left (by omega)] at parts
              exact parts.symm
            have head : other.rest.take header.length = cursor.rest.take header.length :=
              agrees.take (by omega)
            rw [front] at begun
            have alone := Literal.header?_of_append begun (by rw [List.length_take]; omega)
            rw [front, head]
            exact Literal.header?_append alone _
          refine ⟨_, ?_, agrees.advance (Nat.le_of_lt short)⟩
          have long : ¬((cursor.rest.drop header.length).take header.size).length <
              header.size := by
            rw [List.length_take, List.length_drop]
            omega
          simp only [literal, begun', data, if_neg long]

theorem atom_agrees (agrees : cursor.Agrees stop other) {found : Value}
    (read : atom cursor = .ok (found, behind)) (short : behind.offset < stop) :
    ∃ behind', atom other = .ok (found, behind') ∧ behind.Agrees stop behind' := by
  unfold atom at read
  dsimp only at read
  split at read
  · cases read
  · next filled =>
      cases read
      have bounded : (cursor.rest.takeWhile (!endsAtom ·)).length ≤ cursor.rest.length :=
        (List.takeWhile_prefix _).length_le
      rw [Cursor.offset_advance_of_le bounded] at short
      refine ⟨_, ?_, agrees.advance (Nat.le_of_lt short)⟩
      simp only [atom, agrees.takeWhile short, if_neg filled]

theorem scalar_agrees (agrees : cursor.Agrees stop other) {found : Value}
    (read : scalar cursor = .ok (found, behind)) (short : behind.offset < stop) :
    ∃ behind', scalar other = .ok (found, behind') ∧ behind.Agrees stop behind' := by
  have before := Nat.lt_of_le_of_lt (leads_scalar read).offset_le short
  rw [scalar_eq] at read
  rw [scalar_eq, agrees.head before]
  split_ifs at read ⊢ with quote brace
  · apply quoted_agrees agrees _ read short
    rintro none
    rw [none] at quote
    cases quote
  · exact literal_agrees agrees read short
  · exact atom_agrees agrees read short

/-! ## Lists and attributes -/

theorem offset_lt_of_shorter (leads : cursor.Leads behind)
    (shorter : behind.rest.length < cursor.rest.length) : cursor.offset < behind.offset := by
  obtain ⟨count, rfl⟩ := leads
  rw [Cursor.length_rest_advance] at shorter
  rw [Cursor.offset_advance]
  omega

theorem offset_lt_listRest {outer : List (List Value)} {items : List Value} {found : Value}
    (read : listRest outer items cursor = .ok (found, behind)) : cursor.offset < behind.offset :=
  offset_lt_of_shorter (leads_listRest read) (length_listRest read)

theorem offset_lt_attributesFrom {known found : Attributes}
    (read : attributesFrom known cursor = .ok (found, behind)) : cursor.offset < behind.offset :=
  offset_lt_of_shorter (leads_attributesFrom read) (length_attributesFrom read)

theorem offset_next {byte : UInt8} {rest : Bytes} (full : cursor.rest = byte :: rest) :
    (cursor.advance 1).offset = cursor.offset + 1 := by
  rw [Cursor.offset_advance_of_le]
  rw [full, List.length_cons]
  exact Nat.succ_le_succ (Nat.zero_le _)

theorem listRest_agrees {outer : List (List Value)} {items : List Value}
    (agrees : cursor.Agrees stop other) {found : Value}
    (read : listRest outer items cursor = .ok (found, behind)) (short : behind.offset ≤ stop) :
    ∃ behind', listRest outer items other = .ok (found, behind') ∧
      behind.Agrees stop behind' := by
  fun_induction listRest outer items cursor generalizing other with
  | case1 => cases read
  | case2 items cursor byte rest full closing =>
      cases read
      rw [offset_next full] at short
      have visible := agrees.skipSpaces short
      refine ⟨_, ?_, visible.advance short⟩
      rw [listRest_eq, visible.head short, full, List.head?_cons]
      simp only [closing, if_true]
  | case3 items cursor byte rest full closing around outer induction =>
      have step := offset_lt_listRest read
      rw [offset_next full] at step
      have visible := agrees.skipSpaces (by omega)
      obtain ⟨behind', again, later⟩ := induction (visible.advance (by omega)) read
      refine ⟨behind', ?_, later⟩
      rw [listRest_eq, visible.head (by omega), full, List.head?_cons]
      simp only [closing, if_true, again]
  | case4 outer items cursor byte rest full closing opening induction =>
      have step := offset_lt_listRest read
      rw [offset_next full] at step
      have visible := agrees.skipSpaces (by omega)
      obtain ⟨behind', again, later⟩ := induction (visible.advance (by omega)) read
      refine ⟨behind', ?_, later⟩
      rw [listRest_eq, visible.head (by omega), full, List.head?_cons]
      simp only [closing, opening, if_true, Bool.false_eq_true, if_false, again]
  | case5 => cases read
  | case6 outer items cursor byte rest full closing opening value place scalarRead induction =>
      have last := Nat.lt_of_lt_of_le (offset_lt_listRest read) short
      have before := Nat.lt_of_le_of_lt (leads_scalar scalarRead).offset_le last
      have visible := agrees.skipSpaces before
      obtain ⟨place', same, further⟩ := scalar_agrees visible scalarRead last
      obtain ⟨behind', again, later⟩ := induction further read
      refine ⟨behind', ?_, later⟩
      rw [listRest_eq, visible.head before, full, List.head?_cons]
      simp only [closing, opening, same, Bool.false_eq_true, if_false, again]

theorem value_agrees (agrees : cursor.Agrees stop other) {found : Value}
    (read : value cursor = .ok (found, behind)) (short : behind.offset < stop) :
    ∃ behind', value other = .ok (found, behind') ∧ behind.Agrees stop behind' := by
  have before := Nat.lt_of_le_of_lt (leads_value read).offset_le short
  rw [value_eq] at read
  rw [value_eq, agrees.head before]
  split_ifs at read ⊢ with opening
  · exact listRest_agrees (agrees.advance before) read (Nat.le_of_lt short)
  · exact scalar_agrees agrees read short

theorem valueAfterName_agrees (agrees : cursor.Agrees stop other) {found : Value}
    (read : valueAfterName cursor = .ok (found, behind)) (short : behind.offset < stop) :
    ∃ behind', valueAfterName other = .ok (found, behind') ∧ behind.Agrees stop behind' := by
  rw [valueAfterName_eq] at read
  have before : cursor.skipSpaces.offset < stop := by
    split_ifs at read
    · cases read
      exact short
    · exact Nat.lt_of_le_of_lt (leads_value read).offset_le short
  have visible := agrees.skipSpaces before
  rw [valueAfterName_eq, visible.head before]
  split_ifs at read ⊢ with closing
  · cases read
    exact ⟨_, rfl, visible⟩
  · exact value_agrees visible read short

theorem attributesFrom_agrees {known : Attributes} (agrees : cursor.Agrees stop other)
    {found : Attributes} (read : attributesFrom known cursor = .ok (found, behind))
    (short : behind.offset ≤ stop) :
    ∃ behind', attributesFrom known other = .ok (found, behind') ∧
      behind.Agrees stop behind' := by
  fun_induction attributesFrom known cursor generalizing other with
  | case1 known cursor rest full =>
      cases read
      rw [offset_next full] at short
      have visible := agrees.skipSpaces short
      refine ⟨_, ?_, visible.advance short⟩
      rw [attributesFrom_eq, visible.head short, full, List.head?_cons]
      rfl
  | case2 => cases read
  | case3 => cases read
  | case4 known cursor name place named value place' valued unclosed induction =>
      have last := Nat.lt_of_lt_of_le (offset_lt_attributesFrom read) short
      have middle := Nat.lt_of_le_of_lt (leads_valueAfterName valued).offset_le last
      have first := Nat.lt_of_le_of_lt (leads_name named).offset_le middle
      have visible := agrees.skipSpaces first
      obtain ⟨inner, named', further⟩ := name_agrees visible named middle
      obtain ⟨inner', valued', further'⟩ := valueAfterName_agrees further valued last
      obtain ⟨behind', again, later⟩ := induction further' read
      refine ⟨behind', ?_, later⟩
      rw [attributesFrom_eq, visible.head first, if_neg (head?_ne Byte.closeParen unclosed), named']
      simp only [valued', again]

end Response.Reader

namespace Cursor

theorem agrees_start {stop : Nat} {text other : Bytes} (same : other.take stop = text.take stop)
    (inside : stop ≤ text.length) : Agrees stop (start text) (start other) where
  offset := rfl
  previous := rfl
  shared := by
    refine ⟨text.take stop, text.drop stop, other.drop stop, ?_, ?_, ?_⟩
    · exact (List.take_append_drop stop text).symm
    · rw [← same]
      exact (List.take_append_drop stop other).symm
    · rw [List.length_take, Nat.min_eq_left inside]
      exact Nat.zero_add stop

end Cursor

namespace Response

/-- The attributes of a response are read from all data that begins alike up to their end. -/
theorem attributes_agree {text other : Bytes} {start : Nat} {attributes : Attributes}
    {behind : Cursor}
    (read : Reader.attributes ((Cursor.start text).advance start) = .ok (attributes, behind))
    (same : other.take behind.offset = text.take behind.offset) :
    Reader.attributes ((Cursor.start other).advance start) =
        .ok (attributes, (Cursor.start other).advance behind.offset) ∧
      behind.offset ≤ other.length := by
  have leads := (Cursor.leads_advance start (.start text)).trans (Reader.leads_attributesFrom read)
  have inside := Cursor.offset_le_length leads
  have before := Reader.offset_lt_attributesFrom read
  have begins : start ≤ text.length := by
    have shorter := Reader.length_attributesFrom read
    rw [Cursor.length_rest_advance] at shorter
    exact Nat.le_of_lt (Nat.lt_of_sub_pos (Nat.lt_of_le_of_lt (Nat.zero_le _) shorter))
  rw [Cursor.offset_advance_of_le begins] at before
  have agrees := (Cursor.agrees_start same inside).advance (Nat.le_of_lt before)
  obtain ⟨behind', again, later⟩ := Reader.attributesFrom_agrees agrees read (Nat.le_refl _)
  have leads' := (Cursor.leads_advance start (.start other)).trans
    (Reader.leads_attributesFrom again)
  have place : behind' = (Cursor.start other).advance behind'.offset := leads'.eq_advance
  rw [← later.offset, ← place]
  exact ⟨again, Cursor.offset_le_length leads'⟩

/-- Nothing but the data of a response decides what is read from it, and a response that is cut
off anywhere in front of its end is refused. -/
theorem attributes_are_read_whole_or_refused {text : Bytes} {start : Nat} {attributes : Attributes}
    {behind : Cursor}
    (read : Reader.attributes ((Cursor.start text).advance start) = .ok (attributes, behind)) :
    (∀ other : Bytes, other.take behind.offset = text.take behind.offset →
      Reader.attributes ((Cursor.start other).advance start) =
          .ok (attributes, (Cursor.start other).advance behind.offset) ∧
        behind.offset ≤ other.length) ∧
      ∀ kept, start ≤ kept → kept < behind.offset →
        ∃ malformed, Reader.attributes ((Cursor.start (text.take kept)).advance start) =
          .error malformed := by
  refine ⟨fun other => attributes_agree read, ?_⟩
  intro kept begins cut
  cases outcome : Reader.attributes ((Cursor.start (text.take kept)).advance start) with
  | error malformed => exact ⟨malformed, rfl⟩
  | ok answer =>
      -- What is read from the part would be read from the whole, and end in front of the cut.
      obtain ⟨found, early⟩ := answer
      have within := Cursor.offset_le_length
        ((Cursor.leads_advance start _).trans (Reader.leads_attributesFrom outcome))
      rw [List.length_take] at within
      have same : text.take early.offset = (text.take kept).take early.offset := by
        rw [List.take_take, Nat.min_eq_left (by omega)]
      have whole := (attributes_agree outcome same).1
      rw [read] at whole
      have ends := congrArg Cursor.offset (Prod.mk.inj (Except.ok.inj whole)).2
      rw [Cursor.offset_advance] at ends
      have origin : (Cursor.start text).offset = 0 := rfl
      omega

/-- A response with a list in a list, a literal that holds a closing parenthesis, and a name at its
end that has no value. -/
def layeredResponse : Bytes :=
  Bytes.ofNarrow "* 1 FETCH (FLAGS (\\Seen (a)) BODY[TEXT] \x7b4\x7d\r\n)\r\n) RFC822)\r\n"

theorem layered_response_is_read_whole :
    Reader.attributes ((Cursor.start layeredResponse).advance 11) =
        .ok (⟨[("FLAGS", .list [.text "\\Seen", .list [.text "a"]]),
          ("BODY[TEXT]", .bytes (Bytes.ofNarrow ")\r\n)")), ("RFC822", .nil)]⟩,
          ⟨57, some Byte.closeParen, Bytes.crlf⟩) ∧
      ∀ kept, 11 ≤ kept → kept < 57 →
        ∃ malformed, Reader.attributes ((Cursor.start (layeredResponse.take kept)).advance 11) =
          .error malformed := by
  have read : Reader.attributes ((Cursor.start layeredResponse).advance 11) =
      .ok (⟨[("FLAGS", .list [.text "\\Seen", .list [.text "a"]]),
        ("BODY[TEXT]", .bytes (Bytes.ofNarrow ")\r\n)")), ("RFC822", .nil)]⟩,
        ⟨57, some Byte.closeParen, Bytes.crlf⟩) := by
    with_unfolding_all rfl
  exact ⟨read, (attributes_are_read_whole_or_refused read).2⟩

end Response

end ImapDialogue

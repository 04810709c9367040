import ImapDialogue.Proofs.Response.Joining
import ImapDialogue.Proofs.Response.Reading

/-!
A response behind lines that cannot be decoded. Readers stop at the end of a line, all but the
one of quoted texts: a quote that is left open in those lines may be closed by one in the response
behind them. If that makes the broken response one that can be decoded, the response behind it is
lost; in every other case it is found, and the faults in front of it are told as without it.
-/

namespace ImapDialogue

/-! ## Whole lines in front of more data -/

structure Cursor.Lined (cursor : Cursor) : Prop where
  ended : cursor.rest.getLast?.any Byte.isLineEnd = true
  braceless : Byte.openBrace ∉ cursor.rest

theorem Cursor.Leads.absent {cursor behind : Cursor} (leads : cursor.Leads behind) {byte : UInt8}
    (absent : byte ∉ cursor.rest) : byte ∉ behind.rest := by
  obtain ⟨count, rfl⟩ := leads
  rw [rest_advance]
  exact fun member => absent (List.mem_of_mem_drop member)

namespace Cursor.Lined

variable {cursor : Cursor}

theorem filled (lined : cursor.Lined) : cursor.rest ≠ [] := by
  intro empty
  have ended := lined.ended
  rw [empty] at ended
  cases ended

theorem advance (lined : cursor.Lined) {count : Nat} (inside : count < cursor.rest.length) :
    (cursor.advance count).Lined where
  ended := by
    rw [rest_advance, List.getLast?_drop, if_neg (Nat.not_le.mpr inside)]
    exact lined.ended
  braceless := (leads_advance count cursor).absent lined.braceless

/-- What stops at line ends stops before the data does. -/
theorem takeWhile (lined : cursor.Lined) {test : UInt8 → Bool}
    (stops : ∀ byte, Byte.isLineEnd byte = true → test byte = false) (more : Bytes) :
    (cursor.rest ++ more).takeWhile test = cursor.rest.takeWhile test ∧
      (cursor.rest.takeWhile test).length < cursor.rest.length := by
  have short : (cursor.rest.takeWhile test).length < cursor.rest.length := by
    refine Nat.lt_of_le_of_ne (List.takeWhile_prefix test).length_le ?_
    intro same
    have all := (List.takeWhile_prefix test).eq_of_length same
    have last := List.getLast?_eq_some_getLast lined.filled
    have ended := lined.ended
    rw [last, Option.any_some] at ended
    have passes := List.mem_takeWhile_imp
      (show cursor.rest.getLast lined.filled ∈ cursor.rest.takeWhile test by
        rw [all]
        exact List.getLast_mem _)
    rw [stops _ ended] at passes
    cases passes
  rw [List.takeWhile_append, if_neg (Nat.ne_of_lt short)]
  exact ⟨rfl, short⟩

theorem skipSpaces (lined : cursor.Lined) (more : Bytes) :
    (cursor.before more).skipSpaces = cursor.skipSpaces.before more ∧
      cursor.skipSpaces.Lined := by
  have stops : ∀ byte, Byte.isLineEnd byte = true → (byte == Byte.space) = false := by
    intro byte ends
    rw [beq_eq_false_iff_ne]
    rintro rfl
    exact absurd ends (by decide)
  have spaces := lined.takeWhile stops more
  constructor
  · have same : (cursor.before more).skipSpaces =
        (cursor.before more).advance (cursor.rest.takeWhile (· == Byte.space)).length := by
      rw [Cursor.skipSpaces, Cursor.skipWhile, Cursor.before, spaces.1]
    rw [same, advance_before (Nat.le_of_lt spaces.2)]
    rfl
  · exact lined.advance spaces.2

theorem head (lined : cursor.Lined) (more : Bytes) :
    (cursor.before more).rest.head? = cursor.rest.head? :=
  List.head?_append_of_ne_nil _ lined.filled

/-- A place behind a byte that ends no line is in the lines still. -/
theorem step (lined : cursor.Lined) {byte : UInt8} (first : cursor.rest.head? = some byte)
    (inner : Byte.isLineEnd byte = false) : 1 < cursor.rest.length := by
  obtain ⟨rest, full⟩ := List.head?_eq_some_iff.mp first
  cases rest with
  | nil =>
      have ended := lined.ended
      rw [full, List.getLast?_singleton, Option.any_some, inner] at ended
      cases ended
  | cons other others =>
      rw [full]
      simp

theorem next (lined : cursor.Lined) {byte : UInt8} (first : cursor.rest.head? = some byte)
    (inner : Byte.isLineEnd byte = false) (more : Bytes) :
    (cursor.before more).advance 1 = (cursor.advance 1).before more ∧ (cursor.advance 1).Lined := by
  have inside := lined.step first inner
  exact ⟨Cursor.advance_before (Nat.le_of_lt inside) more, lined.advance inside⟩

end Cursor.Lined

namespace Response

open Cursor (Lined)

/-- The same complaint when more data follows: a missing quote is looked for up to the end. -/
def Malformed.before (more : Bytes) (malformed : Malformed) : Malformed :=
  if malformed.missing = .closingQuote then ⟨.closingQuote, malformed.offset + more.length⟩
  else malformed

namespace Reader

variable {α : Type} {cursor : Cursor} {more : Bytes}

def Answer.before (more : Bytes) : Answer α → Answer α
  | .ok (found, behind) => .ok (found, behind.before more)
  | .error malformed => .error (malformed.before more)

def Firm (more : Bytes) (answer : Answer α) : Prop :=
  ∀ malformed, answer = .error malformed → malformed.missing = .closingQuote → Byte.quote ∉ more

theorem firm_ok (answer : α × Cursor) : Firm more (.ok answer) := by
  intro malformed failed
  cases failed

theorem Firm.of_error {β : Type} {malformed : Malformed}
    (firm : Firm more (.error malformed : Answer α)) :
    Firm more (.error malformed : Answer β) := by
  intro other same
  cases same
  exact firm malformed rfl

/-- A reader gives the same answer when more data follows, and stays in the lines. -/
structure Settles (more : Bytes) (read : Cursor → Answer α) (cursor : Cursor) : Prop where
  before : read (cursor.before more) = (read cursor).before more
  lined : ∀ found behind, read cursor = .ok (found, behind) → behind.Lined

theorem Settles.of_same {read other : Cursor → Answer α} {place : Cursor}
    (settles : Settles more other place) (same : read cursor = other place)
    (same' : read (cursor.before more) = other (place.before more)) :
    Settles more read cursor := by
  refine ⟨by rw [same, same', settles.before], ?_⟩
  rw [same]
  exact settles.lined

theorem Settles.of_error {read : Cursor → Answer α} (malformed : Malformed)
    (failed : read cursor = .error malformed)
    (failed' : read (cursor.before more) = .error (malformed.before more)) :
    Settles more read cursor := by
  refine ⟨by rw [failed, failed']; rfl, ?_⟩
  intro found behind read
  rw [failed] at read
  cases read

theorem Settles.of_ok {read : Cursor → Answer α} (found : α) {behind : Cursor}
    (lined : behind.Lined) (done : read cursor = .ok (found, behind))
    (done' : read (cursor.before more) = .ok (found, behind.before more)) :
    Settles more read cursor := by
  refine ⟨by rw [done, done']; rfl, ?_⟩
  intro other place read
  rw [done] at read
  obtain ⟨rfl, rfl⟩ := Prod.mk.inj (Except.ok.inj read)
  exact lined

theorem nameLength_lt {bytes : Bytes} (ended : bytes.getLast?.any Byte.isLineEnd = true)
    (depth : Int) : nameLength depth bytes < bytes.length := by
  induction bytes generalizing depth with
  | nil => cases ended
  | cons byte rest induction =>
      cases rest with
      | nil =>
          have line : Byte.isLineEnd byte = true := by simpa using ended
          have unopened : (byte == Byte.openBracket) = false := by
            rw [beq_eq_false_iff_ne]
            rintro rfl
            exact absurd line (by decide)
          have unclosed : (byte == Byte.closeBracket) = false := by
            rw [beq_eq_false_iff_ne]
            rintro rfl
            exact absurd line (by decide)
          simp [nameLength, line, unopened, unclosed]
      | cons other others =>
          rw [List.getLast?_cons_cons] at ended
          rw [nameLength]
          split_ifs
          · exact Nat.succ_lt_succ (induction ended _)
          · exact Nat.succ_lt_succ (induction ended _)
          · exact Nat.succ_pos _
          · exact Nat.succ_pos _
          · exact Nat.succ_lt_succ (induction ended _)

theorem settles_name (lined : cursor.Lined) (more : Bytes) : Settles more name cursor := by
  have short := nameLength_lt lined.ended 0
  have same : nameLength 0 (cursor.rest ++ more) = nameLength 0 cursor.rest := by
    have short' : nameLength 0 (cursor.rest ++ []) < cursor.rest.length := by
      rwa [List.append_nil]
    have shared := nameLength_shared short' more
    rwa [List.append_nil] at shared
  have behind := lined.advance short
  constructor
  · have rest : (cursor.before more).rest = cursor.rest ++ more := rfl
    have filled := behind.filled
    have filled' : ((cursor.advance (nameLength 0 cursor.rest)).before more).rest ≠ [] :=
      fun none => filled (List.append_eq_nil_iff.mp none).1
    rw [name_eq, name_eq cursor, rest, same, Cursor.advance_before (Nat.le_of_lt short),
      List.take_append_of_le_length (Nat.le_of_lt short)]
    simp only [filled, filled', or_false]
    split_ifs <;> rfl
  · intro found place read
    rw [name_eq] at read
    split_ifs at read with missing
    · cases read
    · obtain ⟨rfl, rfl⟩ := Prod.mk.inj (Except.ok.inj read)
      exact behind

/-! ## Scalars -/

theorem unquote_closes {bytes value : Bytes} {length : Nat}
    (found : unquote bytes = some (value, length)) :
    ∃ inner, bytes.take length = inner ++ [Byte.quote] := by
  fun_induction unquote bytes generalizing value length with
  | case1 => cases found
  | case2 byte rest quote =>
      cases found
      rw [beq_iff_eq.mp quote]
      exact ⟨[], rfl⟩
  | case3 byte quote slash => cases found
  | case4 byte quote slash escaped rest induction =>
      obtain ⟨⟨value, length⟩, inner, same⟩ := Option.map_eq_some_iff.mp found
      cases same
      obtain ⟨front, parts⟩ := induction inner
      exact ⟨byte :: escaped :: front, by rw [List.take_succ_cons, List.take_succ_cons, parts]; rfl⟩
  | case5 byte rest quote slash induction =>
      obtain ⟨⟨value, length⟩, inner, same⟩ := Option.map_eq_some_iff.mp found
      cases same
      obtain ⟨front, parts⟩ := induction inner
      exact ⟨byte :: front, by rw [List.take_succ_cons, parts]; rfl⟩

theorem unquote_open {bytes : Bytes} (quoteless : Byte.quote ∉ bytes) : unquote bytes = none := by
  rw [Option.eq_none_iff_forall_ne_some]
  rintro ⟨value, length⟩ found
  obtain ⟨inner, parts⟩ := unquote_closes found
  apply quoteless
  apply List.mem_of_mem_take (i := length)
  rw [parts]
  exact List.mem_append_right _ (List.mem_singleton_self _)

theorem unquote_append {bytes more : Bytes} (opened : unquote bytes = none)
    (quoteless : Byte.quote ∉ more) : unquote (bytes ++ more) = none := by
  fun_induction unquote bytes with
  | case1 => exact unquote_open quoteless
  | case2 => cases opened
  | case3 byte quote slash =>
      rw [List.cons_append, List.nil_append, unquote.eq_def]
      simp only [quote, slash, Bool.false_eq_true, if_false, if_true]
      cases more with
      | nil => rfl
      | cons escaped more =>
          have inner := unquote_open (List.not_mem_of_not_mem_cons quoteless)
          simp only [inner, Option.map_none]
  | case4 byte quote slash escaped rest induction =>
      have inner := induction (Option.map_eq_none_iff.mp opened)
      rw [List.cons_append, List.cons_append, unquote.eq_def]
      simp only [quote, slash, inner, Bool.false_eq_true, if_false, if_true, Option.map_none]
  | case5 byte rest quote slash induction =>
      have inner := induction (Option.map_eq_none_iff.mp opened)
      rw [List.cons_append, unquote.eq_def]
      simp only [quote, slash, inner, Bool.false_eq_true, if_false, Option.map_none]

theorem settles_quoted (lined : cursor.Lined) (firm : Firm more (quoted cursor)) :
    Settles more quoted cursor := by
  have positive := List.length_pos_iff.mpr lined.filled
  have inside : (cursor.before more).rest.drop 1 = cursor.rest.drop 1 ++ more :=
    List.drop_append_of_le_length positive
  cases read : unquote (cursor.rest.drop 1) with
  | none =>
      have failed : quoted cursor = fail .closingQuote (cursor.advance cursor.rest.length) := by
        simp only [quoted, read]
      have opened := unquote_append read (firm _ failed rfl)
      have offset : ((cursor.before more).advance (cursor.before more).rest.length).offset =
          (cursor.advance cursor.rest.length).offset + more.length := by
        rw [Cursor.offset_advance, Cursor.offset_advance, Nat.min_self, Nat.min_self, Nat.add_assoc,
          ← List.length_append]
        rfl
      apply Settles.of_error _ failed
      rw [quoted, inside, opened]
      simp only [fail, offset]
      rfl
  | some result =>
      obtain ⟨value, length⟩ := result
      obtain ⟨bounded, shared⟩ := unquote_shared read
      rw [List.length_drop] at bounded
      -- The last byte ends a line, so it is not the quote that closes the text.
      have short : length + 1 < cursor.rest.length := by
        by_contra long
        obtain ⟨inner, parts⟩ := unquote_closes read
        rw [List.take_of_length_le (by rw [List.length_drop]; omega)] at parts
        have last := congrArg List.getLast? parts
        rw [List.getLast?_concat, List.getLast?_drop] at last
        split at last
        · cases last
        · have ended := lined.ended
          rw [last] at ended
          cases ended
      have again := shared ((cursor.rest.drop 1).drop length ++ more)
      rw [← List.append_assoc, List.take_append_drop, ← inside] at again
      apply Settles.of_ok (.text (Utf8.decode value)) (lined.advance short)
      · simp only [quoted, read]
      · simp only [quoted, again, Cursor.advance_before (Nat.le_of_lt short)]

theorem settles_atom (lined : cursor.Lined) (more : Bytes) : Settles more atom cursor := by
  have stops : ∀ byte, Byte.isLineEnd byte = true → (!endsAtom byte) = false := by
    intro byte ends
    simp [endsAtom, ends]
  obtain ⟨same, short⟩ := lined.takeWhile stops more
  have rest : (cursor.before more).rest = cursor.rest ++ more := rfl
  constructor
  · simp only [atom, rest, same, Cursor.advance_before (Nat.le_of_lt short)]
    split
    · rfl
    · rfl
  · intro found behind read
    unfold atom at read
    dsimp only at read
    split at read
    · cases read
    · obtain ⟨rfl, rfl⟩ := Prod.mk.inj (Except.ok.inj read)
      exact lined.advance short

theorem settles_scalar (lined : cursor.Lined) (firm : Firm more (scalar cursor)) :
    Settles more scalar cursor := by
  have head := lined.head more
  have unbraced : cursor.rest.head? ≠ some Byte.openBrace := by
    intro brace
    obtain ⟨rest, full⟩ := List.head?_eq_some_iff.mp brace
    apply lined.braceless
    rw [full]
    exact List.mem_cons_self
  by_cases quote : cursor.rest.head? = some Byte.quote
  · have same : scalar cursor = quoted cursor := by rw [scalar_eq, if_pos quote]
    rw [same] at firm
    apply (settles_quoted lined firm).of_same same
    rw [scalar_eq, head, if_pos quote]
  · apply (settles_atom lined more).of_same
    · rw [scalar_eq, if_neg quote, if_neg unbraced]
    · rw [scalar_eq, head, if_neg quote, if_neg unbraced]

/-! ## Values and attributes -/

theorem settles_listRest {outer : List (List Value)} {items : List Value} (lined : cursor.Lined)
    (firm : Firm more (listRest outer items cursor)) :
    Settles more (listRest outer items) cursor := by
  fun_induction listRest outer items cursor with
  | case1 outer items cursor past => exact absurd past (lined.skipSpaces more).2.filled
  | case2 items cursor byte rest full closing =>
      obtain ⟨spaces, behind⟩ := lined.skipSpaces more
      have head := behind.head more
      have first : cursor.skipSpaces.rest.head? = some byte := by rw [full]; rfl
      obtain ⟨step, inside⟩ := behind.next first (by rw [beq_iff_eq.mp closing]; rfl) more
      apply Settles.of_ok (closed items) inside
      · rw [listRest_eq, full, List.head?_cons]
        simp only [closing, if_true]
      · rw [listRest_eq, spaces, head, full, List.head?_cons]
        simp only [closing, if_true, step]
  | case3 items cursor byte rest full closing around outer induction =>
      obtain ⟨spaces, behind⟩ := lined.skipSpaces more
      have head := behind.head more
      have first : cursor.skipSpaces.rest.head? = some byte := by rw [full]; rfl
      obtain ⟨step, inside⟩ := behind.next first (by rw [beq_iff_eq.mp closing]; rfl) more
      apply (induction inside firm).of_same
      · rw [listRest_eq, full, List.head?_cons]
        simp only [closing, if_true]
      · rw [listRest_eq, spaces, head, full, List.head?_cons]
        simp only [closing, if_true, step]
  | case4 outer items cursor byte rest full closing opening induction =>
      obtain ⟨spaces, behind⟩ := lined.skipSpaces more
      have head := behind.head more
      have first : cursor.skipSpaces.rest.head? = some byte := by rw [full]; rfl
      obtain ⟨step, inside⟩ := behind.next first (by rw [beq_iff_eq.mp opening]; rfl) more
      apply (induction inside firm).of_same
      · rw [listRest_eq, full, List.head?_cons]
        simp only [closing, opening, if_true, Bool.false_eq_true, if_false]
      · rw [listRest_eq, spaces, head, full, List.head?_cons]
        simp only [closing, opening, if_true, Bool.false_eq_true, if_false, step]
  | case5 outer items cursor byte rest full closing opening malformed failed =>
      obtain ⟨spaces, behind⟩ := lined.skipSpaces more
      have head := behind.head more
      have read := (settles_scalar behind (by rw [failed]; exact firm.of_error)).before
      rw [failed] at read
      apply Settles.of_error malformed
      · rw [listRest_eq, full, List.head?_cons]
        simp only [closing, opening, Bool.false_eq_true, if_false, failed]
      · rw [listRest_eq, spaces, head, full, List.head?_cons]
        simp only [closing, opening, Bool.false_eq_true, if_false, read]
        rfl
  | case6 outer items cursor byte rest full closing opening value place read induction =>
      obtain ⟨spaces, behind⟩ := lined.skipSpaces more
      have head := behind.head more
      have settles : Settles more scalar cursor.skipSpaces :=
        settles_scalar behind (by rw [read]; exact firm_ok _)
      have read' := settles.before
      rw [read] at read'
      apply (induction (settles.lined _ _ read) firm).of_same
      · rw [listRest_eq, full, List.head?_cons]
        simp only [closing, opening, Bool.false_eq_true, if_false, read]
      · rw [listRest_eq, spaces, head, full, List.head?_cons]
        simp only [closing, opening, Bool.false_eq_true, if_false, read']
        rfl

theorem settles_value (lined : cursor.Lined) (firm : Firm more (value cursor)) :
    Settles more value cursor := by
  have head := lined.head more
  by_cases list : cursor.rest.head? = some Byte.openParen
  · obtain ⟨step, inside⟩ := lined.next list rfl more
    have same : value cursor = listRest [] [] (cursor.advance 1) := by
      rw [value_eq, if_pos list]
    rw [same] at firm
    apply (settles_listRest inside firm).of_same same
    rw [value_eq, head, if_pos list, step]
  · have same : value cursor = scalar cursor := by rw [value_eq, if_neg list]
    rw [same] at firm
    apply (settles_scalar lined firm).of_same same
    rw [value_eq, head, if_neg list]

theorem settles_valueAfterName (lined : cursor.Lined) (firm : Firm more (valueAfterName cursor)) :
    Settles more valueAfterName cursor := by
  obtain ⟨spaces, behind⟩ := lined.skipSpaces more
  have head := behind.head more
  by_cases closes : cursor.skipSpaces.rest.head? = some Byte.closeParen
  · apply Settles.of_ok .nil behind
    · rw [valueAfterName_eq, if_pos closes]
    · rw [valueAfterName_eq, spaces, head, if_pos closes]
  · have same : valueAfterName cursor = value cursor.skipSpaces := by
      rw [valueAfterName_eq, if_neg closes]
    rw [same] at firm
    apply (settles_value behind firm).of_same same
    rw [valueAfterName_eq, spaces, head, if_neg closes]

theorem settles_attributesFrom {known : Attributes} (lined : cursor.Lined)
    (firm : Firm more (attributesFrom known cursor)) :
    Settles more (attributesFrom known) cursor := by
  fun_induction attributesFrom known cursor with
  | case1 known cursor rest full =>
      obtain ⟨spaces, behind⟩ := lined.skipSpaces more
      have head := behind.head more
      have closes : cursor.skipSpaces.rest.head? = some Byte.closeParen := by rw [full]; rfl
      obtain ⟨step, inside⟩ := behind.next closes rfl more
      apply Settles.of_ok known inside
      · rw [attributesFrom_eq, if_pos closes]
      · rw [attributesFrom_eq, spaces, head, if_pos closes, step]
  | case2 known cursor malformed failed unclosed =>
      obtain ⟨spaces, behind⟩ := lined.skipSpaces more
      have head := behind.head more
      have named := (settles_name behind more).before
      rw [failed] at named
      apply Settles.of_error malformed
      · rw [attributesFrom_eq, if_neg (head?_ne Byte.closeParen unclosed), failed]
      · rw [attributesFrom_eq, spaces, head, if_neg (head?_ne Byte.closeParen unclosed), named]
        rfl
  | case3 known cursor found place named malformed failed unclosed =>
      obtain ⟨spaces, behind⟩ := lined.skipSpaces more
      have head := behind.head more
      have settles := settles_name behind more
      have named' := settles.before
      rw [named] at named'
      have failed' := (settles_valueAfterName (settles.lined _ _ named)
        (by rw [failed]; exact firm.of_error)).before
      rw [failed] at failed'
      apply Settles.of_error malformed
      · rw [attributesFrom_eq, if_neg (head?_ne Byte.closeParen unclosed), named]
        simp only [failed]
      · rw [attributesFrom_eq, spaces, head, if_neg (head?_ne Byte.closeParen unclosed), named']
        simp only [Answer.before, failed']
  | case4 known cursor found place named value place' valued unclosed induction =>
      obtain ⟨spaces, behind⟩ := lined.skipSpaces more
      have head := behind.head more
      have settles := settles_name behind more
      have named' := settles.before
      rw [named] at named'
      have settles' : Settles more valueAfterName place :=
        settles_valueAfterName (settles.lined _ _ named) (by rw [valued]; exact firm_ok _)
      have valued' := settles'.before
      rw [valued] at valued'
      apply (induction (settles'.lined _ _ valued) firm).of_same
      · rw [attributesFrom_eq, if_neg (head?_ne Byte.closeParen unclosed), named]
        simp only [valued]
      · rw [attributesFrom_eq, spaces, head, if_neg (head?_ne Byte.closeParen unclosed), named']
        simp only [Answer.before, valued']

end Reader

/-! ## The search behind faults -/

/-- More data may close a quote that a fault misses. -/
def Fault.Open (more : Bytes) (fault : Fault) : Prop :=
  fault.malformed.missing = .closingQuote ∧ Byte.quote ∈ more

/-- A fault that is told again when more data follows, of the same response. It is the same
complaint unless the data may close a quote that is missed. -/
structure Fault.Retold (more : Bytes) (fault other : Fault) : Prop where
  sequence : other.sequence = fault.sequence
  malformed : ¬fault.Open more → other.malformed = fault.malformed.before more

/-- What becomes of faults when more data follows: each is told again, and what the search finds
behind them all follows; or one whose quote may be closed turns into a record. -/
inductive Recovers (more : Bytes) (behind : List Item) : List Fault → List Item → Prop where
  | clear : Recovers more behind [] behind
  | retold {fault other : Fault} {faults : List Fault} {items : List Item} :
      fault.Retold more other → Recovers more behind faults items →
        Recovers more behind (fault :: faults) (.fault other :: items)
  | swallowed {fault : Fault} {faults : List Fault} {items : List Item}
      (attributes : Attributes) : fault.Open more →
        Recovers more behind (fault :: faults) (.record ⟨fault.sequence, attributes⟩ :: items)

theorem lined_behind_opening {cursor : Cursor} {sequence : Number} {length : Nat}
    (whole : cursor.rest.getLast?.all Byte.isLineEnd = true)
    (braceless : Byte.openBrace ∉ cursor.rest)
    (found : opening? cursor = some (sequence, length)) :
    length < cursor.rest.length ∧ (cursor.advance length).Lined := by
  have filled := rest_ne_nil_of_opening? found
  obtain ⟨-, opening, begins, -, rfl⟩ := opening?_eq_some_iff.mp found
  have last := List.getLast?_eq_some_getLast filled
  rw [last, Option.all_some] at whole
  have lined : cursor.Lined := ⟨by rw [last]; exact whole, braceless⟩
  have inside : opening.bytes.length < cursor.rest.length := by
    refine Nat.lt_of_le_of_ne begins.length_le ?_
    intro same
    have all := begins.eq_of_length same
    have plain := opening.plain _ (by rw [all]; exact List.getLast_mem filled)
    rw [whole] at plain
    cases plain
  exact ⟨inside, lined.advance inside⟩

/-- A response that cannot be decoded, when more data follows: its fault is told again, or it turns
into a record. -/
theorem recovers_at_fault {cursor : Cursor} {sequence : Number} {length : Nat}
    {malformed : Malformed} {more : Bytes} {behind : List Item} {faults : List Fault}
    (inside : length ≤ cursor.rest.length) (lined : (cursor.advance length).Lined)
    (found : opening? (cursor.before more) = some (sequence, length))
    (failed : Reader.attributes (cursor.advance length) = .error malformed)
    (later : Recovers more behind faults (scan ((cursor.advance length).before more))) :
    Recovers more behind (⟨sequence, malformed⟩ :: faults) (scan (cursor.before more)) := by
  rw [← Cursor.advance_before inside] at later
  by_cases opened : Fault.Open more ⟨sequence, malformed⟩
  · cases read : Reader.attributes ((cursor.before more).advance length) with
    | error malformed' =>
        rw [scan_fault found read]
        exact .retold ⟨rfl, fun closed => absurd opened closed⟩ later
    | ok result =>
        obtain ⟨attributes, place⟩ := result
        rw [scan_record found read]
        exact .swallowed attributes opened
  · have firm : Reader.Firm more (Reader.attributes (cursor.advance length)) := by
      intro malformed' same missing quote
      rw [failed] at same
      cases same
      exact opened ⟨missing, quote⟩
    have read := (Reader.settles_attributesFrom lined firm).before
    rw [← Cursor.advance_before inside] at read
    have read' : Reader.attributes ((cursor.before more).advance length) =
        .error (malformed.before more) := read.trans (congrArg _ failed)
    rw [scan_fault found read']
    exact .retold ⟨rfl, fun _ => rfl⟩ later

theorem scan_recovers {cursor : Cursor} (whole : cursor.rest.getLast?.all Byte.isLineEnd = true)
    (braceless : Byte.openBrace ∉ cursor.rest)
    (recordless : (scan cursor).filterMap Item.record? = []) (more : Bytes) :
    Recovers more (scan ((cursor.advance cursor.rest.length).before more))
      ((scan cursor).filterMap Item.fault?) (scan (cursor.before more)) := by
  fun_induction scan cursor with
  | case1 cursor sequence length found attributes behind read induction => cases recordless
  | case2 cursor sequence length found malformed failed induction =>
      have leads := Cursor.leads_advance length cursor
      obtain ⟨inside, lined⟩ := lined_behind_opening whole braceless found
      have found' := opening?_before (rest_ne_nil_of_opening? found) whole more
      rw [found] at found'
      have later := induction (leads.whole whole) (leads.absent braceless) recordless
      rw [leads.same_end] at later
      exact recovers_at_fault (Nat.le_of_lt inside) lined found' failed later
  | case3 cursor none past => rw [past]; exact .clear
  | case4 cursor none byte rest full induction =>
      have filled : cursor.rest ≠ [] := by simp [full]
      have leads := Cursor.leads_advance 1 cursor
      have none' := opening?_before filled whole more
      rw [none] at none'
      have full' : (cursor.before more).rest = byte :: (rest ++ more) := by
        rw [Cursor.before, full, List.cons_append]
      have inside : 1 ≤ cursor.rest.length := List.length_pos_iff.mpr filled
      rw [scan_pass none' full', Cursor.advance_before inside, ← leads.same_end]
      exact induction (leads.whole whole) (leads.absent braceless) recordless

/-- Either all faults are told again, or so many until one of them turns into a record. -/
theorem Recovers.split {more : Bytes} {behind items : List Item} {faults : List Fault}
    (recovers : Recovers more behind faults items) :
    (∃ told, List.Forall₂ (Fault.Retold more) faults told ∧
        items = told.map Item.fault ++ behind) ∨
      ∃ before fault after told attributes others, faults = before ++ fault :: after ∧
        fault.Open more ∧ List.Forall₂ (Fault.Retold more) before told ∧
          items = told.map Item.fault ++ .record ⟨fault.sequence, attributes⟩ :: others := by
  induction recovers with
  | clear => exact Or.inl ⟨[], .nil, rfl⟩
  | @retold fault other faults items retold later induction =>
      rcases induction with ⟨told, again, rfl⟩ | ⟨before, opened, after, told, attributes, others,
        rfl, missing, again, rfl⟩
      · exact Or.inl ⟨other :: told, .cons retold again, rfl⟩
      · exact Or.inr ⟨fault :: before, opened, after, other :: told, attributes, others, rfl,
          missing, .cons retold again, rfl⟩
  | @swallowed fault faults items attributes opened =>
      exact Or.inr ⟨[], fault, faults, [], attributes, items, rfl, opened, .nil, rfl⟩

theorem records_of_faults (faults : List Fault) (items : List Item) :
    (faults.map Item.fault ++ items).filterMap Item.record? = items.filterMap Item.record? := by
  induction faults with
  | nil => rfl
  | cons fault faults induction => exact induction

theorem faults_of_faults (faults : List Fault) (items : List Item) :
    (faults.map Item.fault ++ items).filterMap Item.fault? =
      faults ++ items.filterMap Item.fault? := by
  induction faults with
  | nil => rfl
  | cons fault faults induction => exact congrArg (fault :: ·) induction

/-- Behind other data the search comes to a reply as it does alone. -/
theorem scan_reply_later (reply : Reply) (distance : Nat) :
    ((scan (.start reply.bytes)).map (Item.later distance)).filterMap Item.record? =
        [reply.record] ∧
      ((scan (.start reply.bytes)).map (Item.later distance)).filterMap Item.fault? = [] := by
  have alone := collect_replies [reply]
  rw [List.flatMap_cons, List.flatMap_nil, List.append_nil] at alone
  obtain ⟨records, faults⟩ := Prod.mk.inj alone
  simp only [List.filterMap_map, Function.comp_def, record?_later, fault?_later,
    ← List.map_filterMap]
  exact ⟨records, by rw [faults, List.map_nil]⟩

/-- Behind whole lines the search finds what it finds alone, so much later. -/
theorem scan_behind {front : Bytes} (whole : front.getLast?.all Byte.isLineEnd = true)
    (more : Bytes) :
    scan (((Cursor.start front).advance front.length).before more) =
      (scan (.start more)).map (Item.later front.length) := by
  rw [← scan_after whole]
  have ended := Cursor.advance_length 0 none front []
  rw [List.append_nil, Nat.zero_add, Option.or_none] at ended
  rw [Cursor.start, ended]
  rfl

/-- A response behind whole lines that hold no literal and decode to no record is found, alone,
and every fault of these lines is told as without it; only where a missing quote was looked for may
differ if the response holds a quote. Or else one of the faults missed a closing quote, the
response holds a quote, and with it the broken response has become one that can be decoded: this is
the first record then, and the faults in front of it are told. -/
theorem response_behind_faults_is_found_unless_swallowed {front : Bytes}
    (whole : front.getLast?.all Byte.isLineEnd = true) (braceless : Byte.openBrace ∉ front)
    (recordless : (collect front).1 = []) (reply : Reply) :
    (∃ told, List.Forall₂ (Fault.Retold reply.bytes) (collect front).2 told ∧
        collect (front ++ reply.bytes) = ([reply.record], told)) ∨
      ∃ before fault after told attributes records faults,
        (collect front).2 = before ++ fault :: after ∧ fault.Open reply.bytes ∧
          List.Forall₂ (Fault.Retold reply.bytes) before told ∧
            collect (front ++ reply.bytes) =
              (⟨fault.sequence, attributes⟩ :: records, told ++ faults) := by
  have recovers := @scan_recovers (.start front) whole braceless recordless reply.bytes
  rw [show (Cursor.start front).rest.length = front.length from rfl, scan_behind whole]
    at recovers
  obtain ⟨records, faults⟩ := scan_reply_later reply front.length
  rcases recovers.split with ⟨told, again, items⟩ | ⟨before, fault, after, told, attributes, others,
    same, opened, again, items⟩
  · refine Or.inl ⟨told, again, ?_⟩
    have items : scan (.start (front ++ reply.bytes)) = _ := items
    rw [collect, items, records_of_faults, faults_of_faults, records, faults, List.append_nil]
  · refine Or.inr ⟨before, fault, after, told, attributes, others.filterMap Item.record?,
      others.filterMap Item.fault?, same, opened, again, ?_⟩
    have items : scan (.start (front ++ reply.bytes)) = _ := items
    rw [collect, items, records_of_faults, faults_of_faults]
    rfl

def titledReply : Reply where
  sequence := ⟨2, by decide⟩
  attributes := [
    (⟨Bytes.ofNarrow "SUBJECT", none, by decide, Bytes.forall_of_all (by decide),
        Name.printable_none⟩,
      .quoted ⟨"x", by decide⟩)]
  distinct := by decide

def listLeftOpen : Bytes := Bytes.ofNarrow "* 1 FETCH (FLAGS (\\Seen\r\n"

def quoteLeftOpen : Bytes := Bytes.ofNarrow "* 1 FETCH (BODY \"cut\r\n"

/-- Behind a list that is left open the response is found. -/
theorem response_behind_open_list_is_found :
    listLeftOpen.getLast?.all Byte.isLineEnd = true ∧ Byte.openBrace ∉ listLeftOpen ∧
      (collect listLeftOpen).1 = [] ∧
      (collect (listLeftOpen ++ titledReply.bytes)).1 = [titledReply.record] := by
  have whole : listLeftOpen.getLast?.all Byte.isLineEnd = true := by decide
  have braceless : Byte.openBrace ∉ listLeftOpen := by decide
  have recordless : (collect listLeftOpen).1.map Record.sequence = [] := by decide +kernel
  have recordless := List.map_eq_nil_iff.mp recordless
  refine ⟨whole, braceless, recordless, ?_⟩
  have faults : (collect listLeftOpen).2 = [⟨.finite 1, ⟨.value, 23⟩⟩] := by decide +kernel
  rcases response_behind_faults_is_found_unless_swallowed whole braceless recordless titledReply
    with ⟨told, _, found⟩ | ⟨before, fault, after, _, _, _, _, same, opened, _⟩
  · rw [found]
  · have member : fault ∈ (collect listLeftOpen).2 := by
      rw [same]
      simp
    rw [faults] at member
    rw [List.mem_singleton.mp member] at opened
    cases opened.1

/-- Behind a quote that is left open the response is lost: its own quote closes the other, and the
broken response is decoded in its place. No fault is told. -/
theorem open_quote_swallows_response :
    Bytes.crlf <:+ quoteLeftOpen ∧ Byte.openBrace ∉ quoteLeftOpen ∧
      (collect quoteLeftOpen).1.map Record.sequence = [] ∧
      (collect quoteLeftOpen).2 = [⟨.finite 1, ⟨.closingQuote, 22⟩⟩] ∧
      titledReply.record.sequence = .finite 2 ∧
      (collect (quoteLeftOpen ++ titledReply.bytes)).1.map Record.sequence = [.finite 1] ∧
      (collect (quoteLeftOpen ++ titledReply.bytes)).2 = [] := by
  decide +kernel

end Response

end ImapDialogue

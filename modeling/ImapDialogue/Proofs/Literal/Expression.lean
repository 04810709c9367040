import ImapDialogue.Proofs.Literal
import ImapDialogue.Proofs.Pattern.Matching
import ImapDialogue.Proofs.Search.Resuming

/-!
Literal headers as matches of a regular expression. The expression matches where a header begins,
and in one way only: fewer digits than there are would leave a digit where the header has to close.
Executing it over and over, each time from the end of the data that the last match announced, finds
the literals that are found by trying every place.
-/

namespace ImapDialogue.Literal

open Pattern (Regex UnitSet Matcher)

variable {α : Type} {flags : Pattern.Flags}

def headerPattern : Pattern := .expression "\\\x7b(\\d+)\\+?\\\x7d\\r\\n" default

def digitUnit : UnitSet := ⟨false, [.digit true]⟩

def digitRun : Regex := .iterate (.unit digitUnit) 1 none true

def closingItems : List Regex :=
  .iterate (.literal 0x2B) 0 (some 1) true :: Pattern.literalBytes (closing false)

def headerRegex : Regex := .concat (.literal 0x7B :: .concat [digitRun] :: closingItems)

theorem read_header : Regex.read "\\\x7b(\\d+)\\+?\\\x7d\\r\\n" = some headerRegex := rfl

theorem digitUnit_accepts (byte : UInt8) :
    UnitSet.accepts false digitUnit byte = Byte.isDigit byte := by
  simp [UnitSet.accepts, digitUnit, Pattern.ClassPart.holds, Pattern.ClassPart.isDigit,
    Byte.isDigit, UInt8.le_iff_toNat_le]

theorem closing?_eq (bytes : Bytes) :
    closing? bytes =
      if closing true <+: bytes then some 4 else if closing false <+: bytes then some 3 else none := by
  unfold closing?
  split
  · next rest => rw [if_pos (by simp [closing])]
  · next rest => rw [if_neg (by simp [closing]), if_pos (by simp [closing])]
  · next unsigned unclosed =>
      rw [if_neg, if_neg]
      · rintro ⟨rest, rfl⟩
        exact unclosed rest rfl
      · rintro ⟨rest, rfl⟩
        exact unsigned rest rfl

theorem closing?_digits {bytes : Bytes} {count : Nat}
    (within : count < (bytes.takeWhile Byte.isDigit).length) : closing? (bytes.drop count) = none := by
  have short : count < bytes.length :=
    Nat.lt_of_lt_of_le within (List.takeWhile_prefix _).length_le
  have same : (bytes.takeWhile Byte.isDigit)[count] = bytes[count] :=
    (List.takeWhile_prefix _).getElem within
  have digit : Byte.isDigit bytes[count] = true := by
    rw [← same]
    exact List.mem_takeWhile_imp (List.getElem_mem within)
  rw [Option.eq_none_iff_forall_ne_some, List.drop_eq_getElem_cons short]
  intro length found
  obtain ⟨plus, rest, closes, _⟩ := eq_closing_of_closing? found
  obtain ⟨byte, others, begins, other⟩ := closing_not_digit plus rest
  rw [begins] at closes
  rw [(List.cons.inj closes).1, other] at digit
  cases digit

section Cased

variable (cased : flags.ignoreCase = false)
include cased

theorem matcher_digitRun (cursor : Cursor) (next : Cursor → Option α) :
    digitRun.matcher flags cursor next =
      (List.range (cursor.rest.takeWhile Byte.isDigit).length).reverse.findSome?
        fun count => next (cursor.advance (count + 1)) := by
  have unit : (Regex.unit digitUnit).matcher flags = (Matcher.byte Byte.isDigit : Matcher α) := by
    funext cursor next
    simp only [Regex.matcher, cased]
    congr 1
    funext byte
    exact digitUnit_accepts byte
  have shape : digitRun.matcher flags cursor next =
      Matcher.byte Byte.isDigit cursor fun behind =>
        Matcher.furtherRounds (Matcher.byte Byte.isDigit) true behind.rest.length behind next := by
    rw [← unit]
    rfl
  obtain ⟨offset, previous, rest⟩ := cursor
  rw [shape]
  cases rest with
  | nil => rfl
  | cons byte rest =>
      cases digit : Byte.isDigit byte with
      | false => simp [Matcher.byte, digit]
      | true =>
          have behind := Pattern.further_rounds_byte Byte.isDigit rest.length
            ⟨offset + 1, some byte, rest⟩ next (List.takeWhile_prefix _).length_le
          simp only [Matcher.byte, digit, if_true, List.takeWhile_cons_of_pos digit,
            List.length_cons]
          exact behind

/-- A plus sign where a header closes is always taken: nothing closes in front of it. -/
theorem matcher_closing (cursor : Cursor) (next : Cursor → Option α) :
    (Regex.concat closingItems).matcher flags cursor next =
      (closing? cursor.rest).bind fun length => next (cursor.advance length) := by
  have plus : (Regex.literal 0x2B).matcher flags = (Matcher.byte (· == 0x2B) : Matcher α) := by
    funext cursor next
    exact Pattern.matcher_literal cased 0x2B cursor next
  have shut : ∀ behind, (Regex.concat (Pattern.literalBytes (closing false))).matcher flags behind
      next = if closing false <+: behind.rest then next (behind.advance 3) else none :=
    fun behind => Pattern.matcher_literalBytes cased (closing false) behind next
  have shape : (Regex.concat closingItems).matcher flags cursor next =
      Matcher.furtherRounds (Matcher.byte (· == 0x2B)) true 1 cursor fun behind =>
        if closing false <+: behind.rest then next (behind.advance 3) else none := by
    rw [← plus, ← funext shut]
    rfl
  obtain ⟨offset, previous, rest⟩ := cursor
  rw [shape, closing?_eq]
  cases rest with
  | nil => simp [Matcher.furtherRounds, Matcher.byte, closing]
  | cons byte rest =>
      by_cases signed : byte = 0x2B
      · -- Without the plus sign nothing closes here, so it is not given back.
        subst signed
        have moved : Cursor.advance 3 ⟨offset + 1, some 0x2B, rest⟩ =
            Cursor.advance 4 ⟨offset, previous, 0x2B :: rest⟩ := rfl
        have moves : ¬offset + 1 = offset := by omega
        have bare : ¬closing false <+: 0x2B :: rest := by simp [closing]
        by_cases shuts : closing false <+: rest
        · have whole : closing true <+: 0x2B :: rest := List.cons_prefix_cons.mpr ⟨rfl, shuts⟩
          simp only [Matcher.furtherRounds, Matcher.byte, beq_self_eq_true, if_true, moves,
            if_false, shuts, bare, whole, moved, Option.bind_some]
          cases next (Cursor.advance 4 ⟨offset, previous, 0x2B :: rest⟩) <;> rfl
        · have cut : ¬closing true <+: 0x2B :: rest :=
            fun whole => shuts (List.cons_prefix_cons.mp whole).2
          simp only [Matcher.furtherRounds, Matcher.byte, beq_self_eq_true, if_true, moves,
            if_false, shuts, bare, cut, Option.bind_none]
      · have other : ¬0x2B = byte := Ne.symm signed
        simp only [Matcher.furtherRounds, Matcher.byte, beq_iff_eq, signed, if_false, closing,
          if_true, List.cons_prefix_cons, other, false_and, Bool.false_eq_true]
        split <;> rfl

theorem matcher_digitRun_closing (cursor : Cursor) (next : Cursor → Option α) :
    (Regex.concat (.concat [digitRun] :: closingItems)).matcher flags cursor next =
      let count := (cursor.rest.takeWhile Byte.isDigit).length
      if count = 0 then none
      else (closing? (cursor.rest.drop count)).bind fun length =>
        next (cursor.advance (count + length)) := by
  have each : ∀ count, (Regex.concat closingItems).matcher flags (cursor.advance count) next =
      (closing? (cursor.rest.drop count)).bind fun length =>
        next (cursor.advance (count + length)) := by
    intro count
    rw [matcher_closing cased, Cursor.rest_advance]
    simp only [Cursor.advance_advance]
  simp only [Pattern.matcher_concat_cons, Pattern.matcher_concat_nil, matcher_digitRun cased, each]
  cases run : (cursor.rest.takeWhile Byte.isDigit).length with
  | zero => rfl
  | succ count =>
      -- A run with digits given back leaves one of them where the header has to close.
      have shorter : ((List.range count).reverse.findSome? fun before =>
          (closing? (cursor.rest.drop (before + 1))).bind fun length =>
            next (cursor.advance (before + 1 + length))) = none := by
        rw [List.findSome?_eq_none_iff]
        intro before member
        have inside : before + 1 < (cursor.rest.takeWhile Byte.isDigit).length := by
          simp only [List.mem_reverse, List.mem_range] at member
          omega
        rw [closing?_digits inside]
        rfl
      rw [List.range_succ, List.reverse_append, List.findSome?_append, shorter]
      simp only [List.reverse_cons, List.reverse_nil, List.nil_append, List.findSome?_cons,
        List.findSome?_nil, Option.or_none, Nat.add_one_ne_zero, if_false]
      cases Option.bind _ _ <;> rfl

end Cased

theorem header?_brace (rest : Bytes) :
    header? (Byte.openBrace :: rest) =
      let digits := rest.takeWhile Byte.isDigit
      if digits.length = 0 then none
      else (closing? (rest.drop digits.length)).map fun length =>
        ⟨digits, 1 + digits.length + length⟩ := by
  have behind : rest.drop (rest.takeWhile Byte.isDigit).length = rest.dropWhile Byte.isDigit := by
    calc
      rest.drop (rest.takeWhile Byte.isDigit).length =
          (rest.takeWhile Byte.isDigit ++ rest.dropWhile Byte.isDigit).drop
            (rest.takeWhile Byte.isDigit).length := by rw [List.takeWhile_append_dropWhile]
      _ = rest.dropWhile Byte.isDigit := List.drop_left
  simp only [header?, Byte.openBrace, behind, List.isEmpty_iff, List.length_eq_zero_iff]

theorem length_closing? {bytes : Bytes} {length : Nat} (found : closing? bytes = some length) :
    length ≤ bytes.length := by
  obtain ⟨plus, rest, rfl, rfl⟩ := eq_closing_of_closing? found
  rw [List.length_append]
  exact Nat.le_add_right _ _

/-- A header begins exactly where the expression matches, and is as long as the match. -/
theorem lengthAt_header (cursor : Cursor) :
    headerPattern.probe.lengthAt cursor = (header? cursor.rest).map Header.length := by
  have probe : headerPattern.probe = .expression headerRegex default := by
    rw [headerPattern, Pattern.probe, read_header]
    rfl
  have brace : ∀ next : Cursor → Option Nat, (Regex.literal 0x7B).matcher default cursor next =
      Matcher.byte (· == Byte.openBrace) cursor next := Pattern.matcher_literal rfl 0x7B cursor
  rw [probe, Pattern.Probe.lengthAt, Regex.lengthAt, headerRegex, Pattern.matcher_concat_cons,
    brace]
  obtain ⟨offset, previous, rest⟩ := cursor
  cases rest with
  | nil => rfl
  | cons byte rest =>
      by_cases opens : byte = Byte.openBrace
      · subst opens
        have cased : (default : Pattern.Flags).ignoreCase = false := rfl
        simp only [Matcher.byte, beq_self_eq_true, if_true, matcher_digitRun_closing cased,
          header?_brace]
        split
        · rfl
        · cases found : closing? (rest.drop (rest.takeWhile Byte.isDigit).length) with
          | none => rfl
          | some length =>
              have fits := length_closing? found
              have run : (rest.takeWhile Byte.isDigit).length ≤ rest.length :=
                (List.takeWhile_prefix _).length_le
              rw [List.length_drop] at fits
              simp only [Option.bind_some, Option.map_some, Option.some.injEq]
              rw [Cursor.offset_advance_of_le]
              · show offset + 1 + ((rest.takeWhile Byte.isDigit).length + length) - offset = _
                omega
              · show (rest.takeWhile Byte.isDigit).length + length ≤ rest.length
                omega
      · simp only [Matcher.byte, beq_iff_eq, opens, if_false, header?_of_not_brace opens,
          Option.map_none]

/-! ## Executions -/

/-- The expression as it is held while literals are looked for: global, and executed from a
place. -/
def seeker (place : Nat) : Search.Held :=
  Search.Held.copy ⟨"\\\x7b(\\d+)\\+?\\\x7d\\r\\n", default, 0⟩ place

/-- What an execution comes to: a header at its place or behind it, with none between them. -/
theorem header?_of_seeker {bytes : Bytes} {place : Nat} {hit : Hit}
    (found : (seeker place).hit? bytes = some hit) :
    place ≤ hit.start ∧ hit.start ≤ bytes.length ∧
      (∃ header, header? (bytes.drop hit.start) = some header ∧ header.length = hit.length) ∧
      ∀ step < hit.start - place, header? ((bytes.drop place).drop step) = none := by
  obtain ⟨further, within, matched, unmatched⟩ := Search.Held.hit?_copy_found _ found
  refine ⟨further, within, ?_, ?_⟩
  · have header := (lengthAt_header _).symm.trans matched
    rw [Cursor.rest_advance] at header
    exact Option.map_eq_some_iff.mp header
  · intro step before
    have header := (lengthAt_header _).symm.trans (unmatched step before)
    rw [Cursor.rest_advance, Cursor.rest_advance] at header
    exact Option.map_eq_none_iff.mp header

theorem header?_of_seeker_none {bytes : Bytes} {place : Nat} (within : place ≤ bytes.length)
    (nothing : (seeker place).hit? bytes = none) {step : Nat}
    (inside : step ≤ (bytes.drop place).length) :
    header? ((bytes.drop place).drop step) = none := by
  rw [seeker, Search.Held.hit?_copy _ within, Option.map_eq_none_iff] at nothing
  have unmatched := Search.passed_of_leftmost_none nothing
    (show step ≤ _ by rw [Cursor.rest_advance]; exact inside) rfl
  have header := (lengthAt_header _).symm.trans unmatched
  rw [Cursor.rest_advance, Cursor.rest_advance] at header
  exact Option.map_eq_none_iff.mp header

/-- The regions that executions find, one behind the other, each from the end of the data of the
literal before. -/
def executed (bytes : Bytes) (place : Nat) : List Region :=
  match _found : (seeker place).hit? bytes with
  | none => []
  | some hit =>
      let start := hit.start + hit.length
      let stop := start + Bytes.decimal ((bytes.drop (hit.start + 1)).takeWhile Byte.isDigit)
      ⟨start, stop⟩ :: if _reaches : bytes.length ≤ stop then [] else executed bytes stop
termination_by bytes.length - place
decreasing_by
  obtain ⟨further, _, ⟨header, begins, same⟩, _⟩ := header?_of_seeker _found
  have positive := (length_header_pos begins).1
  omega

theorem regions_at_advance {bytes : Bytes} {count : Nat} (within : count ≤ bytes.length)
    (missing : ∀ step < count, header? (bytes.drop step) = none) (place : Nat) :
    regionsAt place bytes = regionsAt (place + count) (bytes.drop count) := by
  induction count generalizing bytes place with
  | zero => rfl
  | succ count induction =>
      cases bytes with
      | nil => simp at within
      | cons byte rest =>
          have first : header? (byte :: rest) = none := missing 0 (Nat.succ_pos _)
          have behind : place + (count + 1) = place + 1 + count := by omega
          rw [regions_at_cons_of_none place first, List.drop_succ_cons, behind]
          exact induction (by simpa using within) (fun step before => missing (step + 1) (by omega)) _

theorem digits_of_header? {bytes : Bytes} {header : Header} (found : header? bytes = some header) :
    header.digits = (bytes.drop 1).takeWhile Byte.isDigit := by
  unfold header? at found
  split at found
  · dsimp only at found
    split at found
    · cases found
    · obtain ⟨length, _, rfl⟩ := Option.map_eq_some_iff.mp found
      rfl
  · cases found

/-- Executing the expression over and over finds the literals that are found by trying every
place. -/
theorem executed_eq {bytes : Bytes} {place : Nat} (within : place ≤ bytes.length) :
    executed bytes place = regionsAt place (bytes.drop place) := by
  fun_induction executed bytes place with
  | case1 place nothing =>
      have missing : ∀ step < (bytes.drop place).length, header? ((bytes.drop place).drop step) = none :=
        fun step before => header?_of_seeker_none within nothing (Nat.le_of_lt before)
      rw [regions_at_advance (Nat.le_refl _) missing, List.drop_length, regions_at_nil]
  | case2 place hit found start stop induction =>
      obtain ⟨further, fits, ⟨header, begins, length⟩, missing⟩ := header?_of_seeker found
      have size : header.size = Bytes.decimal ((bytes.drop (hit.start + 1)).takeWhile Byte.isDigit) := by
        rw [Header.size, digits_of_header? begins, List.drop_drop]
      have reached : place + (hit.start - place) = hit.start := by omega
      have behind : (bytes.drop hit.start).drop (header.length + header.size) = bytes.drop stop := by
        rw [List.drop_drop]
        congr 1
        omega
      rw [regions_at_advance (by rw [List.length_drop]; omega) missing, List.drop_drop, reached,
        regions_at_of_header hit.start begins, behind, length, size]
      -- Behind a literal that reaches the end nothing is executed, and nothing could be found.
      by_cases reaches : bytes.length ≤ stop
      · rw [dif_pos reaches, List.drop_of_length_le reaches, regions_at_nil]
      · rw [dif_neg reaches, induction reaches (Nat.le_of_not_le reaches)]

theorem executed_start (bytes : Bytes) : executed bytes 0 = regions bytes :=
  executed_eq (Nat.zero_le _)

end ImapDialogue.Literal

import ImapDialogue.Command.Argument
import ImapDialogue.Proofs.Pattern.Matching
import ImapDialogue.Proofs.Pattern.Reading
import ImapDialogue.Proofs.Wire.Cursor

/-!
What a pattern matches lies in the data. A matcher moves forward only, so what has to succeed
behind a match is asked at a place that some bytes lead to. An expression that spells a text
matches where the text itself stands, and as many bytes.
-/

namespace ImapDialogue.Pattern

variable {α : Type} {flags : Flags}

namespace Matcher

/-- Whatever a matcher answers, what has to succeed behind the match has answered it, at a place
further on. -/
def Onward (matcher : Matcher α) : Prop :=
  ∀ cursor next answer, matcher cursor next = some answer →
    ∃ behind, cursor.Leads behind ∧ next behind = some answer

theorem onward_byte (test : UInt8 → Bool) : Onward (byte test : Matcher α) := by
  intro cursor next answer matched
  obtain ⟨offset, previous, rest⟩ := cursor
  cases rest with
  | nil => cases matched
  | cons head rest =>
      simp only [byte] at matched
      split at matched
      · exact ⟨_, ⟨1, rfl⟩, matched⟩
      · cases matched

theorem onward_rounds {body : Matcher α} (onward : Onward body) (count : Nat) :
    Onward (rounds body count) := by
  induction count with
  | zero => exact fun cursor next answer matched => ⟨cursor, .refl cursor, matched⟩
  | succ count induction =>
      intro cursor next answer matched
      obtain ⟨middle, leads, later⟩ := onward cursor _ answer matched
      obtain ⟨behind, leads', answered⟩ := induction middle next answer later
      exact ⟨behind, leads.trans leads', answered⟩

theorem onward_furtherRounds {body : Matcher α} (onward : Onward body) (greedy : Bool)
    (count : Nat) : Onward (furtherRounds body greedy count) := by
  induction count with
  | zero => exact fun cursor next answer matched => ⟨cursor, .refl cursor, matched⟩
  | succ count induction =>
      intro cursor next answer matched
      -- Either way to go on leads onward: one more round, or none.
      have once : ∀ {answer}, (body cursor fun behind =>
          if behind.offset = cursor.offset then none
          else furtherRounds body greedy count behind next) = some answer →
            ∃ behind, cursor.Leads behind ∧ next behind = some answer := by
        intro answer matched
        obtain ⟨middle, leads, later⟩ := onward cursor _ answer matched
        split at later
        · cases later
        · obtain ⟨behind, leads', answered⟩ := induction middle next answer later
          exact ⟨behind, leads.trans leads', answered⟩
      simp only [furtherRounds] at matched
      split at matched
      · split at matched
        · next more =>
            cases matched
            exact once more
        · exact ⟨cursor, .refl cursor, matched⟩
      · split at matched
        · next here =>
            cases matched
            exact ⟨cursor, .refl cursor, here⟩
        · exact once matched

theorem onward_repeated {body : Matcher α} (onward : Onward body) (least : Nat)
    (most : Option Nat) (greedy : Bool) : Onward (repeated body least most greedy) := by
  intro cursor next answer matched
  obtain ⟨middle, leads, later⟩ := onward_rounds onward least cursor _ answer matched
  obtain ⟨behind, leads', answered⟩ :=
    onward_furtherRounds onward greedy _ middle next answer later
  exact ⟨behind, leads.trans leads', answered⟩

end Matcher

open Matcher (Onward)

theorem Regex.onward_matcher (regex : Regex) : Onward (regex.matcher flags : Matcher α) := by
  induction regex with
  | empty => exact fun cursor next answer matched => ⟨cursor, .refl cursor, matched⟩
  | never => intro cursor next answer matched; cases matched
  | unit set => exact Matcher.onward_byte _
  | dot => exact Matcher.onward_byte _
  | anchor condition =>
      intro cursor next answer matched
      simp only [Regex.matcher] at matched
      split at matched
      · exact ⟨cursor, .refl cursor, matched⟩
      · cases matched
  | seq first second first_onward second_onward =>
      intro cursor next answer matched
      obtain ⟨middle, leads, later⟩ := first_onward cursor _ answer matched
      obtain ⟨behind, leads', answered⟩ := second_onward middle next answer later
      exact ⟨behind, leads.trans leads', answered⟩
  | alt first second first_onward second_onward =>
      intro cursor next answer matched
      simp only [Regex.matcher] at matched
      split at matched
      · next found =>
          cases matched
          exact first_onward cursor next answer found
      · exact second_onward cursor next answer matched
  | iterate body least most greedy body_onward =>
      exact Matcher.onward_repeated body_onward least most greedy

theorem Regex.lengthAt_le {regex : Regex} {cursor : Cursor} {length : Nat}
    (matched : regex.lengthAt flags cursor = some length) : length ≤ cursor.rest.length := by
  obtain ⟨behind, ⟨count, rfl⟩, same⟩ := regex.onward_matcher cursor _ length matched
  cases same
  rw [Cursor.offset_advance]
  omega

/-! ## Texts -/

theorem begins_iff {chars : List Char} {bytes : Bytes} :
    begins chars bytes = true ↔ chars.map Char.toNat <+: bytes.map UInt8.toNat := by
  induction chars generalizing bytes with
  | nil => simp [begins]
  | cons char chars induction =>
      cases bytes with
      | nil => simp [begins]
      | cons byte bytes => simp [begins, List.cons_prefix_cons, induction]

theorem lengthAt_text (chars : List Char) (cursor : Cursor) :
    Probe.lengthAt cursor (.text chars) =
      if chars.map Char.toNat <+: cursor.rest.map UInt8.toNat then some chars.length else none := by
  rw [Probe.lengthAt]
  simp only [begins_iff]

theorem narrow_of_lengthAt {wanted : String} {cursor : Cursor} {length : Nat}
    (matched : (Pattern.text wanted).probe.lengthAt cursor = some length) :
    Bytes.toNarrow (cursor.rest.take length) = wanted := by
  rw [probe, lengthAt_text] at matched
  split at matched
  · next begins =>
      cases matched
      have same := List.prefix_iff_eq_take.mp begins
      rw [List.length_map, ← List.map_take] at same
      have chars : (cursor.rest.take wanted.toList.length).map (fun byte => Char.ofNat byte.toNat) =
          wanted.toList := by
        calc
          _ = ((cursor.rest.take wanted.toList.length).map UInt8.toNat).map Char.ofNat :=
            (List.map_map ..).symm
          _ = (wanted.toList.map Char.toNat).map Char.ofNat := by rw [same]
          _ = wanted.toList := by simp [Function.comp_def]
      rw [Bytes.toNarrow, chars, String.ofList_toList]
  · cases matched

theorem Probe.lengthAt_le {probe : Probe} {cursor : Cursor} {length : Nat}
    (matched : probe.lengthAt cursor = some length) : length ≤ cursor.rest.length := by
  cases probe with
  | text chars =>
      rw [lengthAt_text] at matched
      split at matched
      · next begins =>
          cases matched
          simpa using begins.length_le
      · cases matched
  | expression regex flags => exact Regex.lengthAt_le matched

/-! ## Spelled texts -/

theorem accepts_literal_unit (unit : Nat) (byte : UInt8) :
    UnitSet.accepts false ⟨false, [.range unit unit]⟩ byte = (byte.toNat == unit) := by
  rw [Bool.eq_iff_iff]
  simp [UnitSet.accepts, ClassPart.holds]
  omega

theorem matcher_units (cased : flags.ignoreCase = false) (units : List Nat) (cursor : Cursor)
    (next : Cursor → Option α) :
    (Regex.concat (units.map .literal)).matcher flags cursor next =
      if units <+: cursor.rest.map UInt8.toNat then next (cursor.advance units.length)
      else none := by
  induction units generalizing cursor with
  | nil => simp [matcher_concat_nil, Cursor.advance]
  | cons unit units induction =>
      obtain ⟨offset, previous, rest⟩ := cursor
      rw [List.map_cons, matcher_concat_cons, Regex.literal, Regex.matcher, cased]
      cases rest with
      | nil => simp [Matcher.byte]
      | cons byte rest =>
          have later := induction ⟨offset + 1, some byte, rest⟩
          simp only [Matcher.byte, accepts_literal_unit, List.map_cons, List.cons_prefix_cons,
            List.length_cons, Cursor.advance, beq_iff_eq, eq_comm (a := unit)]
          by_cases same : byte.toNat = unit
          · simp only [same, true_and, if_true]
            exact later
          · simp [same]

theorem units_prefix_iff (chars : List Char) (bytes : Bytes) :
    chars.flatMap Grammar.units <+: bytes.map UInt8.toNat ↔
      chars.map Char.toNat <+: bytes.map UInt8.toNat := by
  induction chars generalizing bytes with
  | nil => simp
  | cons char chars induction =>
      cases bytes with
      | nil =>
          have filled : Grammar.units char ≠ [] := by
            unfold Grammar.units
            dsimp only
            split <;> simp
          simp [filled]
      | cons byte bytes =>
          have small := UInt8.toNat_lt byte
          by_cases narrow : char.toNat < 0x10000
          · have one : Grammar.units char = [char.toNat] := if_pos narrow
            simp [one, List.cons_prefix_cons, induction]
          · have two : Grammar.units char = [0xD800 + (char.toNat - 0x10000) / 0x400,
                0xDC00 + (char.toNat - 0x10000) % 0x400] := if_neg narrow
            simp only [List.flatMap_cons, two, List.cons_append, List.nil_append, List.map_cons,
              List.cons_prefix_cons]
            constructor
            · rintro ⟨same, _⟩
              omega
            · rintro ⟨same, _⟩
              omega

theorem length_units_of_bytes {chars : List Char} {bytes : Bytes}
    (begins : chars.map Char.toNat <+: bytes.map UInt8.toNat) :
    (chars.flatMap Grammar.units).length = chars.length := by
  rw [List.length_flatMap]
  have single : ∀ char ∈ chars, (Grammar.units char).length = 1 := by
    intro char member
    obtain ⟨byte, _, same⟩ :=
      List.mem_map.mp (begins.subset (List.mem_map_of_mem (f := Char.toNat) member))
    have small := UInt8.toNat_lt byte
    have narrow : char.toNat < 0x10000 := by omega
    have one : Grammar.units char = [char.toNat] := if_pos narrow
    rw [one]
    rfl
  rw [List.map_congr_left single]
  simp

theorem read_spelled (wanted : String) :
    Regex.read (Command.spelled wanted) =
      some (.concat ((wanted.toList.flatMap Grammar.units).map .literal)) := by
  have spells : ∀ groups, Grammar.Spells groups (Command.spelled wanted).toList
      (Grammar.literals (wanted.toList.flatMap Grammar.units)) := by
    intro groups
    have spelled := @Grammar.spells_spell groups wanted.toList _ _ Grammar.spells_nil
    rw [List.append_nil, List.append_nil] at spelled
    rw [Command.spelled, String.toList_ofList]
    exact spelled
  refine Grammar.read_of_spells spells ?_
  · rw [Grammar.literals_eq_map]
    have built := Grammar.build_atoms ((wanted.toList.flatMap Grammar.units).map .literal) []
      .start []
    rw [List.append_nil] at built
    rw [built]
    simp [Grammar.build, Grammar.Frame.start, Grammar.Frame.regex]

/-- The expression that spells a text matches where the text stands, and as many bytes. -/
theorem lengthAt_spelled (cased : flags.ignoreCase = false) (wanted : String) (cursor : Cursor) :
    (Pattern.expression (Command.spelled wanted) flags).probe.lengthAt cursor =
      (Pattern.text wanted).probe.lengthAt cursor := by
  simp only [probe, read_spelled, Option.getD_some]
  rw [lengthAt_text, Probe.lengthAt, Regex.lengthAt, matcher_units cased]
  simp only [units_prefix_iff]
  split
  · next begins =>
      have inside : wanted.toList.length ≤ cursor.rest.length := by simpa using begins.length_le
      rw [length_units_of_bytes begins, Cursor.offset_advance_of_le inside,
        Nat.add_sub_cancel_left]
  · rfl

end ImapDialogue.Pattern

import ImapDialogue.Literal
import Mathlib.Data.List.TakeWhile
import Mathlib.Tactic.Common

/-!
Literal headers and the data behind them are the same however much more data follows. A header
is known by its own bytes alone, and a place in received data lies in a literal no matter what
arrives later.
-/

namespace ImapDialogue.Literal

/-! ## Headers by their bytes -/

def closing (plus : Bool) : Bytes :=
  if plus then [0x2B, 0x7D, 0x0D, 0x0A] else [0x7D, 0x0D, 0x0A]

def spelled (digits : Bytes) (plus : Bool) : Bytes := 0x7B :: (digits ++ closing plus)

theorem length_spelled (digits : Bytes) (plus : Bool) :
    (spelled digits plus).length = 1 + digits.length + (closing plus).length := by
  simp only [spelled, List.length_cons, List.length_append]
  omega

theorem closing?_closing (plus : Bool) (rest : Bytes) :
    closing? (closing plus ++ rest) = some (closing plus).length := by
  cases plus <;> rfl

theorem eq_closing_of_closing? {bytes : Bytes} {length : Nat}
    (found : closing? bytes = some length) :
    ∃ plus rest, bytes = closing plus ++ rest ∧ length = (closing plus).length := by
  unfold closing? at found
  split at found
  · next rest => exact ⟨true, rest, rfl, (Option.some.inj found).symm⟩
  · next rest => exact ⟨false, rest, rfl, (Option.some.inj found).symm⟩
  · simp at found

theorem closing_not_digit (plus : Bool) (rest : Bytes) :
    ∃ byte others, closing plus ++ rest = byte :: others ∧ Byte.isDigit byte = false := by
  cases plus
  · exact ⟨0x7D, [0x0D, 0x0A] ++ rest, rfl, by decide⟩
  · exact ⟨0x2B, [0x7D, 0x0D, 0x0A] ++ rest, rfl, by decide⟩

theorem takeWhile_digits {digits : Bytes} (numeric : ∀ byte ∈ digits, Byte.isDigit byte = true)
    (plus : Bool) (rest : Bytes) :
    (digits ++ (closing plus ++ rest)).takeWhile Byte.isDigit = digits ∧
      (digits ++ (closing plus ++ rest)).dropWhile Byte.isDigit = closing plus ++ rest := by
  obtain ⟨byte, others, same, other⟩ := closing_not_digit plus rest
  rw [same]
  constructor
  · rw [List.takeWhile_append_of_pos numeric, List.takeWhile_cons_of_neg (by simp [other])]
    exact List.append_nil digits
  · rw [List.dropWhile_append_of_pos numeric, List.dropWhile_cons_of_neg (by simp [other])]

theorem header?_spelled {digits : Bytes} (filled : digits ≠ [])
    (numeric : ∀ byte ∈ digits, Byte.isDigit byte = true) (plus : Bool) (rest : Bytes) :
    header? (spelled digits plus ++ rest) = some ⟨digits, (spelled digits plus).length⟩ := by
  obtain ⟨taken, dropped⟩ := takeWhile_digits numeric plus rest
  have notEmpty : digits.isEmpty = false := by simpa using filled
  simp only [spelled, List.cons_append, List.append_assoc, header?, taken, dropped, notEmpty,
    closing?_closing, Option.map_some]
  simp only [Bool.false_eq_true, if_false, List.length_cons, List.length_append,
    Option.some.injEq, Header.mk.injEq, true_and]
  omega

theorem spelled_of_header? {bytes : Bytes} {header : Header} (found : header? bytes = some header) :
    header.digits ≠ [] ∧ (∀ byte ∈ header.digits, Byte.isDigit byte = true) ∧
      ∃ plus rest, bytes = spelled header.digits plus ++ rest ∧
        header.length = (spelled header.digits plus).length := by
  unfold header? at found
  split at found
  · next rest =>
      dsimp only at found
      split at found
      · simp at found
      · next filled =>
          obtain ⟨length, closes, rfl⟩ := Option.map_eq_some_iff.mp found
          obtain ⟨plus, behind, same, rfl⟩ := eq_closing_of_closing? closes
          refine ⟨by simpa using filled, fun byte member => List.mem_takeWhile_imp member,
            plus, behind, ?_, (length_spelled _ _).symm⟩
          rw [spelled, List.cons_append, List.append_assoc, ← same, List.takeWhile_append_dropWhile]
  · simp at found

theorem header?_of_not_brace {byte : UInt8} (other : byte ≠ Byte.openBrace) (rest : Bytes) :
    header? (byte :: rest) = none := by
  unfold header?
  split
  · next same => exact absurd (List.cons.inj same).1 other
  · rfl

theorem length_header_pos {bytes : Bytes} {header : Header} (found : header? bytes = some header) :
    0 < header.length ∧ header.length ≤ bytes.length := by
  obtain ⟨_, _, plus, rest, rfl, length⟩ := spelled_of_header? found
  rw [length, length_spelled, List.length_append, length_spelled]
  omega

theorem header?_append {bytes : Bytes} {header : Header} (found : header? bytes = some header)
    (more : Bytes) : header? (bytes ++ more) = some header := by
  obtain ⟨filled, numeric, plus, rest, rfl, length⟩ := spelled_of_header? found
  rw [List.append_assoc, header?_spelled filled numeric, ← length]

theorem header?_of_append {bytes more : Bytes} {header : Header}
    (found : header? (bytes ++ more) = some header) (fits : header.length ≤ bytes.length) :
    header? bytes = some header := by
  obtain ⟨filled, numeric, plus, rest, same, length⟩ := spelled_of_header? found
  have whole : spelled header.digits plus <+: bytes ++ more := by
    rw [same]
    exact List.prefix_append _ _
  have covered : spelled header.digits plus <+: bytes :=
    List.prefix_of_prefix_length_le whole (List.prefix_append _ _) (by omega)
  obtain ⟨behind, rfl⟩ := covered
  rw [header?_spelled filled numeric, ← length]

/-! ## Regions -/

def regionsAt (place : Nat) (bytes : Bytes) : List Region := regionsFrom bytes.length place bytes

theorem regions_from_enough {fuel : Nat} {bytes : Bytes} (enough : bytes.length ≤ fuel)
    (place : Nat) : regionsFrom fuel place bytes = regionsAt place bytes := by
  induction fuel using Nat.strong_induction_on generalizing bytes place with
  | _ fuel induction =>
      cases bytes with
      | nil => cases fuel <;> rfl
      | cons byte rest =>
          cases fuel with
          | zero => simp at enough
          | succ fuel =>
              have shorter : rest.length ≤ fuel := by simpa using enough
              simp only [regionsAt, List.length_cons, regionsFrom]
              cases found : header? (byte :: rest) with
              | none => exact induction fuel (by omega) shorter _
              | some header =>
                  have positive := (length_header_pos found).1
                  have behind : ((byte :: rest).drop (header.length + header.size)).length
                      ≤ rest.length := by
                    simp only [List.length_drop, List.length_cons]
                    omega
                  simp only [List.cons.injEq, true_and]
                  rw [induction fuel (by omega) (behind.trans shorter)]
                  rw [← induction rest.length (by omega) behind]

theorem regions_at_nil (place : Nat) : regionsAt place [] = [] := rfl

theorem regions_at_cons_of_none {byte : UInt8} {rest : Bytes} (place : Nat)
    (missing : header? (byte :: rest) = none) :
    regionsAt place (byte :: rest) = regionsAt (place + 1) rest := by
  simp only [regionsAt, List.length_cons, regionsFrom, missing]

theorem regions_at_of_header {bytes : Bytes} {header : Header} (place : Nat)
    (found : header? bytes = some header) :
    regionsAt place bytes =
      ⟨place + header.length, place + header.length + header.size⟩ ::
        regionsAt (place + header.length + header.size)
          (bytes.drop (header.length + header.size)) := by
  cases bytes with
  | nil => simp [header?] at found
  | cons byte rest =>
      have positive := (length_header_pos found).1
      simp only [regionsAt, List.length_cons, regionsFrom, found]
      rw [regions_from_enough]
      · rfl
      · simp only [List.length_drop, List.length_cons]
        omega

theorem start_regions_at {place : Nat} {bytes : Bytes} {region : Region}
    (member : region ∈ regionsAt place bytes) : place ≤ region.start := by
  induction h : bytes.length using Nat.strong_induction_on generalizing bytes place with
  | _ length induction =>
      subst h
      cases bytes with
      | nil => simp [regions_at_nil] at member
      | cons byte rest =>
          cases found : header? (byte :: rest) with
          | none =>
              rw [regions_at_cons_of_none place found] at member
              have := induction rest.length (by simp) member rfl
              omega
          | some header =>
              have positive := (length_header_pos found).1
              rw [regions_at_of_header place found, List.mem_cons] at member
              rcases member with same | later
              · rw [same]
                exact Nat.le_add_right _ _
              · have := induction _ (by simp only [List.length_drop, List.length_cons]; omega)
                  later rfl
                omega

theorem inside_regions_at_before {place before : Nat} (bytes : Bytes) (earlier : before < place) :
    inside (regionsAt place bytes) before = false := by
  rw [inside, List.any_eq_false]
  intro region member
  have := start_regions_at member
  simp only [Region.contains, Bool.and_eq_true, decide_eq_true_eq, not_and]
  omega

theorem inside_regions_at_here (place : Nat) (bytes : Bytes) :
    inside (regionsAt place bytes) place = false := by
  cases bytes with
  | nil => rfl
  | cons byte rest =>
      cases found : header? (byte :: rest) with
      | none =>
          rw [regions_at_cons_of_none place found]
          exact inside_regions_at_before rest (Nat.lt_succ_self _)
      | some header =>
          have positive := (length_header_pos found).1
          have later := inside_regions_at_before
            ((byte :: rest).drop (header.length + header.size))
            (show place < place + header.length + header.size by omega)
          have outside : Region.contains
              ⟨place + header.length, place + header.length + header.size⟩ place = false := by
            simp only [Region.contains, Bool.and_eq_false_iff, decide_eq_false_iff_not]
            omega
          rw [regions_at_of_header place found, inside, List.any_cons, outside, Bool.false_or]
          exact later

theorem regions_at_of_no_brace {bytes : Bytes} (plain : 0x7B ∉ bytes) (place : Nat) :
    regionsAt place bytes = [] := by
  induction bytes generalizing place with
  | nil => rfl
  | cons byte rest induction =>
      have other : byte ≠ Byte.openBrace := fun same => plain (same ▸ List.mem_cons_self)
      rw [regions_at_cons_of_none place (header?_of_not_brace other rest)]
      exact induction (fun member => plain (List.mem_cons_of_mem _ member)) _

/-- Behind its brace a header holds no further brace, so data cut inside a header begins no
other one. -/
theorem regions_at_inside_header {bytes more : Bytes} {header : Header}
    (found : header? (bytes ++ more) = some header) (cut : bytes.length < header.length)
    (place : Nat) : regionsAt place bytes = [] := by
  obtain ⟨_, numeric, plus, rest, same, length⟩ := spelled_of_header? found
  have whole : spelled header.digits plus <+: bytes ++ more := by
    rw [same]
    exact List.prefix_append _ _
  have covered : bytes <+: spelled header.digits plus :=
    List.prefix_of_prefix_length_le (List.prefix_append _ _) whole (by omega)
  cases bytes with
  | nil => rfl
  | cons byte others =>
      have inner : others <+: header.digits ++ closing plus := (List.cons_prefix_cons.mp covered).2
      have plain : 0x7B ∉ others := by
        intro member
        rcases List.mem_append.mp (inner.subset member) with digit | closes
        · exact absurd (numeric _ digit) (by decide)
        · cases plus <;> simp [closing] at closes
      have missing : header? (byte :: others) = none := by
        rw [Option.eq_none_iff_forall_ne_some]
        intro other whole
        have grown := header?_append whole more
        rw [found] at grown
        have same := Option.some.inj grown
        subst same
        have := (length_header_pos whole).2
        omega
      rw [regions_at_cons_of_none place missing]
      exact regions_at_of_no_brace plain _

theorem inside_regions_at_append {place spot : Nat} (bytes more : Bytes)
    (within : spot ≤ place + bytes.length) :
    inside (regionsAt place (bytes ++ more)) spot = inside (regionsAt place bytes) spot := by
  -- A literal takes several bytes at once, so the induction is on how many are left.
  induction h : bytes.length using Nat.strong_induction_on generalizing bytes place with
  | _ length induction =>
      subst h
      cases bytes with
      | nil =>
          rcases Nat.lt_or_eq_of_le within with earlier | rfl
          · exact inside_regions_at_before more earlier
          · exact inside_regions_at_here _ more
      | cons byte rest =>
          cases found : header? (byte :: rest ++ more) with
          | none =>
              have missing : header? (byte :: rest) = none := by
                rw [Option.eq_none_iff_forall_ne_some]
                intro header whole
                rw [header?_append whole more] at found
                simp at found
              rw [List.cons_append] at found ⊢
              rw [regions_at_cons_of_none place found, regions_at_cons_of_none place missing]
              apply induction rest.length (by simp) _ _ rfl
              simp only [List.length_cons] at within
              omega
          | some header =>
              rw [regions_at_of_header place found]
              by_cases fits : header.length ≤ (byte :: rest).length
              · have whole := header?_of_append found fits
                have positive := (length_header_pos whole).1
                rw [regions_at_of_header place whole]
                simp only [inside, List.any_cons]
                congr 1
                by_cases complete : header.length + header.size ≤ (byte :: rest).length
                · rw [List.drop_append_of_le_length complete]
                  apply induction _ _ _ _ rfl
                  · simp only [List.length_drop, List.length_cons]
                    omega
                  · simp only [List.length_drop]
                    omega
                · have none : (byte :: rest).drop (header.length + header.size) = [] :=
                    List.drop_of_length_le (by omega)
                  rw [none]
                  exact inside_regions_at_before _ (by omega)
              · have later := inside_regions_at_before
                  ((byte :: rest ++ more).drop (header.length + header.size))
                  (show spot < place + header.length + header.size by omega)
                have ahead : Region.contains
                    ⟨place + header.length, place + header.length + header.size⟩ spot = false := by
                  simp only [Region.contains, Bool.and_eq_false_iff, decide_eq_false_iff_not]
                  omega
                rw [regions_at_inside_header found (by omega), inside, List.any_cons, ahead,
                  Bool.false_or]
                exact later

theorem inside_regions_append {spot : Nat} (bytes more : Bytes) (within : spot ≤ bytes.length) :
    inside (regions (bytes ++ more)) spot = inside (regions bytes) spot := by
  apply inside_regions_at_append bytes more
  simpa using within

end ImapDialogue.Literal

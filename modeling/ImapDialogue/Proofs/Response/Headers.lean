import ImapDialogue.Proofs.Literal.Between
import ImapDialogue.Proofs.Literal.Expression
import ImapDialogue.Response.Reader

/-!
Literal headers as they are searched for while data is waited for, and as they are read when a
response is decoded. Both give the same range of data to a header, but the reader looks at a bounded
number of bytes only, and a size with enough leading zeros does not fit into them.
-/

namespace ImapDialogue.Literal

/-- What is found within some first bytes is what is found without a bound, if it fits. -/
theorem header?_take (limit : Nat) (bytes : Bytes) :
    header? (bytes.take limit) = (header? bytes).filter fun header => header.length ≤ limit := by
  cases inner : header? (bytes.take limit) with
  | some header =>
      have whole := header?_append inner (bytes.drop limit)
      have fits : header.length ≤ limit :=
        (length_header_pos inner).2.trans (List.length_take_le limit bytes)
      rw [List.take_append_drop] at whole
      rw [whole, Option.filter_some_pos (by simpa using fits)]
  | none =>
      rw [eq_comm, Option.filter_eq_none_iff]
      intro header found
      rw [decide_eq_true_eq]
      intro fits
      have parted : header? (bytes.take limit ++ bytes.drop limit) = some header := by
        rw [List.take_append_drop]
        exact found
      have within : header.length ≤ (bytes.take limit).length := by
        rw [List.length_take]
        exact Nat.le_min.mpr ⟨fits, (length_header_pos found).2⟩
      rw [header?_of_append parted within] at inner
      cases inner

/-- The data that the expression announces at a place, if it matches there. -/
def announced? (text : Bytes) (place : Nat) : Option Region :=
  (headerPattern.probe.lengthAt ((Cursor.start text).advance place)).map fun length =>
    let start := place + length
    ⟨start, start + Bytes.decimal ((text.drop (place + 1)).takeWhile Byte.isDigit)⟩

theorem announced?_eq (text : Bytes) (place : Nat) :
    announced? text place = (header? (text.drop place)).map fun header =>
      ⟨place + header.length, place + header.length + header.size⟩ := by
  rw [announced?, lengthAt_header, Cursor.rest_advance, Option.map_map]
  change (header? (text.drop place)).map _ = _
  apply Option.map_congr
  intro header found
  have digits := digits_of_header? found
  rw [List.drop_drop] at digits
  simp only [Function.comp_apply, Header.size, digits]

/-! ## Ranges that are passed over -/

theorem mem_regions_at_between {bytes : Bytes} {place : Nat} (between : Between bytes place)
    {header : Header} (found : header? (bytes.drop place) = some header) (start : Nat) :
    ⟨start + place + header.length, start + place + header.length + header.size⟩ ∈
      regionsAt start bytes := by
  induction between generalizing start with
  | here bytes =>
      rw [List.drop_zero] at found
      rw [regions_at_of_header start found]
      exact List.mem_cons_self
  | @byte byte rest place plain further induction =>
      have behind : start + (place + 1) = start + 1 + place := by omega
      rw [regions_at_cons_of_none start plain, behind]
      exact induction found (start + 1)
  | @literal bytes outer place begins further induction =>
      have behind : start + (outer.length + outer.size + place) =
          start + outer.length + outer.size + place := by
        omega
      rw [← List.drop_drop] at found
      rw [regions_at_of_header start begins, behind]
      exact List.mem_cons_of_mem _ (induction found _)

theorem between_of_mem_regions_at {start : Nat} {bytes : Bytes} {region : Region}
    (member : region ∈ regionsAt start bytes) :
    ∃ place header, Between bytes place ∧ header? (bytes.drop place) = some header ∧
      region = ⟨start + place + header.length, start + place + header.length + header.size⟩ := by
  induction count : bytes.length using Nat.strong_induction_on generalizing bytes start with
  | _ count' induction =>
      subst count
      cases bytes with
      | nil => cases member
      | cons byte rest =>
          cases found : header? (byte :: rest) with
          | none =>
              rw [regions_at_cons_of_none start found] at member
              obtain ⟨place, header, between, begins, same⟩ :=
                induction rest.length (Nat.lt_succ_self _) member rfl
              refine ⟨place + 1, header, .byte found between, begins, ?_⟩
              rw [same]
              congr 1 <;> omega
          | some outer =>
              have positive := (length_header_pos found).1
              rw [regions_at_of_header start found] at member
              rcases List.mem_cons.mp member with same | later
              · exact ⟨0, outer, .here _, found, same⟩
              · obtain ⟨place, header, between, begins, same⟩ := induction _
                  (by simp only [List.length_drop, List.length_cons]; omega) later rfl
                rw [List.drop_drop] at begins
                refine ⟨outer.length + outer.size + place, header, .literal found between, begins, ?_⟩
                rw [same]
                congr 1 <;> omega

/-- What is passed over are the ranges that are announced where the search comes to. -/
theorem mem_regions_iff (text : Bytes) (region : Region) :
    region ∈ regions text ↔ ∃ place, Between text place ∧ announced? text place = some region := by
  constructor
  · intro member
    obtain ⟨place, header, between, begins, same⟩ := between_of_mem_regions_at member
    rw [Nat.zero_add] at same
    exact ⟨place, between, by rw [announced?_eq, begins, same]; rfl⟩
  · rintro ⟨place, between, announced⟩
    rw [announced?_eq, Option.map_eq_some_iff] at announced
    obtain ⟨header, begins, rfl⟩ := announced
    have member := mem_regions_at_between between begins 0
    rwa [Nat.zero_add] at member

end ImapDialogue.Literal

namespace ImapDialogue.Response

open Literal (announced? regions Between)

/-- At every place a literal is read exactly where the expression matches and as the data that it
announces there, which between literals is what is passed over while data is waited for, except
where the header is longer than what is looked at of it. -/
theorem literal_is_announced_range_unless_header_long (text : Bytes) :
    (∀ place, Reader.literal ((Cursor.start text).advance place) =
      match announced? text place with
      | none => Reader.fail .literalHeader ((Cursor.start text).advance place)
      | some region =>
          if Reader.headerLimit < region.start - place then
            Reader.fail .literalHeader ((Cursor.start text).advance place)
          else if text.length < region.stop then
            Reader.fail (.literalData (.ofNat (region.stop - region.start)))
              ((Cursor.start text).advance place)
          else .ok (.bytes ((text.take region.stop).drop region.start),
            (Cursor.start text).advance region.stop)) ∧
      ∀ region, region ∈ regions text ↔
        ∃ place, Between text place ∧ announced? text place = some region := by
  refine ⟨fun place => ?_, Literal.mem_regions_iff text⟩
  have rest : ((Cursor.start text).advance place).rest = text.drop place := Cursor.rest_advance _ _
  rw [Reader.literal, rest, Literal.header?_take, Literal.announced?_eq]
  cases found : Literal.header? (text.drop place) with
  | none => rfl
  | some header =>
      obtain ⟨positive, within⟩ := Literal.length_header_pos found
      have length : place + header.length - place = header.length := Nat.add_sub_cancel_left ..
      have size : place + header.length + header.size - (place + header.length) = header.size :=
        Nat.add_sub_cancel_left ..
      rw [List.length_drop] at within
      simp only [Option.map_some, length, size]
      by_cases long : Reader.headerLimit < header.length
      · rw [Option.filter_some_neg (by simpa using long), if_pos long]
      · rw [Option.filter_some_pos (by simpa using long), if_neg long]
        have cut : ((text.drop place).drop header.length).take header.size =
            (text.take (place + header.length + header.size)).drop (place + header.length) := by
          rw [List.drop_drop, List.drop_take, size]
        have short : (((text.drop place).drop header.length).take header.size).length < header.size ↔
            text.length < place + header.length + header.size := by
          rw [List.drop_drop, List.length_take, List.length_drop]
          omega
        simp only [short, Cursor.advance_advance]
        rw [cut, Nat.add_assoc]

/-- The header is one byte longer than what is looked at of it: twenty-one digits stand for five
bytes of data, and all of them follow. -/
def paddedLiteral : Bytes := Bytes.ofNarrow "\x7b000000000000000000005\x7d\r\nhello"

theorem padded_literal_is_announced_but_refused :
    announced? paddedLiteral 0 = some ⟨25, 30⟩ ∧ ⟨25, 30⟩ ∈ regions paddedLiteral ∧
      paddedLiteral.length = 30 ∧
      Reader.literal (.start paddedLiteral) = Reader.fail .literalHeader (.start paddedLiteral) := by
  refine ⟨?announced, by decide +kernel, rfl, rfl⟩
  case announced =>
    rw [Literal.announced?_eq]
    rfl

end ImapDialogue.Response

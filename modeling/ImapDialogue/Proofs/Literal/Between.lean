import ImapDialogue.Proofs.Literal

/-!
Places between the literals of some data. A reader that begins at such a place finds the same
literals behind it as one that has read everything in front of it.
-/

namespace ImapDialogue.Literal

/-- The search for headers comes to a place, byte by byte and over every literal as a whole. So the
place lies neither within a header nor within the data behind one. -/
inductive Between : Bytes → Nat → Prop where
  | here (bytes : Bytes) : Between bytes 0
  | byte {byte : UInt8} {rest : Bytes} {place : Nat} (plain : header? (byte :: rest) = none)
      (further : Between rest place) : Between (byte :: rest) (place + 1)
  | literal {bytes : Bytes} {header : Header} {place : Nat} (found : header? bytes = some header)
      (further : Between (bytes.drop (header.length + header.size)) place) :
      Between bytes (header.length + header.size + place)

theorem Region.contains_moved (region : Region) (distance spot : Nat) :
    Region.contains ⟨region.start + distance, region.stop + distance⟩ (spot + distance) =
      region.contains spot := by
  rw [Region.contains, Region.contains, Bool.eq_iff_iff]
  simp only [Bool.and_eq_true, decide_eq_true_eq]
  omega

theorem regionsFrom_moved (fuel place distance : Nat) (bytes : Bytes) :
    regionsFrom fuel (place + distance) bytes =
      (regionsFrom fuel place bytes).map fun region =>
        ⟨region.start + distance, region.stop + distance⟩ := by
  induction fuel generalizing place bytes with
  | zero => rfl
  | succ fuel induction =>
      cases bytes with
      | nil => rfl
      | cons byte rest =>
          simp only [regionsFrom]
          cases header? (byte :: rest) with
          | none =>
              dsimp only
              rw [Nat.add_right_comm, induction]
          | some header =>
              have start : place + distance + header.length = place + header.length + distance := by
                omega
              have stop : place + header.length + distance + header.size =
                  place + header.length + header.size + distance := by
                omega
              dsimp only
              rw [List.map_cons, start, stop, induction]

theorem inside_regions_at_moved (place spot : Nat) (bytes : Bytes) :
    inside (regionsAt place bytes) (place + spot) = inside (regions bytes) spot := by
  have moved := regionsFrom_moved bytes.length 0 place bytes
  rw [Nat.zero_add] at moved
  rw [regionsAt, moved, inside, List.any_map, inside, regions]
  congr 1
  funext region
  rw [Nat.add_comm place spot]
  exact region.contains_moved place spot

theorem inside_regions_at_between {bytes : Bytes} {place : Nat} (between : Between bytes place)
    (start spot : Nat) :
    inside (regionsAt start bytes) (start + place + spot) =
      inside (regionsAt (start + place) (bytes.drop place)) (start + place + spot) := by
  induction between generalizing start with
  | here bytes => rfl
  | @byte byte rest place plain further induction =>
      have behind : start + (place + 1) = start + 1 + place := by omega
      rw [regions_at_cons_of_none start plain, behind, List.drop_succ_cons]
      exact induction (start + 1)
  | @literal bytes header place found further induction =>
      have behind : start + (header.length + header.size + place) =
          start + header.length + header.size + place := by
        omega
      have outside : Region.contains ⟨start + header.length, start + header.length + header.size⟩
          (start + header.length + header.size + place + spot) = false := by
        simp only [Region.contains, Bool.and_eq_false_iff, decide_eq_false_iff_not]
        omega
      have rest : bytes.drop (header.length + header.size + place) =
          (bytes.drop (header.length + header.size)).drop place := List.drop_drop.symm
      rw [regions_at_of_header start found, inside, List.any_cons, behind, outside, Bool.false_or,
        rest]
      exact induction (start + header.length + header.size)

/-- Behind a place between literals the literals of the whole are those of the rest. -/
theorem inside_regions_behind {bytes : Bytes} {place : Nat} (between : Between bytes place)
    (spot : Nat) :
    inside (regions bytes) (place + spot) = inside (regions (bytes.drop place)) spot := by
  have same := inside_regions_at_between between 0 spot
  rw [Nat.zero_add] at same
  exact same.trans (inside_regions_at_moved place spot _)

end ImapDialogue.Literal

import ImapDialogue.Intake.Search
import ImapDialogue.Proofs.Wire.Cursor
import Mathlib.Tactic.Common

/-!
The first of several patterns as the leftmost place at which one of them matches. The search
jumps over a match that starts where none may start; where no match begins inside another one of
the same pattern the jump passes over nothing, and the search is a walk from place to place.
-/

namespace ImapDialogue.Search

open Pattern (Probe)

variable {α : Type}

/-- The first place from one on, in data of which some bytes are left, that passes a test and is
not barred, with what the test gives there. -/
def leftmost (barred : Nat → Bool) (test : Cursor → Option α) (place : Nat)
    (previous : Option UInt8) : Bytes → Option (Nat × α)
  | [] => if barred place then none else (test ⟨place, previous, []⟩).map (place, ·)
  | byte :: rest =>
      match if barred place then none else test ⟨place, previous, byte :: rest⟩ with
      | some answer => some (place, answer)
      | none => leftmost barred test (place + 1) (some byte) rest

def leftmostAt (barred : Nat → Bool) (test : Cursor → Option α) (cursor : Cursor) :
    Option (Nat × α) :=
  leftmost barred test cursor.offset cursor.previous cursor.rest

variable {barred : Nat → Bool} {test : Cursor → Option α}

theorem leftmost_at_hit {cursor : Cursor} {answer : α} (free : barred cursor.offset = false)
    (passed : test cursor = some answer) :
    leftmostAt barred test cursor = some (cursor.offset, answer) := by
  obtain ⟨place, previous, bytes⟩ := cursor
  have free : barred place = false := free
  cases bytes <;> simp [leftmostAt, leftmost, free, passed]

theorem leftmost_at_pass {cursor : Cursor} (more : cursor.rest ≠ [])
    (passed : barred cursor.offset = true ∨ test cursor = none) :
    leftmostAt barred test cursor = leftmostAt barred test (cursor.advance 1) := by
  obtain ⟨place, previous, bytes⟩ := cursor
  cases bytes with
  | nil => exact absurd rfl more
  | cons byte rest =>
      have failed : (if barred place = true then none else test ⟨place, previous, byte :: rest⟩)
          = none := by
        rcases passed with isBarred | fails
        · exact if_pos isBarred
        · rw [fails, ite_self]
      simp only [leftmostAt, leftmost, failed]
      rfl

theorem leftmost_at_end {cursor : Cursor} (past : cursor.rest = [])
    (passed : barred cursor.offset = true ∨ test cursor = none) :
    leftmostAt barred test cursor = none := by
  obtain ⟨place, previous, bytes⟩ := cursor
  subst past
  rcases passed with isBarred | fails
  · simp only [leftmostAt, leftmost, if_pos isBarred]
  · simp only [leftmostAt, leftmost, fails, Option.map_none, ite_self]

theorem leftmost_at_advance (cursor : Cursor) (count : Nat) (within : count ≤ cursor.rest.length)
    (passed : ∀ step < count, barred (cursor.advance step).offset = true ∨
      test (cursor.advance step) = none) :
    leftmostAt barred test cursor = leftmostAt barred test (cursor.advance count) := by
  induction count generalizing cursor with
  | zero => rfl
  | succ count induction =>
      obtain ⟨place, previous, bytes⟩ := cursor
      cases bytes with
      | nil => simp at within
      | cons byte rest =>
          have first : leftmostAt barred test ⟨place, previous, byte :: rest⟩ =
              leftmostAt barred test ⟨place + 1, some byte, rest⟩ :=
            leftmost_at_pass (by simp) (passed 0 (by omega))
          rw [first]
          apply induction ⟨place + 1, some byte, rest⟩
          · simpa using within
          · intro step earlier
            exact passed (step + 1) (by omega)

/-! ## One pattern -/

/-- A pattern whose matches lie in the data and never begin inside one another. -/
structure Compact (probe : Probe) : Prop where
  fits : ∀ {cursor length}, probe.lengthAt cursor = some length → length ≤ cursor.rest.length
  alone : ∀ {cursor length}, probe.lengthAt cursor = some length →
    ∀ step, 0 < step → step < probe.stride length → probe.lengthAt (cursor.advance step) = none

theorem stride_le {probe : Probe} {cursor : Cursor} {length : Nat} (more : cursor.rest ≠ [])
    (fits : length ≤ cursor.rest.length) : max (probe.stride length) 1 ≤ cursor.rest.length := by
  have := List.length_pos_iff.mpr more
  cases probe <;> simp only [Probe.stride] <;> omega

def walk (probe : Probe) (barred : Nat → Bool) (cursor : Cursor) : Option Hit :=
  (leftmostAt barred (fun cursor => probe.lengthAt cursor) cursor).map
    fun found => ⟨found.1, found.2⟩

def Walks (probe : Probe) (barred : Nat → Bool) : Prop :=
  ∀ cursor, locate probe barred cursor = walk probe barred cursor

/-- Where no match begins inside another one, jumping behind a barred match misses nothing. -/
theorem locate_eq_leftmost {probe : Probe} (compact : Compact probe) (barred : Nat → Bool) :
    Walks probe barred := by
  intro cursor
  unfold walk
  fun_induction locate probe barred cursor with
  | case1 cursor length matched isBarred past =>
      rw [leftmost_at_end past (Or.inl isBarred)]
      rfl
  | case2 cursor length matched isBarred more induction =>
      rw [induction]
      congr 1
      symm
      apply leftmost_at_advance cursor _ (stride_le more (compact.fits matched))
      intro step earlier
      rcases Nat.eq_zero_or_pos step with rfl | positive
      · exact Or.inl isBarred
      · exact Or.inr (compact.alone matched step positive (by omega))
  | case3 cursor length matched free =>
      rw [leftmost_at_hit (by simpa using free) matched]
      rfl
  | case4 cursor unmatched past =>
      rw [leftmost_at_end past (Or.inr unmatched)]
      rfl
  | case5 cursor unmatched more induction =>
      rw [induction, leftmost_at_pass more (Or.inr unmatched)]

/-! ## Several patterns -/

/-- The first of several numbered patterns that matches at a place, and how many bytes it
matches. -/
def choice (index : Nat) : List Pattern → Cursor → Option (Nat × Nat)
  | [], _ => none
  | pattern :: patterns, cursor =>
      ((pattern.probe.lengthAt cursor).map (index, ·)).or (choice (index + 1) patterns cursor)

/-- The one of two found places that comes first, the first one if they are the same. -/
def sooner : Option (Nat × α) → Option (Nat × α) → Option (Nat × α)
  | some first, some second => if second.1 < first.1 then some second else some first
  | some first, none => some first
  | none, second => second

theorem place_leftmost {place : Nat} {previous : Option UInt8} {bytes : Bytes}
    {found : Nat × α} (leads : leftmost barred test place previous bytes = some found) :
    place ≤ found.1 := by
  induction bytes generalizing place previous with
  | nil =>
      simp only [leftmost] at leads
      split at leads
      · simp at leads
      · obtain ⟨_, _, rfl⟩ := Option.map_eq_some_iff.mp leads
        exact Nat.le_refl _
  | cons byte rest induction =>
      simp only [leftmost] at leads
      split at leads
      · cases leads
        exact Nat.le_refl _
      · have := induction leads
        omega

theorem leftmost_or (first second : Cursor → Option α) (place : Nat) (previous : Option UInt8)
    (bytes : Bytes) :
    leftmost barred (fun cursor => (first cursor).or (second cursor)) place previous bytes =
      sooner (leftmost barred first place previous bytes)
        (leftmost barred second place previous bytes) := by
  induction bytes generalizing place previous with
  | nil =>
      simp only [leftmost]
      split
      · rfl
      · cases first ⟨place, previous, []⟩ <;> cases second ⟨place, previous, []⟩ <;>
          simp [sooner]
  | cons byte rest induction =>
      simp only [leftmost]
      by_cases isBarred : barred place = true
      · simp only [if_pos isBarred]
        exact induction _ _
      · simp only [if_neg isBarred]
        cases hit : first ⟨place, previous, byte :: rest⟩ with
        | some answer =>
            simp only [Option.some_or]
            cases other : second ⟨place, previous, byte :: rest⟩ with
            | some answer' => simp [sooner]
            | none =>
                cases later : leftmost barred second (place + 1) (some byte) rest with
                | none => simp [sooner]
                | some found =>
                    have := place_leftmost later
                    simp only [sooner]
                    rw [if_neg (by omega)]
        | none =>
            simp only [Option.none_or]
            cases other : second ⟨place, previous, byte :: rest⟩ with
            | some answer =>
                cases later : leftmost barred first (place + 1) (some byte) rest with
                | none => simp [sooner]
                | some found =>
                    have := place_leftmost later
                    simp only [sooner]
                    rw [if_pos (by omega)]
            | none => exact induction _ _

theorem leftmost_map {β : Type} (change : α → β) (test : Cursor → Option α) (place : Nat)
    (previous : Option UInt8) (bytes : Bytes) :
    leftmost barred (fun cursor => (test cursor).map change) place previous bytes =
      (leftmost barred test place previous bytes).map fun found => (found.1, change found.2) := by
  induction bytes generalizing place previous with
  | nil =>
      simp only [leftmost]
      split
      · rfl
      · cases test ⟨place, previous, []⟩ <;> rfl
  | cons byte rest induction =>
      simp only [leftmost]
      by_cases isBarred : barred place = true
      · simp only [if_pos isBarred]
        exact induction _ _
      · simp only [if_neg isBarred]
        cases test ⟨place, previous, byte :: rest⟩ with
        | none => exact induction _ _
        | some answer => rfl

theorem leftmost_none (place : Nat) (previous : Option UInt8) (bytes : Bytes) :
    leftmost barred (fun _ => (none : Option α)) place previous bytes = none := by
  induction bytes generalizing place previous with
  | nil => simp [leftmost]
  | cons byte rest induction => simp [leftmost, induction]

def hit (found : Nat × Nat × Nat) : Nat × Hit := (found.2.1, ⟨found.1, found.2.2⟩)

theorem earlier_eq_sooner (first second : Option (Nat × Nat × Nat)) :
    earlier (first.map hit) (second.map hit) = (sooner first second).map hit := by
  cases first with
  | none => cases second <;> rfl
  | some first =>
      cases second with
      | none => rfl
      | some second =>
          simp only [Option.map_some, earlier, sooner, hit]
          split <;> rfl

theorem best_eq_leftmost {patterns : List Pattern}
    (walks : ∀ pattern ∈ patterns, Walks pattern.probe barred) (bytes : Bytes) (index : Nat) :
    best barred bytes index patterns =
      (leftmost barred (choice index patterns) 0 none bytes).map hit := by
  induction patterns generalizing index with
  | nil =>
      have nowhere : choice index [] = fun _ => none := rfl
      rw [nowhere, leftmost_none]
      rfl
  | cons pattern patterns induction =>
      have others := induction (fun other member => walks other (List.mem_cons_of_mem _ member))
        (index + 1)
      have one := walks pattern List.mem_cons_self (.start bytes)
      have numbered : (locate pattern.probe barred (.start bytes)).map (index, ·) =
          (leftmost barred (fun cursor => (pattern.probe.lengthAt cursor).map (index, ·))
            0 none bytes).map hit := by
        rw [one, leftmost_map]
        simp only [walk, Option.map_map, leftmostAt, Cursor.start]
        rfl
      rw [best, others, numbered, earlier_eq_sooner, ← leftmost_or]
      rfl

/-! ## More data -/

def grown (cursor : Cursor) (more : Bytes) : Cursor := { cursor with rest := cursor.rest ++ more }

/-- A test for whole lines. What it says once it says for good; and while more data would change
its mind at a place, it says nothing at any later one. -/
structure Steady (test : Cursor → Option α) : Prop where
  needs : ∀ {cursor : Cursor}, cursor.rest = [] → test cursor = none
  stays : ∀ {cursor answer}, test cursor = some answer → ∀ more,
    test (grown cursor more) = some answer
  waits : ∀ {cursor answer more}, test cursor = none → test (grown cursor more) = some answer →
    ∀ step, 0 < step → test (cursor.advance step) = none

theorem grown_advance {count : Nat} {cursor : Cursor} (more : Bytes)
    (within : count ≤ cursor.rest.length) :
    (grown cursor more).advance count = grown (cursor.advance count) more := by
  induction count generalizing cursor with
  | zero => rfl
  | succ count induction =>
      obtain ⟨offset, previous, rest⟩ := cursor
      cases rest with
      | nil => simp at within
      | cons byte rest =>
          have inner : count ≤ (Cursor.mk (offset + 1) (some byte) rest).rest.length := by
            simpa using within
          exact induction inner

theorem passed_of_leftmost_none {place : Nat} {previous : Option UInt8} {bytes : Bytes}
    (nothing : leftmost barred test place previous bytes = none) {step : Nat}
    (within : step ≤ bytes.length) (free : barred (place + step) = false) :
    test (Cursor.advance step ⟨place, previous, bytes⟩) = none := by
  induction bytes generalizing place previous step with
  | nil =>
      obtain rfl : step = 0 := by simpa using within
      rw [Nat.add_zero] at free
      simpa [leftmost, free, Cursor.advance] using nothing
  | cons byte rest induction =>
      simp only [leftmost] at nothing
      split at nothing
      · simp at nothing
      · next failed =>
          cases step with
          | zero =>
              rw [Nat.add_zero] at free
              simpa [free, Cursor.advance] using failed
          | succ step =>
              apply induction nothing (by simpa using within)
              rw [← free]
              congr 1
              omega

theorem leftmost_found {place : Nat} {previous : Option UInt8} {bytes : Bytes} {found : Nat × α}
    (leads : leftmost barred test place previous bytes = some found) :
    ∃ step ≤ bytes.length, found.1 = place + step ∧ barred found.1 = false ∧
      test (Cursor.advance step ⟨place, previous, bytes⟩) = some found.2 := by
  induction bytes generalizing place previous with
  | nil =>
      simp only [leftmost] at leads
      split at leads
      · simp at leads
      · next free =>
          obtain ⟨answer, passed, rfl⟩ := Option.map_eq_some_iff.mp leads
          exact ⟨0, Nat.le_refl _, rfl, by simpa using free, passed⟩
  | cons byte rest induction =>
      simp only [leftmost] at leads
      split at leads
      · next answer passed =>
          split at passed
          · simp at passed
          · next free =>
              cases leads
              exact ⟨0, Nat.zero_le _, rfl, by simpa using free, passed⟩
      · obtain ⟨step, within, same, free, passed⟩ := induction leads
        exact ⟨step + 1, by simpa using within, by omega, free, passed⟩

/-- What was found stays found when more data arrives, as long as no place is barred or freed. -/
theorem leftmost_append (steady : Steady test) {barred' : Nat → Bool} {place : Nat}
    {previous : Option UInt8} {bytes : Bytes} {found : Nat × α} (more : Bytes)
    (same : ∀ spot < place + bytes.length, barred' spot = barred spot)
    (leads : leftmost barred test place previous bytes = some found) :
    leftmost barred' test place previous (bytes ++ more) = some found := by
  induction bytes generalizing place previous with
  | nil =>
      have silent : test ⟨place, previous, []⟩ = none := steady.needs rfl
      simp only [leftmost, silent, Option.map_none, ite_self] at leads
      simp at leads
  | cons byte rest induction =>
      have here := same place (by simp)
      simp only [leftmost] at leads
      simp only [List.cons_append, leftmost, here]
      split at leads
      · next answer passed =>
          split at passed
          · simp at passed
          · next free =>
              have stays := steady.stays passed more
              simp only [grown, List.cons_append] at stays
              rw [if_neg free, stays]
              exact leads
      · next failed =>
          obtain ⟨step, within, _, _, passed⟩ := leftmost_found leads
          -- The test cannot change its mind here: a later place has passed it already.
          have still : (if barred place = true then none
              else test ⟨place, previous, byte :: (rest ++ more)⟩) = none := by
            split
            · rfl
            · next free =>
                rw [if_neg free] at failed
                rw [Option.eq_none_iff_forall_ne_some]
                intro answer changed
                have silent : test (Cursor.advance (step + 1) ⟨place, previous, byte :: rest⟩)
                    = none := steady.waits failed changed (step + 1) (by omega)
                rw [Cursor.advance, passed] at silent
                simp at silent
          rw [still]
          apply induction _ leads
          intro spot before
          exact same spot (by simp only [List.length_cons]; omega)

/-! ## Where matches begin -/

theorem locate_free {probe : Probe} {cursor : Cursor} {hit : Hit}
    (found : locate probe barred cursor = some hit) :
    barred hit.start = false ∧ hit.start ≤ cursor.offset + cursor.rest.length := by
  fun_induction locate probe barred cursor with
  | case1 => cases found
  | case2 cursor length matched isBarred more induction =>
      have further := induction found
      rw [Cursor.offset_advance, Cursor.length_rest_advance] at further
      exact ⟨further.1, by omega⟩
  | case3 cursor length matched free =>
      cases found
      exact ⟨Bool.eq_false_iff.mpr free, Nat.le_add_right _ _⟩
  | case4 => cases found
  | case5 cursor unmatched more induction =>
      have further := induction found
      rw [Cursor.offset_advance, Cursor.length_rest_advance] at further
      exact ⟨further.1, by omega⟩

theorem earlier_cases {first second : Option (Nat × Hit)} {found : Nat × Hit}
    (best : earlier first second = some found) : first = some found ∨ second = some found := by
  unfold earlier at best
  split at best
  · split at best
    · exact .inr best
    · exact .inl best
  · exact .inl best
  · exact .inr best

theorem best_free {patterns : List Pattern} {bytes : Bytes} {index : Nat} {found : Nat × Hit}
    (leads : best barred bytes index patterns = some found) :
    barred found.2.start = false ∧ found.2.start ≤ bytes.length := by
  induction patterns generalizing index with
  | nil => cases leads
  | cons pattern patterns induction =>
      rcases earlier_cases leads with one | others
      · obtain ⟨hit, located, rfl⟩ := Option.map_eq_some_iff.mp one
        have free := locate_free located
        simpa [Cursor.start] using free
      · exact induction others

/-- A match begins in the data, or right behind it, and where no match is barred from beginning. -/
theorem first_free {patterns : List Pattern} {bytes rest : Bytes} {found : Match}
    (leads : first barred patterns bytes = some (found, rest)) :
    barred found.before.length = false ∧ found.before.length ≤ bytes.length := by
  obtain ⟨⟨index, hit⟩, best, same⟩ := Option.map_eq_some_iff.mp leads
  cases same
  have free := best_free best
  rw [List.length_take, Nat.min_eq_left free.2]
  exact free

theorem earlier_none (other : Option (Nat × Hit)) : earlier none other = other := by
  cases other <;> rfl

theorem first_eq_none {patterns : List Pattern} {bytes : Bytes} :
    first barred patterns bytes = none ↔
      ∀ pattern ∈ patterns, locate pattern.probe barred (.start bytes) = none := by
  have every : ∀ index, best barred bytes index patterns = none ↔
      ∀ pattern ∈ patterns, locate pattern.probe barred (.start bytes) = none := by
    induction patterns with
    | nil => simp [best]
    | cons pattern patterns induction =>
        intro index
        rw [best, List.forall_mem_cons, ← induction (index + 1)]
        cases locate pattern.probe barred (.start bytes) with
        | none => simp [earlier_none]
        | some hit =>
            cases best barred bytes (index + 1) patterns with
            | none => simp [earlier]
            | some other =>
                simp only [Option.map_some, earlier]
                split <;> simp
  rw [first, Option.map_eq_none_iff]
  exact every 0

end ImapDialogue.Search

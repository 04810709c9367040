import ImapDialogue.Proofs.Command.Lines
import ImapDialogue.Proofs.Literal

/-!
A plain reader of lines: one walk over the data, which skips the data of literals and stops at
the first line that is an answer. The search for several expressions outside literal data comes
to the same result.
-/

namespace ImapDialogue.LineReader

open Literal Search

variable {α : Type}

/-- The walk from a place on. So many bytes are left of a literal's header, and so many bytes of
data follow it. A line counts wherever it begins outside of data. Gives the place of the line,
its answer and its length. -/
def scan (judge : Bytes → Option α) (header data place : Nat) (previous : Option UInt8) :
    Bytes → Option (Nat × α × Nat)
  | [] => none
  | byte :: rest =>
      if header = 0 ∧ 0 < data then scan judge 0 (data - 1) (place + 1) (some byte) rest
      else
        match Line.judged judge ⟨place, previous, byte :: rest⟩ with
        | some found => some (place, found)
        | none =>
            if 0 < header then scan judge (header - 1) data (place + 1) (some byte) rest
            else
              match header? (byte :: rest) with
              | some begun =>
                  scan judge (begun.length - 1) begun.size (place + 1) (some byte) rest
              | none => scan judge 0 0 (place + 1) (some byte) rest

/-- What is read: the data in front of the line, the line itself, and what follows it. -/
def read (judge : Bytes → Option Nat) (stream : Bytes) : Option (Match × Bytes) :=
  (scan judge 0 0 0 none stream).map fun (place, index, length) =>
    (⟨index, stream.take place, (stream.drop place).take length⟩, stream.drop (place + length))

def ahead (header data place : Nat) (bytes : Bytes) : List Region :=
  ⟨place + header, place + header + data⟩ ::
    regionsAt (place + header + data) (bytes.drop (header + data))

theorem leftmost_congr {barred barred' : Nat → Bool} (test : Cursor → Option α) {place : Nat}
    (previous : Option UInt8) (bytes : Bytes)
    (same : ∀ spot, place ≤ spot → barred spot = barred' spot) :
    leftmost barred test place previous bytes = leftmost barred' test place previous bytes := by
  induction bytes generalizing place previous with
  | nil => simp only [leftmost, same place (Nat.le_refl _)]
  | cons byte rest induction =>
      have further : ∀ spot, place + 1 ≤ spot → barred spot = barred' spot := by
        intro spot later
        exact same spot (Nat.le_of_succ_le later)
      have later := induction (some byte) further
      simp only [leftmost, same place (Nat.le_refl _), later]

/-- The place at hand lies in data when the header is behind it and data is left. -/
theorem inside_ahead_here (header data place : Nat) (bytes : Bytes) :
    inside (ahead header data place bytes) place = decide (header = 0 ∧ 0 < data) := by
  have later : inside (regionsAt (place + header + data) (bytes.drop (header + data))) place =
      false := by
    by_cases past : header + data = 0
    · have same : place + header + data = place := by omega
      rw [same]
      exact inside_regions_at_here place _
    · exact inside_regions_at_before _ (by omega)
  rw [inside] at later
  rw [inside, ahead, List.any_cons, later, Bool.or_false, Region.contains, Bool.eq_iff_iff]
  simp only [Bool.and_eq_true, decide_eq_true_eq]
  omega

theorem inside_ahead_data {data place spot : Nat} (byte : UInt8) (rest : Bytes)
    (further : place + 1 ≤ spot) :
    inside (ahead 0 (data + 1) place (byte :: rest)) spot =
      inside (ahead 0 data (place + 1) rest) spot := by
  have tail : place + (data + 1) = place + 1 + data := by omega
  simp only [ahead, Nat.add_zero, Nat.zero_add, List.drop_succ_cons, inside, List.any_cons, tail]
  congr 1
  rw [Region.contains, Region.contains, Bool.eq_iff_iff]
  simp only [Bool.and_eq_true, decide_eq_true_eq]
  omega

theorem ahead_header (header data place : Nat) (byte : UInt8) (rest : Bytes) :
    ahead (header + 1) data place (byte :: rest) = ahead header data (place + 1) rest := by
  have start : place + (header + 1) = place + 1 + header := by omega
  have tail : header + 1 + data = header + data + 1 := by omega
  simp only [ahead, start, tail, List.drop_succ_cons]

theorem inside_ahead_none (place spot : Nat) (bytes : Bytes) :
    inside (ahead 0 0 place bytes) spot = inside (regionsAt place bytes) spot := by
  have empty : Region.contains ⟨place, place⟩ spot = false := by
    simp only [Region.contains, Bool.and_eq_false_iff, decide_eq_false_iff_not]
    omega
  simp only [ahead, Nat.add_zero, List.drop_zero, inside, List.any_cons, empty, Bool.false_or]

theorem scan_eq_leftmost (judge : Bytes → Option α) (header data place : Nat)
    (previous : Option UInt8) (bytes : Bytes) :
    scan judge header data place previous bytes =
      leftmost (inside (ahead header data place bytes)) (Line.judged judge) place previous
        bytes := by
  induction bytes generalizing header data place previous with
  | nil =>
      have silent : Line.judged judge ⟨place, previous, []⟩ = none :=
        (Line.steady_judged judge).needs rfl
      simp [scan, leftmost, silent]
  | cons byte rest induction =>
      simp only [scan, leftmost, inside_ahead_here, decide_eq_true_eq]
      by_cases skipped : header = 0 ∧ 0 < data
      -- Inside the data of a literal no place counts, and the walk goes on with one byte less.
      · rw [if_pos skipped, if_pos skipped, induction]
        obtain ⟨rfl, left⟩ := skipped
        obtain ⟨data, rfl⟩ := Nat.exists_eq_succ_of_ne_zero (Nat.ne_of_gt left)
        apply leftmost_congr
        intro spot further
        rw [inside_ahead_data byte rest further]
        rfl
      · rw [if_neg skipped, if_neg skipped]
        cases Line.judged judge ⟨place, previous, byte :: rest⟩ with
        | some found => rfl
        | none =>
            simp only
            -- A header at hand is passed byte by byte, and only behind it another one may begin.
            by_cases passing : 0 < header
            · rw [if_pos passing, induction]
              obtain ⟨header, rfl⟩ := Nat.exists_eq_succ_of_ne_zero (Nat.ne_of_gt passing)
              rw [ahead_header]
              rfl
            · obtain ⟨rfl, rfl⟩ : header = 0 ∧ data = 0 := by omega
              rw [if_neg passing]
              cases found : header? (byte :: rest) with
              | some begun =>
                  have positive := (length_header_pos found).1
                  have entered : ahead (begun.length - 1) begun.size (place + 1) rest =
                      regionsAt place (byte :: rest) := by
                    rw [regions_at_of_header place found, ← ahead_header _ _ place byte,
                      Nat.sub_add_cancel positive]
                    rfl
                  simp only
                  rw [induction, entered]
                  apply leftmost_congr
                  intro spot _
                  rw [inside_ahead_none]
              | none =>
                  simp only
                  rw [induction]
                  apply leftmost_congr
                  intro spot _
                  rw [inside_ahead_none, inside_ahead_none, regions_at_cons_of_none place found]

theorem scan_eq_leftmost_regions (judge : Bytes → Option α) (stream : Bytes) :
    scan judge 0 0 0 none stream =
      leftmost (inside (regions stream)) (Line.judged judge) 0 none stream := by
  rw [scan_eq_leftmost]
  apply leftmost_congr
  intro spot _
  exact inside_ahead_none 0 spot stream

/-- The reader comes to the same result as the search for patterns outside literal data. -/
theorem first_eq_read {patterns : List Pattern} {tests : List (Bytes → Bool)}
    (known : List.Forall₂ Command.Recognizes patterns tests) (stream : Bytes) :
    Search.first (inside (regions stream)) patterns stream =
      read (Command.numbered 0 tests) stream := by
  have choices : choice 0 patterns = Line.judged (Command.numbered 0 tests) := by
    funext cursor
    exact Command.choice_of_recognizes known 0 cursor
  rw [Search.first, best_eq_leftmost (Command.walks_of_recognizes known _), choices, read,
    scan_eq_leftmost_regions, Option.map_map]
  rfl

/-! ## More data -/

theorem found_of_scan {judge : Bytes → Option α} {stream : Bytes} {place length : Nat} {answer : α}
    (walked : scan judge 0 0 0 none stream = some (place, answer, length)) :
    place + length ≤ stream.length ∧ 0 < length ∧ inside (regions stream) place = false ∧
      Line.judged judge ((Cursor.start stream).advance place) = some (answer, length) := by
  rw [scan_eq_leftmost_regions] at walked
  obtain ⟨step, within, same, free, judged⟩ := leftmost_found walked
  obtain rfl : place = step := by simpa using same
  obtain ⟨_, line, complete, _⟩ := Line.judged_eq_some judged
  have bounds := Line.length_first? complete
  simp only [Cursor.rest_advance, List.length_drop] at bounds
  exact ⟨by omega, by omega, free, judged⟩

/-- A line that is read lies in the data, and nothing in front of it or behind it is lost. -/
theorem parts_of_read {judge : Bytes → Option Nat} {stream rest : Bytes} {found : Match}
    (reads : read judge stream = some (found, rest)) :
    stream = found.before ++ (found.text ++ rest) := by
  obtain ⟨⟨place, index, length⟩, _, same⟩ := Option.map_eq_some_iff.mp reads
  cases same
  rw [← List.drop_drop, List.take_append_drop, List.take_append_drop]

theorem read_append {judge : Bytes → Option Nat} {stream rest : Bytes} {found : Match}
    (reads : read judge stream = some (found, rest)) (more : Bytes) :
    read judge (stream ++ more) = some (found, rest ++ more) := by
  obtain ⟨⟨place, index, length⟩, walked, same⟩ := Option.map_eq_some_iff.mp reads
  cases same
  have within := (found_of_scan walked).1
  rw [scan_eq_leftmost_regions] at walked
  have stays := leftmost_append (Line.steady_judged judge) more
    (fun spot before => inside_regions_append stream more (by
      rw [Nat.zero_add] at before
      exact Nat.le_of_lt before)) walked
  rw [read, scan_eq_leftmost_regions, stays, Option.map_some]
  simp only [Option.some.injEq, Prod.mk.injEq, Match.mk.injEq, true_and]
  refine ⟨⟨?_, ?_⟩, ?_⟩
  · exact List.take_append_of_le_length (by omega)
  · rw [List.drop_append_of_le_length (by omega)]
    exact List.take_append_of_le_length (by rw [List.length_drop]; omega)
  · exact List.drop_append_of_le_length within

theorem read_of_parts {judge : Bytes → Option Nat} {stream rest : Bytes} {found : Match}
    (reads : read judge stream = some (found, rest)) :
    read judge (found.before ++ found.text) = some (found, []) := by
  have parts := parts_of_read reads
  cases early : read judge (found.before ++ found.text) with
  | some other =>
      obtain ⟨found', rest'⟩ := other
      have grown := read_append early rest
      rw [List.append_assoc, ← parts, reads] at grown
      obtain ⟨rfl, same⟩ := Prod.mk.inj (Option.some.inj grown)
      have nothing : rest' = [] := List.self_eq_append_left.mp same
      rw [nothing]
  | none =>
      obtain ⟨⟨place, index, length⟩, walked, same⟩ := Option.map_eq_some_iff.mp reads
      obtain ⟨within, positive, free, judged⟩ := found_of_scan walked
      cases same
      rw [← List.take_add] at early
      have silent := Option.map_eq_none_iff.mp early
      rw [scan_eq_leftmost_regions] at silent
      have front : (stream.take (place + length)).length = place + length := by
        rw [List.length_take]
        omega
      have whole : Cursor.start stream =
          grown (.start (stream.take (place + length))) (stream.drop (place + length)) := by
        simp only [grown, Cursor.start, List.take_append_drop]
      have short : place ≤ (Cursor.start (stream.take (place + length))).rest.length := by
        simp only [Cursor.start, front]
        omega
      rw [whole, grown_advance _ short] at judged
      have seen := Line.judged_of_grown judged (by
        rw [Cursor.rest_advance, List.length_drop]
        simp only [Cursor.start, front]
        omega)
      have stable := inside_regions_append (stream.take (place + length))
        (stream.drop (place + length)) (show place ≤ _ by omega)
      rw [List.take_append_drop, free] at stable
      have missed := passed_of_leftmost_none silent short (by rw [Nat.zero_add, ← stable])
      rw [Cursor.start, missed] at seen
      simp at seen

theorem line_of_read {judge : Bytes → Option Nat} {stream rest : Bytes} {found : Match}
    (reads : read judge stream = some (found, rest)) :
    ∃ line ending, Line.Plain line ∧ Line.Ending ending ∧ found.text = line ++ ending ∧
      judge line = some found.index := by
  obtain ⟨⟨place, index, length⟩, walked, same⟩ := Option.map_eq_some_iff.mp reads
  cases same
  obtain ⟨_, _, _, judged⟩ := found_of_scan walked
  obtain ⟨_, line, complete, verdict⟩ := Line.judged_eq_some judged
  obtain ⟨ending, behind, plain, ends, parts, rfl⟩ := Line.line_of_first? complete
  refine ⟨line, ending, plain, ends, ?_, verdict⟩
  have here : stream.drop place = line ++ (ending ++ behind) := by
    rw [← parts, Cursor.rest_advance]
    rfl
  rw [here, ← List.append_assoc, ← List.length_append, List.take_left]

end ImapDialogue.LineReader

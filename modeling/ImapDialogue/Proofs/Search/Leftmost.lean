import ImapDialogue.Proofs.Pattern.Fitting
import ImapDialogue.Proofs.Search

/-!
The match that a search for several patterns comes to, told by the places at which patterns occur:
no place of them lies in front of it, and of the patterns that occur there it belongs to the one
listed first. Texts are found so wherever starting is barred, and all patterns where it is not.
-/

namespace ImapDialogue.Search

open Pattern (Probe)

variable {α : Type} {barred : Nat → Bool} {test : Cursor → Option α} {patterns : List Pattern}
  {bytes : Bytes}

/-! ## Walks -/

theorem walks_text (chars : List Char) (barred : Nat → Bool) : Walks (.text chars) barred := by
  apply locate_eq_leftmost
  refine ⟨Probe.lengthAt_le, ?_⟩
  intro cursor length _ step positive inside
  simp only [Probe.stride] at inside
  omega

theorem walk_at_hit {probe : Probe} {cursor : Cursor} {length : Nat}
    (free : barred cursor.offset = false) (matched : probe.lengthAt cursor = some length) :
    walk probe barred cursor = some ⟨cursor.offset, length⟩ := by
  rw [walk, leftmost_at_hit free matched]
  rfl

theorem walk_at_pass {probe : Probe} {cursor : Cursor} (more : cursor.rest ≠ [])
    (passed : barred cursor.offset = true ∨ probe.lengthAt cursor = none) :
    walk probe barred cursor = walk probe barred (cursor.advance 1) := by
  rw [walk, leftmost_at_pass more passed]
  rfl

theorem walk_at_end {probe : Probe} {cursor : Cursor} (past : cursor.rest = [])
    (passed : barred cursor.offset = true ∨ probe.lengthAt cursor = none) :
    walk probe barred cursor = none := by
  rw [walk, leftmost_at_end past passed]
  rfl

theorem walks_free (probe : Probe) (free : ∀ place, barred place = false) :
    Walks probe barred := by
  intro cursor
  fun_induction locate probe barred cursor with
  | case1 cursor _ _ isBarred => simp [free] at isBarred
  | case2 cursor _ _ isBarred => simp [free] at isBarred
  | case3 cursor length matched _ => exact (walk_at_hit (free _) matched).symm
  | case4 cursor unmatched past => exact (walk_at_end past (Or.inr unmatched)).symm
  | case5 cursor unmatched more induction =>
      rw [induction, walk_at_pass more (Or.inr unmatched)]

theorem leftmost_least {place : Nat} {previous : Option UInt8} {found : Nat × α}
    (leads : leftmost barred test place previous bytes = some found) {step : Nat}
    (within : step ≤ bytes.length) (free : barred (place + step) = false) {answer : α}
    (passed : test (Cursor.advance step ⟨place, previous, bytes⟩) = some answer) :
    found.1 ≤ place + step := by
  induction bytes generalizing place previous step with
  | nil =>
      obtain ⟨here, inside, same, _⟩ := leftmost_found leads
      have : here = 0 := by simpa using inside
      omega
  | cons byte rest induction =>
      simp only [leftmost] at leads
      split at leads
      · cases leads
        exact Nat.le_add_right _ _
      · next failed =>
          cases step with
          | zero =>
              rw [Nat.add_zero] at free
              rw [Cursor.advance] at passed
              simp [free, passed] at failed
          | succ step =>
              have later := induction leads (by simpa using within)
                (by rwa [Nat.add_right_comm, Nat.add_assoc]) passed
              omega

/-! ## Choices -/

/-- The pattern that is chosen at a place matches there, and none listed in front of it does. -/
theorem choice_found {index number length : Nat} {cursor : Cursor}
    (chosen : choice index patterns cursor = some (number, length)) :
    ∃ ahead pattern, number = index + ahead ∧ patterns[ahead]? = some pattern ∧
      pattern.probe.lengthAt cursor = some length ∧
      ∀ earlier < ahead, ∀ other, patterns[earlier]? = some other →
        other.probe.lengthAt cursor = none := by
  induction patterns generalizing index with
  | nil => cases chosen
  | cons pattern patterns induction =>
      cases matched : pattern.probe.lengthAt cursor with
      | some here =>
          simp only [choice, matched, Option.map_some, Option.some_or] at chosen
          cases chosen
          exact ⟨0, pattern, rfl, rfl, matched, by simp⟩
      | none =>
          simp only [choice, matched, Option.map_none, Option.none_or] at chosen
          obtain ⟨ahead, found, rfl, listed, long, unmatched⟩ := induction chosen
          refine ⟨ahead + 1, found, by omega, listed, long, ?_⟩
          intro earlier before other member
          cases earlier with
          | zero =>
              cases member
              exact matched
          | succ earlier => exact unmatched earlier (by omega) other member

theorem choice_none {index : Nat} {cursor : Cursor}
    (nothing : choice index patterns cursor = none) {pattern : Pattern}
    (member : pattern ∈ patterns) : pattern.probe.lengthAt cursor = none := by
  induction patterns generalizing index with
  | nil => cases member
  | cons other patterns induction =>
      obtain ⟨here, later⟩ := Option.or_eq_none_iff.mp nothing
      rcases List.mem_cons.mp member with rfl | among
      · exact Option.map_eq_none_iff.mp here
      · exact induction later among

/-! ## Occurrences -/

/-- A pattern of a list matches the data at a place where a match may start, and so many bytes
of it. -/
structure Occurs (barred : Nat → Bool) (patterns : List Pattern) (bytes : Bytes)
    (index start length : Nat) : Prop where
  within : start ≤ bytes.length
  free : barred start = false
  matched : ∃ pattern, patterns[index]? = some pattern ∧
    pattern.probe.lengthAt ((Cursor.start bytes).advance start) = some length

theorem Occurs.fits {index start length : Nat}
    (occurs : Occurs barred patterns bytes index start length) :
    start + length ≤ bytes.length := by
  obtain ⟨pattern, _, matched⟩ := occurs.matched
  have inside := Probe.lengthAt_le matched
  rw [Cursor.length_rest_advance] at inside
  have : (Cursor.start bytes).rest.length = bytes.length := rfl
  have := occurs.within
  omega

theorem Occurs.narrow {index : Nat} {before text rest : Bytes} {wanted : String}
    (occurs : Occurs barred patterns (before ++ text ++ rest) index before.length text.length)
    (listed : patterns[index]? = some (.text wanted)) : Bytes.toNarrow text = wanted := by
  obtain ⟨pattern, listed', matched⟩ := occurs.matched
  rw [listed] at listed'
  cases listed'
  have stands := Pattern.narrow_of_lengthAt matched
  rwa [Cursor.rest_advance, Cursor.start, List.append_assoc, List.drop_left, List.take_left]
    at stands

/-- An occurrence that no other one comes before: none starts at a place in front of it, and none
that starts there too is of a pattern listed in front of its own. -/
structure Foremost (barred : Nat → Bool) (patterns : List Pattern) (bytes : Bytes)
    (index start length : Nat) : Prop where
  occurs : Occurs barred patterns bytes index start length
  least : ∀ {index' start' length'}, Occurs barred patterns bytes index' start' length' →
    start ≤ start'
  lowest : ∀ {index' length'}, Occurs barred patterns bytes index' start length' → index ≤ index'

theorem foremost_of_best (walks : ∀ pattern ∈ patterns, Walks pattern.probe barred) {index : Nat}
    {hit : Hit} (found : best barred bytes 0 patterns = some (index, hit)) :
    Foremost barred patterns bytes index hit.start hit.length := by
  rw [best_eq_leftmost walks] at found
  obtain ⟨⟨place, number, length⟩, leads, same⟩ := Option.map_eq_some_iff.mp found
  cases same
  obtain ⟨step, within, same, free, chosen⟩ := leftmost_found leads
  rw [Nat.zero_add] at same
  cases same
  obtain ⟨ahead, pattern, same, listed, matched, unmatched⟩ := choice_found chosen
  rw [Nat.zero_add] at same
  cases same
  refine ⟨⟨within, free, pattern, listed, matched⟩, ?_, ?_⟩
  · intro index' start' length' occurs
    obtain ⟨other, listed', matched'⟩ := occurs.matched
    cases here : choice 0 patterns ((Cursor.start bytes).advance start') with
    | none =>
        have silent := choice_none here (List.mem_of_getElem? listed')
        rw [silent] at matched'
        cases matched'
    | some answer =>
        have first := leftmost_least leads occurs.within (by rw [Nat.zero_add]; exact occurs.free)
          here
        rwa [Nat.zero_add] at first
  · intro index' length' occurs
    obtain ⟨other, listed', matched'⟩ := occurs.matched
    by_contra before
    have silent := unmatched index' (Nat.lt_of_not_le before) other listed'
    have same : Cursor.advance place ⟨0, none, bytes⟩ = (Cursor.start bytes).advance place := rfl
    rw [same, matched'] at silent
    cases silent

theorem none_occurs (walks : ∀ pattern ∈ patterns, Walks pattern.probe barred)
    (nothing : best barred bytes 0 patterns = none) (index start length : Nat) :
    ¬Occurs barred patterns bytes index start length := by
  intro occurs
  rw [best_eq_leftmost walks] at nothing
  have silent := passed_of_leftmost_none (Option.map_eq_none_iff.mp nothing) occurs.within
    (by rw [Nat.zero_add]; exact occurs.free)
  obtain ⟨pattern, listed, matched⟩ := occurs.matched
  have unmatched := choice_none silent (List.mem_of_getElem? listed)
  have same : Cursor.advance start ⟨0, none, bytes⟩ = (Cursor.start bytes).advance start := rfl
  rw [same, matched] at unmatched
  cases unmatched

/-- A search comes to the foremost occurrence, cut out of the data, or to nothing if no pattern
occurs. -/
theorem first_foremost (walks : ∀ pattern ∈ patterns, Walks pattern.probe barred) (bytes : Bytes) :
    match first barred patterns bytes with
    | some (found, rest) => found.before ++ found.text ++ rest = bytes ∧
        Foremost barred patterns bytes found.index found.before.length found.text.length
    | none => ∀ index start length, ¬Occurs barred patterns bytes index start length := by
  cases found : best barred bytes 0 patterns with
  | none =>
      rw [first, found]
      exact none_occurs walks found
  | some result =>
      obtain ⟨index, hit⟩ := result
      have foremost := foremost_of_best walks found
      have fits := foremost.occurs.fits
      have before : (bytes.take hit.start).length = hit.start := by
        rw [List.length_take]
        omega
      have text : ((bytes.drop hit.start).take hit.length).length = hit.length := by
        rw [List.length_take, List.length_drop]
        omega
      rw [first, found]
      refine ⟨?_, ?_⟩
      · rw [List.append_assoc, ← List.drop_drop, List.take_append_drop, List.take_append_drop]
      · simp only
        rw [before, text]
        exact foremost

end ImapDialogue.Search

import ImapDialogue.Proofs.Search.Leftmost

/-!
What a search misses that goes on behind a match it passes over. It tries matches one behind the
other, so it finds the first of these that starts where one may. Another match that starts there
goes unnoticed if it starts within one of those tried before it.
-/

namespace ImapDialogue.Search

open Pattern (Probe)

variable {barred : Nat → Bool} {probe : Probe}

/-! ## Matches tried -/

/-- The matches that a search passes over where none may start: each is the first one behind the
match in front of it, or behind the place in front of it where a text is looked for. -/
def tried (probe : Probe) (cursor : Cursor) : List Hit :=
  match probe.lengthAt cursor with
  | some length =>
      ⟨cursor.offset, length⟩ ::
        if _more : cursor.rest = [] then []
        else tried probe (cursor.advance (max (probe.stride length) 1))
  | none =>
      if _more : cursor.rest = [] then []
      else tried probe (cursor.advance 1)
termination_by cursor.rest.length
decreasing_by
  all_goals
    have : 0 < cursor.rest.length := List.length_pos_iff.mpr _more
    simp only [Cursor.rest_advance, List.length_drop]
    omega

theorem locate_eq_find_tried (probe : Probe) (barred : Nat → Bool) (cursor : Cursor) :
    locate probe barred cursor = (tried probe cursor).find? fun hit => !barred hit.start := by
  fun_induction locate probe barred cursor with
  | case1 cursor length matched isBarred past =>
      rw [tried.eq_def, matched]
      simp [isBarred, past]
  | case2 cursor length matched isBarred more induction =>
      rw [tried.eq_def, matched]
      simp [isBarred, more, induction]
  | case3 cursor length matched free =>
      rw [tried.eq_def, matched]
      simp [free]
  | case4 cursor unmatched past =>
      rw [tried.eq_def, unmatched]
      simp [past]
  | case5 cursor unmatched more induction =>
      rw [tried.eq_def, unmatched]
      simp [more, induction]

theorem tried_matched {cursor : Cursor} {length : Nat}
    (matched : probe.lengthAt cursor = some length) (more : cursor.rest ≠ []) :
    tried probe cursor =
      ⟨cursor.offset, length⟩ :: tried probe (cursor.advance (max (probe.stride length) 1)) := by
  rw [tried.eq_def, matched]
  simp only [dif_neg more]

theorem tried_unmatched {cursor : Cursor} (unmatched : probe.lengthAt cursor = none)
    (more : cursor.rest ≠ []) : tried probe cursor = tried probe (cursor.advance 1) := by
  rw [tried.eq_def, unmatched]
  exact dif_neg more

def Ahead (probe : Probe) (cursor : Cursor) (hit : Hit) : Prop :=
  ∃ step ≤ cursor.rest.length, hit.start = cursor.offset + step ∧
    probe.lengthAt (cursor.advance step) = some hit.length

theorem Ahead.of_advance {cursor : Cursor} {count : Nat} {hit : Hit}
    (ahead : Ahead probe (cursor.advance count) hit) : Ahead probe cursor hit := by
  obtain ⟨step, within, same, matched⟩ := ahead
  rw [Cursor.length_rest_advance] at within
  rw [Cursor.offset_advance] at same
  rw [← Cursor.advance_min count, Cursor.advance_advance] at matched
  exact ⟨min count cursor.rest.length + step, by omega, by omega, matched⟩

theorem Ahead.offset_le {cursor : Cursor} {hit : Hit} (ahead : Ahead probe cursor hit) :
    cursor.offset ≤ hit.start := by
  obtain ⟨step, _, same, _⟩ := ahead
  omega

theorem ahead_of_tried {cursor : Cursor} {hit : Hit} (member : hit ∈ tried probe cursor) :
    Ahead probe cursor hit := by
  fun_induction tried probe cursor with
  | case1 cursor length matched induction =>
      rcases List.mem_cons.mp member with rfl | later
      · exact ⟨0, Nat.zero_le _, rfl, matched⟩
      · split at later
        · cases later
        · next more => exact (induction more later).of_advance
  | case2 cursor unmatched past => cases member
  | case3 cursor unmatched more induction => exact (induction member).of_advance

theorem ahead_of_locate {cursor : Cursor} {hit : Hit}
    (found : locate probe barred cursor = some hit) :
    barred hit.start = false ∧ Ahead probe cursor hit := by
  rw [locate_eq_find_tried] at found
  have free := List.find?_some found
  exact ⟨by simpa using free, ahead_of_tried (List.mem_of_find?_eq_some found)⟩

/-! ## Against a walk -/

theorem ahead_of_walk {cursor : Cursor} {hit : Hit}
    (found : walk probe barred cursor = some hit) :
    barred hit.start = false ∧ Ahead probe cursor hit := by
  obtain ⟨⟨place, length⟩, leads, same⟩ := Option.map_eq_some_iff.mp found
  cases same
  obtain ⟨step, within, same, free, matched⟩ := leftmost_found leads
  exact ⟨free, step, within, same, matched⟩

/-- A walk comes to every match that starts where one may, or to one in front of it. -/
theorem walk_reaches {cursor : Cursor} {hit : Hit} (free : barred hit.start = false)
    (ahead : Ahead probe cursor hit) :
    ∃ first, walk probe barred cursor = some first ∧ first.start ≤ hit.start := by
  obtain ⟨step, within, same, matched⟩ := ahead
  rw [same] at free ⊢
  unfold walk
  cases leads : leftmostAt barred (fun cursor => probe.lengthAt cursor) cursor with
  | none =>
      have silent := passed_of_leftmost_none leads within free
      rw [matched] at silent
      cases silent
  | some found => exact ⟨_, rfl, leftmost_least leads within free matched⟩

theorem walk_advance {cursor : Cursor} {count : Nat} (inside : count ≤ cursor.rest.length)
    (behind : ∀ found, walk probe barred cursor = some found →
      cursor.offset + count ≤ found.start) :
    walk probe barred cursor = walk probe barred (cursor.advance count) := by
  unfold walk
  congr 1
  apply leftmost_at_advance cursor _ inside
  intro step before
  by_contra stands
  rw [not_or, Bool.not_eq_true] at stands
  obtain ⟨length, matched⟩ := Option.ne_none_iff_exists'.mp stands.2
  rw [Cursor.offset_advance_of_le (show step ≤ cursor.rest.length by omega)] at stands
  have ahead : Ahead probe cursor ⟨cursor.offset + step, length⟩ :=
    ⟨step, by omega, rfl, matched⟩
  obtain ⟨first, walks, upTo⟩ := walk_reaches stands.1 ahead
  have := behind first walks
  dsimp only at upTo
  omega

/-- A walk stops behind a cursor where no match may start. -/
theorem offset_lt_of_walk {cursor : Cursor} {hit : Hit} (isBarred : barred cursor.offset = true)
    (walks : walk probe barred cursor = some hit) : cursor.offset < hit.start := by
  obtain ⟨free, ahead⟩ := ahead_of_walk walks
  refine Nat.lt_of_le_of_ne ahead.offset_le ?_
  intro same
  rw [← same, isBarred] at free
  cases free

theorem one_le_stride (probe : Probe) (length : Nat) : 1 ≤ probe.stride length := by
  cases probe <;> simp only [Probe.stride] <;> omega

/-- A match that is passed over hides the places in it but the first: none of them is tried. -/
def Hides (probe : Probe) (hit : Hit) (place : Nat) : Prop :=
  hit.start < place ∧ place < hit.start + probe.stride hit.length

theorem hides_expression {regex : Pattern.Regex} {flags : Pattern.Flags} {hit : Hit} {place : Nat} :
    Hides (.expression regex flags) hit place ↔
      hit.start < place ∧ place < hit.start + hit.length := by
  simp only [Hides, Probe.stride]
  omega

/-- A search finds what a walk finds, unless a match that it tries hides that. -/
theorem locate_eq_walk_iff (cursor : Cursor) :
    locate probe barred cursor = walk probe barred cursor ↔
      ∀ found, walk probe barred cursor = some found →
        ∀ hit ∈ tried probe cursor, ¬Hides probe hit found.start := by
  fun_induction locate probe barred cursor with
  | case1 cursor length matched isBarred past => simp [walk_at_end past (Or.inl isBarred)]
  | case2 cursor length matched isBarred more induction =>
      rw [tried_matched matched more]
      have positive := one_le_stride probe length
      rw [Nat.max_eq_left positive] at induction ⊢
      have inside : probe.stride length ≤ cursor.rest.length := by
        have reach : max (probe.stride length) 1 ≤ cursor.rest.length :=
          stride_le more (Probe.lengthAt_le matched)
        omega
      have offset := Cursor.offset_advance_of_le inside
      by_cases hidden : ∃ found, walk probe barred cursor = some found ∧
          found.start < cursor.offset + probe.stride length
      · -- The walk stops within the match that is passed over, the search behind it.
        obtain ⟨first, walks, before⟩ := hidden
        rw [walks]
        refine iff_of_false ?_ ?_
        · intro same
          have behind := (ahead_of_locate same).2.offset_le
          omega
        · intro clear
          exact clear first rfl _ List.mem_cons_self ⟨offset_lt_of_walk isBarred walks, before⟩
      · have on : walk probe barred cursor =
            walk probe barred (cursor.advance (probe.stride length)) :=
          walk_advance inside fun found walks =>
            Nat.le_of_not_lt fun before => hidden ⟨found, walks, before⟩
        rw [on, induction]
        constructor
        · intro clear first walks hit member
          rcases List.mem_cons.mp member with rfl | later
          · rintro ⟨_, before⟩
            exact hidden ⟨first, by rw [on]; exact walks, before⟩
          · exact clear first walks hit later
        · intro clear first walks hit member
          exact clear first walks hit (List.mem_cons_of_mem _ member)
  | case3 cursor length matched free =>
      rw [walk_at_hit (by simpa using free) matched]
      refine iff_of_true rfl ?_
      rintro found same hit member ⟨front, _⟩
      cases same
      have behind := (ahead_of_tried member).offset_le
      exact absurd front (Nat.not_lt.mpr behind)
  | case4 cursor unmatched past => simp [walk_at_end past (Or.inr unmatched)]
  | case5 cursor unmatched more induction =>
      rw [walk_at_pass more (Or.inr unmatched), tried_unmatched unmatched more]
      exact induction

/-! ## Searches for one pattern -/

def cut (bytes : Bytes) (hit : Hit) : Match × Bytes :=
  (⟨0, bytes.take hit.start, (bytes.drop hit.start).take hit.length⟩,
    bytes.drop (hit.start + hit.length))

theorem first_single (pattern : Pattern) (barred : Nat → Bool) (bytes : Bytes) :
    first barred [pattern] bytes =
      (locate pattern.probe barred (.start bytes)).map (cut bytes) := by
  rw [first, best, best]
  cases locate pattern.probe barred (.start bytes) <;> rfl

theorem Ahead.fits {bytes : Bytes} {hit : Hit} (ahead : Ahead probe (.start bytes) hit) :
    hit.start + hit.length ≤ bytes.length := by
  obtain ⟨step, within, same, matched⟩ := ahead
  have inside := Probe.lengthAt_le matched
  rw [Cursor.length_rest_advance] at inside
  simp only [Cursor.start] at within same inside
  omega

theorem lengths_cut {bytes : Bytes} {hit : Hit} (ahead : Ahead probe (.start bytes) hit) :
    (cut bytes hit).1.before.length = hit.start ∧ (cut bytes hit).1.text.length = hit.length := by
  have fits := ahead.fits
  simp only [cut, List.length_take, List.length_drop]
  omega

theorem length_before_of_walk {bytes : Bytes} {hit : Hit}
    (walks : walk probe barred (.start bytes) = some hit) :
    (cut bytes hit).1.before.length = hit.start :=
  (lengths_cut (ahead_of_walk walks).2).1

theorem Ahead.occurs {patterns : List Pattern} {pattern : Pattern} {index : Nat} {bytes : Bytes}
    {hit : Hit} (ahead : Ahead pattern.probe (.start bytes) hit)
    (free : barred hit.start = false) (listed : patterns[index]? = some pattern) :
    Occurs barred patterns bytes index hit.start hit.length := by
  obtain ⟨step, within, same, matched⟩ := ahead
  rw [Cursor.start, Nat.zero_add] at same
  rw [same] at free ⊢
  exact ⟨within, free, pattern, listed, matched⟩

theorem located_of_best {patterns : List Pattern} {bytes : Bytes} {number index : Nat} {hit : Hit}
    (found : best barred bytes number patterns = some (index, hit)) :
    ∃ ahead pattern, index = number + ahead ∧ patterns[ahead]? = some pattern ∧
      locate pattern.probe barred (.start bytes) = some hit := by
  induction patterns generalizing number with
  | nil => cases found
  | cons pattern patterns induction =>
      rcases earlier_cases found with one | others
      · obtain ⟨_, located, same⟩ := Option.map_eq_some_iff.mp one
        cases same
        exact ⟨0, pattern, rfl, rfl, located⟩
      · obtain ⟨ahead, other, same, listed, located⟩ := induction others
        exact ⟨ahead + 1, other, by omega, listed, located⟩

theorem first_occurs {patterns : List Pattern} {bytes rest : Bytes} {found : Match}
    (leads : first barred patterns bytes = some (found, rest)) :
    found.before ++ found.text ++ rest = bytes ∧
      Occurs barred patterns bytes found.index found.before.length found.text.length := by
  obtain ⟨⟨index, hit⟩, result, same⟩ := Option.map_eq_some_iff.mp leads
  obtain ⟨ahead, pattern, number, listed, located⟩ := located_of_best result
  obtain ⟨free, matched⟩ := ahead_of_locate located
  rw [Nat.zero_add] at number
  have lengths := lengths_cut matched
  cases same
  refine ⟨?_, ?_⟩
  · rw [List.append_assoc, ← List.drop_drop, List.take_append_drop, List.take_append_drop]
  · rw [number]
    dsimp only [cut] at lengths ⊢
    rw [lengths.1, lengths.2]
    exact matched.occurs free listed

theorem Ahead.congr {other : Probe} {cursor : Cursor} {hit : Hit}
    (ahead : Ahead other cursor hit)
    (lengths : ∀ cursor, other.lengthAt cursor = probe.lengthAt cursor) :
    Ahead probe cursor hit := by
  obtain ⟨step, within, same, matched⟩ := ahead
  exact ⟨step, within, same, (lengths _).symm.trans matched⟩

theorem narrow_of_ahead {wanted : String} {bytes : Bytes} {hit : Hit}
    (ahead : Ahead (Pattern.text wanted).probe (.start bytes) hit) :
    Bytes.toNarrow (cut bytes hit).1.text = wanted := by
  obtain ⟨step, _, same, matched⟩ := ahead
  have text := Pattern.narrow_of_lengthAt matched
  have spot : step = hit.start := by simpa [Cursor.start] using same.symm
  rwa [Cursor.rest_advance, spot] at text

theorem walk_congr {other : Probe}
    (lengths : ∀ cursor, other.lengthAt cursor = probe.lengthAt cursor) (barred : Nat → Bool)
    (cursor : Cursor) : walk other barred cursor = walk probe barred cursor := by
  have same : (fun cursor => other.lengthAt cursor) = fun cursor => probe.lengthAt cursor :=
    funext lengths
  rw [walk, walk, same]

end ImapDialogue.Search

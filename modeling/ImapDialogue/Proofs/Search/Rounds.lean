import ImapDialogue.Intake.Basic
import ImapDialogue.Proofs.Literal.Scanner
import ImapDialogue.Proofs.Loop
import ImapDialogue.Proofs.Search.Skipping

/-!
The loops of a search by their rounds: the one that looks for literals, and for each pattern one
that passes over the hits which start where none may. Each round goes on behind the place from
which it began. Only a search for the empty text could go on for ever: it finds that text at the
end of the data over and over again. But it is left in its first round, for no literal's data is at
the start.
-/

namespace ImapDialogue

/-! ## Literals -/

namespace Literal

/-- Where a region ends, as a number that says so exactly. -/
def Region.exactStop (region : Region) : Number := .finite region.stop

def Region.behind (bytes : Bytes) (header : Hit) : Region :=
  let start := header.start + header.length
  ⟨start, start + Bytes.decimal ((bytes.drop (header.start + 1)).takeWhile Byte.isDigit)⟩

/-- One round of the search for literals, from a place on and with the regions found so far. The
end of a region is told as a number, which may be rounded or infinite. -/
def round (told : Region → Number) (bytes : Bytes) (state : Nat × List Region) :
    Round (Nat × List Region) (List Region) :=
  match (seeker state.1).hit? bytes with
  | none => .leave state.2
  | some header =>
      let region := Region.behind bytes header
      if (told region).reaches bytes.length then .leave (state.2 ++ [region])
      else .again ((told region).positiveInteger?.getD 0, state.2 ++ [region])

/-- The places of literal data, as far as it goes by the numbers that tell where it ends. -/
def covered (told : Region → Number) (regions : List Region) (place : Nat) : Bool :=
  regions.any fun region => region.start ≤ place && (told region).reaches (place + 1)

theorem covered_exact (regions : List Region) :
    covered Region.exactStop regions = inside regions := by
  funext place
  rw [covered, inside]
  congr 1
  funext region
  have reached : region.exactStop.reaches (place + 1) = decide (place < region.stop) := by
    rw [Region.exactStop, Number.reaches, decide_eq_decide, Nat.cast_le]
    exact Nat.succ_le_iff
  rw [reached, Region.contains]

theorem covered_start (told : Region → Number) (bytes : Bytes) :
    covered told (regions bytes) 0 = false := by
  rw [covered, List.any_eq_false]
  intro region member
  have behind := ((regions_at_ordered 0 bytes).2 region member).1
  have ahead : decide (region.start ≤ 0) = false := decide_eq_false (by omega)
  rw [ahead, Bool.false_and]
  exact Bool.false_ne_true

/-- Numbers that tell rightly whether a region ends within some first bytes, and where. -/
structure Tells (told : Region → Number) (limit : Nat) : Prop where
  reached : ∀ region : Region, region.start ≤ region.stop →
    (told region).reaches limit = decide (limit ≤ region.stop)
  exact : ∀ region : Region, region.start ≤ region.stop → region.stop < limit →
    told region = .finite region.stop

theorem tells_exact (limit : Nat) : Tells Region.exactStop limit where
  reached := by
    intro region _
    rw [Region.exactStop, Number.reaches, decide_eq_decide, Nat.cast_le]
  exact := fun region _ _ => rfl

/-- Rounding changes nothing for data that is no longer than double precision counts exactly. -/
theorem tells_rounded {limit : Nat} (near : limit ≤ Number.exactLimit) :
    Tells Region.roundedStop limit where
  reached := by
    intro region ordered
    rw [Region.roundedStop, Number.plus_reaches _ _ near, Nat.add_sub_cancel' ordered]
  exact := by
    intro region ordered short
    have small : region.start + (region.stop - region.start) < Number.exactLimit := by omega
    rw [Region.roundedStop, Number.plus_exact small, Nat.add_sub_cancel' ordered]

theorem positiveInteger?_natCast {value : Nat} (positive : 0 < value) :
    (Number.finite value).positiveInteger? = some value := by
  have above : (0 : Int) < (value : Rat).num := by
    rw [Rat.num_natCast]
    exact_mod_cast positive
  have whole : (decide ((value : Rat).den = 1) && decide (0 < (value : Rat).num)) = true := by
    rw [Rat.den_natCast, decide_eq_true above]
    rfl
  rw [Number.positiveInteger?, if_pos whole, Rat.num_natCast, Int.toNat_natCast]

theorem seeker_behind {bytes : Bytes} {place : Nat} {header : Hit}
    (found : (seeker place).hit? bytes = some header) :
    place < (Region.behind bytes header).stop ∧
      (Region.behind bytes header).start ≤ (Region.behind bytes header).stop := by
  obtain ⟨further, -, ⟨_, begins, same⟩, -⟩ := header?_of_seeker found
  have positive := (length_header_pos begins).1
  dsimp only [Region.behind]
  omega

theorem executed_none {bytes : Bytes} {place : Nat} (nothing : (seeker place).hit? bytes = none) :
    executed bytes place = [] := by
  rw [executed.eq_def]
  split
  · rfl
  · next header found =>
      rw [nothing] at found
      cases found

theorem executed_some {bytes : Bytes} {place : Nat} {header : Hit}
    (found : (seeker place).hit? bytes = some header) :
    executed bytes place = Region.behind bytes header ::
      if bytes.length ≤ (Region.behind bytes header).stop then []
      else executed bytes (Region.behind bytes header).stop := by
  rw [executed.eq_def]
  split
  · next nothing =>
      rw [found] at nothing
      cases nothing
  · next header' found' =>
      rw [found] at found'
      cases found'
      simp only [dite_eq_ite]
      rfl

/-- The search for literals goes on behind each of them, and is left with all regions. -/
theorem variant_round {told : Region → Number} {bytes : Bytes} (tells : Tells told bytes.length) :
    Loop.Variant (round told bytes) Prod.fst bytes.length
      (fun state => state.1 ≤ bytes.length) (fun state => state.2 ++ executed bytes state.1) where
  bounded := id
  step := by
    rintro ⟨place, found⟩ within
    cases sought : (seeker place).hit? bytes with
    | none =>
        left
        simp only [round, sought, executed_none sought, List.append_nil]
    | some header =>
        obtain ⟨further, ordered⟩ := seeker_behind sought
        have reached := tells.reached (Region.behind bytes header) ordered
        by_cases reaches : bytes.length ≤ (Region.behind bytes header).stop
        · left
          rw [decide_eq_true reaches] at reached
          simp only [round, sought, executed_some sought, if_pos reached,
            if_pos reaches]
        · right
          rw [decide_eq_false reaches] at reached
          have short := tells.exact _ ordered (Nat.lt_of_not_le reaches)
          have moved : (told (Region.behind bytes header)).positiveInteger?.getD 0 =
              (Region.behind bytes header).stop := by
            rw [short, positiveInteger?_natCast (Nat.zero_lt_of_lt further)]
            rfl
          refine ⟨((Region.behind bytes header).stop, found ++ [Region.behind bytes header]),
            ?_, further, Nat.le_of_not_le reaches, ?_⟩
          · simp only [round, sought, reached, Bool.false_eq_true, if_false,
              moved]
          · simp only [executed_some sought, if_neg reaches, List.append_assoc,
              List.singleton_append]

/-- The search for literals is left with all regions, however their ends are told. -/
theorem leaves_round {told : Region → Number} {bytes : Bytes} (tells : Tells told bytes.length) :
    Loop.Leaves (round told bytes) Prod.fst bytes.length (0, []) (regions bytes) := by
  have leaves : Loop.Leaves (round told bytes) Prod.fst bytes.length (0, [])
      ([] ++ executed bytes 0) := (variant_round tells).leaves (Nat.zero_le _)
  rw [List.nil_append, executed_start] at leaves
  exact leaves

end Literal

/-! ## Patterns -/

namespace Search

open Pattern (Probe)

variable {probe : Probe} {barred : Nat → Bool} {bytes : Bytes}

/-- One round of a search for a text from a place on: the first hit from there, and the next place
behind its start if it starts where none may. A place behind the end of the data is taken for the
end, where the empty text is found again. -/
def textRound (wanted : String) (barred : Nat → Bool) (bytes : Bytes) (place : Nat) :
    Round Nat (Option Hit) :=
  match walk (Pattern.text wanted).probe (fun _ => false) ((Cursor.start bytes).advance place) with
  | none => .leave none
  | some hit => if barred hit.start then .again (hit.start + 1) else .leave (some hit)

/-- One round of a search for an expression: an execution of the copy that goes on from a place,
and the place that it leaves behind, one further for an empty hit. -/
def Held.round (held : Held) (barred : Nat → Bool) (bytes : Bytes) (resume : Nat) :
    Round Nat (Option Hit) :=
  match (held.copy resume).hit? bytes with
  | none => .leave none
  | some hit =>
      if barred hit.start then
        .again (((held.copy resume).behind (some hit)).resume + if hit.length = 0 then 1 else 0)
      else .leave (some hit)

def round : Pattern → (Nat → Bool) → Bytes → Nat → Round Nat (Option Hit)
  | .text wanted => textRound wanted
  | .expression source flags => Held.round ⟨source, flags, 0⟩

theorem locate_at_walk {cursor : Cursor} {hit : Hit}
    (found : walk probe (fun _ => false) cursor = some hit) (barred : Nat → Bool) :
    ∃ step ≤ cursor.rest.length, hit.start = cursor.offset + step ∧
      probe.lengthAt (cursor.advance step) = some hit.length ∧
      locate probe barred cursor = locate probe barred (cursor.advance step) := by
  obtain ⟨-, step, within, same, matched⟩ := ahead_of_walk found
  refine ⟨step, within, same, matched, locate_advance within ?_⟩
  intro earlier before
  rw [Option.eq_none_iff_forall_ne_some]
  intro length matched'
  have ahead : Ahead probe cursor ⟨cursor.offset + earlier, length⟩ :=
    ⟨earlier, by omega, rfl, matched'⟩
  obtain ⟨first, found', upTo⟩ := @walk_reaches (fun _ => false) _ _ _ rfl ahead
  rw [found] at found'
  cases found'
  dsimp only at upTo
  omega

theorem locate_of_walk_none {cursor : Cursor}
    (nothing : walk probe (fun _ => false) cursor = none) (barred : Nat → Bool) :
    locate probe barred cursor = none := by
  apply locate_unmatched
  intro step within
  exact passed_of_leftmost_none (Option.map_eq_none_iff.mp nothing) within rfl

theorem locate_at_hit_free {cursor : Cursor} {length : Nat}
    (matched : probe.lengthAt cursor = some length) (free : barred cursor.offset = false) :
    locate probe barred cursor = some ⟨cursor.offset, length⟩ := by
  rw [locate.eq_def, matched]
  simp only [free, Bool.false_eq_true, if_false]

theorem locate_at_hit_barred {cursor : Cursor} {length : Nat}
    (matched : probe.lengthAt cursor = some length) (isBarred : barred cursor.offset = true)
    (more : cursor.rest ≠ []) :
    locate probe barred cursor =
      locate probe barred (cursor.advance (max (probe.stride length) 1)) := by
  rw [locate.eq_def, matched]
  simp only [isBarred, if_true, dif_neg more]

theorem lengthAt_empty (cursor : Cursor) : (Pattern.text "").probe.lengthAt cursor = some 0 := by
  simp [Pattern.probe, Probe.lengthAt, Pattern.begins]

/-- Any other text is found only where some data is left. -/
theorem more_of_lengthAt {wanted : String} (filled : wanted ≠ "") {cursor : Cursor} {length : Nat}
    (matched : (Pattern.text wanted).probe.lengthAt cursor = some length) : cursor.rest ≠ [] := by
  intro past
  have narrow := Pattern.narrow_of_lengthAt matched
  rw [past, List.take_nil] at narrow
  exact filled narrow.symm

/-- A search for a text that is not empty goes on behind the start of each hit. -/
theorem variant_textRound {wanted : String} (filled : wanted ≠ "") :
    Loop.Variant (textRound wanted barred bytes) id (bytes.length + 1)
      (fun place => place ≤ bytes.length)
      (fun place => locate (Pattern.text wanted).probe barred ((Cursor.start bytes).advance place))
    where
  bounded := Nat.le_succ_of_le
  step := by
    intro place within
    let cursor := (Cursor.start bytes).advance place
    have offset : cursor.offset = place := congrArg Cursor.offset (Cursor.start_advance within)
    have left : cursor.rest.length = bytes.length - place := Cursor.length_rest_advance _ _
    cases found : walk (Pattern.text wanted).probe (fun _ => false) cursor with
    | none =>
        left
        rw [locate_of_walk_none found]
        simp only [textRound]
        rw [found]
    | some hit =>
        obtain ⟨step, inside, start, matched, skipped⟩ := locate_at_walk found barred
        have spot : (cursor.advance step).offset = hit.start := by
          rw [Cursor.offset_advance_of_le inside, start]
        cases isBarred : barred hit.start with
        | false =>
            left
            rw [skipped, locate_at_hit_free matched (by rw [spot]; exact isBarred), spot]
            simp only [textRound]
            rw [found]
            simp only [isBarred, Bool.false_eq_true, if_false]
        | true =>
            right
            have more := more_of_lengthAt filled matched
            have behind := List.length_pos_iff.mpr more
            rw [Cursor.length_rest_advance] at behind
            refine ⟨hit.start + 1, ?_, ?_, ?_, ?_⟩
            · simp only [textRound]
              rw [found]
              simp only [isBarred, if_true]
            · show place < hit.start + 1
              omega
            · omega
            · rw [skipped, locate_at_hit_barred matched (by rw [spot]; exact isBarred) more]
              have next : hit.start + 1 = place + (step + 1) := by omega
              rw [next, ← Cursor.advance_advance, ← Cursor.advance_advance]
              rfl

/-- The empty text is found wherever a search goes on, behind the end of the data too. -/
theorem textRound_empty (barred : Nat → Bool) (bytes : Bytes) (place : Nat) :
    textRound "" barred bytes place =
      if barred (min place bytes.length) then .again (min place bytes.length + 1)
      else .leave (some ⟨min place bytes.length, 0⟩) := by
  have offset : ((Cursor.start bytes).advance place).offset = min place bytes.length := by
    rw [Cursor.offset_advance]
    exact Nat.zero_add _
  have here := @walk_at_hit (fun _ => false) _ _ _ rfl
    (lengthAt_empty ((Cursor.start bytes).advance place))
  rw [textRound, here, offset]

/-- Only a search for the empty text would not go on behind the end of the data. But it is left in
its first round if a match may start at the start. -/
theorem run_textRound_empty (free : barred 0 = false) :
    Loop.Run (textRound "" barred bytes) 0 [0] (some ⟨0, 0⟩) := by
  apply Loop.Run.leave
  rw [textRound_empty, Nat.zero_min, free]
  rfl

/-- Were no hit free, then a search for the empty text would never be left. -/
theorem textRound_endless (everywhere : ∀ place ≤ bytes.length, barred place = true)
    (place : Nat) (places : List Nat) (hit : Option Hit) :
    ¬Loop.Run (textRound "" barred bytes) place places hit := by
  apply @Loop.endless _ _ _ _ (fun _ => True) _ trivial
  intro place _
  have isBarred := everywhere _ (Nat.min_le_right place bytes.length)
  refine ⟨min place bytes.length + 1, ?_, trivial⟩
  simp only [textRound_empty, isBarred, if_true]

/-- A search for an expression goes on behind each hit, and one place further behind an empty
one. -/
theorem Held.variant_round (held : Held) (barred : Nat → Bool) (bytes : Bytes) :
    Loop.Variant (held.round barred bytes) id (bytes.length + 1)
      (fun resume => resume ≤ bytes.length + 1) (held.seek barred bytes) where
  bounded := by
    intro resume kept
    exact kept
  step := by
    intro resume _
    rw [seek.eq_def]
    cases found : (held.copy resume).hit? bytes with
    | none =>
        left
        simp only [round, found]
    | some hit =>
        obtain ⟨further, upTo, matched, -⟩ := held.hit?_copy_found found
        have fits := Probe.lengthAt_le matched
        have left : ((Cursor.start bytes).advance hit.start).rest.length =
            bytes.length - hit.start := Cursor.length_rest_advance _ _
        cases isBarred : barred hit.start with
        | false =>
            left
            simp only [round, found, isBarred]
            rfl
        | true =>
            right
            refine ⟨hit.start + hit.length + if hit.length = 0 then 1 else 0, ?_, ?_, ?_, ?_⟩
            · simp only [round, found, isBarred, if_true]
              rfl
            · show resume < hit.start + hit.length + if hit.length = 0 then 1 else 0
              split <;> omega
            · split <;> omega
            · simp only [isBarred, if_true]
              rfl

theorem leaves_round (pattern : Pattern) (free : barred 0 = false) :
    Loop.Leaves (round pattern barred bytes) id (bytes.length + 1) 0
      (locate pattern.probe barred (.start bytes)) := by
  cases pattern with
  | text wanted =>
      by_cases filled : wanted = ""
      · subst filled
        have found : locate (Pattern.text "").probe barred (.start bytes) = some ⟨0, 0⟩ :=
          locate_at_hit_free (lengthAt_empty _) free
        rw [found]
        exact ⟨[0], run_textRound_empty free, Loop.rising_single (Nat.zero_le _)⟩
      · exact (variant_textRound filled).leaves (Nat.zero_le _)
  | expression source flags =>
      let held : Held := ⟨source, flags, 0⟩
      have leaves : Loop.Leaves (held.round barred bytes) id (bytes.length + 1) 0
          (held.search barred bytes) := (held.variant_round barred bytes).leaves (Nat.zero_le _)
      rw [held.search_eq_locate] at leaves
      exact leaves

end Search

/-! ## All loops of a search -/

namespace Intake

/-- The loops of a search end on any data, with what the search for regions and the one for a
pattern find; each goes on at ever greater places. The regions' ends may be told exactly, or in
double precision as long as that counts the bytes of the data, infinite ends included. However they
are told, the start is in no region, and so the empty text is found there at once. It would be
looked for without end if no place was free. -/
theorem searches_end (intake : Intake) :
    let bytes := intake.unread
    let regions := if intake.guarded then Literal.regions bytes else []
    intake.barred = Literal.covered Literal.Region.exactStop regions ∧
    Loop.Leaves (Literal.round Literal.Region.exactStop bytes) Prod.fst bytes.length
      (0, []) (Literal.regions bytes) ∧
    (bytes.length ≤ Number.exactLimit →
      Loop.Leaves (Literal.round Literal.Region.roundedStop bytes) Prod.fst bytes.length
        (0, []) (Literal.regions bytes)) ∧
    (∀ told : Literal.Region → Number,
      let barred := Literal.covered told regions
      barred 0 = false ∧
      (∀ pattern : Pattern,
        Loop.Leaves (Search.round pattern barred bytes) id (bytes.length + 1) 0
          (Search.locate pattern.probe barred (.start bytes))) ∧
      Loop.Run (Search.round (.text "") barred bytes) 0 [0] (some ⟨0, 0⟩)) ∧
    ∀ barred : Nat → Bool, (∀ place ≤ bytes.length, barred place = true) →
      ∀ places hit, ¬Loop.Run (Search.round (.text "") barred bytes) 0 places hit := by
  intro bytes regions
  have free (told : Literal.Region → Number) : Literal.covered told regions 0 = false := by
    dsimp only [regions]
    split
    · exact Literal.covered_start told bytes
    · rfl
  constructor
  · rw [Literal.covered_exact, barred]
    dsimp only [regions]
    split <;> rfl
  constructor
  · exact Literal.leaves_round (Literal.tells_exact bytes.length)
  constructor
  · intro near
    exact Literal.leaves_round (Literal.tells_rounded near)
  constructor
  · intro told barred
    constructor
    · exact free told
    constructor
    · intro pattern
      exact Search.leaves_round pattern (free told)
    · exact Search.run_textRound_empty (free told)
  · intro barred everywhere
    exact Search.textRound_endless everywhere 0

/-- The end of the data lies in a literal that has not arrived whole. An expression that matches
only there is not found, and a search for it is left all the same. -/
theorem search_for_end_passes_open_literal :
    let intake : Intake := { empty true with unread := Bytes.ofNarrow "\x7b9\x7d\r\nab" }
    let bytes := intake.unread
    let pattern : Pattern := .expression "$" ⟨false, false, false, false, false⟩
    bytes.length ≤ Number.exactLimit ∧
      Loop.Leaves (Literal.round Literal.Region.roundedStop bytes) Prod.fst bytes.length
        (0, []) [⟨5, 14⟩] ∧
      Loop.Leaves (Search.round pattern intake.barred bytes) id (bytes.length + 1) 0
        none := by
  intro intake bytes pattern
  have near : bytes.length ≤ Number.exactLimit := by decide +kernel
  have regions : Literal.regions bytes = [⟨5, 14⟩] := by decide +kernel
  have missed : Search.locate pattern.probe intake.barred (.start bytes) = none := by
    decide +kernel
  obtain ⟨isBarred, -, rounded, patterns, -⟩ := searches_end intake
  have leaves := (patterns Literal.Region.exactStop).2.1 pattern
  rw [← isBarred, missed] at leaves
  rw [← regions]
  exact ⟨near, rounded near, leaves⟩

end Intake

end ImapDialogue

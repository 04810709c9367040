import ImapDialogue.Proofs.Literal.Expression
import ImapDialogue.Proofs.Number.Rounding

/-!
Literal data as a scanner finds it that takes one byte after the other and remembers nothing but
its stage. It need never go back: what fits into a header behind the brace is no brace, so where a
header breaks off no other one has begun.
-/

namespace ImapDialogue.Literal

/-! ## The scanner -/

/-- How far a header has been read, and how much of the data behind one is still to be skipped. -/
inductive Stage where
  | seeking
  | opened
  | counting (size : Nat)
  | signed (size : Nat)
  | closed (size : Nat)
  | ending (size : Nat)
  | skipping (left : Nat)
deriving DecidableEq, Repr

namespace Stage

def behind (size : Nat) : Stage := if size = 0 then .seeking else .skipping size

def afresh (byte : UInt8) : Stage := if byte == 0x7B then .opened else .seeking

def onward : Stage → UInt8 → Option Stage
  | .opened, byte => if Byte.isDigit byte then some (.counting (Byte.digit byte)) else none
  | .counting size, byte =>
      if Byte.isDigit byte then some (.counting (size * 10 + Byte.digit byte))
      else if byte == 0x2B then some (.signed size)
      else if byte == 0x7D then some (.closed size)
      else none
  | .signed size, byte => if byte == 0x7D then some (.closed size) else none
  | .closed size, byte => if byte == 0x0D then some (.ending size) else none
  | .seeking, _ | .ending _, _ | .skipping _, _ => none

/-- The next stage, and the region of the data that begins behind the byte, if some does. -/
def step (place : Nat) : Stage → UInt8 → Stage × Option Region
  | .skipping left, _ => (behind (left - 1), none)
  | .ending size, byte =>
      if byte == 0x0A then (behind size, some ⟨place + 1, place + 1 + size⟩)
      else (afresh byte, none)
  | stage, byte => ((stage.onward byte).getD (afresh byte), none)

end Stage

open Stage

def scan : Nat → Stage → Bytes → List Region
  | _, _, [] => []
  | place, stage, byte :: rest =>
      let (next, region?) := stage.step place byte
      region?.toList ++ scan (place + 1) next rest

/-! ## Headers to the scanner -/

/-- How many bytes a header still takes, and the size that it announces. -/
def completion? : Stage → Bytes → Option (Nat × Nat)
  | _, [] => none
  | .ending size, byte :: _ => if byte == 0x0A then some (1, size) else none
  | stage, byte :: rest => (stage.onward byte).bind fun next =>
      (completion? next rest).map fun (length, size) => (length + 1, size)

theorem scan_behind (place size : Nat) (bytes : Bytes) :
    scan place (behind size) bytes = scan (place + size) .seeking (bytes.drop size) := by
  induction size generalizing place bytes with
  | zero => rfl
  | succ size induction =>
      cases bytes with
      | nil => rfl
      | cons byte rest =>
          have next : place + (size + 1) = place + 1 + size := by omega
          rw [List.drop_succ_cons, next, ← induction (place + 1) rest]
          rfl

def Stage.within : Stage → Bool
  | .seeking | .skipping _ => false
  | _ => true

theorem onward_within {stage next : Stage} {byte : UInt8} (fits : stage.onward byte = some next) :
    stage.within = true ∧ next.within = true ∧ byte ≠ 0x7B := by
  have digit : Byte.isDigit byte = true → byte ≠ 0x7B := by
    rintro numeric rfl
    exact absurd numeric (by decide)
  cases stage with
  | seeking => cases fits
  | opened =>
      simp only [onward, Option.ite_none_right_eq_some, Option.some.injEq] at fits
      obtain ⟨numeric, rfl⟩ := fits
      exact ⟨rfl, rfl, digit numeric⟩
  | counting size =>
      simp only [onward] at fits
      split at fits
      · next numeric =>
          cases fits
          exact ⟨rfl, rfl, digit numeric⟩
      · simp only [beq_iff_eq] at fits
        split at fits
        · next plus =>
            cases fits
            exact ⟨rfl, rfl, by rw [plus]; decide⟩
        · simp only [Option.ite_none_right_eq_some, Option.some.injEq] at fits
          obtain ⟨rfl, rfl⟩ := fits
          exact ⟨rfl, rfl, by decide⟩
  | signed size =>
      simp only [onward, beq_iff_eq, Option.ite_none_right_eq_some, Option.some.injEq] at fits
      obtain ⟨rfl, rfl⟩ := fits
      exact ⟨rfl, rfl, by decide⟩
  | closed size =>
      simp only [onward, beq_iff_eq, Option.ite_none_right_eq_some, Option.some.injEq] at fits
      obtain ⟨rfl, rfl⟩ := fits
      exact ⟨rfl, rfl, by decide⟩
  | ending size => cases fits
  | skipping left => cases fits

/-- Short of its last byte a header is read on or given up, and nothing is announced. -/
theorem step_within {stage : Stage} (within : stage.within = true)
    (unended : ∀ size, stage ≠ .ending size) (place : Nat) (byte : UInt8) (rest : Bytes) :
    stage.step place byte = ((stage.onward byte).getD (afresh byte), none) ∧
      completion? stage (byte :: rest) = (stage.onward byte).bind fun next =>
        (completion? next rest).map fun (length, size) => (length + 1, size) := by
  cases stage with
  | seeking => cases within
  | ending size => exact absurd rfl (unended size)
  | skipping left => cases within
  | opened | counting | signed | closed => exact ⟨rfl, rfl⟩

/-- A header that has been begun is completed, and its data skipped, or it is as if nothing had been
begun. -/
theorem scan_within {stage : Stage} (within : stage.within = true) (place : Nat) (bytes : Bytes) :
    scan place stage bytes =
      match completion? stage bytes with
      | none => scan place .seeking bytes
      | some (length, size) =>
          ⟨place + length, place + length + size⟩ ::
            scan (place + length + size) .seeking (bytes.drop (length + size)) := by
  induction bytes generalizing stage place with
  | nil => rfl
  | cons byte rest induction =>
      have fresh : scan place .seeking (byte :: rest) = scan (place + 1) (afresh byte) rest := rfl
      -- Data is announced by the last byte of a header only.
      by_cases ended : ∃ size, stage = .ending size
      · obtain ⟨size, rfl⟩ := ended
        by_cases last : byte = 0x0A
        · have found : scan place (.ending size) (byte :: rest) =
              ⟨place + 1, place + 1 + size⟩ :: scan (place + 1) (behind size) rest := by
            simp only [scan, step, last, beq_self_eq_true, if_true]
            rfl
          have complete : completion? (.ending size) (byte :: rest) = some (1, size) := by
            simp only [completion?, last, beq_self_eq_true, if_true]
          have further : 1 + size = size + 1 := Nat.add_comm 1 size
          rw [found, complete, scan_behind]
          simp only [further, List.drop_succ_cons]
        · have broken : (byte == 0x0A) = false := beq_eq_false_iff_ne.mpr last
          simp only [scan, step, completion?, broken, Bool.false_eq_true, if_false]
          rfl
      · obtain ⟨stepped, completed⟩ := step_within within
          (fun size same => ended ⟨size, same⟩) place byte rest
        have scanned : scan place stage (byte :: rest) =
            scan (place + 1) ((stage.onward byte).getD (afresh byte)) rest := by
          rw [scan, stepped]
          rfl
        rw [scanned, completed, fresh]
        cases fits : stage.onward byte with
        | none => rfl
        | some next =>
            obtain ⟨_, inner, other⟩ := onward_within fits
            -- If the header breaks off later, it does not matter that this byte was taken for a part of
            -- it: no header could have been opened here.
            have closed : afresh byte = .seeking := if_neg (by simpa using other)
            rw [closed, Option.getD_some, Option.bind_some, induction inner (place + 1)]
            cases completion? next rest with
            | none => rfl
            | some found =>
                obtain ⟨length, size⟩ := found
                have further : place + 1 + length = place + (length + 1) := by omega
                have behind : length + 1 + size = length + size + 1 := by omega
                simp only [Option.map_some, further, behind, List.drop_succ_cons]

theorem completion_ending (size : Nat) (bytes : Bytes) :
    completion? (.ending size) bytes = if [0x0A] <+: bytes then some (1, size) else none := by
  cases bytes with
  | nil => rfl
  | cons byte rest =>
      by_cases fits : byte = 0x0A
      · subst fits
        simp [completion?]
      · have other : ¬0x0A = byte := Ne.symm fits
        have broken : (byte == 0x0A) = false := beq_eq_false_iff_ne.mpr fits
        simp only [completion?, broken, List.cons_prefix_cons, other, false_and, if_false,
          Bool.false_eq_true]

theorem completion_closed (size : Nat) (bytes : Bytes) :
    completion? (.closed size) bytes = if [0x0D, 0x0A] <+: bytes then some (2, size) else none := by
  cases bytes with
  | nil => rfl
  | cons byte rest =>
      by_cases fits : byte = 0x0D
      · subst fits
        have onward : onward (.closed size) 0x0D = some (.ending size) := rfl
        simp only [completion?, onward, Option.bind_some, completion_ending, List.cons_prefix_cons,
          true_and]
        split <;> rfl
      · have onward : onward (.closed size) byte = none := if_neg (by simpa using fits)
        have other : ¬0x0D = byte := Ne.symm fits
        simp only [completion?, onward, Option.bind_none, List.cons_prefix_cons, other, false_and,
          if_false]

theorem completion_signed (size : Nat) (bytes : Bytes) :
    completion? (.signed size) bytes =
      if closing false <+: bytes then some (3, size) else none := by
  cases bytes with
  | nil => rfl
  | cons byte rest =>
      by_cases fits : byte = 0x7D
      · subst fits
        have onward : onward (.signed size) 0x7D = some (.closed size) := rfl
        simp only [completion?, onward, Option.bind_some, completion_closed, closing,
          List.cons_prefix_cons, true_and, Bool.false_eq_true, if_false]
        split <;> rfl
      · have onward : onward (.signed size) byte = none := if_neg (by simpa using fits)
        have other : ¬0x7D = byte := Ne.symm fits
        simp only [completion?, onward, Option.bind_none, closing, List.cons_prefix_cons, other,
          false_and, Bool.false_eq_true, if_false]

theorem completion_closing {byte : UInt8} (other : Byte.isDigit byte = false) (size : Nat)
    (rest : Bytes) :
    completion? (.counting size) (byte :: rest) =
      (closing? (byte :: rest)).map fun length => (length, size) := by
  rw [closing?_eq]
  by_cases plus : byte = 0x2B
  · subst plus
    have onward : onward (.counting size) 0x2B = some (.signed size) := rfl
    have bare : ¬closing false <+: 0x2B :: rest := by simp [closing]
    have signed : closing true <+: 0x2B :: rest ↔ closing false <+: rest := by simp [closing]
    simp only [completion?, onward, Option.bind_some, completion_signed, bare, signed, if_false]
    split <;> rfl
  · have unsigned : ¬closing true <+: byte :: rest := by simp [closing, Ne.symm plus]
    by_cases shut : byte = 0x7D
    · subst shut
      have onward : onward (.counting size) 0x7D = some (.closed size) := rfl
      have closed : closing false <+: 0x7D :: rest ↔ [0x0D, 0x0A] <+: rest := by simp [closing]
      simp only [completion?, onward, Option.bind_some, completion_closed, unsigned, closed,
        if_false]
      split <;> rfl
    · have onward : onward (.counting size) byte = none := by
        simp [Stage.onward, other, plus, shut]
      have unclosed : ¬closing false <+: byte :: rest := by simp [closing, Ne.symm shut]
      simp only [completion?, onward, Option.bind_none, unsigned, unclosed, if_false,
        Option.map_none]

theorem completion_counting (size : Nat) (bytes : Bytes) :
    completion? (.counting size) bytes =
      (closing? (bytes.dropWhile Byte.isDigit)).map fun length =>
        ((bytes.takeWhile Byte.isDigit).length + length,
          (bytes.takeWhile Byte.isDigit).foldl (fun value byte => value * 10 + Byte.digit byte)
            size) := by
  induction bytes generalizing size with
  | nil => rfl
  | cons byte rest induction =>
      cases digit : Byte.isDigit byte with
      | true =>
          have onward : onward (.counting size) byte =
              some (.counting (size * 10 + Byte.digit byte)) := if_pos digit
          have further : ∀ count length : Nat, count + 1 + length = count + length + 1 := by
            intros
            omega
          simp only [completion?, onward, Option.bind_some, induction, Option.map_map,
            List.dropWhile_cons_of_pos digit, List.takeWhile_cons_of_pos digit, List.length_cons,
            List.foldl_cons, further, Function.comp_def]
      | false =>
          have ends : ¬Byte.isDigit byte = true := by rw [digit]; exact Bool.false_ne_true
          rw [completion_closing digit, List.dropWhile_cons_of_neg ends,
            List.takeWhile_cons_of_neg ends]
          simp only [List.length_nil, Nat.zero_add, List.foldl_nil]

/-- Behind a brace the scanner completes a header exactly where there is one. -/
theorem completion_opened (bytes : Bytes) :
    (completion? .opened bytes).map (fun (length, size) => (1 + length, size)) =
      (header? (0x7B :: bytes)).map fun header => (header.length, header.size) := by
  cases bytes with
  | nil => rfl
  | cons byte rest =>
      cases digit : Byte.isDigit byte with
      | true =>
          have onward : onward .opened byte = some (.counting (Byte.digit byte)) := if_pos digit
          simp only [header?, completion?, onward, Option.bind_some, completion_counting,
            List.dropWhile_cons_of_pos digit, List.takeWhile_cons_of_pos digit, Option.map_map,
            List.isEmpty_cons, Bool.false_eq_true, if_false]
          congr 1
          funext length
          simp only [Function.comp_apply, Header.size, Bytes.decimal, List.length_cons,
            List.foldl_cons, Nat.zero_mul, Nat.zero_add, Prod.mk.injEq, and_true]
          omega
      | false =>
          have onward : onward .opened byte = none := if_neg (by rw [digit]; exact Bool.false_ne_true)
          have ends : ¬Byte.isDigit byte = true := by rw [digit]; exact Bool.false_ne_true
          simp [header?, completion?, onward, digit]

theorem scan_eq (place : Nat) (bytes : Bytes) : scan place .seeking bytes = regionsAt place bytes := by
  -- A literal takes several bytes at once, so the induction is on how many are left.
  induction count : bytes.length using Nat.strong_induction_on generalizing bytes place with
  | _ count' induction =>
      subst count
      cases bytes with
      | nil => rfl
      | cons byte rest =>
          by_cases brace : byte = 0x7B
          · subst brace
            have opened : scan place .seeking (0x7B :: rest) = scan (place + 1) .opened rest := rfl
            have completed := completion_opened rest
            rw [opened, scan_within rfl]
            cases found : header? (0x7B :: rest) with
            | none =>
                rw [found, Option.map_none, Option.map_eq_none_iff] at completed
                rw [completed, regions_at_cons_of_none place found]
                exact induction rest.length (Nat.lt_succ_self _) _ _ rfl
            | some header =>
                rw [found, Option.map_some, Option.map_eq_some_iff] at completed
                obtain ⟨⟨length, size⟩, complete, same⟩ := completed
                obtain ⟨whole, announced⟩ := Prod.mk.inj same
                have start : place + 1 + length = place + header.length := by omega
                have behind : (0x7B :: rest).drop (header.length + header.size) =
                    rest.drop (length + size) := by
                  have further : header.length + header.size = length + size + 1 := by omega
                  rw [further, List.drop_succ_cons]
                rw [complete, regions_at_of_header place found, behind]
                simp only [start, announced, List.cons.injEq, true_and]
                apply induction _ _ _ _ rfl
                simp only [List.length_drop, List.length_cons]
                omega
          · have closed : afresh byte = .seeking := if_neg (by simpa using brace)
            have skipped : scan place .seeking (byte :: rest) =
                scan (place + 1) (afresh byte) rest := rfl
            rw [skipped, closed, regions_at_cons_of_none place (header?_of_not_brace brace rest)]
            exact induction rest.length (Nat.lt_succ_self _) _ _ rfl

/-! ## The order of the regions -/

/-- Every region begins behind the place where the search does and within the data, and ends in front
of the next one's header. -/
theorem regions_at_ordered (place : Nat) (bytes : Bytes) :
    (regionsAt place bytes).Pairwise (fun earlier later => earlier.stop < later.start) ∧
      ∀ region ∈ regionsAt place bytes,
        place < region.start ∧ region.start ≤ region.stop ∧ region.start ≤ place + bytes.length := by
  induction count : bytes.length using Nat.strong_induction_on generalizing bytes place with
  | _ count' induction =>
      subst count
      cases bytes with
      | nil => simp [regions_at_nil]
      | cons byte rest =>
          cases found : header? (byte :: rest) with
          | none =>
              obtain ⟨ordered, bounded⟩ :=
                induction rest.length (Nat.lt_succ_self _) (place + 1) rest rfl
              rw [regions_at_cons_of_none place found]
              refine ⟨ordered, fun region member => ?_⟩
              have bounds := bounded region member
              rw [List.length_cons]
              omega
          | some header =>
              obtain ⟨positive, fits⟩ := length_header_pos found
              obtain ⟨ordered, bounded⟩ := induction _
                (by simp only [List.length_drop, List.length_cons]; omega)
                (place + header.length + header.size)
                ((byte :: rest).drop (header.length + header.size)) rfl
              rw [regions_at_of_header place found]
              refine ⟨List.pairwise_cons.mpr ⟨fun region member => (bounded region member).1, ordered⟩,
                fun region member => ?_⟩
              rcases List.mem_cons.mp member with rfl | later
              · dsimp only
                omega
              · have bounds := bounded region later
                rw [List.length_drop] at bounds
                omega

/-- Only the last literal can reach the end of the data. -/
theorem stop_lt_length {bytes : Bytes} {region : Region}
    (earlier : region ∈ (regions bytes).dropLast) : region.stop < bytes.length := by
  obtain ⟨ordered, bounded⟩ := regions_at_ordered 0 bytes
  have filled : regions bytes ≠ [] := List.ne_nil_of_mem (List.mem_of_mem_dropLast earlier)
  have parts := List.dropLast_append_getLast filled
  have apart : region.stop < ((regions bytes).getLast filled).start := by
    change (regions bytes).Pairwise _ at ordered
    rw [← parts, List.pairwise_append] at ordered
    exact ordered.2.2 region earlier _ (List.mem_singleton_self _)
  have within := (bounded _ (List.getLast_mem filled)).2.2
  rw [Nat.zero_add] at within
  exact Nat.lt_of_lt_of_le apart within

/-- Where a region ends as double precision has it: the size is rounded, and then the sum. -/
def Region.roundedStop (region : Region) : Number :=
  .plus region.start (.ofNat (region.stop - region.start))

/-- The regions of literal data are what executions of the expression find and what the scanner
finds that takes byte after byte, for the places that data can have also in double precision. They
stand in order and apart, and none is at the start; a place within the data lies in one of them
whatever follows. -/
theorem regions_scanned (bytes : Bytes) :
    executed bytes 0 = regions bytes ∧
      regions bytes = scan 0 .seeking bytes ∧
      (∀ region ∈ regions bytes,
        (region.stop < Number.exactLimit → region.roundedStop = .finite region.stop) ∧
          ∀ place ≤ Number.exactLimit,
            region.roundedStop.reaches place = decide (place ≤ region.stop)) ∧
      (regions bytes).Pairwise (fun earlier later => earlier.stop < later.start) ∧
      (∀ region ∈ regions bytes, region.start ≤ region.stop ∧ region.contains 0 = false) ∧
      (∀ region ∈ (regions bytes).dropLast, region.stop < bytes.length) ∧
      ∀ more : Bytes, ∀ place < bytes.length,
        inside (regions bytes) place = inside (regions (bytes ++ more)) place := by
  obtain ⟨ordered, bounded⟩ := regions_at_ordered 0 bytes
  refine ⟨executed_start bytes, (scan_eq 0 bytes).symm, ?rounded, ordered, ?placed,
    fun region earlier => stop_lt_length earlier,
    fun more place within => (inside_regions_append bytes more (Nat.le_of_lt within)).symm⟩
  case rounded =>
    intro region member
    have whole : region.start + (region.stop - region.start) = region.stop :=
      Nat.add_sub_cancel' (bounded region member).2.1
    constructor
    · intro small
      rw [Region.roundedStop, Number.plus_exact (whole.symm ▸ small), whole]
    · intro place near
      rw [Region.roundedStop, Number.plus_reaches _ _ near, whole]
  case placed =>
    intro region member
    have bounds := bounded region member
    refine ⟨bounds.2.1, ?_⟩
    simp only [Region.contains, Bool.and_eq_false_iff, decide_eq_false_iff_not]
    omega

end ImapDialogue.Literal

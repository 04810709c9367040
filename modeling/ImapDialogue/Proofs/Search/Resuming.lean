import ImapDialogue.Proofs.Search.Leftmost

/-!
Expressions as a program holds them. An execution of a global or sticky expression goes on from
the place that the execution before it left behind, so what it finds depends on what was done with
the expression earlier. A search executes a copy of its own instead, which is global and not
sticky and begins at the start of the data, until a match starts where one may. Then it makes no
difference whether the expression is global or sticky, nor what was done with it.
-/

namespace ImapDialogue

namespace Pattern

variable {α : Type}

def Flags.searching (flags : Flags) (isGlobal sticky : Bool) : Flags :=
  { flags with isGlobal := isGlobal, sticky := sticky }

theorem Regex.matcher_searching (regex : Regex) (flags : Flags) (isGlobal sticky : Bool) :
    (regex.matcher (flags.searching isGlobal sticky) : Matcher α) = regex.matcher flags := by
  induction regex with
  | empty | never | unit | dot => rfl
  | anchor condition => cases condition <;> rfl
  | seq first second first_same second_same =>
      funext cursor next
      simp only [Regex.matcher, first_same, second_same]
  | alt first second first_same second_same =>
      funext cursor next
      simp only [Regex.matcher, first_same, second_same]
  | iterate body least most greedy same =>
      funext cursor next
      simp only [Regex.matcher, same]

theorem lengthAt_searching (source : String) (flags : Flags) (isGlobal sticky : Bool)
    (cursor : Cursor) :
    (Pattern.expression source (flags.searching isGlobal sticky)).probe.lengthAt cursor =
      (Pattern.expression source flags).probe.lengthAt cursor := by
  simp only [probe, Probe.lengthAt, Regex.lengthAt, Regex.matcher_searching]

end Pattern

namespace Search

open Pattern (Probe Flags)

variable {barred : Nat → Bool} {bytes : Bytes}

/-! ## Searches that skip what matches nowhere -/

theorem locate_advance {probe : Probe} {cursor : Cursor} {count : Nat}
    (within : count ≤ cursor.rest.length)
    (unmatched : ∀ step < count, probe.lengthAt (cursor.advance step) = none) :
    locate probe barred cursor = locate probe barred (cursor.advance count) := by
  induction count generalizing cursor with
  | zero => rfl
  | succ count induction =>
      have more : cursor.rest ≠ [] := by
        intro empty
        simp [empty] at within
      have here : probe.lengthAt cursor = none := unmatched 0 (by omega)
      have step : locate probe barred cursor = locate probe barred (cursor.advance 1) := by
        rw [locate.eq_def, here]
        exact dif_neg more
      rw [step, induction]
      · rw [Cursor.advance_advance, Nat.add_comm]
      · rw [Cursor.length_rest_advance]
        omega
      · intro further inside
        rw [Cursor.advance_advance]
        exact unmatched (1 + further) (by omega)

theorem locate_unmatched {probe : Probe} {cursor : Cursor}
    (unmatched : ∀ step ≤ cursor.rest.length, probe.lengthAt (cursor.advance step) = none) :
    locate probe barred cursor = none := by
  rw [locate_advance (Nat.le_refl _) fun step before => unmatched step (Nat.le_of_lt before),
    locate.eq_def, unmatched _ (Nat.le_refl _)]
  apply dif_pos
  rw [Cursor.rest_advance, List.drop_length]

/-! ## Executions -/

/-- An expression and the place from which its next execution goes on, if it is global or
sticky. -/
structure Held where
  source : String
  flags : Flags
  resume : Nat
deriving DecidableEq, Repr

namespace Held

def pattern (held : Held) : Pattern := .expression held.source held.flags

def resumes (held : Held) : Bool := held.flags.isGlobal || held.flags.sticky

/-- The hit of an execution: the first one from the place where it begins on, or only one at this
place if the expression is sticky. -/
def hit? (held : Held) (bytes : Bytes) : Option Hit :=
  let place := if held.resumes then held.resume else 0
  let cursor := (Cursor.start bytes).advance place
  if bytes.length < place then none
  else if held.flags.sticky then (held.pattern.probe.lengthAt cursor).map (⟨place, ·⟩)
  else (leftmostAt (fun _ => false) (fun cursor => held.pattern.probe.lengthAt cursor) cursor).map
    fun found => ⟨found.1, found.2⟩

/-- The expression behind an execution with such a hit: one that goes on does so behind the hit,
or from the start of the data if there was none. -/
def behind (held : Held) (hit : Option Hit) : Held :=
  if held.resumes then
    { held with resume := (hit.map fun hit => hit.start + hit.length).getD 0 }
  else held

def copy (held : Held) (resume : Nat) : Held :=
  ⟨held.source, held.flags.searching true false, resume⟩

theorem hit?_copy (held : Held) {resume : Nat} (within : resume ≤ bytes.length) :
    (held.copy resume).hit? bytes =
      (leftmostAt (fun _ => false) (fun cursor => held.pattern.probe.lengthAt cursor)
        ((Cursor.start bytes).advance resume)).map fun found => ⟨found.1, found.2⟩ := by
  have same : (fun cursor => (held.copy resume).pattern.probe.lengthAt cursor) =
      fun cursor => held.pattern.probe.lengthAt cursor := by
    funext cursor
    exact Pattern.lengthAt_searching held.source held.flags true false cursor
  have resumes : (held.copy resume).resumes = true := rfl
  simp only [hit?, resumes, if_true, same]
  rw [if_neg (by exact Nat.not_lt.mpr within)]
  rfl

theorem hit?_copy_past (held : Held) {resume : Nat} (past : bytes.length < resume) :
    (held.copy resume).hit? bytes = none := by
  have resumes : (held.copy resume).resumes = true := rfl
  simp only [hit?, resumes, if_true]
  exact if_pos past

theorem hit?_copy_found (held : Held) {resume : Nat} {hit : Hit}
    (found : (held.copy resume).hit? bytes = some hit) :
    resume ≤ hit.start ∧ hit.start ≤ bytes.length ∧
      held.pattern.probe.lengthAt ((Cursor.start bytes).advance hit.start) = some hit.length ∧
      ∀ step < hit.start - resume, held.pattern.probe.lengthAt
        (((Cursor.start bytes).advance resume).advance step) = none := by
  have within : resume ≤ bytes.length := by
    by_contra past
    rw [held.hit?_copy_past (Nat.lt_of_not_le past)] at found
    cases found
  rw [held.hit?_copy within] at found
  obtain ⟨⟨place, length⟩, leads, same⟩ := Option.map_eq_some_iff.mp found
  cases same
  have offset : ((Cursor.start bytes).advance resume).offset = resume := by
    rw [Cursor.offset_advance_of_le within]
    exact Nat.zero_add resume
  have left : ((Cursor.start bytes).advance resume).rest.length = bytes.length - resume :=
    Cursor.length_rest_advance _ _
  obtain ⟨step, inside, same, _, matched⟩ := leftmost_found leads
  rw [offset] at same
  rw [left] at inside
  have same : place = resume + step := same
  subst same
  refine ⟨Nat.le_add_right _ _, by dsimp only; omega, ?_, ?_⟩
  · rw [← Cursor.advance_advance]
    exact matched
  · intro earlier before
    rw [Option.eq_none_iff_forall_ne_some]
    intro length' matched'
    dsimp only at before
    have reach : earlier ≤ ((Cursor.start bytes).advance resume).rest.length := by
      rw [left]
      omega
    have first := leftmost_least leads reach rfl matched'
    rw [offset] at first
    dsimp only at first
    omega

/-- Executes copies until a hit starts where one may. Behind a hit that starts where none may the
next copy goes on, one place further if the hit is empty. -/
def seek (held : Held) (barred : Nat → Bool) (bytes : Bytes) (resume : Nat) : Option Hit :=
  match _found : (held.copy resume).hit? bytes with
  | none => none
  | some hit =>
      if barred hit.start then
        held.seek barred bytes
          (((held.copy resume).behind (some hit)).resume + if hit.length = 0 then 1 else 0)
      else some hit
termination_by bytes.length + 1 - resume
decreasing_by
  have bounds := held.hit?_copy_found _found
  have behind : ((held.copy resume).behind (some hit)).resume = hit.start + hit.length := rfl
  rw [behind]
  split <;> omega

/-- A search for an expression: executions of a copy that begins at the start of the data. -/
def search (held : Held) (barred : Nat → Bool) (bytes : Bytes) : Option Hit :=
  held.seek barred bytes 0

theorem seek_past (held : Held) {resume : Nat} (past : bytes.length < resume) :
    held.seek barred bytes resume = none := by
  rw [seek.eq_def, held.hit?_copy_past past]

theorem locate_at_hit (held : Held) {resume : Nat} {hit : Hit}
    (found : (held.copy resume).hit? bytes = some hit) :
    locate held.pattern.probe barred ((Cursor.start bytes).advance resume) =
      locate held.pattern.probe barred ((Cursor.start bytes).advance hit.start) := by
  obtain ⟨further, within, _, unmatched⟩ := held.hit?_copy_found found
  have left : ((Cursor.start bytes).advance resume).rest.length = bytes.length - resume :=
    Cursor.length_rest_advance _ _
  rw [locate_advance (by omega) unmatched, Cursor.advance_advance]
  congr 2
  omega

/-- The executions of copies find what one search finds that goes from place to place. -/
theorem seek_eq_locate (held : Held) {resume : Nat} (within : resume ≤ bytes.length) :
    held.seek barred bytes resume =
      locate held.pattern.probe barred ((Cursor.start bytes).advance resume) := by
  fun_induction seek held barred bytes resume with
  | case1 resume nothing =>
      rw [held.hit?_copy within, Option.map_eq_none_iff] at nothing
      symm
      apply locate_unmatched
      intro step inside
      exact passed_of_leftmost_none nothing inside rfl
  | case2 resume hit found isBarred induction =>
      obtain ⟨_, upTo, matched, _⟩ := held.hit?_copy_found found
      have offset : ((Cursor.start bytes).advance hit.start).offset = hit.start := by
        rw [Cursor.offset_advance_of_le upTo]
        exact Nat.zero_add hit.start
      have left : ((Cursor.start bytes).advance hit.start).rest.length =
          bytes.length - hit.start := Cursor.length_rest_advance _ _
      have fits := Probe.lengthAt_le matched
      have behind : ((held.copy resume).behind (some hit)).resume = hit.start + hit.length := rfl
      rw [behind] at induction ⊢
      simp only [dite_eq_ite] at induction
      rw [held.locate_at_hit found, locate.eq_def, matched]
      dsimp only
      rw [offset, if_pos isBarred]
      by_cases past : ((Cursor.start bytes).advance hit.start).rest = []
      · -- Behind the last byte only an empty hit is left.
        rw [dif_pos past]
        rw [past, List.length_nil] at left fits
        apply held.seek_past
        split <;> omega
      · have more := List.length_pos_iff.mpr past
        have stride : max (held.pattern.probe.stride hit.length) 1 = max hit.length 1 := by
          simp [pattern, Pattern.probe, Probe.stride]
        rw [dif_neg past, stride, Cursor.advance_advance]
        have next : (hit.start + hit.length + if hit.length = 0 then 1 else 0) =
            hit.start + max hit.length 1 := by
          split <;> omega
        rw [next] at induction ⊢
        exact induction (by omega)
  | case3 resume hit found free =>
      obtain ⟨_, upTo, matched, _⟩ := held.hit?_copy_found found
      have offset : ((Cursor.start bytes).advance hit.start).offset = hit.start := by
        rw [Cursor.offset_advance_of_le upTo]
        exact Nat.zero_add hit.start
      rw [held.locate_at_hit found, locate.eq_def, matched]
      dsimp only
      rw [offset, if_neg free]

/-- A search for an expression finds the same whatever was done with it before, and whether it is
global or sticky. -/
theorem search_eq_locate (held : Held) (barred : Nat → Bool) (bytes : Bytes) :
    held.search barred bytes = locate held.pattern.probe barred (.start bytes) :=
  held.seek_eq_locate (Nat.zero_le _)

end Held

/-! ## Patterns that are searched for alike -/

theorem locate_congr {probe other : Probe}
    (lengths : ∀ cursor, other.lengthAt cursor = probe.lengthAt cursor)
    (strides : ∀ length, other.stride length = probe.stride length) (barred : Nat → Bool)
    (cursor : Cursor) : locate other barred cursor = locate probe barred cursor := by
  fun_induction locate probe barred cursor with
  | case1 cursor length matched isBarred past =>
      rw [locate.eq_def, lengths, matched]
      simp only [if_pos isBarred, dif_pos past]
  | case2 cursor length matched isBarred more induction =>
      rw [locate.eq_def, lengths, matched]
      simp only [if_pos isBarred, dif_neg more, strides]
      exact induction
  | case3 cursor length matched free =>
      rw [locate.eq_def, lengths, matched]
      simp only [if_neg free]
  | case4 cursor unmatched past =>
      rw [locate.eq_def, lengths, unmatched]
      exact dif_pos past
  | case5 cursor unmatched more induction =>
      rw [locate.eq_def, lengths, unmatched]
      simp only [dif_neg more]
      exact induction

/-- Two patterns that differ at most in whether they are global and whether they are sticky. -/
inductive Alike : Pattern → Pattern → Prop where
  | text (wanted : String) : Alike (.text wanted) (.text wanted)
  | expression (source : String) (flags : Flags) (isGlobal sticky : Bool) :
      Alike (.expression source flags) (.expression source (flags.searching isGlobal sticky))

theorem Alike.locate_eq {pattern other : Pattern} (alike : Alike pattern other)
    (barred : Nat → Bool) (cursor : Cursor) :
    locate other.probe barred cursor = locate pattern.probe barred cursor := by
  cases alike with
  | text wanted => rfl
  | expression source flags isGlobal sticky =>
      exact locate_congr (Pattern.lengthAt_searching source flags isGlobal sticky)
        (fun _ => rfl) barred cursor

theorem Held.search_eq_plain (held : Held) (barred : Nat → Bool) (bytes : Bytes) :
    held.search barred bytes =
      locate (Pattern.expression held.source (held.flags.searching false false)).probe barred
        (.start bytes) := by
  rw [held.search_eq_locate]
  exact ((Alike.expression held.source held.flags false false).locate_eq barred _).symm

theorem best_alike {patterns others : List Pattern} (alike : List.Forall₂ Alike patterns others)
    (barred : Nat → Bool) (bytes : Bytes) (index : Nat) :
    best barred bytes index others = best barred bytes index patterns := by
  induction alike generalizing index with
  | nil => rfl
  | cons one rest induction => rw [best, best, one.locate_eq, induction]

theorem first_alike {patterns others : List Pattern} (alike : List.Forall₂ Alike patterns others)
    (barred : Nat → Bool) (bytes : Bytes) :
    first barred others bytes = first barred patterns bytes := by
  rw [first, first, best_alike alike]

end Search

end ImapDialogue

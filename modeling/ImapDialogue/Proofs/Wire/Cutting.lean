import ImapDialogue.Channel.Basic
import ImapDialogue.Command.Argument
import ImapDialogue.Proofs.Wire.Utf8

/-!
Texts that hold no line end of the wire, a carriage return with a line feed behind it. Such a text
is sent as one line and every other text as several. Neither the quotes around an argument nor the
spaces between arguments make or take away a line end.
-/

namespace ImapDialogue

/-! ## Pairs in a row -/

namespace Pairs

variable {α β : Type}

theorem infix_append_of_not_mem {first second : α} {front : List α} (absent : first ∉ front)
    (rest : List α) : [first, second] <:+: front ++ rest ↔ [first, second] <:+: rest := by
  induction front with
  | nil => rfl
  | cons item front induction =>
      have other : first ≠ item := by
        rintro rfl
        exact absent List.mem_cons_self
      have inner := induction fun member => absent (List.mem_cons_of_mem _ member)
      rw [List.cons_append, List.infix_cons_iff, List.cons_prefix_cons, inner]
      exact or_iff_right fun same => other same.1

/-- Two items in a row stay so when every item is spelled out, and no others come to stand in a row
if the spellings of the others hold nothing like the first and begin with nothing like the second. -/
theorem infix_flatMap {spell : α → List β} {first second : α} {first' second' : β}
    (spells : spell first = [first']) (spells' : spell second = [second'])
    (others : ∀ item, item ≠ first → first' ∉ spell item)
    (begins : ∀ item, item ≠ second → ∃ head tail, spell item = head :: tail ∧ second' ≠ head)
    (items : List α) :
    [first', second'] <:+: items.flatMap spell ↔ [first, second] <:+: items := by
  have heads : ∀ items : List α, [second'] <+: items.flatMap spell ↔ [second] <+: items := by
    intro items
    cases items with
    | nil => simp
    | cons item items =>
        rw [List.flatMap_cons, List.cons_prefix_cons]
        by_cases same : second = item
        · subst same
          simp [spells']
        · obtain ⟨head, tail, spelled, other⟩ := begins item (Ne.symm same)
          rw [spelled, List.cons_append, List.cons_prefix_cons]
          exact iff_of_false (fun both => other both.1) (fun both => same both.1)
  induction items with
  | nil => simp
  | cons item items induction =>
      rw [List.flatMap_cons, List.infix_cons_iff, List.cons_prefix_cons, ← heads]
      by_cases same : item = first
      · subst same
        rw [spells, List.singleton_append, List.infix_cons_iff, List.cons_prefix_cons]
        exact or_congr (and_congr_left fun _ => iff_of_true rfl rfl) induction
      · rw [infix_append_of_not_mem (others item same)]
        exact induction.trans (or_iff_right fun both => same both.1.symm).symm

/-- Nothing comes to stand in a row over an item in the middle that is neither of the two. -/
theorem infix_middle {first second middle : α} (other : first ≠ middle) (other' : second ≠ middle)
    (front back : List α) :
    [first, second] <:+: front ++ middle :: back ↔
      [first, second] <:+: front ∨ [first, second] <:+: back := by
  induction front with
  | nil =>
      rw [List.nil_append, List.infix_cons_iff, List.cons_prefix_cons]
      simp [other]
  | cons item front induction =>
      rw [List.cons_append, List.infix_cons_iff, induction, List.infix_cons_iff,
        List.cons_prefix_cons, List.cons_prefix_cons]
      have heads : [second] <+: front ++ middle :: back ↔ [second] <+: front := by
        cases front with
        | nil => simp [List.cons_prefix_cons, other']
        | cons next front => simp [List.cons_prefix_cons]
      rw [heads, or_assoc]

end Pairs

/-! ## Line ends in texts -/

namespace Utf8

theorem unbroken_append {first second : String} (unbroken : Unbroken first)
    (unbroken' : Unbroken second) : Unbroken (first ++ second) := by
  rw [Unbroken, String.toList_append, List.mem_append, List.mem_append, not_or, not_or]
  exact ⟨⟨unbroken.1, unbroken'.1⟩, unbroken.2, unbroken'.2⟩

theorem unbroken_getD {text : Option String} {standard : String}
    (unbroken : ∀ given ∈ text, Unbroken given) (unbroken' : Unbroken standard) :
    Unbroken (text.getD standard) := by
  cases text with
  | none => exact unbroken'
  | some given => exact unbroken given rfl

theorem unbroken_render {value : String} (unbroken : Unbroken value) :
    Unbroken (Argument.render value) := by
  have kept : ∀ char ∈ Argument.spell value.toList, char ∈ value.toList ∨ char = '"' ∨ char = '\\' := by
    intro char member
    unfold Argument.spell at member
    split at member
    · exact .inl member
    · simp only [List.mem_cons, List.mem_append, List.mem_flatMap, List.not_mem_nil, or_false]
        at member
      rcases member with quote | ⟨inner, inside, escaped⟩ | quote
      · exact .inr (.inl quote)
      · unfold Argument.escape at escaped
        split at escaped
        · rcases List.mem_cons.mp escaped with backslash | same
          · exact .inr (.inr backslash)
          · rw [List.mem_singleton.mp same]
            exact .inl inside
        · rw [List.mem_singleton.mp escaped]
          exact .inl inside
      · exact .inr (.inl quote)
  have absent : ∀ char, char ∉ value.toList → char ≠ '"' → char ≠ '\\' →
      char ∉ (Argument.render value).toList := by
    intro char outside quote backslash member
    rw [Argument.render, String.toList_ofList] at member
    rcases kept char member with inside | same | same
    · exact outside inside
    · exact quote same
    · exact backslash same
  exact ⟨absent _ unbroken.1 (by decide) (by decide), absent _ unbroken.2 (by decide) (by decide)⟩

def Uncut (text : String) : Prop := ¬['\r', '\n'] <:+: text.toList

instance (text : String) : Decidable (Uncut text) := inferInstanceAs (Decidable (¬_))

theorem uncut_of_unbroken {text : String} (unbroken : Unbroken text) : Uncut text := by
  intro cut
  exact unbroken.1 (cut.subset List.mem_cons_self)

theorem uncut_spaced (first second : String) :
    Uncut (first ++ " " ++ second) ↔ Uncut first ∧ Uncut second := by
  have parts : (first ++ " " ++ second).toList = first.toList ++ ' ' :: second.toList := by
    simp [String.toList_append]
  rw [Uncut, parts, Pairs.infix_middle (by decide) (by decide), not_or]
  rfl

theorem uncut_render (value : String) : Uncut (Argument.render value) ↔ Uncut value := by
  have escaped : ['\r', '\n'] <:+: value.toList.flatMap Argument.escape ↔
      ['\r', '\n'] <:+: value.toList := by
    apply Pairs.infix_flatMap (by decide) (by decide)
    · intro char other
      unfold Argument.escape
      split <;> simp [other.symm]
    · intro char other
      unfold Argument.escape
      split
      · exact ⟨'\\', [char], rfl, by decide⟩
      · exact ⟨char, [], rfl, other.symm⟩
  rw [Uncut, Uncut, Argument.render, String.toList_ofList, Argument.spell]
  split
  · rfl
  · rw [List.infix_cons_iff, Pairs.infix_middle (by decide) (by decide), escaped]
    simp [List.cons_prefix_cons]

theorem infix_encode (text : String) : Bytes.crlf <:+: encode text ↔ ¬Uncut text := by
  have other : ∀ {char : Char} {byte : UInt8} {mark : Char}, byte ∈ String.utf8EncodeChar char →
      byte.toNat = mark.toNat → mark.toNat < 0x80 → char = mark := by
    intro char byte mark member value small
    rcases ascii_of_mem_encodeChar member with ⟨same, _⟩ | large
    · exact Char.toNat_inj.mp (same.symm.trans value)
    · omega
  rw [Uncut, not_not]
  apply Pairs.infix_flatMap (by decide) (by decide)
  · intro char different member
    exact different (other member rfl (by decide))
  · intro char different
    cases spelled : String.utf8EncodeChar char with
    | nil =>
        have long := congrArg List.length spelled
        rw [String.length_utf8EncodeChar] at long
        exact absurd long (Char.utf8Size_pos char).ne'
    | cons head tail =>
        refine ⟨head, tail, rfl, ?_⟩
        rintro rfl
        have member : Byte.lineFeed ∈ String.utf8EncodeChar char := by
          rw [spelled]
          exact List.mem_cons_self
        exact different (other member rfl (by decide))

end Utf8

/-! ## Lines on the wire -/

namespace Bytes

theorem lines_go_uncut (front : Bytes) {bytes : Bytes} (uncut : ¬crlf <:+: bytes) :
    lines.go front (bytes ++ crlf) = [front.reverse ++ bytes] := by
  fun_induction lines.go front bytes with
  | case1 front => simp [crlf, Byte.carriageReturn, Byte.lineFeed, lines.go]
  | case2 front rest induction => exact absurd (List.prefix_append crlf rest).isInfix uncut
  | case3 front byte rest plain induction =>
      have inner : ¬crlf <:+: rest := fun cut => uncut (cut.trans (List.suffix_cons _ _).isInfix)
      rw [List.cons_append, lines.go, induction inner]
      · simp
      · rintro rest' rfl same
        cases rest with
        | nil => cases same
        | cons next rest =>
            obtain ⟨rfl, _⟩ := List.cons.inj same
            exact plain rest rfl rfl

theorem two_le_lines_go (front : Bytes) {bytes : Bytes} (cut : crlf <:+: bytes) :
    2 ≤ (lines.go front (bytes ++ crlf)).length := by
  fun_induction lines.go front bytes with
  | case1 front => simp [crlf] at cut
  | case2 front rest induction =>
      rw [List.cons_append, List.cons_append, lines.go, List.length_cons]
      by_cases further : crlf <:+: rest
      · exact Nat.le_succ_of_le (induction further)
      · rw [lines_go_uncut [] further]
        exact le_rfl
  | case3 front byte rest plain induction =>
      have inner : crlf <:+: rest := by
        refine (List.infix_cons_iff.mp cut).resolve_left ?_
        rintro ⟨rest', same⟩
        obtain ⟨rfl, rfl⟩ := List.cons.inj same
        exact plain rest' rfl rfl
      rw [List.cons_append, lines.go]
      · exact induction inner
      · rintro rest' rfl same
        cases rest with
        | nil => cases same
        | cons next rest =>
            obtain ⟨rfl, _⟩ := List.cons.inj same
            exact plain rest rfl rfl

/-- Data without line ends at the end of a line makes no more lines and no fewer. -/
theorem length_lines_go_plain (front bytes : Bytes) {plain : Bytes} (unended : Line.Plain plain) :
    (lines.go front (bytes ++ (plain ++ crlf))).length = (lines.go front (bytes ++ crlf)).length := by
  fun_induction lines.go front bytes with
  | case1 front =>
      have uncut : ¬crlf <:+: plain := by
        intro cut
        exact absurd (unended _ (cut.subset List.mem_cons_self)) (by decide)
      have empty : ¬crlf <:+: ([] : Bytes) := by simp [crlf]
      rw [List.nil_append, lines_go_uncut front uncut, lines_go_uncut front empty]
      rfl
  | case2 front rest induction =>
      rw [List.cons_append, List.cons_append, List.cons_append, List.cons_append, lines.go, lines.go,
        List.length_cons, List.length_cons, induction]
  | case3 front byte rest whole induction =>
      have feeds : ∀ more : Bytes, more.head? ≠ some Byte.lineFeed → ∀ rest',
          byte = 0x0D → rest ++ more = 0x0A :: rest' → False := by
        rintro more other rest' rfl same
        cases rest with
        | nil =>
            rw [List.nil_append] at same
            exact other (by rw [same]; rfl)
        | cons next rest =>
            obtain ⟨rfl, _⟩ := List.cons.inj same
            exact whole rest rfl rfl
      have begins : (plain ++ crlf).head? ≠ some Byte.lineFeed := by
        cases plain with
        | nil => decide
        | cons first plain =>
            intro same
            obtain rfl := Option.some.inj same
            exact absurd (unended _ List.mem_cons_self) (by decide)
      rw [List.cons_append, List.cons_append, lines.go, lines.go]
      · exact induction
      · exact feeds _ (by decide)
      · exact feeds _ begins

theorem lines_lineBytes_iff (line : String) :
    lines (Channel.lineBytes line) = [Utf8.encode line] ↔ Utf8.Uncut line := by
  constructor
  · intro single
    by_contra cut
    have several := two_le_lines_go [] ((Utf8.infix_encode line).mpr cut)
    rw [lines, Channel.lineBytes] at single
    rw [single, List.length_singleton] at several
    exact absurd several (by decide)
  · intro uncut
    exact lines_go_uncut [] fun cut => (Utf8.infix_encode line).mp cut uncut

theorem lines_lineBytes {line : String} (unbroken : Utf8.Unbroken line) :
    lines (Channel.lineBytes line) = [Utf8.encode line] :=
  (lines_lineBytes_iff line).mpr (Utf8.uncut_of_unbroken unbroken)

/-- How many lines a text is sent as does not depend on what it ends with, if that has no line end
in it. -/
theorem length_lines_lineBytes_append (front : String) {back back' : String}
    (unbroken : Utf8.Unbroken back) (unbroken' : Utf8.Unbroken back') :
    (lines (Channel.lineBytes (front ++ back))).length =
      (lines (Channel.lineBytes (front ++ back'))).length := by
  have each : ∀ {back : String}, Utf8.Unbroken back →
      (lines (Channel.lineBytes (front ++ back))).length =
        (lines.go [] (Utf8.encode front ++ crlf)).length := by
    intro back unbroken
    have parts : Channel.lineBytes (front ++ back) =
        Utf8.encode front ++ (Utf8.encode back ++ crlf) := by
      simp [Channel.lineBytes, Utf8.encode]
    rw [lines, parts]
    exact length_lines_go_plain [] _ (Utf8.plain_encode unbroken)
  rw [each unbroken, each unbroken']

/-- Every text is sent as a line at least, and as more than one if it has a line end in it. -/
theorem length_lines_lineBytes (line : String) :
    if Utf8.Uncut line then (lines (Channel.lineBytes line)).length = 1
    else 2 ≤ (lines (Channel.lineBytes line)).length := by
  split
  · next uncut => rw [(lines_lineBytes_iff line).mpr uncut, List.length_singleton]
  · next cut => exact two_le_lines_go [] ((Utf8.infix_encode line).mpr cut)

/-- Texts arrive as they were sent, one line each, exactly if none has a line end in it. -/
theorem flatMap_lines_iff (texts : List String) :
    (texts.map Channel.lineBytes).flatMap lines = texts.map Utf8.encode ↔
      ∀ text ∈ texts, Utf8.Uncut text := by
  have fewest : ∀ texts : List String,
      texts.length ≤ ((texts.map Channel.lineBytes).flatMap lines).length := by
    intro texts
    induction texts with
    | nil => exact le_rfl
    | cons text texts induction =>
        have first := length_lines_lineBytes text
        rw [List.map_cons, List.flatMap_cons, List.length_append, List.length_cons]
        split at first <;> omega
  induction texts with
  | nil => simp
  | cons text texts induction =>
      rw [List.map_cons, List.flatMap_cons, List.map_cons, List.forall_mem_cons]
      by_cases uncut : Utf8.Uncut text
      · rw [(lines_lineBytes_iff text).mpr uncut, List.singleton_append, List.cons_inj_right]
        exact induction.trans (and_iff_right uncut).symm
      · refine iff_of_false ?_ fun both => uncut both.1
        intro same
        -- The lines of this text alone are too many, for the others have one each at least.
        have first := length_lines_lineBytes text
        have others := fewest texts
        have counted := congrArg List.length same
        rw [if_neg uncut] at first
        rw [List.length_append, List.length_cons, List.length_map] at counted
        omega

end Bytes

end ImapDialogue

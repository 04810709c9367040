import ImapDialogue.Command.Argument
import Mathlib.Tactic.Common

/-!
Arguments as they stand in a line, a space between each two. What encloses an argument and what it
escapes tells where it ends, so that a line of arguments can be taken apart in one way only.
-/

namespace ImapDialogue.Argument

/-! ## Quotes -/

/-- A character that an argument cannot show without quotes. -/
def Special (char : Char) : Prop :=
  char.toNat < 0x21 ∨ 0x7E < char.toNat ∨ char ∈ ['(', ')', '{', '%', '*', '"', '\\', ']']

instance (char : Char) : Decidable (Special char) := inferInstanceAs (Decidable (_ ∨ _))

theorem isPlain_iff (char : Char) : isPlain char = true ↔ ¬Special char := by
  simp only [isPlain, Special, Bool.and_eq_true, decide_eq_true_eq, Bool.not_eq_true',
    List.contains_iff_mem, ← Bool.not_eq_true, not_or, Nat.not_lt, and_assoc]

theorem spell_plain {chars : List Char} (filled : chars ≠ [])
    (plain : ∀ char ∈ chars, isPlain char = true) : spell chars = chars := by
  have all : (!chars.isEmpty && chars.all isPlain) = true := by
    rw [Bool.and_eq_true, List.all_eq_true]
    exact ⟨by simpa using filled, plain⟩
  rw [spell, if_pos all]

theorem spell_quoted {chars : List Char} (special : chars = [] ∨ ∃ char ∈ chars, Special char) :
    spell chars = '"' :: (chars.flatMap escape ++ ['"']) := by
  rw [spell, if_neg]
  intro all
  rw [Bool.and_eq_true, List.all_eq_true] at all
  rcases special with rfl | ⟨char, inside, special⟩
  · cases all.1
  · exact (isPlain_iff char).mp (all.2 char inside) special

theorem spell_cases (chars : List Char) :
    (chars ≠ [] ∧ (∀ char ∈ chars, isPlain char = true) ∧ spell chars = chars) ∨
      ((chars = [] ∨ ∃ char ∈ chars, Special char) ∧
        spell chars = '"' :: (chars.flatMap escape ++ ['"'])) := by
  by_cases special : chars = [] ∨ ∃ char ∈ chars, Special char
  · exact .inr ⟨special, spell_quoted special⟩
  · rw [not_or, not_exists] at special
    have plain : ∀ char ∈ chars, isPlain char = true :=
      fun char inside => (isPlain_iff char).mpr fun special' => special.2 char ⟨inside, special'⟩
    exact .inl ⟨special.1, plain, spell_plain special.1 plain⟩

theorem ne_of_plain {char other : Char} (plain : isPlain char = true)
    (special : isPlain other = false) : char ≠ other := by
  rintro rfl
  rw [plain] at special
  cases special

theorem spell_ne_nil (chars : List Char) : spell chars ≠ [] := by
  rcases spell_cases chars with ⟨filled, -, same⟩ | ⟨-, same⟩
  · rw [same]
    exact filled
  · rw [same]
    exact List.cons_ne_nil _ _

theorem quoted_iff (value : String) :
    (render value).toList.head? = some '"' ↔
      value = "" ∨ ∃ char ∈ value.toList, Special char := by
  rw [render, String.toList_ofList, ← String.toList_eq_nil_iff]
  constructor
  · intro quote
    rcases spell_cases value.toList with ⟨filled, plain, same⟩ | ⟨special, -⟩
    · rw [same] at quote
      exact absurd rfl (ne_of_plain (plain '"' (List.mem_of_head? quote)) rfl)
    · exact special
  · intro special
    rw [spell_quoted special]
    rfl

theorem render_plain {value : String} (plain : ¬(value = "" ∨ ∃ char ∈ value.toList, Special char)) :
    render value = value := by
  rw [← String.toList_eq_nil_iff] at plain
  rcases spell_cases value.toList with ⟨-, -, same⟩ | ⟨special, -⟩
  · rw [render, same, String.ofList_toList]
  · exact absurd special plain

/-! ## Several arguments -/

def spaced (values : List String) : String := " ".intercalate (values.map render)

theorem toList_spaced_cons (value : String) (others : List String) :
    (spaced (value :: others)).toList =
      spell value.toList ++ if others = [] then [] else ' ' :: (spaced others).toList := by
  cases others with
  | nil => rw [spaced, List.map_singleton, String.intercalate_singleton, render,
      String.toList_ofList, if_pos rfl, List.append_nil]
  | cons next others =>
      have space : " ".toList = [' '] := rfl
      rw [spaced, spaced, List.map_cons, List.map_cons, String.intercalate_cons_cons, render,
        if_neg (List.cons_ne_nil _ _), String.toList_append, String.toList_append, space,
        String.toList_ofList, List.append_assoc, List.singleton_append]

/-! ## Taking a line apart -/

/-- An escaped character is told from every other one by its first character, and ends there or
right behind it. -/
theorem escape_append_inj {first second : Char} {tail tail' : List Char}
    (same : escape first ++ tail = escape second ++ tail') : first = second ∧ tail = tail' := by
  have marked : ∀ char : Char, (char == '"' || char == '\\') = false → char ≠ '\\' :=
    fun char plain => beq_eq_false_iff_ne.mp (Bool.or_eq_false_iff.mp plain).2
  unfold escape at same
  cases special : first == '"' || first == '\\' with
  | true =>
      cases special' : second == '"' || second == '\\' with
      | true =>
          simp only [special, special', if_true, List.cons_append, List.nil_append] at same
          exact List.cons.inj (List.cons.inj same).2
      | false =>
          simp only [special, special', if_true, Bool.false_eq_true, if_false, List.cons_append]
            at same
          exact absurd (List.cons.inj same).1.symm (marked second special')
  | false =>
      cases special' : second == '"' || second == '\\' with
      | true =>
          simp only [special, special', if_true, Bool.false_eq_true, if_false, List.cons_append]
            at same
          exact absurd (List.cons.inj same).1 (marked first special)
      | false =>
          simp only [special, special', Bool.false_eq_true, if_false, List.cons_append,
            List.nil_append] at same
          exact List.cons.inj same

theorem escape_ne_quote (char : Char) (tail tail' : List Char) :
    escape char ++ tail ≠ '"' :: tail' := by
  unfold escape
  split
  · intro same
    exact absurd (List.cons.inj same).1 (by decide)
  · next plain =>
      rw [Bool.not_eq_true, Bool.or_eq_false_iff, beq_eq_false_iff_ne] at plain
      intro same
      exact plain.1 (List.cons.inj same).1

/-- The quote behind escaped text is the first one without a backslash in front. -/
theorem escaped_append_inj {first second tail tail' : List Char}
    (same : first.flatMap escape ++ '"' :: tail = second.flatMap escape ++ '"' :: tail') :
    first = second ∧ tail = tail' := by
  induction first generalizing second with
  | nil =>
      cases second with
      | nil => exact ⟨rfl, (List.cons.inj same).2⟩
      | cons other others =>
          rw [List.flatMap_cons, List.append_assoc] at same
          exact absurd same.symm (escape_ne_quote other _ _)
  | cons char chars induction =>
      cases second with
      | nil =>
          rw [List.flatMap_cons, List.append_assoc] at same
          exact absurd same (escape_ne_quote char _ _)
      | cons other others =>
          rw [List.flatMap_cons, List.flatMap_cons, List.append_assoc, List.append_assoc] at same
          obtain ⟨rfl, rests⟩ := escape_append_inj same
          obtain ⟨rfl, tails⟩ := induction rests
          exact ⟨rfl, tails⟩

def Apart (tail : List Char) : Prop := ∀ char, tail.head? = some char → char = ' '

theorem apart_others (others : List String) :
    Apart (if others = [] then [] else ' ' :: (spaced others).toList) := by
  intro char first
  split at first
  · cases first
  · exact (Option.some.inj first).symm

theorem takeWhile_plain {chars tail : List Char} (plain : ∀ char ∈ chars, isPlain char = true)
    (apart : Apart tail) : (chars ++ tail).takeWhile isPlain = chars := by
  have stops : tail.takeWhile isPlain = [] := by
    cases tail with
    | nil => rfl
    | cons char rest =>
        rw [apart char rfl]
        rfl
  rw [List.takeWhile_append_of_pos plain, stops, List.append_nil]

theorem spell_append_inj {first second tail tail' : List Char} (apart : Apart tail)
    (apart' : Apart tail') (same : spell first ++ tail = spell second ++ tail') :
    first = second ∧ tail = tail' := by
  have quote : ∀ {chars rest rest' : List Char}, chars ≠ [] →
      (∀ char ∈ chars, isPlain char = true) → chars ++ rest ≠ '"' :: rest' := by
    intro chars rest rest' filled plain same
    obtain ⟨char, others, rfl⟩ := List.exists_cons_of_ne_nil filled
    exact ne_of_plain (plain char List.mem_cons_self) rfl (List.cons.inj same).1
  rcases spell_cases first with ⟨filled, plain, bare⟩ | ⟨-, quoted⟩
  · rcases spell_cases second with ⟨-, plain', bare'⟩ | ⟨-, quoted'⟩
    · rw [bare, bare'] at same
      have words := congrArg (List.takeWhile isPlain) same
      rw [takeWhile_plain plain apart, takeWhile_plain plain' apart'] at words
      subst words
      exact ⟨rfl, List.append_cancel_left same⟩
    · rw [bare, quoted'] at same
      exact absurd same (quote filled plain)
  · rcases spell_cases second with ⟨filled', plain', bare'⟩ | ⟨-, quoted'⟩
    · rw [quoted, bare'] at same
      exact absurd same.symm (quote filled' plain')
    · rw [quoted, quoted', List.cons_append, List.cons_append, List.append_assoc,
        List.append_assoc] at same
      exact escaped_append_inj (List.cons.inj same).2

/-- Different arguments never make the same line, and neither does another number of them. -/
theorem spaced_inj {first second : List String} (same : spaced first = spaced second) :
    first = second := by
  have nothing : ∀ (value : String) (others : List String), spaced [] ≠ spaced (value :: others) := by
    intro value others same
    have letters := congrArg String.toList same
    rw [toList_spaced_cons] at letters
    exact spell_ne_nil _ (List.append_eq_nil_iff.mp letters.symm).1
  induction first generalizing second with
  | nil =>
      cases second with
      | nil => rfl
      | cons value others => exact absurd same (nothing value others)
  | cons value others induction =>
      cases second with
      | nil => exact absurd same.symm (nothing value others)
      | cons value' others' =>
          have letters := congrArg String.toList same
          rw [toList_spaced_cons, toList_spaced_cons] at letters
          obtain ⟨values, rests⟩ :=
            spell_append_inj (apart_others others) (apart_others others') letters
          rw [String.toList_inj.mp values]
          congr 1
          by_cases none : others = []
          · by_cases none' : others' = []
            · rw [none, none']
            · rw [if_pos none, if_neg none'] at rests
              cases rests
          · by_cases none' : others' = []
            · rw [if_neg none, if_pos none'] at rests
              cases rests
            · rw [if_neg none, if_neg none'] at rests
              exact induction (String.toList_inj.mp (List.cons.inj rests).2)

end ImapDialogue.Argument

import ImapDialogue.Pattern.Basic
import Mathlib.Tactic.Common

/-!
Sources of expressions read piece by piece. A text that is spelled in a source comes out as one
literal for each of its units, whatever stands around it.
-/

namespace ImapDialogue.Pattern.Grammar

variable {groups : Nat}

def Spells (groups : Nat) (chars : List Char) (found : List Token) : Prop :=
  ∀ fuel, chars.length < fuel → tokens groups fuel chars = some found

theorem spells_nil : Spells groups [] [] := by
  intro fuel enough
  cases fuel with
  | zero => simp at enough
  | succ fuel => rfl

theorem spells_step {char : Char} {chars rest : List Char} {first others : List Token}
    (begins : tokens? groups (char :: chars) = some (first, rest))
    (shorter : rest.length ≤ chars.length) (later : Spells groups rest others) :
    Spells groups (char :: chars) (first ++ others) := by
  intro fuel enough
  cases fuel with
  | zero => simp at enough
  | succ fuel =>
      have left : rest.length < fuel := by
        simp only [List.length_cons] at enough
        omega
      simp only [tokens, begins, Option.bind_eq_bind, Option.bind_some, later fuel left]
      rfl

theorem spells_token {char : Char} {chars rest : List Char} {token : Token} {others : List Token}
    (begins : tokens? groups (char :: chars) = some ([token], rest))
    (shorter : rest.length ≤ chars.length) (later : Spells groups rest others) :
    Spells groups (char :: chars) (token :: others) :=
  spells_step begins shorter later

theorem spells_repetition {rest : List Char} {others : List Token}
    (greedy : greediness rest = (true, rest)) (later : Spells groups rest others) :
    Spells groups ('*' :: rest) (.repetition 0 none true :: others) := by
  have begins : tokens? groups ('*' :: rest) =
      some ([(repetition 0 none rest).1], (repetition 0 none rest).2) := rfl
  rw [repetition, greedy] at begins
  exact spells_token begins (Nat.le_refl _) later

def literals (units : List Nat) : List Token := units.map fun value => .atom (.literal value)

theorem tokens?_plain {char : Char} (plain : isSpecial char = false) (rest : List Char) :
    tokens? groups (char :: rest) = some (literals (units char), rest) := by
  simp [isSpecial] at plain
  unfold tokens?
  split <;> simp_all [literals]

theorem tokens?_special {char : Char} (special : isSpecial char = true) (rest : List Char) :
    tokens? groups ('\\' :: char :: rest) = some (literals (units char), rest) := by
  simp [isSpecial] at special
  rcases special with same | same | same | same | same | same | same | same | same | same | same |
    same | same | same <;> subst same <;> rfl

theorem spells_spell (text : List Char) {rest : List Char} {others : List Token}
    (later : Spells groups rest others) :
    Spells groups (spell text ++ rest) (literals (text.flatMap units) ++ others) := by
  induction text with
  | nil => exact later
  | cons char text induction =>
      have split : literals ((char :: text).flatMap units) ++ others =
          literals (units char) ++ (literals (text.flatMap units) ++ others) := by
        simp [literals]
      rw [split]
      cases special : isSpecial char with
      | false =>
          have source : spell (char :: text) ++ rest = char :: (spell text ++ rest) := by
            simp [spell, special]
          rw [source]
          exact spells_step (tokens?_plain special _) (Nat.le_refl _) induction
      | true =>
          have source : spell (char :: text) ++ rest = '\\' :: char :: (spell text ++ rest) := by
            simp [spell, special]
          rw [source]
          exact spells_step (tokens?_special special _) (by simp) induction

/-! ## The second pass -/

theorem build_atoms (items : List Regex) (rest : List Token) (frame : Frame)
    (outer : List Frame) :
    build (items.map .atom ++ rest) frame outer =
      build rest { frame with items := items.reverse ++ frame.items } outer := by
  induction items generalizing frame with
  | nil => rfl
  | cons item items induction =>
      simp only [List.map_cons, List.cons_append, build]
      rw [induction]
      simp [Frame.push]

theorem literals_eq_map (units : List Nat) :
    literals units = (units.map Regex.literal).map Token.atom := by
  simp [literals]

theorem read_of_spells {source : String} {found : List Token} {regex : Regex}
    (spells : ∀ groups, Spells groups source.toList found)
    (built : build found .start [] = some regex) : Regex.read source = some regex := by
  have cut := spells (groupCount false source.toList) (source.toList.length + 1)
    (Nat.lt_succ_self _)
  simp only [Regex.read, cut, Option.bind_eq_bind, Option.bind_some]
  exact built

end ImapDialogue.Pattern.Grammar

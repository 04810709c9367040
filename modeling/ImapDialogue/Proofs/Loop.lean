import Mathlib.Tactic.Common

/-!
Loops by their rounds. A round leaves the loop with an answer or leads on to another state, and
nothing in it says that the loop is ever left: a loop that goes on for ever has no run. A loop is
left if each round leads on to a greater place and no place lies past some limit.
-/

namespace ImapDialogue

inductive Round (State Answer : Type) where
  | leave (answer : Answer)
  | again (state : State)

namespace Loop

variable {State Answer : Type}

/-- A run of a loop from a state on: the states that it goes through and the answer with which it
is left. -/
inductive Run (round : State → Round State Answer) : State → List State → Answer → Prop where
  | leave {state : State} {answer : Answer} (left : round state = .leave answer) :
      Run round state [state] answer
  | again {state next : State} {states : List State} {answer : Answer}
      (further : round state = .again next) (rest : Run round next states answer) :
      Run round state (state :: states) answer

variable {round : State → Round State Answer} {state next : State}

/-- A loop whose rounds lead on only to states from which they lead on again is never left. -/
theorem endless {Kept : State → Prop}
    (step : ∀ state, Kept state → ∃ next, round state = .again next ∧ Kept next)
    (kept : Kept state) (states : List State) (answer : Answer) :
    ¬Run round state states answer := by
  intro run
  induction run with
  | leave left =>
      obtain ⟨next, further, -⟩ := step _ kept
      rw [left] at further
      cases further
  | again further _ induction =>
      obtain ⟨next, further', kept'⟩ := step _ kept
      rw [further] at further'
      cases further'
      exact induction kept'

/-- States at ever greater places, none of them past a limit. -/
structure Rising (place : State → Nat) (limit : Nat) (states : List State) : Prop where
  ordered : states.Pairwise fun earlier later => place earlier < place later
  bounded : ∀ state ∈ states, place state ≤ limit

theorem rising_single {place : State → Nat} {limit : Nat} (within : place state ≤ limit) :
    Rising place limit [state] where
  ordered := List.pairwise_singleton _ _
  bounded := by
    intro other member
    rw [List.mem_singleton.mp member]
    exact within

theorem Rising.cons {place : State → Nat} {limit : Nat} {states : List State}
    (rising : Rising place limit (next :: states)) (greater : place state < place next) :
    Rising place limit (state :: next :: states) where
  ordered := by
    apply List.Pairwise.cons _ rising.ordered
    intro later member
    rcases List.mem_cons.mp member with rfl | behind
    · exact greater
    · exact Nat.lt_trans greater (List.rel_of_pairwise_cons rising.ordered behind)
  bounded := by
    intro other member
    rcases List.mem_cons.mp member with rfl | behind
    · have within := rising.bounded next List.mem_cons_self
      omega
    · exact rising.bounded other behind

/-- A loop that is left with an answer, and until then goes on at ever greater places. -/
def Leaves (round : State → Round State Answer) (place : State → Nat) (limit : Nat)
    (state : State) (answer : Answer) : Prop :=
  ∃ states, Run round state states answer ∧ Rising place limit states

/-- What shows that a loop is left: some states that lie within a limit, and a result for each of
them, such that a round gives the result or leads on to such a state at a greater place that has
the same result. -/
structure Variant (round : State → Round State Answer) (place : State → Nat) (limit : Nat)
    (Kept : State → Prop) (result : State → Answer) : Prop where
  bounded : ∀ {state}, Kept state → place state ≤ limit
  step : ∀ {state}, Kept state → round state = .leave (result state) ∨
    ∃ next, round state = .again next ∧ place state < place next ∧ Kept next ∧
      result next = result state

variable {place : State → Nat} {limit : Nat} {Kept : State → Prop} {result : State → Answer}

theorem Variant.run (variant : Variant round place limit Kept result) (kept : Kept state) :
    ∃ states, Run round state (state :: states) (result state) ∧
      Rising place limit (state :: states) := by
  -- The induction is on how far away the limit is.
  induction left : limit - place state using Nat.strongRecOn generalizing state with
  | ind distance induction =>
      have within := variant.bounded kept
      rcases variant.step kept with leaves | ⟨next, further, greater, kept', same⟩
      · exact ⟨[], .leave leaves, rising_single within⟩
      · have within' := variant.bounded kept'
        have nearer : limit - place next < distance := by omega
        obtain ⟨states, rest, rising⟩ := induction _ nearer kept' rfl
        rw [same] at rest
        exact ⟨next :: states, .again further rest, rising.cons greater⟩

theorem Variant.leaves (variant : Variant round place limit Kept result) (kept : Kept state) :
    Leaves round place limit state (result state) := by
  obtain ⟨states, run, rising⟩ := variant.run kept
  exact ⟨state :: states, run, rising⟩

end Loop

end ImapDialogue

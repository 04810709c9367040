import ImapDialogue.Exchange.Basic
import ImapDialogue.Proofs.Command.LineReader

/-!
What has passed between a client and its server, and when it is in order: every line that went
out had its turn, and went out behind the success of everything in front of it.
-/

namespace ImapDialogue

namespace LineReader

/-- Successes read one behind the other, one for each judge, and what is left behind them. -/
def successes : List (Bytes → Option Nat) → Bytes → Option (List Match × Bytes)
  | [], stream => some ([], stream)
  | judge :: judges, stream =>
      match read judge stream with
      | none => none
      | some (found, rest) =>
          if found.index = 0 then
            (successes judges rest).map fun (others, last) => (found :: others, last)
          else none

theorem successes_append {judges : List (Bytes → Option Nat)} {stream rest : Bytes}
    {matches_ : List Match} (reads : successes judges stream = some (matches_, rest))
    (more : Bytes) : successes judges (stream ++ more) = some (matches_, rest ++ more) := by
  induction judges generalizing stream matches_ with
  | nil =>
      cases reads
      rfl
  | cons judge judges induction =>
      rw [successes] at reads
      split at reads
      · cases reads
      · next found behind first =>
          split at reads
          · next success =>
              obtain ⟨⟨others, last⟩, later, same⟩ := Option.map_eq_some_iff.mp reads
              cases same
              rw [successes, read_append first]
              dsimp only
              rw [if_pos success, induction later]
              rfl
          · cases reads

theorem successes_concat (judges more : List (Bytes → Option Nat)) (stream : Bytes) :
    successes (judges ++ more) stream = (successes judges stream).bind fun (first, rest) =>
      (successes more rest).map fun (others, last) => (first ++ others, last) := by
  induction judges generalizing stream with
  | nil => simp [successes]
  | cons judge judges induction =>
      rw [List.cons_append, successes, successes]
      cases read judge stream with
      | none => rfl
      | some found =>
          dsimp only
          split
          · rw [induction]
            cases successes judges found.2 with
            | none => rfl
            | some later => simp [Function.comp_def]
          · rfl

theorem successes_snoc {judges : List (Bytes → Option Nat)} {judge : Bytes → Option Nat}
    {stream unread rest : Bytes} {matches_ : List Match} {found : Match}
    (reads : successes judges stream = some (matches_, unread))
    (next : read judge unread = some (found, rest)) (success : found.index = 0) :
    successes (judges ++ [judge]) stream = some (matches_ ++ [found], rest) := by
  rw [successes_concat, reads, Option.bind_some]
  simp only [successes, next, success, if_true, Option.map_some]

/-- Where the next line is missing or no success, so are all those behind it. -/
theorem successes_stuck {judges more : List (Bytes → Option Nat)} {judge : Bytes → Option Nat}
    {stream unread : Bytes} {matches_ : List Match}
    (reads : successes judges stream = some (matches_, unread))
    (fails : ∀ found rest, read judge unread = some (found, rest) → found.index ≠ 0) :
    successes (judges ++ judge :: more) stream = none := by
  have stops : successes (judge :: more) unread = none := by
    rw [successes]
    cases next : read judge unread with
    | none => rfl
    | some found => exact if_neg (fails found.1 found.2 next)
  rw [successes_concat, reads, Option.bind_some]
  dsimp only
  rw [stops]
  rfl

theorem parts_of_successes {judges : List (Bytes → Option Nat)} {stream rest : Bytes}
    {matches_ : List Match} (reads : successes judges stream = some (matches_, rest)) :
    stream = (matches_.flatMap fun found => found.before ++ found.text) ++ rest := by
  induction judges generalizing stream matches_ with
  | nil =>
      cases reads
      rfl
  | cons judge judges induction =>
      rw [successes] at reads
      split at reads
      · cases reads
      · next found behind first =>
          split at reads
          · obtain ⟨⟨others, last⟩, later, same⟩ := Option.map_eq_some_iff.mp reads
            cases same
            rw [List.flatMap_cons, parts_of_read first, induction later]
            simp only [List.append_assoc]
          · cases reads

end LineReader

namespace Passage

def incoming : Passage → Bytes
  | .received chunk => chunk
  | .written _ | .ended _ => []

def outgoing : Passage → List Bytes
  | .written data => [data]
  | .received _ | .ended _ => []

def completion : Passage → List Completion
  | .ended completion => [completion]
  | .received _ | .written _ => []

def fails : Passage → Bool
  | .ended ⟨_, .error _⟩ => true
  | .ended ⟨_, .ok _⟩ | .received _ | .written _ => false

end Passage

namespace History

def received (passed : List Passage) : Bytes := passed.flatMap Passage.incoming

/-- All the data that has gone out. -/
def written (passed : List Passage) : List Bytes := passed.flatMap Passage.outgoing

def ended (passed : List Passage) : List Completion := passed.flatMap Passage.completion

def failed (passed : List Passage) : Bool := passed.any Passage.fails

@[simp] theorem received_append (passed more : List Passage) :
    received (passed ++ more) = received passed ++ received more := List.flatMap_append

@[simp] theorem written_append (passed more : List Passage) :
    written (passed ++ more) = written passed ++ written more := List.flatMap_append

@[simp] theorem ended_append (passed more : List Passage) :
    ended (passed ++ more) = ended passed ++ ended more := List.flatMap_append

@[simp] theorem failed_append (passed more : List Passage) :
    failed (passed ++ more) = (failed passed || failed more) := List.any_append

@[simp] theorem received_ended (completed : List Completion) :
    received (completed.map .ended) = [] := by
  rw [received, List.flatMap_map]
  exact List.flatMap_eq_nil_iff.mpr fun _ _ => rfl

@[simp] theorem written_ended (completed : List Completion) :
    written (completed.map .ended) = [] := by
  rw [written, List.flatMap_map]
  exact List.flatMap_eq_nil_iff.mpr fun _ _ => rfl

@[simp] theorem received_written (data : List Bytes) : received (data.map .written) = [] := by
  rw [received, List.flatMap_map]
  exact List.flatMap_eq_nil_iff.mpr fun _ _ => rfl

@[simp] theorem written_written (data : List Bytes) : written (data.map .written) = data := by
  rw [written, List.flatMap_map]
  exact List.flatMap_singleton' data

@[simp] theorem ended_ended (completed : List Completion) :
    ended (completed.map .ended) = completed := by
  rw [ended, List.flatMap_map]
  exact List.flatMap_singleton' completed

end History

/-- The lines that a dialogue consists of, and the judges of what has to come in front of each of
them and behind the last. -/
structure Plan where
  lines : List Bytes
  judges : List (Bytes → Option Nat)

namespace Plan

open History

variable {plan : Plan} {passed more : List Passage}

/-- What has passed is in order. A line only goes out if it is the next one of the plan, if the
greeting and all lines in front of it have been answered by successes, and if all the calls that
waited for these have ended, and none of them by failing. -/
def Orderly (plan : Plan) (passed : List Passage) : Prop :=
  ∀ front line back, passed = front ++ .written line :: back →
    plan.lines[(written front).length]? = some line ∧ failed front = false ∧
      (ended front).map (·.ticket) = List.range ((written front).length + 1) ∧
      (LineReader.successes (plan.judges.take ((written front).length + 1))
        (received front)).isSome

theorem orderly_nil (plan : Plan) : plan.Orderly [] := by
  intro front line back parts
  cases front <;> cases parts

theorem Orderly.snoc (orderly : plan.Orderly passed) {passage : Passage}
    (next : ∀ line, passage = .written line →
      plan.lines[(written passed).length]? = some line ∧ failed passed = false ∧
        (ended passed).map (·.ticket) = List.range ((written passed).length + 1) ∧
        (LineReader.successes (plan.judges.take ((written passed).length + 1))
          (received passed)).isSome) :
    plan.Orderly (passed ++ [passage]) := by
  intro front line back parts
  -- The line is the last passage, or it stood among the others before.
  rcases List.eq_nil_or_concat back with rfl | ⟨others, last, rfl⟩
  · obtain ⟨rfl, same⟩ := List.append_inj' parts rfl
    exact next line (List.cons.inj same).1
  · rw [List.concat_eq_append, ← List.cons_append, ← List.append_assoc] at parts
    exact orderly front line others (List.append_inj' parts rfl).1

theorem Orderly.append (orderly : plan.Orderly passed) (silent : written more = []) :
    plan.Orderly (passed ++ more) := by
  induction more generalizing passed with
  | nil =>
      rw [List.append_nil]
      exact orderly
  | cons passage more induction =>
      obtain ⟨quiet, later⟩ := List.append_eq_nil_iff.mp silent
      have further : plan.Orderly (passed ++ [passage]) := by
        apply orderly.snoc
        rintro line rfl
        cases quiet
      rw [List.append_cons]
      exact induction further later

end Plan

end ImapDialogue

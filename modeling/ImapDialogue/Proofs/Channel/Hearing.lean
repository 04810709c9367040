import ImapDialogue.Channel.Basic
import ImapDialogue.Proofs.Command.LineReader

/-!
Chunks that arrive on an open channel, with and without a wait for lines. However the data is
cut, and however much of it is there when the wait begins, the wait stands where the reader of
lines stands on the data as a whole.
-/

namespace ImapDialogue

open Command (Recognizes numbered)

namespace Intake

/-- The intake with other data unread and another wait. -/
def holding (intake : Intake) (unread : Bytes) (wait : Option Wait) : Intake :=
  { intake with unread := unread, wait := wait }

def standing (intake : Intake) (wait : Wait) (unread : Bytes) :
    Option (Match × Bytes) → Intake × List Settlement
  | none => (intake.holding unread (some wait), [])
  | some (found, rest) => (intake.holding rest none, [⟨wait.ticket, .ok found⟩])

variable {intake : Intake} {tests : List (Bytes → Bool)}

theorem take?_eq_read (guarded : intake.guarded = true) {patterns : List Pattern}
    (known : List.Forall₂ Recognizes patterns tests) (unread : Bytes) (wait : Option Wait) :
    (intake.holding unread wait).take? patterns =
      (LineReader.read (numbered 0 tests) unread).map
        fun (found, rest) => (found, intake.holding rest wait) := by
  have guarded' : (intake.holding unread wait).guarded = true := guarded
  rw [take?, barred, if_pos guarded', LineReader.first_eq_read known]
  rfl

theorem await_standing (guarded : intake.guarded = true) (flowing : intake.ended = false)
    {wait : Wait} (known : List.Forall₂ Recognizes wait.patterns tests) (unread : Bytes) :
    (intake.holding unread none).await wait =
      intake.standing wait unread (LineReader.read (numbered 0 tests) unread) := by
  have free : (intake.holding unread none).wait.isSome = false := rfl
  simp only [await, free, take?_eq_read guarded known, Bool.false_eq_true, if_false]
  cases LineReader.read (numbered 0 tests) unread with
  | none =>
      have flowing' : ¬(intake.holding unread none).ended = true := by
        simpa [holding] using flowing
      simp only [Option.map_none, if_neg flowing']
      rfl
  | some found => rfl

theorem receive_standing (guarded : intake.guarded = true) {wait : Wait}
    (known : List.Forall₂ Recognizes wait.patterns tests) (unread chunk : Bytes) :
    (intake.holding unread (some wait)).receive chunk =
      intake.standing wait (unread ++ chunk)
        (LineReader.read (numbered 0 tests) (unread ++ chunk)) := by
  have taken := take?_eq_read guarded known (unread ++ chunk) (some wait)
  simp only [holding] at taken
  simp only [receive, holding, taken]
  cases LineReader.read (numbered 0 tests) (unread ++ chunk) <;> rfl

end Intake

namespace Channel

/-- Both sides are open, and no match starts inside literal data. -/
structure Open (channel : Channel) : Prop where
  readable : channel.inputClosed = false
  alive : channel.destroyed = false
  flowing : channel.intake.ended = false
  guarded : channel.intake.guarded = true

/-- The channel with other data unread and another wait. -/
def holding (channel : Channel) (unread : Bytes) (wait : Option Wait) : Channel :=
  { channel with intake := channel.intake.holding unread wait }

def standing (channel : Channel) (wait : Wait) (unread : Bytes)
    (result : Option (Match × Bytes)) : Channel × List Settlement :=
  ({ channel with intake := (channel.intake.standing wait unread result).1 },
    (channel.intake.standing wait unread result).2)

/-- The channel that chunks leave behind which arrive one after the other, and the waits that
they end. -/
def hear (channel : Channel) : List Bytes → Channel × List Settlement
  | [] => (channel, [])
  | chunk :: chunks =>
      let (next, effects) := channel.receive chunk
      let (last, settled) := next.hear chunks
      (last, effects.settled ++ settled)

theorem hear_cons (channel : Channel) (chunk : Bytes) (chunks : List Bytes) :
    channel.hear (chunk :: chunks) =
      (((channel.receive chunk).1.hear chunks).1,
        (channel.receive chunk).2.settled ++ ((channel.receive chunk).1.hear chunks).2) := rfl

variable {channel : Channel}

theorem Open.holding (opened : channel.Open) (unread : Bytes) (wait : Option Wait) :
    (channel.holding unread wait).Open :=
  ⟨opened.readable, opened.alive, opened.flowing, opened.guarded⟩

theorem receive_of_open (opened : channel.Open) {chunk : Bytes} (filled : chunk ≠ []) :
    (channel.receive chunk).1 = { channel with intake := (channel.intake.receive chunk).1 } ∧
      (channel.receive chunk).2.settled = (channel.intake.receive chunk).2 := by
  have noticed : (channel.inputClosed || channel.destroyed || chunk.isEmpty) = false := by
    rw [opened.readable, opened.alive]
    simpa using filled
  simp only [receive, noticed, Bool.false_eq_true, if_false]
  exact ⟨rfl, rfl⟩

theorem receive_empty (channel : Channel) : channel.receive [] = (channel, .none) := by
  simp [receive]

theorem receive_free (opened : channel.Open) (unread chunk : Bytes) :
    ((channel.holding unread none).receive chunk).1 = channel.holding (unread ++ chunk) none ∧
      ((channel.holding unread none).receive chunk).2.settled = [] := by
  by_cases empty : chunk = []
  · subst empty
    rw [receive_empty, List.append_nil]
    exact ⟨rfl, rfl⟩
  · exact receive_of_open (opened.holding unread none) empty

theorem hear_free (opened : channel.Open) (unread : Bytes) (chunks : List Bytes) :
    (channel.holding unread none).hear chunks =
      (channel.holding (unread ++ chunks.flatten) none, []) := by
  induction chunks generalizing unread with
  | nil => simp [hear]
  | cons chunk chunks induction =>
      obtain ⟨grown, silent⟩ := receive_free opened unread chunk
      rw [hear_cons, grown, silent, induction, List.append_assoc]
      rfl

section Waiting

variable {wait : Wait} {tests : List (Bytes → Bool)}

theorem await_standing (opened : channel.Open)
    (known : List.Forall₂ Recognizes wait.patterns tests) (unread : Bytes) :
    ((channel.holding unread none).await wait).1 =
        (channel.standing wait unread (LineReader.read (numbered 0 tests) unread)).1 ∧
      ((channel.holding unread none).await wait).2.settled =
        (channel.standing wait unread (LineReader.read (numbered 0 tests) unread)).2 := by
  have begun := Intake.await_standing opened.guarded opened.flowing known unread
  simp only [await, withIntake, holding, begun]
  exact ⟨rfl, rfl⟩

theorem receive_standing (opened : channel.Open)
    (known : List.Forall₂ Recognizes wait.patterns tests) {unread : Bytes}
    (nothing : LineReader.read (numbered 0 tests) unread = none) (chunk : Bytes) :
    ((channel.holding unread (some wait)).receive chunk).1 =
        (channel.standing wait (unread ++ chunk)
          (LineReader.read (numbered 0 tests) (unread ++ chunk))).1 ∧
      ((channel.holding unread (some wait)).receive chunk).2.settled =
        (channel.standing wait (unread ++ chunk)
          (LineReader.read (numbered 0 tests) (unread ++ chunk))).2 := by
  by_cases empty : chunk = []
  · subst empty
    rw [receive_empty, List.append_nil, nothing]
    exact ⟨rfl, rfl⟩
  · obtain ⟨moved, settled⟩ := receive_of_open (opened.holding unread (some wait)) empty
    have taken := Intake.receive_standing opened.guarded known unread chunk
    rw [moved, settled]
    simp only [holding, taken]
    exact ⟨rfl, rfl⟩

/-- The chunks behind the end of a wait are kept, those in front of it bring it about. -/
theorem hear_standing (opened : channel.Open)
    (known : List.Forall₂ Recognizes wait.patterns tests) {unread : Bytes}
    (nothing : LineReader.read (numbered 0 tests) unread = none) (chunks : List Bytes) :
    (channel.holding unread (some wait)).hear chunks =
      channel.standing wait (unread ++ chunks.flatten)
        (LineReader.read (numbered 0 tests) (unread ++ chunks.flatten)) := by
  induction chunks generalizing unread with
  | nil =>
      rw [List.flatten_nil, List.append_nil, nothing]
      rfl
  | cons chunk chunks induction =>
      obtain ⟨moved, settled⟩ := receive_standing opened known nothing chunk
      rw [hear_cons, moved, settled, List.flatten_cons, ← List.append_assoc]
      cases reads : LineReader.read (numbered 0 tests) (unread ++ chunk) with
      | none => exact induction reads
      | some result =>
          obtain ⟨found, rest⟩ := result
          have settled' : (channel.standing wait (unread ++ chunk) (some (found, rest))).1 =
              channel.holding rest none := rfl
          rw [LineReader.read_append reads, settled', hear_free opened rest chunks]
          rfl

/-- A wait that begins between two chunks stands where one stands that has all of them. -/
theorem await_hear_standing (opened : channel.Open)
    (known : List.Forall₂ Recognizes wait.patterns tests) (unread : Bytes) (chunks : List Bytes) :
    ((((channel.holding unread none).await wait).1.hear chunks).1,
        ((channel.holding unread none).await wait).2.settled ++
          (((channel.holding unread none).await wait).1.hear chunks).2) =
      channel.standing wait (unread ++ chunks.flatten)
        (LineReader.read (numbered 0 tests) (unread ++ chunks.flatten)) := by
  obtain ⟨moved, settled⟩ := await_standing opened known unread
  rw [moved, settled]
  cases reads : LineReader.read (numbered 0 tests) unread with
  | none => exact hear_standing opened known reads chunks
  | some result =>
      have closed : (channel.standing wait unread (some result)).1 =
          channel.holding result.2 none := rfl
      rw [LineReader.read_append reads, closed, hear_free opened]
      rfl

end Waiting

end Channel

end ImapDialogue

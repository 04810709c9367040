import ImapDialogue.Proofs.Client.Core

/-!
Reading the messages of a fetch turn by turn. Each turn brings the end of the fetch nearer by
one, and how the fetch will end is settled from the start.
-/

namespace ImapDialogue

namespace Reading

/-- How the fetch ends when all its messages have been read. -/
def finished (reading : Reading) : Completion :=
  ⟨reading.ticket, .ok (.fetched reading.records (reading.mails ++ reading.unread.filterMap (·.mail?)))⟩

theorem turnsLeft_cons (reading : Reading) (next : Unread) (others : List Unread) :
    { reading with unread := next :: others }.turnsLeft =
      max 1 next.turns + { reading with unread := others }.turnsLeft := by
  have shifted : ∀ (unread : List Unread) (start : Nat),
      unread.foldl (fun turns next => turns + max 1 next.turns) start =
        start + unread.foldl (fun turns next => turns + max 1 next.turns) 0 := by
    intro unread
    induction unread with
    | nil => intro start; rfl
    | cons first later induction =>
        intro start
        rw [List.foldl_cons, induction, List.foldl_cons, induction (0 + _), Nat.zero_add,
          Nat.add_assoc]
  rw [turnsLeft, turnsLeft, List.foldl_cons, shifted, Nat.zero_add]

theorem turnsLeft_pos {reading : Reading} (waiting : reading.unread ≠ []) :
    0 < reading.turnsLeft := by
  obtain ⟨ticket, records, mails, unread⟩ := reading
  cases unread with
  | nil => exact absurd rfl waiting
  | cons next others =>
      have sum := turnsLeft_cons ⟨ticket, records, mails, []⟩ next others
      simp only at sum
      omega

theorem turn_spec {reading : Reading} (waiting : reading.unread ≠ []) :
    reading.turn.1.turnsLeft + 1 = reading.turnsLeft ∧
      reading.turn.1.finished = reading.finished := by
  obtain ⟨ticket, records, mails, unread⟩ := reading
  cases unread with
  | nil => exact absurd rfl waiting
  | cons next others =>
      have sum := turnsLeft_cons ⟨ticket, records, mails, []⟩ next others
      simp only at sum
      by_cases last : next.turns ≤ 1
      · have rest : turnsLeft ⟨ticket, records, mails ++ next.mail?.toList, others⟩ =
            turnsLeft ⟨ticket, records, mails, others⟩ := rfl
        have made : next.mail?.toList ++ others.filterMap (·.mail?) =
            (next :: others).filterMap (·.mail?) := by
          rw [List.filterMap_cons]
          cases next.mail? <;> rfl
        simp only [turn, if_pos last, finished, List.append_assoc, made, and_true]
        omega
      · have rest := turnsLeft_cons ⟨ticket, records, mails, []⟩
          { next with turns := next.turns - 1 } others
        simp only at rest
        have made : ({ next with turns := next.turns - 1 } :: others).filterMap (·.mail?) =
            (next :: others).filterMap (·.mail?) := rfl
        simp only [turn, if_neg last, finished, made, and_true]
        omega

theorem turn_last {reading : Reading} (waiting : reading.unread ≠ []) :
    reading.turn.1.unread = [] ↔ reading.turnsLeft = 1 := by
  obtain ⟨left, _⟩ := turn_spec waiting
  constructor
  · intro past
    have none : reading.turn.1.turnsLeft = 0 := by
      rw [turnsLeft, past]
      rfl
    omega
  · intro last
    by_contra filled
    have more := turnsLeft_pos filled
    omega

/-- How the fetch ends with one more turn, if it does. -/
def ending? (reading : Reading) : Option Completion :=
  if reading.turn.1.unread = [] then some reading.turn.1.finished else none

theorem ending?_ok {reading : Reading} {completion : Completion}
    (ends : reading.ending? = some completion) : ∃ answer, completion.result = .ok answer := by
  unfold ending? at ends
  split at ends
  · cases ends
    exact ⟨_, rfl⟩
  · cases ends

/-- What the listeners learn from one more turn: nothing before it is the last one. -/
def telling (listeners : Listeners) (reading : Reading) : List MailEvent :=
  if reading.turn.1.unread = [] then listeners.told reading.turn.1.mails else []

/-- What is left of a reading behind one more turn. -/
def left? (reading : Reading) : Option Reading :=
  if reading.turn.1.unread = [] then none else some reading.turn.1

end Reading

namespace Client

/-- A turn moves every reading by itself, and takes them in order. -/
theorem readOn_spec (client : Client) (readings : List Reading) :
    (client.readOn readings).2 = readings.filterMap Reading.ending? ∧
      (client.readOn readings).1.core = { client with
        readings := readings.filterMap Reading.left?
        events := client.events ++
          readings.flatMap (Reading.telling client.listeners) }.core := by
  induction readings generalizing client with
  | nil =>
      rw [List.flatMap_nil, List.append_nil]
      exact ⟨rfl, rfl⟩
  | cons reading others induction =>
      let told := client.tellAll (reading.turn.2.toList.map Unread.notice)
      have core : told.core = client.core := core_tellAll client _
      rw [List.flatMap_cons, ← List.append_assoc]
      by_cases past : reading.turn.1.unread = []
      · obtain ⟨completed, behind⟩ := induction (told.announce reading.turn.1.mails)
        have ends : reading.ending? = some reading.turn.1.finished := if_pos past
        have stops : reading.left? = none := if_pos past
        have tells : reading.telling client.listeners = client.listeners.told reading.turn.1.mails :=
          if_pos past
        have whole : reading.turn.1.finished = ⟨reading.turn.1.ticket,
            .ok (.fetched reading.turn.1.records reading.turn.1.mails)⟩ := by
          rw [Reading.finished, past, List.filterMap_nil, List.append_nil]
        have here : client.readOn (reading :: others) =
            (((told.announce reading.turn.1.mails).readOn others).1,
              reading.turn.1.finished ::
                ((told.announce reading.turn.1.mails).readOn others).2) := by
          rw [whole]
          simp only [readOn, past, List.isEmpty_nil, if_true, told]
        rw [here, List.filterMap_cons_some ends, List.filterMap_cons_none stops, tells]
        refine ⟨congrArg _ completed, behind.trans ?_⟩
        exact congrArg (fun (told : Client) => { told with
          readings := others.filterMap Reading.left?
          events := told.events ++ told.listeners.told reading.turn.1.mails ++
            others.flatMap (Reading.telling told.listeners) }) core
      · obtain ⟨completed, behind⟩ := induction told
        have filled : reading.turn.1.unread.isEmpty = false := by simpa using past
        have ends : reading.ending? = none := if_neg past
        have goes : reading.left? = some reading.turn.1 := if_neg past
        have tells : reading.telling client.listeners = [] := if_neg past
        have here : client.readOn (reading :: others) =
            ({ (told.readOn others).1 with
              readings := reading.turn.1 :: (told.readOn others).1.readings },
              (told.readOn others).2) := by
          simp only [readOn, filled, Bool.false_eq_true, if_false, told]
        rw [here, List.filterMap_cons_none ends, List.filterMap_cons_some goes, tells,
          List.append_nil]
        refine ⟨completed, ?_⟩
        have grown := congrArg (fun (behind : Client) =>
          { behind with readings := reading.turn.1 :: behind.readings }) behind
        refine Eq.trans grown ?_
        exact congrArg (fun (told : Client) => { told with
          readings := reading.turn.1 :: others.filterMap Reading.left?
          events := told.events ++ others.flatMap (Reading.telling told.listeners) }) core

/-- What a turn makes of one reading among others. Before its last turn it stays among them, with
its last one it ends and the listeners learn of its mails. -/
theorem readOn_among {client : Client} {ahead behind : List Reading} {reading : Reading}
    (holds : client.readings = ahead ++ reading :: behind) (filled : reading.unread ≠ []) :
    let next := client.readOn client.readings
    let mails := reading.mails ++ reading.unread.filterMap (·.mail?)
    next.2 = ahead.filterMap Reading.ending? ++
        (if reading.turnsLeft = 1 then [reading.finished] else []) ++
        behind.filterMap Reading.ending? ∧
      next.1.readings = ahead.filterMap Reading.left? ++
        (if reading.turnsLeft = 1 then [] else [reading.turn.1]) ++
        behind.filterMap Reading.left? ∧
      next.1.events = client.events ++ (ahead.flatMap (Reading.telling client.listeners) ++
        (if reading.turnsLeft = 1 then client.listeners.told mails else []) ++
        behind.flatMap (Reading.telling client.listeners)) := by
  intro next mails
  obtain ⟨completed, core⟩ := client.readOn_spec client.readings
  have readings : next.1.readings = client.readings.filterMap Reading.left? := readings_of_core core
  have events : next.1.events =
      client.events ++ client.readings.flatMap (Reading.telling client.listeners) :=
    events_of_core core
  rw [show next.2 = _ from completed, readings, events, holds]
  simp only [List.filterMap_append, List.flatMap_append, List.filterMap_cons, List.flatMap_cons,
    List.append_assoc]
  have same := (Reading.turn_spec filled).2
  by_cases past : reading.turn.1.unread = []
  · have whole : reading.turn.1.mails = mails := by
      have alike := congrArg Completion.result same
      simp only [Reading.finished, past, List.filterMap_nil, List.append_nil, Except.ok.injEq,
        Answer.fetched.injEq] at alike
      exact alike.2
    simp only [Reading.ending?, Reading.left?, Reading.telling, if_pos past,
      if_pos ((Reading.turn_last filled).mp past), same, whole, List.nil_append,
      List.singleton_append, and_self]
  · have more : reading.turnsLeft ≠ 1 := fun last => past ((Reading.turn_last filled).mpr last)
    simp only [Reading.ending?, Reading.left?, Reading.telling, if_neg past, if_neg more,
      List.nil_append, List.singleton_append, and_self]

theorem readOn_one (client : Client) (reading : Reading) :
    (client.readOn [reading]).2 =
        (if reading.turn.1.unread = [] then [reading.turn.1.finished] else []) ∧
      ∃ events, (client.readOn [reading]).1.core = { client with
        readings := if reading.turn.1.unread = [] then [] else [reading.turn.1]
        events := events }.core := by
  obtain ⟨completed, behind⟩ := client.readOn_spec [reading]
  refine ⟨completed.trans ?_, client.events ++ reading.telling client.listeners, behind.trans ?_⟩
  · by_cases past : reading.turn.1.unread = [] <;> simp [Reading.ending?, past]
  · by_cases past : reading.turn.1.unread = [] <;> simp [Reading.left?, past]

theorem read_none {client : Client} (rested : client.readings = []) (turns : Nat) :
    client.read turns = (client, []) := by
  have still : ({ client with readings := [] } : Client) = client := by
    rw [← rested]
  induction turns with
  | zero => rfl
  | succ turns induction =>
      have step : client.readOn client.readings = (client, []) := by
        rw [rested, readOn, still]
      simp only [read, step, induction, List.append_nil]

/-- How a client stands behind some turns: its fetch has ended, or that many turns are done. -/
def Rests (before : Client) (reading : Reading) (turns : Nat) (after : Client)
    (completed : List Completion) : Prop :=
  ∃ events,
    if reading.turnsLeft ≤ turns then
      completed = [reading.finished] ∧
        after.core = { before with readings := [], events := events }.core
    else
      completed = [] ∧ ∃ later : Reading, later.unread ≠ [] ∧
        later.turnsLeft + turns = reading.turnsLeft ∧ later.finished = reading.finished ∧
        after.core = { before with readings := [later], events := events }.core

theorem read_one {client : Client} {reading : Reading} (one : client.readings = [reading])
    (waiting : reading.unread ≠ []) (turns : Nat) :
    client.Rests reading turns (client.read turns).1 (client.read turns).2 := by
  induction turns generalizing client reading with
  | zero =>
      have left := Reading.turnsLeft_pos waiting
      refine ⟨client.events, ?_⟩
      rw [if_neg (by omega)]
      refine ⟨rfl, reading, waiting, rfl, rfl, ?_⟩
      rw [← one]
      rfl
  | succ turns induction =>
      obtain ⟨left, same⟩ := Reading.turn_spec waiting
      obtain ⟨ended, events, moved⟩ := readOn_one client reading
      simp only [read, one]
      by_cases past : reading.turn.1.unread = []
      · have last := (Reading.turn_last waiting).mp past
        rw [if_pos past] at ended moved
        have rested := readings_of_core moved
        refine ⟨events, ?_⟩
        rw [if_pos (by omega), read_none rested, ended, same]
        exact ⟨rfl, moved⟩
      · rw [if_neg past] at ended moved
        obtain ⟨events', later⟩ := induction (readings_of_core moved) past
        refine ⟨events', ?_⟩
        rw [ended, List.nil_append]
        by_cases enough : reading.turnsLeft ≤ turns + 1
        · rw [if_pos (by omega)] at later
          rw [if_pos enough]
          refine ⟨later.1.trans (by rw [same]), later.2.trans ?_⟩
          exact congrArg (fun (moved : Client) =>
            { moved with readings := [], events := events' }) moved
        · rw [if_neg (by omega)] at later
          obtain ⟨nothing, last, filled, count, alike, core⟩ := later
          rw [if_neg enough]
          refine ⟨nothing, last, filled, by omega, alike.trans same, core.trans ?_⟩
          exact congrArg (fun (moved : Client) =>
            { moved with readings := [last], events := events' }) moved

theorem readAll_one {client : Client} {reading : Reading} (one : client.readings = [reading])
    (waiting : reading.unread ≠ []) :
    client.readAll.2 = [reading.finished] ∧ ∃ events,
      client.readAll.1.core = { client with readings := [], events := events }.core := by
  have turns : client.readings.foldl (fun turns reading => max turns reading.turnsLeft) 0 =
      reading.turnsLeft := by
    rw [one]
    exact Nat.zero_max _
  obtain ⟨events, rests⟩ := read_one one waiting reading.turnsLeft
  rw [if_pos (Nat.le_refl _)] at rests
  rw [readAll, turns]
  exact ⟨rests.1, events, rests.2⟩

theorem readAll_none {client : Client} (rested : client.readings = []) :
    client.readAll = (client, []) := by
  rw [readAll]
  exact read_none rested _

end Client

end ImapDialogue

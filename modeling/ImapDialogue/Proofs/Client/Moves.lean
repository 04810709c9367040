import ImapDialogue.Proofs.Client.Asking
import ImapDialogue.Proofs.Client.Turns

/-!
What can happen to a client while it reads messages, in any order. Only a turn touches what is
read: whatever else happens may begin to read more behind it, but tells the listeners nothing.
-/

namespace ImapDialogue.Client

/-- Something that happens to a client: an event on its channel, a call, a listener that comes or
goes, or a turn of reading. -/
inductive Move where
  | event (now : Instant) (change : Channel → Channel × Effects)
  | call (clock : Clock) (now : Instant) (ticket : Nat) (call : Call)
  | listen (listener : Listener)
  | unlisten (listener : Listener)
  | turn

def Move.isTurn : Move → Bool
  | .turn => true
  | _ => false

def Move.listening (listeners : Listeners) : Move → Listeners
  | .listen listener => listeners.add listener
  | .unlisten listener => listeners.remove listener
  | .call _ _ _ (.listen name) => listeners.addNew name
  | .call _ _ _ (.unlisten name) => listeners.removeNewest name
  | .event _ _ | .call _ _ _ _ | .turn => listeners

theorem Move.eq_turn {move : Move} (turns : move.isTurn = true) : move = .turn := by
  cases move with
  | turn => rfl
  | event | call | listen | unlisten => cases turns

/-- A client later on that has told the same listeners nothing, and reads on all that it read. -/
structure Undisturbed (client later : Client) : Prop where
  listeners : later.listeners = client.listeners
  events : later.events = client.events
  readings : ∃ begun, later.readings = client.readings ++ begun

variable {client later last : Client}

namespace Undisturbed

theorem refl (client : Client) : client.Undisturbed client :=
  ⟨rfl, rfl, [], (List.append_nil _).symm⟩

theorem trans (first : client.Undisturbed later) (second : later.Undisturbed last) :
    client.Undisturbed last := by
  obtain ⟨begun, behind⟩ := first.readings
  obtain ⟨begun', behind'⟩ := second.readings
  refine ⟨second.listeners.trans first.listeners, second.events.trans first.events,
    begun ++ begun', ?_⟩
  rw [behind', behind, List.append_assoc]

theorem of_core {before : Client} (same : later.core = before.core)
    (undisturbed : client.Undisturbed before) : client.Undisturbed later :=
  ⟨(listeners_of_core same).trans undisturbed.listeners,
    (events_of_core same).trans undisturbed.events, by
      rw [readings_of_core same]
      exact undisturbed.readings⟩

end Undisturbed

theorem undisturbed_aside (client : Client) (channel released : Option Channel)
    (task : Option Task) (lastTag : Nat) (greeting : String) (mailbox : Option String)
    (commands : List String) : client.Undisturbed { client with
      channel := channel
      released := released
      task := task
      lastTag := lastTag
      greeting := greeting
      mailbox := mailbox
      commands := commands } :=
  ⟨rfl, rfl, [], (List.append_nil _).symm⟩

theorem undisturbed_absorb (client : Client) (channel : Channel) (effects : Effects) :
    client.Undisturbed (client.absorb channel effects) :=
  .of_core (core_absorb client channel effects) (client.undisturbed_aside _ _ _ _ _ _ _)

variable [Mail.Reader]

def move (client : Client) : Move → Client × List Completion
  | .event now change =>
      let step := client.react now change
      (step.client, step.completed)
  | .call clock now ticket call =>
      let step := client.begin clock now ticket call
      (step.client, step.completed)
  | .listen listener => (client.addListener listener, [])
  | .unlisten listener => (client.removeListener listener, [])
  | .turn => client.readOn client.readings

def run (client : Client) : List Move → Client × List Completion
  | [] => (client, [])
  | move :: moves =>
      let (client, first) := client.move move
      let (client, later) := client.run moves
      (client, first ++ later)

theorem undisturbed_conclude (client : Client) (now : Instant) (ticket : Nat) (task : Task)
    (result : Except Failure Match) :
    client.Undisturbed (client.conclude now ticket task result).1 := by
  obtain ⟨greeting, mailbox, core⟩ := client.conclude_core now ticket task result
  exact .of_core core ⟨rfl, rfl, begins now ticket result task, rfl⟩

theorem undisturbed_settle (client : Client) (now : Instant) (settled : List Settlement) :
    client.Undisturbed (client.settle now settled).1 := by
  induction settled generalizing client with
  | nil => exact .refl client
  | cons settlement others induction =>
      rw [settle]
      split
      · exact induction client
      · next task _ =>
          have freed : client.Undisturbed { client with task := none } :=
            client.undisturbed_aside _ _ _ _ _ _ _
          exact (freed.trans (undisturbed_conclude _ now settlement.ticket task
            settlement.result)).trans (induction _)

theorem undisturbed_react (client : Client) (now : Instant)
    (change : Channel → Channel × Effects) :
    client.Undisturbed (client.react now change).client := by
  unfold react
  split
  · exact .refl client
  · exact (client.undisturbed_absorb _ _).trans (undisturbed_settle _ now _)

theorem undisturbed_await (client : Client) (clock : Clock) (now : Instant) (ticket : Nat)
    (patterns : List Pattern) (task : Task) :
    client.Undisturbed (client.await clock now ticket patterns task).client := by
  unfold await
  split
  · exact .refl client
  · next channel _ =>
      have absorbed := client.undisturbed_absorb
        (channel.await ⟨ticket, patterns, client.timeout, clock.timer client.timeout⟩).1
        (channel.await ⟨ticket, patterns, client.timeout, clock.timer client.timeout⟩).2
      dsimp only
      split
      · exact absorbed.trans (undisturbed_aside _ _ _ _ _ _ _ _)
      · exact absorbed.trans (undisturbed_conclude _ now ticket task _)

theorem undisturbed_command (client : Client) (clock : Clock) (now : Instant) (ticket : Nat)
    (verb arguments shown marker : String) (task : String → Task) :
    client.Undisturbed
      (client.command clock now ticket verb arguments shown marker task).client := by
  cases has : client.channel with
  | none =>
      rw [command, has]
      exact .of_core (core_tell client _) (.refl client)
  | some channel =>
      rw [command_eq has]
      have counted : client.Undisturbed
          (client.counting (toString (client.lastTag + 1) ++ " " ++ verb ++ " " ++ shown)) :=
        .of_core (core_tell _ _) (client.undisturbed_aside _ _ _ _ _ _ _)
      have settled := fun channel effects =>
        (counted.trans (undisturbed_absorb _ channel effects)).trans
          (undisturbed_settle _ now effects.settled)
      unfold goOn
      dsimp only
      split
      · exact settled _ _
      · exact (settled _ _).trans (undisturbed_await _ clock now ticket _ _)

theorem undisturbed_close (client : Client) (now : Instant) (ticket : Nat) :
    client.Undisturbed (client.close now ticket).client := by
  have told : client.Undisturbed (client.tell .closing) :=
    .of_core (core_tell client .closing) (.refl client)
  exact (told.trans (undisturbed_react _ now Channel.destroy)).trans
    (undisturbed_aside _ _ _ _ _ _ _ _)

/-- Nothing but a turn touches what is read, and only listeners that come or go make a difference
to the listeners. -/
theorem move_still (client : Client) {move : Move} (still : move.isTurn = false) :
    (client.move move).1.listeners = move.listening client.listeners ∧
      (client.move move).1.events = client.events ∧
      ∃ begun, (client.move move).1.readings = client.readings ++ begun := by
  cases move with
  | event now change =>
      have undisturbed := client.undisturbed_react now change
      exact ⟨undisturbed.listeners, undisturbed.events, undisturbed.readings⟩
  | call clock now ticket call =>
      cases asks : call.asking? client.settings with
      | some asking =>
          obtain ⟨told, _, same, begun⟩ := client.begin_eq_command clock now ticket asks
          have deaf : (Move.call clock now ticket call).listening client.listeners =
              client.listeners := by
            cases call with
            | login | select | fetch => rfl
            | close | listen | unlisten => cases asks
          have undisturbed : client.Undisturbed (client.begin clock now ticket call).client := by
            rw [begun]
            exact Undisturbed.trans (.of_core same (.refl client))
              (undisturbed_command _ clock now ticket _ _ _ _ _)
          rw [deaf]
          exact ⟨undisturbed.listeners, undisturbed.events, undisturbed.readings⟩
      | none =>
          cases call with
          | login | select | fetch => cases asks
          | close =>
              have undisturbed := client.undisturbed_close now ticket
              exact ⟨undisturbed.listeners, undisturbed.events, undisturbed.readings⟩
          | listen | unlisten => exact ⟨rfl, rfl, [], (List.append_nil _).symm⟩
  | listen | unlisten => exact ⟨rfl, rfl, [], (List.append_nil _).symm⟩
  | turn => cases still

theorem listeners_run (client : Client) (moves : List Move) :
    (client.run moves).1.listeners = moves.foldl Move.listening client.listeners := by
  induction moves generalizing client with
  | nil => rfl
  | cons move moves induction =>
      have here : (client.move move).1.listeners = move.listening client.listeners := by
        cases turns : move.isTurn with
        | false => exact (client.move_still turns).1
        | true =>
            rw [Move.eq_turn turns]
            have kept := listeners_of_core (client.readOn_spec client.readings).2
            exact kept
      rw [List.foldl_cons, ← here]
      exact induction (client.move move).1

/-- A reading keeps its place among the others until its last turn, and how it will end. -/
theorem run_keeps {reading : Reading} {ahead behind : List Reading}
    (holds : client.readings = ahead ++ reading :: behind) (filled : reading.unread ≠ [])
    {moves : List Move} (short : moves.countP Move.isTurn < reading.turnsLeft) :
    ∃ ahead' later behind', (client.run moves).1.readings = ahead' ++ later :: behind' ∧
      later.unread ≠ [] ∧ later.turnsLeft + moves.countP Move.isTurn = reading.turnsLeft ∧
      later.finished = reading.finished := by
  induction moves generalizing client reading ahead behind with
  | nil => exact ⟨ahead, reading, behind, holds, filled, rfl, rfl⟩
  | cons move moves induction =>
      rw [List.countP_cons] at short ⊢
      cases turns : move.isTurn with
      -- What begins to be read comes in behind the others.
      | false =>
          obtain ⟨_, _, begun, behind_eq⟩ := client.move_still turns
          rw [holds, List.append_assoc, List.cons_append] at behind_eq
          rw [turns] at short
          exact induction behind_eq filled short
      -- Those in front of it and behind it may end with the turn, and it takes one of its own.
      | true =>
          rw [turns, if_pos rfl] at short
          obtain ⟨left, same⟩ := Reading.turn_spec filled
          have filled' : reading.turn.1.unread ≠ [] := by
            rw [Ne, Reading.turn_last filled]
            omega
          have goes : reading.left? = some reading.turn.1 := if_neg filled'
          have next : (client.move .turn).1.readings = client.readings.filterMap Reading.left? :=
            readings_of_core (client.readOn_spec client.readings).2
          rw [holds, List.filterMap_append, List.filterMap_cons_some goes] at next
          rw [Move.eq_turn turns, if_pos rfl]
          obtain ⟨ahead', later, behind', kept, rest, count, alike⟩ :=
            induction next filled' (by omega)
          exact ⟨ahead', later, behind', kept, rest, by omega, alike.trans same⟩

end ImapDialogue.Client

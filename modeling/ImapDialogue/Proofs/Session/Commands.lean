import ImapDialogue.Proofs.Session.Events
import ImapDialogue.Proofs.Wire.Cutting
import ImapDialogue.Session.Basic

/-!
What a session says and waits for, as its settings have it, and how each of its calls begins.
-/

namespace ImapDialogue

open History

/-- Settings whose texts have no line ends in them. -/
structure Settings.Unbroken (settings : Settings) : Prop where
  email : Utf8.Unbroken settings.email
  password : Utf8.Unbroken settings.password
  mailbox : ∀ mailbox ∈ settings.mailbox, Utf8.Unbroken mailbox
  sequence : ∀ sequence ∈ settings.fetch.sequence, Utf8.Unbroken sequence
  item : ∀ item ∈ settings.fetch.item, Utf8.Unbroken item
  loginMarker : ∀ marker ∈ settings.markers.login, Utf8.Unbroken marker
  selectMarker : ∀ marker ∈ settings.markers.select, Utf8.Unbroken marker
  fetchMarker : ∀ marker ∈ settings.markers.fetch, Utf8.Unbroken marker

namespace Session

def commandLines (settings : Settings) : List String :=
  ["1 login " ++ Argument.render settings.email ++ " " ++ Argument.render settings.password,
    "2 select " ++ Argument.render (Client.create settings).standardMailbox,
    "3 fetch " ++ settings.fetch.sequence.getD "1:3" ++ " " ++
      settings.fetch.item.getD "BODY.PEEK[]"]

def judges (settings : Settings) : List (Bytes → Option Nat) :=
  [Command.greeting?,
    Command.answer? (Bytes.digits 1) (Utf8.encode (Client.create settings).loginMarker),
    Command.answer? (Bytes.digits 2) (Utf8.encode (Client.create settings).selectMarker),
    Command.answer? (Bytes.digits 3) (Utf8.encode (Client.create settings).fetchMarker)]

def plan (settings : Settings) : Plan :=
  ⟨(commandLines settings).map Channel.lineBytes, judges settings⟩

variable {settings : Settings}

theorem unbroken_of_mem_commandLines (unbroken : settings.Unbroken) {line : String}
    (member : line ∈ commandLines settings) : Utf8.Unbroken line := by
  have mailbox : Utf8.Unbroken (Client.create settings).standardMailbox := by
    apply Utf8.unbroken_getD
    · intro mailbox member
      exact unbroken.mailbox mailbox ((Option.mem_filter_iff.mp member).1)
    · decide
  simp only [commandLines, List.mem_cons, List.not_mem_nil, or_false] at member
  rcases member with rfl | rfl | rfl
  · apply Utf8.unbroken_append _ (Utf8.unbroken_render unbroken.password)
    apply Utf8.unbroken_append _ (by decide)
    exact Utf8.unbroken_append (by decide) (Utf8.unbroken_render unbroken.email)
  · exact Utf8.unbroken_append (by decide) (Utf8.unbroken_render mailbox)
  · apply Utf8.unbroken_append _ (Utf8.unbroken_getD unbroken.item (by decide))
    apply Utf8.unbroken_append _ (by decide)
    exact Utf8.unbroken_append (by decide) (Utf8.unbroken_getD unbroken.sequence (by decide))

theorem lines_of_plan (unbroken : settings.Unbroken) (number : Nat) :
    ((plan settings).lines.take number).flatMap Bytes.lines =
      ((commandLines settings).take number).map Utf8.encode := by
  rw [plan, ← List.map_take, List.flatMap_map, ← List.flatMap_pure_eq_map]
  apply List.flatMap_congr
  intro line member
  exact Bytes.lines_lineBytes
    (unbroken_of_mem_commandLines unbroken (List.mem_of_mem_take member))

/-! ## Stages -/

def greetingStage (settings : Settings) : Stage (plan settings) where
  number := 0
  patterns := Command.greetings
  tests := [Command.greets, Command.parts]
  task := .greeting
  known := Command.recognizes_greetings
  judged := rfl
  first := fun _ => rfl
  last := by simp

structure Turn (settings : Settings) where
  number : Nat
  marker : String
  task : String → Task
  unbroken : Utf8.Unbroken marker
  judged : (judges settings)[number]? =
    some (Command.answer? (Bytes.digits number) (Utf8.encode marker))
  later : number ≠ 0
  last : ∀ tag other, task tag = .fetch other → number = (plan settings).lines.length

def Turn.stage (turn : Turn settings) : Stage (plan settings) where
  number := turn.number
  patterns := Command.answers (toString turn.number) turn.marker
  tests := [Command.completes (Bytes.digits turn.number) (Utf8.encode turn.marker),
    Command.refuses (Bytes.digits turn.number), Command.parts]
  task := turn.task (toString turn.number)
  known := Command.recognizes_tagged turn.number (Utf8.plain_encode turn.unbroken)
  judged := turn.judged
  first := fun same => absurd same turn.later
  last := turn.last (toString turn.number)

theorem Turn.judge_stage (turn : Turn settings) :
    turn.stage.judge = Command.answer? (Bytes.digits turn.number) (Utf8.encode turn.marker) :=
  Command.numbered_answers _ _

end Session

namespace Client

variable {client : Client} {channel : Channel}

theorem command_unwritable [Mail.Reader] {message : String} (has : client.channel = some channel)
    (idle : client.task = none) (opened : channel.Open)
    (fault : channel.writeFault = some message) (clock : Clock) (now : Instant) (ticket : Nat)
    (verb arguments shown marker : String) (task : String → Task) :
    let begun := client.command clock now ticket verb arguments shown marker task
    begun.written = [] ∧ begun.completed = [⟨ticket, .error (.connection message)⟩] ∧
      ∃ channel commands, begun.client.core = { client with
        channel := some channel
        lastTag := client.lastTag + 1
        commands := commands }.core := by
  intro begun
  let tag := toString (client.lastTag + 1)
  let told := tag ++ " " ++ verb ++ " " ++ shown
  let counted : Client := { client with
    channel := some channel
    lastTag := client.lastTag + 1
    commands := client.commands ++ [told] }
  have flowing : (channel.intake.ended || channel.destroyed) = false := by
    rw [opened.flowing, opened.alive]
    rfl
  have sent : ∃ effects, channel.send (tag ++ " " ++ verb ++ " " ++ arguments) (some told) =
      ⟨.error (.connection message), (channel.fail message).1, effects⟩ := by
    simp only [Channel.send, flowing, fault, Bool.false_eq_true, if_false]
    exact ⟨_, rfl⟩
  obtain ⟨effects, sent⟩ := sent
  have seen := core_absorb (counted.tell (.sending told)) (channel.fail message).1 effects
  have idle' : ((counted.tell (.sending told)).absorb (channel.fail message).1 effects).task =
      none := (task_of_core seen).trans idle
  have begun_eq : begun = ⟨(counted.tell (.sending told)).absorb (channel.fail message).1 effects,
      [], [⟨ticket, .error (.connection message)⟩]⟩ := by
    simp only [begun, command, has]
    rw [show toString (client.lastTag + 1) ++ " " ++ verb ++ " " ++ arguments =
      tag ++ " " ++ verb ++ " " ++ arguments from rfl, show toString (client.lastTag + 1) ++ " " ++
      verb ++ " " ++ shown = told from rfl, sent]
    dsimp only
    rw [settle_idle idle']
  rw [begun_eq]
  exact ⟨rfl, rfl, _, _, seen⟩

end Client

end ImapDialogue

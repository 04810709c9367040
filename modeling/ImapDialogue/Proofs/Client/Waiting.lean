import ImapDialogue.Proofs.Channel.Hearing
import ImapDialogue.Proofs.Client.Core
import ImapDialogue.Proofs.Wire.Utf8

/-!
A client that waits for the answer to a command. What it makes of the chunks that arrive is what
the reader of lines makes of all the data since the last line that was consumed.
-/

namespace ImapDialogue.Client

open Command (Recognizes numbered)

variable {client : Client} {channel : Channel}

/-- A client on an open channel that no call waits on. -/
structure Ready (client : Client) (channel : Channel) : Prop where
  connected : client.channel = some channel
  idle : client.task = none
  opened : channel.Open
  free : channel.intake.wait = none
  writable : channel.writeFault = none

theorem Ready.channel_hear (ready : client.Ready channel) (chunks : List Bytes) :
    channel.hear chunks =
      (channel.holding (channel.intake.unread ++ chunks.flatten) none, []) := by
  have held : channel = channel.holding channel.intake.unread none := by
    rw [← ready.free]
    rfl
  exact (congrArg (·.hear chunks) held).trans (Channel.hear_free ready.opened _ chunks)

section Reader

variable [Mail.Reader]

/-- The client that chunks leave behind which arrive one after the other, and the calls that they
end. -/
def hear (client : Client) (now : Instant) : List Bytes → Client × List Completion
  | [] => (client, [])
  | chunk :: chunks =>
      let step := client.react now (·.receive chunk)
      let (last, completed) := step.client.hear now chunks
      (last, step.completed ++ completed)

theorem hear_cons (client : Client) (now : Instant) (chunk : Bytes) (chunks : List Bytes) :
    client.hear now (chunk :: chunks) =
      (((client.react now (·.receive chunk)).client.hear now chunks).1,
        (client.react now (·.receive chunk)).completed ++
          ((client.react now (·.receive chunk)).client.hear now chunks).2) := rfl

theorem react_silent (has : client.channel = some channel) (now : Instant)
    (change : Channel → Channel × Effects) (silent : (change channel).2.settled = []) :
    (client.react now change).completed = [] ∧
      (client.react now change).client.core =
        { client with channel := some (change channel).1 }.core := by
  simp only [react, has, silent, settle, true_and]
  exact core_absorb client _ _

theorem react_settled (has : client.channel = some channel) (now : Instant)
    (change : Channel → Channel × Effects) {task : Task} (waits : client.task = some task)
    {settlement : Settlement} (settled : (change channel).2.settled = [settlement]) :
    (client.react now change).completed =
        ends now settlement.ticket settlement.result task ∧
      ∃ greeting mailbox, (client.react now change).client.core = { client with
        channel := some (left task settlement.result (change channel).1)
        task := none
        greeting := greeting
        mailbox := mailbox
        readings := client.readings ++
          begins now settlement.ticket settlement.result task }.core := by
  have seen := core_absorb client (change channel).1 (change channel).2
  have waits' : (client.absorb (change channel).1 (change channel).2).task = some task :=
    (task_of_core seen).trans waits
  simp only [react, has, settled, settle, waits', List.append_nil]
  refine ⟨conclude_completed _ now _ task _, ?_⟩
  obtain ⟨greeting, mailbox, concluded⟩ := conclude_core
    { client.absorb (change channel).1 (change channel).2 with task := none } now
    settlement.ticket task settlement.result
  refine ⟨greeting, mailbox, concluded.trans ?_⟩
  exact congrArg (fun (seen : Client) => { seen with
    channel := seen.channel.map (left task settlement.result)
    task := none
    greeting := greeting
    mailbox := mailbox
    readings := seen.readings ++ begins now settlement.ticket settlement.result task }) seen

theorem settle_idle (idle : client.task = none) (now : Instant) (settled : List Settlement) :
    client.settle now settled = (client, []) := by
  induction settled with
  | nil => rfl
  | cons settlement settled induction => rw [settle, idle]; exact induction

theorem hear_idle (has : client.channel = some channel) (idle : client.task = none)
    (now : Instant) (chunks : List Bytes) :
    (client.hear now chunks).2 = [] ∧
      (client.hear now chunks).1.core =
        { client with channel := some (channel.hear chunks).1 }.core := by
  induction chunks generalizing client channel with
  | nil =>
      rw [hear, Channel.hear, ← has]
      exact ⟨rfl, rfl⟩
  | cons chunk chunks induction =>
      have seen := core_absorb client (channel.receive chunk).1 (channel.receive chunk).2
      have idle' := (task_of_core seen).trans idle
      have step : client.react now (·.receive chunk) =
          ⟨client.absorb (channel.receive chunk).1 (channel.receive chunk).2,
            (channel.receive chunk).2.written, []⟩ := by
        simp only [react, has, settle_idle idle']
      obtain ⟨silent, later⟩ := induction (channel_of_core seen) idle'
      rw [hear_cons, step]
      refine ⟨silent, later.trans ?_⟩
      exact congrArg (fun (seen : Client) => { seen with
        channel := some ((channel.receive chunk).1.hear chunks).1 }) seen

/-! ## Commands -/

/-- How a call stands behind some data: it waits, or has come as far as the line that was read
lets it. -/
def Stands (before : Client) (now : Instant) (channel : Channel) (wait : Wait) (task : Task)
    (unread : Bytes) (result : Option (Match × Bytes)) (after : Client)
    (completed : List Completion) : Prop :=
  match result with
  | none =>
      completed = [] ∧ after.core = { before with
        channel := some (channel.holding unread (some wait))
        task := some task }.core
  | some (found, rest) =>
      completed = ends now wait.ticket (.ok found) task ∧
        ∃ greeting mailbox, after.core = { before with
          channel := some (left task (.ok found) (channel.holding rest none))
          task := none
          greeting := greeting
          mailbox := mailbox
          readings := before.readings ++ begins now wait.ticket (.ok found) task }.core

theorem Stands.of_core {before before' after : Client} {now : Instant} {wait : Wait} {task : Task}
    {unread : Bytes} {result : Option (Match × Bytes)} {completed : List Completion}
    (same : before.core = before'.core)
    (stands : before.Stands now channel wait task unread result after completed) :
    before'.Stands now channel wait task unread result after completed := by
  cases result with
  | none =>
      obtain ⟨nothing, behind⟩ := stands
      exact ⟨nothing, behind.trans (congrArg (fun (same : Client) => { same with
        channel := some (channel.holding unread (some wait))
        task := some task }) same)⟩
  | some result =>
      obtain ⟨ended, greeting, mailbox, behind⟩ := stands
      exact ⟨ended, greeting, mailbox, behind.trans (congrArg (fun (same : Client) => { same with
        channel := some (left task (.ok result.1) (channel.holding result.2 none))
        task := none
        greeting := greeting
        mailbox := mailbox
        readings := same.readings ++ begins now wait.ticket (.ok result.1) task }) same)⟩

section Waiting

variable {wait : Wait} {task : Task} {tests : List (Bytes → Bool)}

theorem react_waiting {before : Client} (opened : channel.Open)
    (known : List.Forall₂ Recognizes wait.patterns tests) (now : Instant) {unread : Bytes}
    (reads : LineReader.read (numbered 0 tests) unread = none)
    (same : client.core = { before with
      channel := some (channel.holding unread (some wait))
      task := some task }.core) (chunk : Bytes) :
    before.Stands now channel wait task (unread ++ chunk)
      (LineReader.read (numbered 0 tests) (unread ++ chunk))
      (client.react now (·.receive chunk)).client
      (client.react now (·.receive chunk)).completed := by
  obtain ⟨moved, settled⟩ := Channel.receive_standing opened known reads chunk
  cases later : LineReader.read (numbered 0 tests) (unread ++ chunk) with
  | none =>
      rw [later] at moved settled
      obtain ⟨nothing, seen⟩ := react_silent (channel_of_core same) now (·.receive chunk) settled
      refine ⟨nothing, seen.trans ?_⟩
      rw [moved]
      exact congrArg (fun (same : Client) => { same with
        channel := some (channel.holding (unread ++ chunk) (some wait)) }) same
  | some result =>
      obtain ⟨found, rest⟩ := result
      rw [later] at moved settled
      obtain ⟨ended, greeting, mailbox, seen⟩ :=
        react_settled (channel_of_core same) now (·.receive chunk) (task_of_core same) settled
      refine ⟨ended, greeting, mailbox, seen.trans ?_⟩
      rw [moved]
      exact congrArg (fun (same : Client) => { same with
        channel := some (left task (.ok found) (channel.holding rest none))
        task := none
        greeting := greeting
        mailbox := mailbox
        readings := same.readings ++ begins now wait.ticket (.ok found) task }) same

theorem react_stands {before : Client} (opened : channel.Open)
    (known : List.Forall₂ Recognizes wait.patterns tests) (command : task ≠ .greeting)
    (now : Instant) {unread : Bytes} {completed : List Completion}
    (stands : before.Stands now channel wait task unread
      (LineReader.read (numbered 0 tests) unread) client completed) (chunk : Bytes) :
    before.Stands now channel wait task (unread ++ chunk)
      (LineReader.read (numbered 0 tests) (unread ++ chunk))
      (client.react now (·.receive chunk)).client
      (completed ++ (client.react now (·.receive chunk)).completed) := by
  cases reads : LineReader.read (numbered 0 tests) unread with
  -- What is read stays read, and the chunk joins what follows it.
  | some result =>
      obtain ⟨found, rest⟩ := result
      rw [reads] at stands
      obtain ⟨rfl, greeting, mailbox, same⟩ := stands
      rw [left_command command] at same
      obtain ⟨grown, silent⟩ := Channel.receive_free opened rest chunk
      obtain ⟨nothing, seen⟩ := react_silent (channel_of_core same) now (·.receive chunk) silent
      rw [LineReader.read_append reads, nothing, List.append_nil]
      refine ⟨rfl, greeting, mailbox, seen.trans ?_⟩
      rw [grown, left_command command]
      exact congrArg (fun (same : Client) => { same with
        channel := some (channel.holding (rest ++ chunk) none) }) same
  | none =>
      rw [reads] at stands
      obtain ⟨rfl, same⟩ := stands
      exact react_waiting opened known now reads same chunk

theorem hear_stands {before : Client} (opened : channel.Open)
    (known : List.Forall₂ Recognizes wait.patterns tests) (command : task ≠ .greeting)
    (now : Instant) {unread : Bytes} {completed : List Completion}
    (stands : before.Stands now channel wait task unread
      (LineReader.read (numbered 0 tests) unread) client completed) (chunks : List Bytes) :
    before.Stands now channel wait task (unread ++ chunks.flatten)
      (LineReader.read (numbered 0 tests) (unread ++ chunks.flatten))
      (client.hear now chunks).1 (completed ++ (client.hear now chunks).2) := by
  induction chunks generalizing client unread completed with
  | nil => simpa [hear] using stands
  | cons chunk chunks induction =>
      have later := induction (react_stands opened known command now stands chunk)
      rw [List.flatten_cons, hear_cons, ← List.append_assoc, ← List.append_assoc]
      exact later

theorem await_stands {unread : Bytes} {patterns : List Pattern} (task : Task)
    (has : client.channel = some (channel.holding unread none)) (idle : client.task = none)
    (opened : channel.Open) (known : List.Forall₂ Recognizes patterns tests) (clock : Clock)
    (now : Instant) (ticket : Nat) :
    client.Stands now channel ⟨ticket, patterns, client.timeout, clock.timer client.timeout⟩
      task unread (LineReader.read (numbered 0 tests) unread)
      (client.await clock now ticket patterns task).client
      (client.await clock now ticket patterns task).completed := by
  have known' : List.Forall₂ Recognizes
      (Wait.mk ticket patterns client.timeout (clock.timer client.timeout)).patterns tests := known
  obtain ⟨moved, settled⟩ := Channel.await_standing opened known' unread
  have seen := fun effects => core_absorb client
    (channel.standing ⟨ticket, patterns, client.timeout, clock.timer client.timeout⟩ unread
      (LineReader.read (numbered 0 tests) unread)).1 effects
  simp only [await, has, moved, settled]
  cases reads : LineReader.read (numbered 0 tests) unread with
  | none =>
      rw [reads] at seen
      refine ⟨rfl, ?_⟩
      exact congrArg (fun (seen : Client) => { seen with task := some task }) (seen _)
  | some result =>
      obtain ⟨found, rest⟩ := result
      rw [reads] at seen
      refine ⟨conclude_completed _ now ticket task _, ?_⟩
      obtain ⟨greeting, mailbox, concluded⟩ := conclude_core _ now ticket task (.ok found)
      refine ⟨greeting, mailbox, concluded.trans ?_⟩
      rw [← idle]
      exact congrArg (fun (seen : Client) => { seen with
        channel := seen.channel.map (left task (.ok found))
        greeting := greeting
        mailbox := mailbox
        readings := seen.readings ++ begins now ticket (.ok found) task }) (seen _)

/-- A command that can be sent is written at once, and its call stands where the reader of lines
stands. -/
theorem command_stands {unread : Bytes} {marker : String} (task : String → Task)
    (has : client.channel = some (channel.holding unread none)) (idle : client.task = none)
    (opened : channel.Open) (writable : channel.writeFault = none)
    (plain : Line.Plain (Utf8.encode marker)) (clock : Clock) (now : Instant) (ticket : Nat)
    (verb arguments shown : String) :
    let tag := toString (client.lastTag + 1)
    let begun := client.command clock now ticket verb arguments shown marker task
    begun.written = [Channel.lineBytes (tag ++ " " ++ verb ++ " " ++ arguments)] ∧
      { client with
        lastTag := client.lastTag + 1
        commands := client.commands ++ [tag ++ " " ++ verb ++ " " ++ shown] }.Stands now channel
        ⟨ticket, Command.answers tag marker, client.timeout, clock.timer client.timeout⟩ (task tag)
        unread
        (LineReader.read
          (Command.answer? (Bytes.digits (client.lastTag + 1)) (Utf8.encode marker)) unread)
        begun.client begun.completed := by
  intro tag begun
  let line := tag ++ " " ++ verb ++ " " ++ arguments
  let counted : Client := { client with
    lastTag := client.lastTag + 1
    commands := client.commands ++ [tag ++ " " ++ verb ++ " " ++ shown] }
  let effects : Effects := { Effects.none with
    traffic := [⟨.outgoing, Channel.lineBytes (tag ++ " " ++ verb ++ " " ++ shown)⟩]
    written := [Channel.lineBytes line] }
  let ready := (counted.tell (.sending (tag ++ " " ++ verb ++ " " ++ shown))).absorb
    (channel.holding unread none) effects
  have sent : (channel.holding unread none).send line (some (tag ++ " " ++ verb ++ " " ++ shown)) =
      ⟨.ok (), channel.holding unread none, effects⟩ := by
    have flowing : ((channel.holding unread none).intake.ended ||
        (channel.holding unread none).destroyed) = false := by
      simpa [Channel.holding, Intake.holding] using And.intro opened.flowing opened.alive
    have writable' : (channel.holding unread none).writeFault = none := writable
    simp only [Channel.send, flowing, writable', Bool.false_eq_true, if_false]
    rfl
  have counts : ready.core = { counted with channel := some (channel.holding unread none) }.core :=
    core_absorb _ _ effects
  have unchanged : { counted with channel := some (channel.holding unread none) } = counted := by
    rw [← has]
  rw [unchanged] at counts
  have has' : ready.channel = some (channel.holding unread none) :=
    (channel_of_core counts).trans has
  have awaited := await_stands (task tag) has' ((task_of_core counts).trans idle) opened
    (Command.recognizes_tagged (client.lastTag + 1) plain) clock now ticket
  have patient : ready.timeout = client.timeout := by
    rw [timeout, timeout, settings_of_core counts]
  rw [patient, Command.numbered_answers] at awaited
  have begun_eq : begun = { ready.await clock now ticket (Command.answers tag marker) (task tag) with
      written := [Channel.lineBytes line] ++
        (ready.await clock now ticket (Command.answers tag marker) (task tag)).written
      completed := [] ++
        (ready.await clock now ticket (Command.answers tag marker) (task tag)).completed } := by
    simp only [begun, Client.command, has]
    rw [show toString (client.lastTag + 1) ++ " " ++ verb ++ " " ++ arguments = line from rfl,
      show toString (client.lastTag + 1) ++ " " ++ verb ++ " " ++ shown =
        tag ++ " " ++ verb ++ " " ++ shown from rfl, sent]
    rfl
  rw [begun_eq, await_written]
  exact ⟨rfl, awaited.of_core counts⟩

end Waiting

theorem Ready.hear (ready : client.Ready channel) (now : Instant) (chunks : List Bytes) :
    (client.hear now chunks).2 = [] ∧ (client.hear now chunks).1.core = { client with
      channel := some
        (channel.holding (channel.intake.unread ++ chunks.flatten) none) }.core := by
  have quiet := hear_idle ready.connected ready.idle now chunks
  rw [ready.channel_hear chunks] at quiet
  exact quiet

theorem Stands.channel_eq {before after : Client} {now : Instant} {wait : Wait} {task : Task}
    {unread : Bytes} {result : Option (Match × Bytes)} {completed : List Completion}
    (command : task ≠ .greeting)
    (stands : before.Stands now channel wait task unread result after completed) :
    after.channel = some (channel.standing wait unread result).1 ∧
      completed = (result.map fun (found, _) => ends now wait.ticket (.ok found) task).getD [] := by
  cases result with
  | none => exact ⟨channel_of_core stands.2, stands.1⟩
  | some result =>
      obtain ⟨ended, greeting, mailbox, behind⟩ := stands
      rw [left_command command] at behind
      exact ⟨channel_of_core behind, ended⟩

/-- A command that comes somewhere between the chunks stands where the reader of lines stands on
all of them. -/
theorem Ready.command_stands {marker : String} {task : String → Task}
    (ready : client.Ready channel) (unbroken : Utf8.Unbroken marker)
    (command : ∀ tag, task tag ≠ .greeting) (clock : Clock) (now : Instant) (ticket : Nat)
    (verb arguments shown : String) (early late : List Bytes) :
    let stream := channel.intake.unread ++ (early ++ late).flatten
    let tag := toString (client.lastTag + 1)
    let wait : Wait :=
      ⟨ticket, Command.answers tag marker, client.timeout, clock.timer client.timeout⟩
    let begun :=
      (client.hear now early).1.command clock now ticket verb arguments shown marker task
    let before : Client := { client with
      channel := some (channel.holding (channel.intake.unread ++ early.flatten) none)
      lastTag := client.lastTag + 1
      commands := client.commands ++ [tag ++ " " ++ verb ++ " " ++ shown] }
    begun.client.channel = some ((channel.hear early).1.await wait).1 ∧
      before.Stands now channel wait (task tag) stream
        (LineReader.read (Command.answer? (Bytes.ofNarrow tag) (Utf8.encode marker)) stream)
        (begun.client.hear now late).1 (begun.completed ++ (begun.client.hear now late).2) := by
  intro stream tag wait begun before
  have plain := Utf8.plain_encode unbroken
  have same := (ready.hear now early).2
  have has : (client.hear now early).1.channel = some (channel.holding
      (channel.intake.unread ++ early.flatten) none) := channel_of_core same
  have idle : (client.hear now early).1.task = none := (task_of_core same).trans ready.idle
  have counted : (client.hear now early).1.lastTag = client.lastTag := by
    have fields := lastTag_of_core same
    exact fields
  have patient : (client.hear now early).1.timeout = client.timeout := by
    rw [timeout, timeout, settings_of_core same]
  let tests := [Command.completes (Bytes.digits (client.lastTag + 1)) (Utf8.encode marker),
    Command.refuses (Bytes.digits (client.lastTag + 1)), Command.parts]
  have known : List.Forall₂ Recognizes wait.patterns tests :=
    Command.recognizes_tagged (client.lastTag + 1) plain
  have begins := (Client.command_stands task has idle ready.opened ready.writable plain clock now
    ticket verb arguments shown).2
  rw [counted, patient, ← Command.numbered_answers] at begins
  have waits := (Channel.await_standing ready.opened known
    (channel.intake.unread ++ early.flatten)).1
  have heard : (channel.hear early).1 =
      channel.holding (channel.intake.unread ++ early.flatten) none := by
    rw [ready.channel_hear early]
  have stands := hear_stands ready.opened known (command tag) now begins late
  have whole : channel.intake.unread ++ early.flatten ++ late.flatten = stream := by
    simp only [stream, List.flatten_append, List.append_assoc]
  rw [whole] at stands
  refine ⟨?_, stands.of_core ?_⟩
  · rw [heard, waits]
    exact (begins.channel_eq (command tag)).1
  · exact congrArg (fun (same : Client) => { same with
      lastTag := client.lastTag + 1
      commands := same.commands ++ [tag ++ " " ++ verb ++ " " ++ shown] }) same

/-- The wait of a command refines the reader of lines. However the data since the last consumed
line is cut, and wherever the command comes in between, the wait that it begins ends with what
the reader makes of the whole, and leaves what the reader leaves. -/
theorem command_reads_lines {marker : String} {task : String → Task}
    (ready : client.Ready channel) (unbroken : Utf8.Unbroken marker)
    (command : ∀ tag, task tag ≠ .greeting) (clock : Clock) (now : Instant) (ticket : Nat)
    (verb arguments shown : String) (early late : List Bytes) :
    let stream := channel.intake.unread ++ (early ++ late).flatten
    let tag := toString (client.lastTag + 1)
    let result :=
      LineReader.read (Command.answer? (Bytes.ofNarrow tag) (Utf8.encode marker)) stream
    let wait : Wait :=
      ⟨ticket, Command.answers tag marker, client.timeout, clock.timer client.timeout⟩
    let begun :=
      (client.hear now early).1.command clock now ticket verb arguments shown marker task
    let opened := (channel.hear early).1.await wait
    let heard := opened.1.hear late
    let last := begun.client.hear now late
    begun.client.channel = some opened.1 ∧ last.1.channel = some heard.1 ∧
      opened.2.settled ++ heard.2 = (result.map fun (found, _) => ⟨ticket, .ok found⟩).toList ∧
      heard.1.intake.unread = (result.map (·.2)).getD stream ∧
      heard.1.intake.wait = (if result.isNone then some wait else none) ∧
      begun.completed ++ last.2 =
        (result.map fun (found, _) => ends now ticket (.ok found) (task tag)).getD [] := by
  intro stream tag result wait begun opened heard last
  obtain ⟨begins, stands⟩ := ready.command_stands unbroken command clock now ticket verb arguments
    shown early late
  have known : List.Forall₂ Recognizes wait.patterns
      [Command.completes (Bytes.digits (client.lastTag + 1)) (Utf8.encode marker),
        Command.refuses (Bytes.digits (client.lastTag + 1)), Command.parts] :=
    Command.recognizes_tagged (client.lastTag + 1) (Utf8.plain_encode unbroken)
  have opened_eq : opened =
      (channel.holding (channel.intake.unread ++ early.flatten) none).await wait := by
    simp only [opened, ready.channel_hear early]
  have ended := Channel.await_hear_standing ready.opened known
    (channel.intake.unread ++ early.flatten) late
  have whole : channel.intake.unread ++ early.flatten ++ late.flatten = stream := by
    simp only [stream, List.flatten_append, List.append_assoc]
  rw [whole, ← opened_eq] at ended
  obtain ⟨heard_eq, settled_eq⟩ := Prod.mk.inj ended
  obtain ⟨channel_eq, completed_eq⟩ := stands.channel_eq (command tag)
  refine ⟨begins, ?_, ?_, ?_, ?_, completed_eq⟩
  · rw [show heard.1 = _ from heard_eq]
    exact channel_eq
  · rw [show opened.2.settled ++ heard.2 = _ from settled_eq]
    change (channel.standing wait stream result).2 = _
    cases result <;> rfl
  · rw [show heard.1 = _ from heard_eq]
    change (channel.standing wait stream result).1.intake.unread = _
    cases result <;> rfl
  · rw [show heard.1 = _ from heard_eq]
    change (channel.standing wait stream result).1.intake.wait = _
    cases result <;> rfl

end Reader

def openSettings : Settings :=
  ⟨"localhost", 993, "reader", "secret", none, .skip, default, default, none, .off, default⟩

def connected : Client := { create openSettings with channel := some (.fresh true) }

theorem ready_connected : connected.Ready (.fresh true) := ⟨rfl, rfl, ⟨rfl, rfl, rfl, rfl⟩, rfl, rfl⟩

/-- A line in a literal is passed over, and the answer arrives in pieces on both sides of the
command. -/
theorem command_reads_cut_lines :
    connected.Ready (.fresh true) ∧ Utf8.Unbroken "done" ∧ (∀ tag, Task.login tag ≠ .greeting) ∧
      let wait : Wait := ⟨7, Command.answers (toString (connected.lastTag + 1)) "done",
        connected.timeout, Clock.start.timer connected.timeout⟩
      let opened := ((Channel.fresh true).hear [Bytes.ofNarrow "\x7b11\x7d\r\n1 OK d"]).1.await wait
      let heard := opened.1.hear
        [Bytes.ofNarrow "one\r\n1 O", Bytes.ofNarrow "K all done\r", [0x0A]]
      opened.2.settled ++ heard.2 =
        [⟨7, .ok ⟨0, Bytes.ofNarrow "\x7b11\x7d\r\n1 OK done\r\n",
          Bytes.ofNarrow "1 OK all done\r\n"⟩⟩] := by
  refine ⟨ready_connected, by decide, by simp, ?_⟩
  have reads := @command_reads_lines connected (.fresh true) _ "done" .login ready_connected
    (by decide) (by simp) .start ⟨0⟩ 7 "login" "" ""
    [Bytes.ofNarrow "\x7b11\x7d\r\n1 OK d"]
    [Bytes.ofNarrow "one\r\n1 O", Bytes.ofNarrow "K all done\r", [0x0A]]
  exact reads.2.2.1

end ImapDialogue.Client

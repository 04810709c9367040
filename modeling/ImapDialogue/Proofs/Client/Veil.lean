import ImapDialogue.Proofs.Channel.Incidents
import ImapDialogue.Proofs.Client.Core
import ImapDialogue.Proofs.Wire.Cutting

/-!
A client with its password taken away. Whatever happens on its channel it does the same, and so it
does for every call, apart from the line in which a login sends the password.
-/

namespace ImapDialogue

def Settings.veiled (settings : Settings) : Settings := { settings with password := "" }

namespace Client

/-- The client with the password taken away. -/
def veiled (client : Client) : Client := { client with settings := client.settings.veiled }

variable {client : Client}

@[simp] theorem channel_veiled (client : Client) : client.veiled.channel = client.channel := rfl

@[simp] theorem timer?_veiled (client : Client) : client.veiled.timer? = client.timer? := rfl

@[simp] theorem veiled_tell (client : Client) (notice : Notice) :
    client.veiled.tell notice = (client.tell notice).veiled := rfl

@[simp] theorem veiled_tellAll (client : Client) (notices : List Notice) :
    client.veiled.tellAll notices = (client.tellAll notices).veiled := by
  induction notices generalizing client with
  | nil => rfl
  | cons notice notices induction => exact induction (client.tell notice)

theorem veiled_observe (client : Client) (traffic : Traffic) :
    client.veiled.observe traffic = (client.observe traffic).veiled := by
  have same : client.veiled.settings.logging.traffic = client.settings.logging.traffic := rfl
  rw [observe, observe, same]
  cases client.settings.logging.traffic <;> rfl

@[simp] theorem veiled_absorb (client : Client) (channel : Channel) (effects : Effects) :
    client.veiled.absorb channel effects = (client.absorb channel effects).veiled := by
  have shown : ∀ (traffic : List Traffic) (client : Client),
      traffic.foldl observe client.veiled = (traffic.foldl observe client).veiled := by
    intro traffic
    induction traffic with
    | nil => exact fun _ => rfl
    | cons first others induction =>
        intro client
        rw [List.foldl_cons, veiled_observe, induction, List.foldl_cons]
  rw [absorb, absorb, ← veiled_tellAll, ← shown]
  rfl

/-! ## Ends of waits -/

theorem veiled_concludeGreeting (client : Client) (result : Except Failure Match) :
    client.veiled.concludeGreeting result =
      ((client.concludeGreeting result).1.veiled, (client.concludeGreeting result).2) := by
  cases result with
  | error failure => rfl
  | ok found =>
      simp only [concludeGreeting]
      split <;> rfl

theorem veiled_concludeCommand (client : Client) (tag : String) (result : Except Failure Match) :
    client.veiled.concludeCommand tag result =
      ((client.concludeCommand tag result).1.veiled, (client.concludeCommand tag result).2) := by
  cases result with
  | error failure => rfl
  | ok found =>
      simp only [concludeCommand]
      split
      · rfl
      · rw [veiled_tellAll]

theorem veiled_readOn (client : Client) (readings : List Reading) :
    client.veiled.readOn readings =
      ((client.readOn readings).1.veiled, (client.readOn readings).2) := by
  induction readings generalizing client with
  | nil => rfl
  | cons reading others induction =>
      rw [readOn, readOn]
      dsimp only
      rw [veiled_tellAll]
      split
      · rw [show ∀ (client : Client) mails, client.veiled.announce mails =
          (client.announce mails).veiled from fun _ _ => rfl, induction]
      · rw [induction]
        rfl

theorem veiled_read (client : Client) (turns : Nat) :
    client.veiled.read turns = ((client.read turns).1.veiled, (client.read turns).2) := by
  induction turns generalizing client with
  | zero => rfl
  | succ turns induction =>
      rw [read, read, show client.veiled.readings = client.readings from rfl, veiled_readOn]
      dsimp only
      rw [induction]

theorem veiled_readAll (client : Client) :
    client.veiled.readAll = (client.readAll.1.veiled, client.readAll.2) :=
  client.veiled_read _

variable [Mail.Reader]

theorem veiled_decodeFetch (client : Client) (now : Instant) (ticket : Nat) (before : Bytes) :
    client.veiled.decodeFetch now ticket before =
      ((client.decodeFetch now ticket before).1.veiled,
        (client.decodeFetch now ticket before).2) := by
  unfold decodeFetch
  dsimp only
  rw [veiled_tellAll, veiled_tell]
  split <;> rfl

theorem veiled_conclude (client : Client) (now : Instant) (ticket : Nat) (task : Task)
    (result : Except Failure Match) :
    client.veiled.conclude now ticket task result =
      ((client.conclude now ticket task result).1.veiled,
        (client.conclude now ticket task result).2) := by
  cases task with
  | greeting => simp only [conclude, veiled_concludeGreeting]
  | login tag => simp only [conclude, veiled_concludeCommand]
  | select tag mailbox =>
      simp only [conclude, veiled_concludeCommand]
      generalize client.concludeCommand tag result = outcome
      obtain ⟨behind, found | failure⟩ := outcome <;> rfl
  | fetch tag =>
      simp only [conclude, veiled_concludeCommand]
      generalize client.concludeCommand tag result = outcome
      obtain ⟨behind, failure | found⟩ := outcome
      · rfl
      · exact behind.veiled_decodeFetch now ticket found.before

theorem veiled_settle (client : Client) (now : Instant) (settled : List Settlement) :
    client.veiled.settle now settled =
      ((client.settle now settled).1.veiled, (client.settle now settled).2) := by
  induction settled generalizing client with
  | nil => rfl
  | cons settlement others induction =>
      cases busy : client.task with
      | none =>
          have busy' : client.veiled.task = none := busy
          rw [settle, settle, busy, busy']
          exact induction client
      | some task =>
          have busy' : client.veiled.task = some task := busy
          rw [settle, settle, busy, busy']
          have freed := { client with task := none }.veiled_conclude now settlement.ticket task
            settlement.result
          dsimp only
          rw [show ({ client.veiled with task := none } : Client) =
            ({ client with task := none } : Client).veiled from rfl, freed]
          dsimp only
          rw [induction]

/-! ## Steps -/

/-- A step and the same step of the client without its password. What goes out may differ, though
neither in how often something does nor in the number of its lines. -/
structure Alike (step step' : Step) : Prop where
  client : step'.client = step.client.veiled
  completed : step'.completed = step.completed
  written : step'.written.length = step.written.length
  lines : (step'.written.flatMap Bytes.lines).length = (step.written.flatMap Bytes.lines).length

theorem veiled_react (client : Client) (now : Instant) (change : Channel → Channel × Effects) :
    client.veiled.react now change =
      { client.react now change with client := (client.react now change).client.veiled } := by
  rw [react, react, channel_veiled]
  cases client.channel with
  | none => rfl
  | some channel =>
      dsimp only
      rw [veiled_absorb, veiled_settle]

theorem veiled_await (client : Client) (clock : Clock) (now : Instant) (ticket : Nat)
    (patterns : List Pattern) (task : Task) :
    client.veiled.await clock now ticket patterns task =
      { client.await clock now ticket patterns task with
        client := (client.await clock now ticket patterns task).client.veiled } := by
  rw [await, await, channel_veiled]
  cases client.channel with
  | none => rfl
  | some channel =>
      dsimp only
      rw [show client.veiled.timeout = client.timeout from rfl, veiled_absorb]
      split
      · rfl
      · rw [veiled_conclude]

theorem veiled_goOn (client : Client) (clock : Clock) (now : Instant) (ticket : Nat)
    (patterns : List Pattern) (task : Task) (sent : Channel.Sent) :
    client.veiled.goOn clock now ticket patterns task sent =
      { client.goOn clock now ticket patterns task sent with
        client := (client.goOn clock now ticket patterns task sent).client.veiled } := by
  rw [goOn, goOn, veiled_absorb, veiled_settle]
  dsimp only
  cases sent.result with
  | error failure => rfl
  | ok =>
      dsimp only
      rw [veiled_await]

end Client

/-! ## Commands -/

theorem Channel.send_line (channel : Channel) (line line' shown : String) :
    channel.send line' (some shown) = { channel.send line (some shown) with
      effects := { (channel.send line (some shown)).effects with
        written := (channel.send line (some shown)).effects.written.map fun _ =>
          lineBytes line' } } := by
  unfold send
  dsimp only
  split
  · rfl
  · split
    · next message _ =>
        have quiet := (channel.quiet_fail message).written
        simp [Effects.append, Effects.none, quiet]
    · rfl

namespace Client

variable [Mail.Reader]

theorem written_goOn (client : Client) (clock : Clock) (now : Instant) (ticket : Nat)
    (patterns : List Pattern) (task : Task) (sent : Channel.Sent) :
    (client.goOn clock now ticket patterns task sent).written =
      if sent.result.isOk then sent.effects.written else [] := by
  rw [goOn]
  cases sent.result with
  | error failure => rfl
  | ok =>
      dsimp only
      rw [await_written, List.append_nil]
      rfl

theorem goOn_sending (client : Client) (clock : Clock) (now : Instant) (ticket : Nat)
    (patterns : List Pattern) (task : Task) (sent : Channel.Sent) (written : List Bytes) :
    client.goOn clock now ticket patterns task
        { sent with effects := { sent.effects with written := written } } =
      { client.goOn clock now ticket patterns task sent with
        written := if sent.result.isOk then written else [] } := by
  have absorbed : client.absorb sent.channel { sent.effects with written := written } =
      client.absorb sent.channel sent.effects := rfl
  rw [goOn, goOn, absorbed]
  dsimp only
  cases sent.result with
  | error failure => rfl
  | ok =>
      dsimp only
      rw [await_written, List.append_nil]
      rfl

/-- Two commands that are shown alike, as long as as many lines arrive of the one as of the
other. -/
theorem alike_command (client : Client) (clock : Clock) (now : Instant) (ticket : Nat)
    {verb arguments arguments' : String} (shown marker : String) (task : String → Task)
    (lines : ∀ front,
      (Bytes.lines (Channel.lineBytes (front ++ " " ++ verb ++ " " ++ arguments'))).length =
        (Bytes.lines (Channel.lineBytes (front ++ " " ++ verb ++ " " ++ arguments))).length) :
    Alike (client.command clock now ticket verb arguments shown marker task)
      (client.veiled.command clock now ticket verb arguments' shown marker task) := by
  cases has : client.channel with
  | none =>
      have has' : client.veiled.channel = none := has
      rw [command, command, has, has']
      exact ⟨rfl, rfl, rfl, rfl⟩
  | some channel =>
      have has' : client.veiled.channel = some channel := has
      let tag := toString (client.lastTag + 1)
      let line := tag ++ " " ++ verb ++ " " ++ arguments
      let line' := tag ++ " " ++ verb ++ " " ++ arguments'
      let told := tag ++ " " ++ verb ++ " " ++ shown
      obtain ⟨_, _, outcome⟩ := channel.send_spec line told
      rw [command_eq has, command_eq has']
      change Alike ((client.counting told).goOn clock now ticket (Command.answers tag marker)
        (task tag) (channel.send line (some told)))
        ((client.counting told).veiled.goOn clock now ticket (Command.answers tag marker) (task tag)
          (channel.send line' (some told)))
      rw [channel.send_line line line' told, veiled_goOn, goOn_sending _ _ _ _ _ _
        (channel.send line (some told))
        ((channel.send line (some told)).effects.written.map fun _ => Channel.lineBytes line')]
      refine ⟨rfl, rfl, ?_, ?_⟩
      · rw [written_goOn]
        split <;> simp
      · rw [written_goOn]
        rcases outcome with ⟨result, _, written⟩ | ⟨⟨failure, result⟩, _, _⟩
        · rw [result, written]
          simpa [Except.isOk, Except.toBool] using lines tag
        · rw [result]
          rfl

/-! ## Calls -/

/-- A login is shown alike with any password, and sent in as many lines with any without a line
end. -/
theorem alike_login (client : Client) (unbroken : Utf8.Unbroken client.settings.password)
    (clock : Clock) (now : Instant) (ticket : Nat) :
    Alike (client.login clock now ticket) (client.veiled.login clock now ticket) := by
  let user := Argument.render client.settings.email
  have lines : ∀ front : String,
      (Bytes.lines (Channel.lineBytes (front ++ " " ++ "login" ++ " " ++
        (user ++ " " ++ Argument.render "")))).length =
      (Bytes.lines (Channel.lineBytes (front ++ " " ++ "login" ++ " " ++
        (user ++ " " ++ Argument.render client.settings.password)))).length := by
    intro front
    have parts : ∀ secret : String, front ++ " " ++ "login" ++ " " ++ (user ++ " " ++ secret) =
        (front ++ " " ++ "login" ++ " " ++ user ++ " ") ++ secret := by
      intro secret
      simp only [String.append_assoc]
    rw [parts, parts]
    exact Bytes.length_lines_lineBytes_append _ (Utf8.unbroken_render (by decide))
      (Utf8.unbroken_render unbroken)
  exact client.alike_command clock now ticket (user ++ " " ++ mask) client.loginMarker .login lines

theorem alike_close (client : Client) (now : Instant) (ticket : Nat) :
    Alike (client.close now ticket) (client.veiled.close now ticket) := by
  rw [close, close, veiled_tell, veiled_react]
  exact ⟨rfl, rfl, rfl, rfl⟩

/-- Whatever is asked of a client, the one without its password does the same, except that a login
sends another line. -/
theorem alike_begin (client : Client) (unbroken : Utf8.Unbroken client.settings.password)
    (clock : Clock) (now : Instant) (ticket : Nat) (call : Call) :
    Alike (client.begin clock now ticket call) (client.veiled.begin clock now ticket call) := by
  cases call with
  | login => exact client.alike_login unbroken clock now ticket
  | select mailbox =>
      let chosen := mailbox.getD client.standardMailbox
      exact (client.tell (.selecting chosen)).alike_command clock now ticket _ client.selectMarker
        (.select · chosen) fun _ => rfl
  | fetch sequence item =>
      exact client.alike_command clock now ticket _ client.fetchMarker .fetch fun _ => rfl
  | close => exact client.alike_close now ticket
  | listen name => exact ⟨rfl, rfl, rfl, rfl⟩
  | unlisten name => exact ⟨rfl, rfl, rfl, rfl⟩

theorem veiled_connect (client : Client) (clock : Clock) (now : Instant) (ticket : Nat)
    (writeFault : Option String) :
    client.veiled.connect clock now ticket writeFault =
      { client.connect clock now ticket writeFault with
        client := (client.connect clock now ticket writeFault).client.veiled } :=
  veiled_await { client with channel := some { Channel.fresh true with writeFault := writeFault } }
    clock now ticket Command.greetings .greeting

end Client

end ImapDialogue

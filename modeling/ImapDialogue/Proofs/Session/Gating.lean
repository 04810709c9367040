import ImapDialogue.Proofs.Exchange.Connection
import ImapDialogue.Proofs.Session.Commands
import ImapDialogue.Session.Program

/-!
A session from end to end, with any server. Each of its lines goes out only when everything in
front of it has been answered, the session succeeds exactly if all of it has been, and no
connection is left open.
-/

namespace ImapDialogue

open History

namespace Session

variable {settings : Settings} {exchange : Exchange} {number : Nat}

theorem Smooth.sending {plan : Plan} (smooth : Smooth plan number exchange)
    (fresh : Fresh (number + 1) exchange) {line : Bytes} (next : plan.lines[number]? = some line)
    (behind : (LineReader.successes (plan.judges.take (number + 1))
      (received exchange.passed)).isSome) :
    Smooth plan (number + 1) (exchange.sending [line]) := by
  have counted : (History.written exchange.passed).length = number := by
    obtain ⟨within, _⟩ := List.getElem?_eq_some_iff.mp next
    rw [smooth.written, List.length_take]
    exact Nat.min_eq_left (Nat.le_of_lt within)
  have further : plan.lines.take (number + 1) = plan.lines.take number ++ [line] := by
    rw [List.take_add_one, next]
    rfl
  refine ⟨?_, ?_, ?_, ?_, ?_⟩
  · apply smooth.orderly.snoc
    rintro _ ⟨⟩
    rw [counted, smooth.recorded]
    exact ⟨next, smooth.smooth, fresh, behind⟩
  · simp only [Exchange.sending, failed_append, smooth.smooth]
    rfl
  · simp only [Exchange.sending, written_append, smooth.written, further]
    rfl
  · simp only [Exchange.sending, Server.received_receive, smooth.lines, further,
      List.flatMap_append]
  · simp only [Exchange.sending, ended_append, smooth.recorded]
    exact List.append_nil _

theorem Fresh.sending (fresh : Fresh number exchange) (data : List Bytes) :
    Fresh number (exchange.sending data) := by
  exact fresh

theorem Waiting.withQueue {stage : Stage (plan settings)}
    (waiting : Waiting settings stage exchange) (pause : Option Timer) (queue : List Action) :
    Waiting settings stage (exchange.withQueue pause queue) := by
  obtain ⟨channel, wait, unread, waits⟩ := waiting
  exact ⟨channel, wait, unread, { waits with }⟩

/-! ## Ends -/

def Won (settings : Settings) (passed : List Passage) : Prop :=
  written passed = (plan settings).lines ∧
    (LineReader.successes (judges settings) (received passed)).isSome

structure Finished (settings : Settings) (successful : Bool) (exchange : Exchange) : Prop where
  orderly : (plan settings).Orderly exchange.passed
  written : written exchange.passed <+: (plan settings).lines
  lines : exchange.server.received = (History.written exchange.passed).flatMap Bytes.lines
  won : successful = true ↔ Won settings exchange.passed

theorem finished_of_passed (passed : Passed (plan settings) settings calls.length exchange) :
    Finished settings true exchange := by
  obtain ⟨found, unread, behind, _⟩ := passed.behind
  have whole : (plan settings).judges.take (calls.length + 1) = judges settings := rfl
  have every : (plan settings).lines.take calls.length = (plan settings).lines := rfl
  have written := passed.written
  rw [every] at written
  rw [whole] at behind
  refine ⟨passed.orderly, ?_, ?_, ?_⟩
  · rw [written]
  · rw [passed.lines, every, written]
  · simp only [Won, written, behind, Option.isSome_some, and_self]

theorem finished_of_lost (lost : Lost (plan settings) exchange) :
    Finished settings false exchange := by
  refine ⟨lost.orderly, lost.written, lost.lines, ?_⟩
  constructor
  · rintro ⟨⟩
  · rintro ⟨whole, every⟩
    have missing := lost.missing whole
    rw [show judges settings = (plan settings).judges from rfl, missing] at every
    cases every

section Reader

/-! ## Calls -/

theorem Passed.fresh_turn (passed : Passed (plan settings) settings number exchange)
    {turn : Turn settings} (next : turn.number = number + 1) :
    Fresh turn.stage.number exchange := by
  change Fresh turn.number exchange
  rw [next]
  exact passed.fresh

variable [Mail.Reader]

section Command

variable {turn : Turn settings} {client : Client} {verb arguments : String} {found : List Match}
  {unread : Bytes} {channel : Channel}

/-- A command that can be written goes out as the next line of the plan, and its wait begins on what
is unread. -/
theorem Passed.command_writable (passed : Passed (plan settings) settings number exchange)
    (next : turn.number = number + 1) (same : client.core = exchange.client.core)
    (line : (plan settings).lines[number]? = some (Channel.lineBytes
      (toString turn.number ++ " " ++ verb ++ " " ++ arguments)))
    (behind : LineReader.successes ((plan settings).judges.take (number + 1))
      (received exchange.passed) = some (found, unread))
    (has : exchange.client.channel = some (channel.holding unread none)) (opened : channel.Open)
    (writable : channel.writeFault = none) (shown : String) :
    let begun := exchange.absorb (client.command exchange.clock exchange.now turn.number verb
      arguments shown turn.marker turn.task)
    Waiting settings turn.stage begun ∨ Reads settings turn.stage begun ∨
      Over (plan settings) settings turn.number begun := by
  intro begun
  have counted : client.lastTag + 1 = turn.number := by
    rw [Client.lastTag_of_core same, passed.counted, next]
  have given : client.settings = settings := (Client.settings_of_core same).trans passed.settings
  obtain ⟨written, stands⟩ := Client.command_stands turn.task
    ((Client.channel_of_core same).trans has) ((Client.task_of_core same).trans passed.idle) opened
    writable (Utf8.plain_encode turn.unbroken) exchange.clock exchange.now turn.number verb
    arguments shown
  rw [counted, ← turn.judge_stage] at stands
  rw [counted] at written
  have smooth : Smooth (plan settings) turn.stage.number (exchange.sending [Channel.lineBytes
      (toString turn.number ++ " " ++ verb ++ " " ++ arguments)]) := by
    change Smooth (plan settings) turn.number _
    rw [next]
    apply passed.toSmooth.sending passed.fresh
    · rw [← next]
      exact line
    · rw [behind]
      rfl
  have behind' : LineReader.successes ((plan settings).judges.take turn.stage.number)
      (received (exchange.sending [Channel.lineBytes
        (toString turn.number ++ " " ++ verb ++ " " ++ arguments)]).passed) =
          some (found, unread) := by
    change LineReader.successes ((plan settings).judges.take turn.number) _ = _
    rw [next, Exchange.sending, received_append]
    simpa [received, Passage.incoming] using behind
  have rested := (Client.readings_of_core same).trans passed.rested
  dsimp only [begun]
  rw [exchange.absorb_eq, written]
  refine course_of_stands smooth ((passed.fresh_turn next).sending _) ?_ ?_ opened ?_ ?_ behind'
    stands
  · exact ⟨given, rfl⟩
  · exact rested
  · rfl
  · rfl

/-- A command that cannot be written fails, and its line is missing for good. -/
theorem Passed.command_unwritable (passed : Passed (plan settings) settings number exchange)
    (next : turn.number = number + 1) (same : client.core = exchange.client.core)
    (within : number < (plan settings).lines.length)
    (has : exchange.client.channel = some (channel.holding unread none)) (opened : channel.Open)
    {message : String} (fault : channel.writeFault = some message) (shown : String) :
    Over (plan settings) settings turn.number (exchange.absorb (client.command exchange.clock
      exchange.now turn.number verb arguments shown turn.marker turn.task)) := by
  have has' := (Client.channel_of_core same).trans has
  have idle := (Client.task_of_core same).trans passed.idle
  obtain ⟨silent, completed, _, _, core⟩ := Client.command_unwritable has' idle
    (opened.holding unread none) fault exchange.clock exchange.now turn.number verb arguments shown
    turn.marker turn.task
  obtain ⟨_, sent⟩ := passed_absorbReading exchange ((client.command exchange.clock exchange.now
    turn.number verb arguments shown turn.marker turn.task).client,
      [⟨turn.number, .error (.connection message)⟩])
  have short : (plan settings).lines.take number ≠ (plan settings).lines := by
    intro whole
    have length := congrArg List.length whole
    rw [List.length_take] at length
    omega
  have rested := (Client.readings_of_core same).trans passed.rested
  rw [exchange.absorb_silent silent, completed]
  apply Or.inr
  refine ⟨_, result?_absorbReading (passed.fresh_turn next) _ _, ?_, ?_⟩
  · refine ⟨orderly_absorbReading passed.orderly _, ?_, ?_, ?_, ?_, ?_⟩
    · rw [sent, passed.written]
      exact List.take_prefix _ _
    · rw [sent, passed.written]
      exact passed.lines
    · intro whole
      rw [sent, passed.written] at whole
      exact absurd whole short
    · exact (Client.readings_of_core core).trans rested
    · exact (Client.task_of_core core).trans idle
  · intro first
    exact absurd first turn.later

end Command

/-- A command is sent when everything in front of it has been answered, and comes to its end. -/
theorem Passed.command (passed : Passed (plan settings) settings number exchange)
    (turn : Turn settings) (next : turn.number = number + 1) {client : Client}
    (same : client.core = exchange.client.core) (verb arguments shown : String)
    (line : (commandLines settings)[number]? =
      some (toString turn.number ++ " " ++ verb ++ " " ++ arguments)) :
    Over (plan settings) settings turn.number
      ((exchange.absorb (client.command exchange.clock exchange.now turn.number verb arguments
        shown turn.marker turn.task)).finish turn.number) := by
  obtain ⟨found, unread, behind, free⟩ := passed.behind
  have line' : (plan settings).lines[number]? = some (Channel.lineBytes
      (toString turn.number ++ " " ++ verb ++ " " ++ arguments)) := by
    rw [plan, List.getElem?_map, line]
    rfl
  obtain ⟨within, _⟩ := List.getElem?_eq_some_iff.mp line'
  obtain ⟨channel, has, opened⟩ := free within
  have begun : let begun := exchange.absorb (client.command exchange.clock exchange.now turn.number
        verb arguments shown turn.marker turn.task)
      Waiting settings turn.stage begun ∨ Reads settings turn.stage begun ∨
        Over (plan settings) settings turn.number begun := by
    cases fault : channel.writeFault with
    | none => exact passed.command_writable next same line' behind has opened fault shown
    | some message =>
        exact .inr (.inr (passed.command_unwritable next same within has opened fault shown))
  have past := over_finish begun
  exact past

def loginTurn (unbroken : settings.Unbroken) : Turn settings where
  number := 1
  marker := (Client.create settings).loginMarker
  task := .login
  unbroken := Utf8.unbroken_getD unbroken.loginMarker
    (Utf8.unbroken_append (by decide) unbroken.email)
  judged := rfl
  later := by decide
  last := by simp

def selectTurn (unbroken : settings.Unbroken) : Turn settings where
  number := 2
  marker := (Client.create settings).selectMarker
  task := (.select · (Client.create settings).standardMailbox)
  unbroken := Utf8.unbroken_getD unbroken.selectMarker (by decide)
  judged := rfl
  later := by decide
  last := by simp

def fetchTurn (unbroken : settings.Unbroken) : Turn settings where
  number := 3
  marker := (Client.create settings).fetchMarker
  task := .fetch
  unbroken := Utf8.unbroken_getD unbroken.fetchMarker (by decide)
  judged := rfl
  later := by decide
  last := fun _ _ _ => rfl

theorem Passed.call (unbroken : settings.Unbroken)
    (passed : Passed (plan settings) settings number exchange) {call : Call}
    (next : calls[number]? = some call) :
    Over (plan settings) settings (number + 1) (exchange.call (number + 1) call) := by
  have given := passed.settings
  match number, next with
  | 0, next =>
      cases next
      have line : (commandLines settings)[0]? = some (toString 1 ++ " " ++ "login" ++ " " ++
          (Argument.render settings.email ++ " " ++ Argument.render settings.password)) := by
        rw [show toString 1 ++ " " ++ "login" ++ " " = "1 login " by decide,
          ← String.append_assoc, ← String.append_assoc]
        rfl
      have past := passed.command (loginTurn unbroken) rfl rfl "login" _
        (Argument.render settings.email ++ " " ++ Client.mask) line
      rw [Exchange.call, Exchange.begin, Client.begin, Client.login, Client.loginMarker, given]
      exact past
  | 1, next =>
      cases next
      have line : (commandLines settings)[1]? = some (toString 2 ++ " " ++ "select" ++ " " ++
          Argument.render (Client.create settings).standardMailbox) := by
        rw [show toString 2 ++ " " ++ "select" ++ " " = "2 select " by decide]
        rfl
      have mailbox : exchange.client.standardMailbox =
          (Client.create settings).standardMailbox := by
        rw [Client.standardMailbox, given]
        rfl
      have past := passed.command (selectTurn unbroken) rfl
        (Client.core_tell exchange.client (.selecting (Client.create settings).standardMailbox))
        "select" _ (Argument.render (Client.create settings).standardMailbox) line
      rw [Exchange.call, Exchange.begin, Client.begin, Client.select, Option.getD_none, mailbox,
        Client.selectMarker, given]
      exact past
  | 2, next =>
      cases next
      have line : (commandLines settings)[2]? = some (toString 3 ++ " " ++ "fetch" ++ " " ++
          (settings.fetch.sequence.getD "1:3" ++ " " ++
            settings.fetch.item.getD "BODY.PEEK[]")) := by
        rw [show toString 3 ++ " " ++ "fetch" ++ " " = "3 fetch " by decide,
          ← String.append_assoc, ← String.append_assoc]
        rfl
      have past := passed.command (fetchTurn unbroken) rfl rfl "fetch" _
        (settings.fetch.sequence.getD "1:3" ++ " " ++ settings.fetch.item.getD "BODY.PEEK[]") line
      rw [Exchange.call, Exchange.begin, Client.begin, Client.fetch, Client.fetchMarker, given]
      exact past

theorem over_connect (settings : Settings) (script : Script) (now : Instant) :
    Over (plan settings) settings 0
      (((Exchange.start settings script now).connect script).finish 0) := by
  let start := Exchange.start settings script now
  let told := start.client.tell (.connecting start.client.settings.host start.client.settings.port)
  have smooth : Smooth (plan settings) (greetingStage settings).number start :=
    ⟨(plan settings).orderly_nil, rfl, rfl, rfl, rfl⟩
  have fresh : Fresh (greetingStage settings).number start := rfl
  have behind : LineReader.successes ((plan settings).judges.take
      (greetingStage settings).number) (received start.passed) = some ([], []) := rfl
  have begun : Waiting settings (greetingStage settings) (start.connect script) ∨
      Reads settings (greetingStage settings) (start.connect script) ∨
      Over (plan settings) settings (greetingStage settings).number (start.connect script) := by
    rw [Exchange.connect]
    split
    · rw [Exchange.absorb_silent _ rfl]
      refine .inr (.inr (over_of_failure smooth fresh behind ?_ rfl rfl ?_ _))
      · rintro next rest ⟨⟩
      · rintro _ channel ⟨⟩
    · let channel : Channel := { Channel.fresh true with writeFault := script.writeFault }
      let connected : Client := { told with channel := some channel }
      have opened : channel.Open := ⟨rfl, rfl, rfl, rfl⟩
      have stands := @Client.await_stands connected channel _ _ [] _ .greeting rfl rfl opened
        Command.recognizes_greetings start.clock now 0
      have course := course_of_stands smooth fresh ⟨rfl, rfl⟩ rfl opened rfl rfl behind stands
      have silent : (told.connect start.clock start.now 0 script.writeFault).written = [] :=
        Client.await_written _ _ _ _
      rw [Exchange.absorb_silent _ silent]
      rcases course with waiting | reads | past
      · exact .inl (waiting.withQueue _ _)
      · exact .inr (.inl { reads with })
      · exact .inr (.inr (past.withQueue _ _))
  exact over_finish begun

/-! ## Sessions -/

/-- The calls of a session from one of them on. Either all of them succeed, or one is lost. -/
theorem Passed.converse (unbroken : settings.Unbroken) {remaining : List Call}
    (passed : Passed (plan settings) settings number exchange) (within : number ≤ calls.length)
    (left : calls.drop number = remaining) :
    (∃ answers, (exchange.converse (number + 1) remaining).2 = .ok answers ∧
        Passed (plan settings) settings calls.length
          (exchange.converse (number + 1) remaining).1) ∨
      ∃ failure, (exchange.converse (number + 1) remaining).2 = .error failure ∧
        Lost (plan settings) (exchange.converse (number + 1) remaining).1 := by
  -- The induction is on the calls that are left; each begins where the one in front of it passed.
  induction remaining generalizing exchange number with
  | nil =>
      have done : number = calls.length :=
        Nat.le_antisymm within (List.drop_eq_nil_iff.mp left)
      subst done
      exact .inl ⟨[], rfl, passed⟩
  | cons call others induction =>
      have next : calls[number]? = some call := by
        rw [← List.head?_drop, left]
        rfl
      have behind : calls.drop (number + 1) = others := by
        rw [← List.tail_drop, left]
        rfl
      obtain ⟨before, _⟩ := List.getElem?_eq_some_iff.mp next
      rw [Exchange.converse]
      rcases passed.call unbroken next with ⟨answer, ended, later⟩ | ⟨failure, ended, lost, _⟩
      · rcases induction later before behind with ⟨answers, result, last⟩ | ⟨failure, result, lost⟩
        · simp only [ended, result]
          exact .inl ⟨answer :: answers, rfl, last⟩
        · simp only [ended, result]
          exact .inr ⟨failure, rfl, lost⟩
      · simp only [ended]
        exact .inr ⟨failure, rfl, lost⟩

theorem finish_ended {ticket : Nat} (rested : exchange.client.readings = [])
    (ended : (exchange.result? ticket).isSome = true) :
    exchange.finish ticket =
      exchange.withQueue exchange.server.pause exchange.server.queue := by
  have still : exchange.read = exchange := read_rested rested
  have pending : (exchange.read.result? ticket).isSome = true := by
    rw [still]
    exact ended
  rw [Exchange.finish, Exchange.finishFrom_ended pending, still]

/-- To close ends at once, and behind it there is no open wait that it would have ended. -/
theorem begin_close (idle : exchange.client.task = none) (ticket : Nat) :
    exchange.begin ticket .close = exchange.absorbReading
      (((exchange.client.tell .closing).react exchange.now Channel.destroy).client.release,
        [⟨ticket, .ok .done⟩]) := by
  let told := exchange.client.tell .closing
  obtain ⟨silent, _, _⟩ := @Client.react_idle _ told idle exchange.now Channel.destroy
  have quiet : (exchange.client.close exchange.now ticket).written = [] :=
    told.written_react exchange.now fun channel => (Channel.quiet_destroy channel).written
  have completed : (exchange.client.close exchange.now ticket).completed =
      [⟨ticket, .ok .done⟩] := by
    have closing := congrArg (Completion.mk ticket (.ok .done) :: ·) silent
    exact closing
  rw [Exchange.begin, Client.begin, exchange.absorb_silent quiet, completed]
  rfl

theorem call_close (rested : exchange.client.readings = []) (idle : exchange.client.task = none)
    (ticket : Nat) : ∃ completed : List Completion,
      (exchange.call ticket .close).passed = exchange.passed ++ completed.map .ended ∧
        (exchange.call ticket .close).server.received = exchange.server.received ∧
        (exchange.call ticket .close).client.channel = none := by
  obtain ⟨_, _, core⟩ :=
    @Client.react_idle _ (exchange.client.tell .closing) idle exchange.now Channel.destroy
  have rested' : (exchange.begin ticket .close).client.readings = [] := by
    rw [begin_close idle]
    exact (Client.readings_of_core core).trans rested
  have ended : ((exchange.begin ticket .close).result? ticket).isSome = true := by
    simp [begin_close idle, Exchange.absorbReading, Exchange.result?]
  rw [Exchange.call, finish_ended rested' ended, begin_close idle]
  exact ⟨[⟨ticket, .ok .done⟩], rfl, rfl, rfl⟩

theorem Finished.close {successful : Bool} (finished : Finished settings successful exchange)
    (rested : exchange.client.readings = []) (idle : exchange.client.task = none)
    (ticket : Nat) :
    Finished settings successful (exchange.call ticket .close) ∧
      (exchange.call ticket .close).client.Closed := by
  obtain ⟨completed, passed, lines, channel⟩ := call_close rested idle ticket
  have sent : History.written (exchange.call ticket .close).passed =
      History.written exchange.passed := by
    rw [passed, written_append, written_ended, List.append_nil]
  have arrived : received (exchange.call ticket .close).passed = received exchange.passed := by
    rw [passed, received_append, received_ended, List.append_nil]
  refine ⟨⟨?_, ?_, ?_, ?_⟩, ?_⟩
  · rw [passed]
    exact finished.orderly.append (written_ended completed)
  · rw [sent]
    exact finished.written
  · rw [sent, lines]
    exact finished.lines
  · rw [Won, sent, arrived]
    exact finished.won
  · intro left has
    rw [channel] at has
    cases has

theorem finished_talk (unbroken : settings.Unbroken) (script : Script) (now : Instant) :
    Finished settings (talk settings script now).2.isOk (talk settings script now).1 ∧
      (talk settings script now).1.client.Closed := by
  rw [talk]
  rcases over_connect settings script now with
    ⟨answer, ended, passed⟩ | ⟨failure, ended, lost, closed⟩
  · simp only [ended]
    have conversed := passed.converse unbroken (by decide) (List.drop_zero)
    generalize Exchange.converse _ (0 + 1) calls = outcome at conversed ⊢
    obtain ⟨last, result⟩ := outcome
    rcases conversed with ⟨answers, succeeds, passed⟩ | ⟨failure, fails, lost⟩
    · obtain rfl : result = .ok answers := succeeds
      exact (finished_of_passed passed).close passed.rested passed.idle _
    · obtain rfl : result = .error failure := fails
      exact (finished_of_lost lost).close lost.rested lost.idle _
  · simp only [ended]
    exact ⟨finished_of_lost lost, closed rfl⟩

/-- A session with any server. Its lines go out in their order, each of them only when the greeting
and the answers to all lines in front of it have come, as segments of the data that follow one
another, and have ended their calls. It succeeds exactly if all lines have gone out and all answers
have come, and it writes nothing behind a failure. It makes a connection unless it is refused one,
and leaves the one that it has made destroyed. The program's exit code tells how it went. -/
theorem run_gated (unbroken : settings.Unbroken) (surroundings : Surroundings) :
    let session := run settings surroundings
    let passed := session.exchange.passed
    written passed <+: (commandLines settings).map Channel.lineBytes ∧
      session.exchange.server.received <+: (commandLines settings).map Utf8.encode ∧
      (∀ front line back, passed = front ++ .written line :: back →
        failed front = false ∧
          (ended front).map (·.ticket) = List.range ((written front).length + 1) ∧
          ∃ found rest,
            LineReader.successes ((judges settings).take ((written front).length + 1))
              (received front) = some (found, rest) ∧
            received front = (found.flatMap fun next => next.before ++ next.text) ++ rest) ∧
      (session.result.isOk = true ↔
        written passed = (commandLines settings).map Channel.lineBytes ∧
          (LineReader.successes (judges settings) (received passed)).isSome) ∧
      session.exchange.client.connection.isSome = surroundings.script.refusal.isNone ∧
      (∀ channel, session.exchange.client.connection = some channel → channel.destroyed = true) ∧
      ∀ environment overrides,
        environment.settings.map (Settings.override · overrides) = .ok settings →
          (ProgramRun.run environment overrides surroundings).session = some session ∧
            (ProgramRun.run environment overrides surroundings).exitCode =
              if session.result.isOk then 0 else 1 := by
  intro session passed
  obtain ⟨finished, closed⟩ := finished_talk unbroken surroundings.script surroundings.now
  obtain ⟨made, released⟩ := connection_talk settings surroundings.script surroundings.now
  refine ⟨finished.written, ?_, ?_, finished.won, made, released.closed closed, ?_⟩
  · have lines : session.exchange.server.received = _ := finished.lines
    rw [lines, List.prefix_iff_eq_take.mp finished.written, lines_of_plan unbroken, List.map_take]
    exact List.take_prefix _ _
  · intro front line back parts
    obtain ⟨_, smooth, before, behind⟩ := finished.orderly front line back parts
    obtain ⟨⟨found, rest⟩, reads⟩ := Option.isSome_iff_exists.mp behind
    exact ⟨smooth, before, found, rest, reads, LineReader.parts_of_successes reads⟩
  · intro environment overrides given
    cases loads : environment.settings with
    | error error =>
        rw [loads] at given
        cases given
    | ok loaded =>
        rw [loads] at given
        have same : loaded.override overrides = settings := Except.ok.inj given
        have ran : ProgramRun.run environment overrides surroundings =
            ProgramRun.ofSession session := by
          simp only [ProgramRun.run, loads, same, session]
        rw [ran, ProgramRun.ofSession]
        cases session.result <;> exact ⟨rfl, rfl⟩

end Reader

def readerEnvironment : Environment := ⟨[("IMAP_USER", "reader"), ("IMAP_PASS", "secret")]⟩

def readerSettings : Settings :=
  ⟨"127.0.0.1", 10000, "reader", "secret", some "INBOX", .path Settings.standardLockPath, default,
    default, some (.finite 30000), .standardOutput, default⟩

def hastyServer : Script where
  greeting := [.send (Bytes.ofNarrow "* OK rea"), .send (Bytes.ofNarrow "dy\r\n")]
  replies := [
    [.send (Bytes.ofNarrow "1 OK logged in successfully as reader\r\n2 OK")],
    [.send (Bytes.ofNarrow " successful\r\n"), .pause (.finite 50)],
    [.send (Bytes.ofNarrow "3 OK completed\r\n")]]
  refusal := none
  writeFault := none

theorem unbroken_reader : readerSettings.Unbroken := by
  constructor <;> simp [readerSettings, default, instInhabitedFetchRequest.default,
    instInhabitedMarkers.default] <;> decide

/-- All lines go out, the connection is destroyed, and the program succeeds. -/
theorem hasty_server_session :
    readerSettings.Unbroken ∧
      readerEnvironment.settings.map (Settings.override · default) = .ok readerSettings ∧
      let surroundings : Surroundings := ⟨⟨[]⟩, [], hastyServer, ⟨0⟩⟩
      written (run readerSettings surroundings).exchange.passed =
          ["1 login reader secret", "2 select INBOX", "3 fetch 1:3 BODY.PEEK[]"].map
            Channel.lineBytes ∧
        (∃ channel, (run readerSettings surroundings).exchange.client.connection = some channel ∧
          channel.destroyed = true) ∧
        (ProgramRun.run readerEnvironment default surroundings).exitCode = 0 := by
  have given : readerEnvironment.settings.map (Settings.override · default) = .ok readerSettings :=
    rfl
  refine ⟨unbroken_reader, given, ?_⟩
  intro surroundings
  have succeeds : (run readerSettings surroundings).result.isOk = true := by decide +kernel
  obtain ⟨_, _, _, won, made, destroyed, runs⟩ := run_gated unbroken_reader surroundings
  have code := (runs readerEnvironment default given).2
  rw [succeeds] at code
  obtain ⟨channel, has⟩ := Option.isSome_iff_exists.mp made
  exact ⟨(won.mp succeeds).1.trans (by decide), ⟨channel, has, destroyed channel has⟩, code⟩

end Session

end ImapDialogue

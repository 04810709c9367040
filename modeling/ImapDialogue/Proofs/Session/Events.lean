import ImapDialogue.Proofs.Exchange.Moves
import ImapDialogue.Proofs.Session.Stages

/-!
What can happen while a call of a session is under way: the server acts, timers fire, and the
client reads messages. So whatever happens, a call that has begun comes to its end.
-/

namespace ImapDialogue

open History

namespace Client

theorem react_idle [Mail.Reader] {client : Client} (idle : client.task = none) (now : Instant)
    (change : Channel → Channel × Effects) :
    (client.react now change).completed = [] ∧ ∃ channel,
      (client.react now change).client.core = { client with channel := channel }.core := by
  unfold react
  split
  · exact ⟨rfl, client.channel, rfl⟩
  · next channel _ =>
      have seen := core_absorb client (change channel).1 (change channel).2
      have idle' := (task_of_core seen).trans idle
      dsimp only
      rw [settle_idle idle']
      exact ⟨rfl, some (change channel).1, seen⟩

end Client

namespace Exchange

variable {exchange : Exchange}

theorem arrivals_quiet {channel : Channel} (has : exchange.client.channel = some channel)
    {change : Channel → Channel × Effects} (quiet : Channel.Quiet (change channel)) :
    exchange.noting change = exchange := by
  have nothing : exchange.arrivals change = [] := by
    rw [arrivals, has]
    dsimp only
    rw [quiet.traffic]
    rfl
  rw [noting, nothing, List.append_nil]

theorem received_arrivals {channel : Channel} (has : exchange.client.channel = some channel)
    (opened : channel.Open) (chunk : Bytes) :
    received (exchange.arrivals (·.receive chunk)) = chunk := by
  rw [arrivals, has]
  by_cases empty : chunk = []
  · subst empty
    simp only [Channel.receive_empty]
    rfl
  · have noticed : (channel.inputClosed || channel.destroyed || chunk.isEmpty) = false := by
      rw [opened.readable, opened.alive]
      simpa using empty
    simp [Channel.receive, noticed, received, Passage.incoming]

end Exchange

namespace Session

variable {plan : Plan} {settings : Settings} {stage : Stage plan} {exchange : Exchange}

theorem Smooth.noting {number : Nat} (smooth : Smooth plan number exchange)
    (change : Channel → Channel × Effects) : Smooth plan number (exchange.noting change) where
  orderly := smooth.orderly.append (exchange.written_arrivals change)
  smooth := by
    simp only [Exchange.noting, failed_append, smooth.smooth, exchange.failed_arrivals change]
    rfl
  written := by
    simp only [Exchange.noting, written_append, smooth.written, exchange.written_arrivals change,
      List.append_nil]
  lines := smooth.lines
  recorded := by
    simp only [Exchange.noting, ended_append, smooth.recorded, exchange.ended_arrivals change,
      List.append_nil]

theorem Reads.finished (reads : Reads settings stage exchange) {reading : Reading}
    (number : reading.ticket = stage.number) {client : Client} {events : List MailEvent}
    (core : client.core = { exchange.client with readings := [], events := events }.core) :
    Over plan settings stage.number (exchange.absorbReading (client, [reading.finished])) := by
  have serves : Serves settings stage.number client :=
    ⟨(Client.settings_of_core core).trans reads.settings,
      (Client.lastTag_of_core core).trans reads.counted⟩
  obtain ⟨⟨found, unread⟩, behind⟩ := Option.isSome_iff_exists.mp reads.behind
  rw [Reading.finished, number]
  apply over_of_success reads.toSmooth reads.fresh serves (Client.readings_of_core core)
    ((Client.task_of_core core).trans reads.idle) behind
  intro before
  rw [reads.last] at before
  exact absurd before (Nat.lt_irrefl _)

theorem Reads.read (reads : Reads settings stage exchange) :
    Reads settings stage exchange.read ∨ Over plan settings stage.number exchange.read := by
  obtain ⟨reading, one, number, filled⟩ := reads.reading
  obtain ⟨events, rests⟩ := Client.read_one one filled Exchange.turnsBetween
  rw [Exchange.read]
  generalize exchange.client.read Exchange.turnsBetween = outcome at rests ⊢
  obtain ⟨client, completed⟩ := outcome
  split at rests
  · obtain ⟨rfl, core⟩ := rests
    exact .inr (reads.finished number core)
  · obtain ⟨rfl, later, filled', _, alike, core⟩ := rests
    have serves : Serves settings stage.number client :=
      ⟨(Client.settings_of_core core).trans reads.settings,
        (Client.lastTag_of_core core).trans reads.counted⟩
    have ticket : later.ticket = reading.ticket := congrArg Completion.ticket alike
    refine .inl ?_
    exact {
      reads.toSmooth.absorbReading _ rfl, serves with
      fresh := by simpa [Exchange.absorbReading, Fresh] using reads.fresh
      idle := (Client.task_of_core core).trans reads.idle
      last := reads.last
      reading := ⟨later, Client.readings_of_core core, ticket.trans number, filled'⟩
      behind := by
        rw [(passed_absorbReading _ _).1]
        exact reads.behind }

theorem Reads.readAll (reads : Reads settings stage exchange) :
    Over plan settings stage.number exchange.readAll := by
  obtain ⟨reading, one, number, filled⟩ := reads.reading
  obtain ⟨ended, events, core⟩ := Client.readAll_one one filled
  rw [Exchange.readAll]
  generalize exchange.client.readAll = outcome at ended core ⊢
  obtain ⟨client, completed⟩ := outcome
  obtain rfl : completed = [reading.finished] := ended
  exact reads.finished number core

theorem read_rested (rested : exchange.client.readings = []) : exchange.read = exchange := by
  rw [Exchange.read, Client.read_none rested]
  simp [Exchange.absorbReading]

theorem resting_over {number : Nat} (past : Over plan settings number exchange) :
    exchange.client.readings = [] ∧ exchange.client.task = none := by
  rcases past with ⟨_, _, passed⟩ | ⟨_, _, lost, _⟩
  · exact ⟨passed.rested, passed.idle⟩
  · exact ⟨lost.rested, lost.idle⟩

theorem Over.withQueue {number : Nat} (past : Over plan settings number exchange)
    (pause : Option Timer) (queue : List Action) :
    Over plan settings number (exchange.withQueue pause queue) := by
  rcases past with ⟨answer, ended, passed⟩ | ⟨failure, ended, lost, closed⟩
  · exact .inl ⟨answer, ended, { passed with }⟩
  · exact .inr ⟨failure, ended, { lost with }, closed⟩

theorem Waiting.clock (waiting : Waiting settings stage exchange) (clock : Clock) :
    Waiting settings stage { exchange with clock := clock } := by
  obtain ⟨channel, wait, unread, waits⟩ := waiting
  exact ⟨channel, wait, unread, { waits with }⟩

theorem Reads.clock (reads : Reads settings stage exchange) (clock : Clock) :
    Reads settings stage { exchange with clock := clock } := { reads with }

variable [Mail.Reader]

section Waits

variable {channel : Channel} {wait : Wait} {unread : Bytes}

theorem Waits.receive (waits : Waits settings stage channel wait unread exchange) (chunk : Bytes) :
    let after := exchange.react (·.receive chunk)
    Waiting settings stage after ∨ Reads settings stage after ∨
      Over plan settings stage.number after := by
  intro after
  have silent : ∀ channel : Channel, (channel.receive chunk).2.written = [] := by
    intro channel
    exact channel.written_receive chunk
  have known : List.Forall₂ Command.Recognizes wait.patterns stage.tests := by
    rw [waits.patterns]
    exact stage.known
  have same : exchange.client.core = { exchange.client with
      channel := some (channel.holding unread (some wait))
      task := some stage.task }.core := by
    rw [← waits.connected, ← waits.busy]
  have stands := Client.react_waiting waits.opened known exchange.now waits.silent same chunk
  obtain ⟨found, behind⟩ := waits.behind
  have arrived : received (exchange.noting (·.receive chunk)).passed =
      received exchange.passed ++ chunk := by
    rw [Exchange.noting, received_append, Exchange.received_arrivals waits.connected
      (waits.opened.holding unread (some wait))]
  have further := LineReader.successes_append behind chunk
  rw [← arrived] at further
  -- The chunk is noted first, so that the reader of lines has all the data the client has.
  simp only [after, exchange.react_eq silent]
  exact course_of_stands (waits.toSmooth.noting _) waits.fresh waits.toServes waits.rested
    waits.opened waits.ticket waits.patterns further stands

theorem Waits.still (waits : Waits settings stage channel wait unread exchange)
    {change : Channel → Channel × Effects} (quiet : ∀ channel, Channel.Quiet (change channel))
    {changed : Channel} (opened : changed.Open)
    (kept : (change (channel.holding unread (some wait))).1 = changed.holding unread (some wait))
    (settled : (change (channel.holding unread (some wait))).2.settled = []) :
    Waiting settings stage (exchange.react change) := by
  obtain ⟨nothing, core⟩ :=
    Client.react_silent waits.connected exchange.now change settled
  rw [kept] at core
  have serves : Serves settings stage.number (exchange.client.react exchange.now change).client :=
    ⟨(Client.settings_of_core core).trans waits.settings,
      (Client.lastTag_of_core core).trans waits.counted⟩
  refine ⟨changed, wait, unread, ?_⟩
  rw [exchange.react_eq fun channel => (quiet channel).written,
    Exchange.arrivals_quiet waits.connected (quiet _), nothing]
  exact {
    waits.toSmooth.absorbReading _ rfl, serves with
    fresh := by simpa [Exchange.absorbReading, Fresh] using waits.fresh
    rested := (Client.readings_of_core core).trans waits.rested
    connected := Client.channel_of_core core
    busy := (Client.task_of_core core).trans waits.busy
    opened := opened
    ticket := waits.ticket
    patterns := waits.patterns
    silent := waits.silent
    behind := by
      rw [(passed_absorbReading _ _).1]
      exact waits.behind }

theorem Waits.breaks (waits : Waits settings stage channel wait unread exchange)
    {change : Channel → Channel × Effects} (quiet : ∀ channel, Channel.Quiet (change channel))
    (breaks : Channel.Breaks wait.ticket (change (channel.holding unread (some wait)))) :
    Over plan settings stage.number (exchange.react change) := by
  obtain ⟨failure, settled⟩ := breaks.settled
  obtain ⟨ended, greeting, mailbox, core⟩ :=
    Client.react_settled waits.connected exchange.now change waits.busy settled
  have fails : Client.Fails (.error failure) := by
    rintro found ⟨⟩
  obtain ⟨⟨failure', ends⟩, begins⟩ :=
    Client.ends_of_fails exchange.now wait.ticket fails stage.task
  have readings : (exchange.client.react exchange.now change).client.readings = [] := by
    have read := Client.readings_of_core core
    simp only [begins, waits.rested, List.append_nil] at read
    exact read
  have kept := Client.channel_of_core core
  have idle := Client.task_of_core core
  obtain ⟨found, behind⟩ := waits.behind
  rw [ends, waits.ticket] at ended
  rw [exchange.react_eq fun channel => (quiet channel).written,
    Exchange.arrivals_quiet waits.connected (quiet _), ended]
  -- Nothing came in, so what is unread still holds no answer.
  refine over_of_failure waits.toSmooth waits.fresh behind ?_ readings idle ?_ failure'
  · intro next rest reads
    rw [waits.silent] at reads
    cases reads
  · intro first channel' has
    simp only [first] at kept
    rw [kept] at has
    cases has
    exact Client.destroyed_left fails _

theorem Waits.hangUp (waits : Waits settings stage channel wait unread exchange) :
    Over plan settings stage.number (exchange.react Exchange.hangUp) := by
  apply waits.breaks
  · intro channel
    exact (Channel.quiet_closeInput channel).append (Channel.quiet_destroy _)
  · obtain ⟨breaks, ended⟩ := @Channel.breaks_closeInput channel wait unread waits.opened
    exact breaks.destroy ended

theorem Waits.report (waits : Waits settings stage channel wait unread exchange)
    (message : String) :
    Waiting settings stage (exchange.react (·.report message)) ∨
      Over plan settings stage.number (exchange.react (·.report message)) := by
  have quiet : ∀ channel : Channel, Channel.Quiet (channel.report message) := by
    intro channel
    exact channel.quiet_report message
  -- An intake only listens to the first error; a wait survives the later ones.
  cases seen : channel.errorSeen with
  | false =>
      obtain ⟨breaks, _⟩ := @Channel.breaks_report channel wait unread waits.opened seen message
      exact .inr (waits.breaks quiet breaks)
  | true =>
      have seen' : (channel.holding unread (some wait)).errorSeen = true := seen
      have told := Channel.report_seen seen' message
      refine .inl (waits.still quiet waits.opened ?_ ?_)
      · rw [told]
      · rw [told]
        rfl

end Waits

/-! ## The course of a call -/

theorem Reads.react (reads : Reads settings stage exchange) {change : Channel → Channel × Effects}
    (silent : ∀ channel, (change channel).2.written = []) :
    Reads settings stage (exchange.react change) := by
  obtain ⟨nothing, channel, core⟩ := Client.react_idle reads.idle exchange.now change
  have serves : Serves settings stage.number (exchange.client.react exchange.now change).client :=
    ⟨(Client.settings_of_core core).trans reads.settings,
      (Client.lastTag_of_core core).trans reads.counted⟩
  obtain ⟨⟨found, unread⟩, behind⟩ := Option.isSome_iff_exists.mp reads.behind
  rw [exchange.react_eq silent, nothing]
  exact {
    (reads.toSmooth.noting change).absorbReading _ rfl, serves with
    fresh := by simpa [Exchange.absorbReading, Exchange.noting, Fresh] using reads.fresh
    idle := (Client.task_of_core core).trans reads.idle
    last := reads.last
    reading := by
      obtain ⟨reading, one, others⟩ := reads.reading
      exact ⟨reading, (Client.readings_of_core core).trans one, others⟩
    behind := by
      rw [(passed_absorbReading _ _).1, Exchange.noting, received_append,
        LineReader.successes_append behind]
      rfl }

theorem act_quiet (action : Action) : exchange.act action = exchange ∨
    ∃ change, (∀ channel, (change channel).2.written = []) ∧
      exchange.act action = exchange.react change := by
  cases action with
  | send chunk =>
      exact .inr ⟨(·.receive chunk), fun channel => channel.written_receive chunk, rfl⟩
  | hangUp =>
      refine .inr ⟨Exchange.hangUp, ?_, rfl⟩
      intro channel
      exact ((Channel.quiet_closeInput channel).append (Channel.quiet_destroy _)).written
  | fail message => exact .inr ⟨(·.fail message), fun channel => (channel.quiet_fail _).written, rfl⟩
  | report message =>
      exact .inr ⟨(·.report message), fun channel => (channel.quiet_report _).written, rfl⟩
  | failWrites message => exact .inr ⟨_, fun _ => rfl, rfl⟩
  | pause length => exact .inl rfl

theorem Waiting.act (waiting : Waiting settings stage exchange) (action : Action) :
    Waiting settings stage (exchange.act action) ∨ Reads settings stage (exchange.act action) ∨
      Over plan settings stage.number (exchange.act action) := by
  have begun := waiting
  obtain ⟨channel, wait, unread, waits⟩ := begun
  cases action with
  | send chunk => exact waits.receive chunk
  | hangUp => exact .inr (.inr waits.hangUp)
  | fail message =>
      refine .inr (.inr (waits.breaks ?_ (Channel.breaks_fail waits.opened message)))
      intro channel
      exact channel.quiet_fail message
  | report message =>
      rcases waits.report message with waiting | past
      · exact .inl waiting
      · exact .inr (.inr past)
  | failWrites message =>
      have opened : ({ channel with writeFault := some message } : Channel).Open :=
        ⟨waits.opened.readable, waits.opened.alive, waits.opened.flowing, waits.opened.guarded⟩
      exact .inl (waits.still (fun _ => ⟨rfl, rfl⟩) opened rfl rfl)
  | pause length => exact .inl waiting

theorem course (settings : Settings) (stage : Stage plan) :
    Exchange.Course stage.number (Waiting settings stage) (Reads settings stage)
      (Over plan settings stage.number) where
  waiting_pending waiting := by
    obtain ⟨_, _, _, waits⟩ := waiting
    exact result?_fresh waits.fresh
  waiting_timed waiting := by
    obtain ⟨channel, wait, unread, waits⟩ := waiting
    rw [Client.timer?, waits.connected]
    rfl
  waiting_read waiting := by
    obtain ⟨channel, wait, unread, waits⟩ := waiting
    rw [read_rested waits.rested]
    exact ⟨channel, wait, unread, waits⟩
  waiting_clock clock waiting := waiting.clock clock
  waiting_act action waiting := waiting.act action
  waiting_expire timer waiting := by
    obtain ⟨channel, wait, unread, waits⟩ := waiting.clock (Clock.jumpTo _ timer)
    exact waits.breaks Channel.quiet_expire Channel.breaks_expire
  reading_pending reads := result?_fresh reads.fresh
  reading_read reads := reads.read
  reading_clock clock reads := reads.clock clock
  reading_act action reads := by
    rcases act_quiet action with same | ⟨change, silent, same⟩
    · rw [same]
      exact reads
    · rw [same]
      exact reads.react silent
  reading_expire timer reads := by
    apply (reads.clock _).react
    intro channel
    rfl
  reading_all reads := reads.readAll
  over_ended past := by
    rcases past with ⟨_, ended, _⟩ | ⟨_, ended, _⟩ <;> simp [ended]
  over_read past := by
    rw [read_rested (resting_over past).1]
    exact past
  over_queue pause queue past := past.withQueue pause queue

theorem over_finish {settings : Settings} {stage : Stage plan}
    (begun : Waiting settings stage exchange ∨ Reads settings stage exchange ∨
      Over plan settings stage.number exchange) :
    Over plan settings stage.number (exchange.finish stage.number) := by
  apply (course settings stage).over_finishFrom
  rcases begun with waiting | reads | past
  · exact .inl (.inl ⟨rfl, waiting⟩)
  · exact .inl (.inr reads)
  · exact .inr past

end Session

end ImapDialogue

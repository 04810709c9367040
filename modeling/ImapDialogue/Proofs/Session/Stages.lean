import ImapDialogue.Proofs.Channel.Closing
import ImapDialogue.Proofs.Client.Turns
import ImapDialogue.Proofs.Client.Waiting
import ImapDialogue.Proofs.Exchange.Finishing
import ImapDialogue.Proofs.Session.History

/-!
The stages of a session. At each of them one call waits for its line, may read messages then, and
succeeds or fails. What has passed stays in order whatever happens in between.
-/

namespace ImapDialogue.Session

open Command (Recognizes numbered)
open History

/-- One call of a session, with the lines that it waits for. Only the first one waits for a
greeting, and only the last one reads messages. -/
structure Stage (plan : Plan) where
  number : Nat
  patterns : List Pattern
  tests : List (Bytes → Bool)
  task : Task
  known : List.Forall₂ Recognizes patterns tests
  judged : plan.judges[number]? = some (numbered 0 tests)
  first : number = 0 → task = .greeting
  last : ∀ tag, task = .fetch tag → number = plan.lines.length

variable {plan : Plan} {settings : Settings} {exchange : Exchange}

def Stage.judge (stage : Stage plan) : Bytes → Option Nat := numbered 0 stage.tests

structure Smooth (plan : Plan) (number : Nat) (exchange : Exchange) : Prop where
  orderly : plan.Orderly exchange.passed
  smooth : failed exchange.passed = false
  written : written exchange.passed = plan.lines.take number
  lines : exchange.server.received = (plan.lines.take number).flatMap Bytes.lines
  recorded : ended exchange.passed = exchange.completed

def Fresh (ticket : Nat) (exchange : Exchange) : Prop :=
  exchange.completed.map (·.ticket) = List.range ticket

structure Serves (settings : Settings) (number : Nat) (client : Client) : Prop where
  settings : client.settings = settings
  counted : client.lastTag = number

structure Waits (settings : Settings) (stage : Stage plan) (channel : Channel) (wait : Wait)
    (unread : Bytes) (exchange : Exchange) : Prop extends Smooth plan stage.number exchange,
    Serves settings stage.number exchange.client where
  fresh : Fresh stage.number exchange
  rested : exchange.client.readings = []
  connected : exchange.client.channel = some (channel.holding unread (some wait))
  busy : exchange.client.task = some stage.task
  opened : channel.Open
  ticket : wait.ticket = stage.number
  patterns : wait.patterns = stage.patterns
  silent : LineReader.read stage.judge unread = none
  behind : ∃ found, LineReader.successes (plan.judges.take stage.number)
    (received exchange.passed) = some (found, unread)

def Waiting (settings : Settings) (stage : Stage plan) (exchange : Exchange) : Prop :=
  ∃ channel wait unread, Waits settings stage channel wait unread exchange

structure Reads (settings : Settings) (stage : Stage plan) (exchange : Exchange) : Prop extends
    Smooth plan stage.number exchange, Serves settings stage.number exchange.client where
  fresh : Fresh stage.number exchange
  idle : exchange.client.task = none
  last : stage.number = plan.lines.length
  reading : ∃ reading, exchange.client.readings = [reading] ∧ reading.ticket = stage.number ∧
    reading.unread ≠ []
  behind : (LineReader.successes (plan.judges.take (stage.number + 1))
    (received exchange.passed)).isSome

/-- The call of a stage has succeeded. Unless it was the last one, the next one can begin. -/
structure Passed (plan : Plan) (settings : Settings) (number : Nat) (exchange : Exchange) : Prop
    extends Smooth plan number exchange, Serves settings number exchange.client where
  fresh : Fresh (number + 1) exchange
  rested : exchange.client.readings = []
  idle : exchange.client.task = none
  behind : ∃ found unread, LineReader.successes (plan.judges.take (number + 1))
      (received exchange.passed) = some (found, unread) ∧
    (number < plan.lines.length → ∃ channel : Channel,
      exchange.client.channel = some (channel.holding unread none) ∧ channel.Open)

/-- Some call has failed. Then some line has not gone out, or some success is missing. -/
structure Lost (plan : Plan) (exchange : Exchange) : Prop where
  orderly : plan.Orderly exchange.passed
  written : written exchange.passed <+: plan.lines
  lines : exchange.server.received = (History.written exchange.passed).flatMap Bytes.lines
  missing : History.written exchange.passed = plan.lines →
    LineReader.successes plan.judges (received exchange.passed) = none
  rested : exchange.client.readings = []
  idle : exchange.client.task = none

def Over (plan : Plan) (settings : Settings) (number : Nat) (exchange : Exchange) : Prop :=
  (∃ answer, exchange.result? number = some (.ok answer) ∧
      Passed plan settings number exchange) ∨
    ∃ failure, exchange.result? number = some (.error failure) ∧ Lost plan exchange ∧
      (number = 0 → exchange.client.Closed)

/-! ## Ends of calls -/

theorem result?_fresh {ticket : Nat} (fresh : Fresh ticket exchange) :
    exchange.result? ticket = none := by
  have missing : exchange.completed.find? (·.ticket == ticket) = none := by
    rw [List.find?_eq_none]
    intro completion member
    have inside : completion.ticket ∈ List.range ticket := by
      rw [← fresh]
      exact List.mem_map_of_mem member
    have smaller := List.mem_range.mp inside
    simp only [beq_iff_eq]
    omega
  rw [Exchange.result?, missing]
  rfl

theorem result?_absorbReading {ticket : Nat} (fresh : Fresh ticket exchange) (client : Client)
    (result : Except Failure Answer) :
    (exchange.absorbReading (client, [⟨ticket, result⟩])).result? ticket = some result := by
  have missing := result?_fresh fresh
  rw [Exchange.result?, Option.map_eq_none_iff] at missing
  simp only [Exchange.result?, Exchange.absorbReading, List.find?_append, missing]
  simp

theorem Fresh.absorbReading {ticket : Nat} (fresh : Fresh ticket exchange) (client : Client)
    (result : Except Failure Answer) :
    Fresh (ticket + 1) (exchange.absorbReading (client, [⟨ticket, result⟩])) := by
  rw [Fresh, Exchange.absorbReading, List.map_append, fresh, List.range_succ]
  rfl

theorem passed_absorbReading (exchange : Exchange) (outcome : Client × List Completion) :
    received (exchange.absorbReading outcome).passed = received exchange.passed ∧
      written (exchange.absorbReading outcome).passed = written exchange.passed := by
  simp [Exchange.absorbReading]

theorem orderly_absorbReading (orderly : plan.Orderly exchange.passed)
    (outcome : Client × List Completion) :
    plan.Orderly (exchange.absorbReading outcome).passed := by
  apply orderly.append
  exact written_ended outcome.2

theorem Smooth.absorbReading {number : Nat} (smooth : Smooth plan number exchange)
    (client : Client) {completed : List Completion}
    (success : failed (completed.map .ended) = false) :
    Smooth plan number (exchange.absorbReading (client, completed)) where
  orderly := orderly_absorbReading smooth.orderly _
  smooth := by
    simp only [Exchange.absorbReading, failed_append, smooth.smooth, success]
    rfl
  written := (passed_absorbReading exchange _).2.trans smooth.written
  lines := smooth.lines
  recorded := by
    simp only [Exchange.absorbReading, ended_append, ended_ended, smooth.recorded]

section Stage

variable {stage : Stage plan} {client : Client} {unread : Bytes} {found : List Match}

theorem over_of_failure (smooth : Smooth plan stage.number exchange)
    (fresh : Fresh stage.number exchange)
    (behind : LineReader.successes (plan.judges.take stage.number) (received exchange.passed) =
      some (found, unread))
    (fails : ∀ next rest, LineReader.read stage.judge unread = some (next, rest) →
      next.index ≠ 0)
    (rested : client.readings = []) (idle : client.task = none)
    (closed : stage.task = .greeting → client.Closed) (failure : Failure) :
    Over plan settings stage.number
      (exchange.absorbReading (client, [⟨stage.number, .error failure⟩])) := by
  have same := passed_absorbReading exchange (client, [⟨stage.number, .error failure⟩])
  refine .inr ⟨failure, result?_absorbReading fresh client _, ?_, ?_⟩
  · refine ⟨orderly_absorbReading smooth.orderly _, ?_, ?_, ?_, rested, idle⟩
    · rw [same.2, smooth.written]
      exact List.take_prefix _ _
    · rw [same.2, smooth.written]
      exact smooth.lines
    · intro _
      -- The reader is stuck at the judge of this stage, whatever the later ones would say.
      have parts : plan.judges =
          plan.judges.take stage.number ++ stage.judge :: plan.judges.drop (stage.number + 1) := by
        obtain ⟨within, here⟩ := List.getElem?_eq_some_iff.mp stage.judged
        rw [Stage.judge, ← here, List.getElem_cons_drop, List.take_append_drop]
      rw [same.1, parts]
      exact LineReader.successes_stuck behind fails
  · intro first
    exact closed (stage.first first)

theorem over_of_success (smooth : Smooth plan stage.number exchange)
    (fresh : Fresh stage.number exchange) (serves : Serves settings stage.number client)
    (rested : client.readings = []) (idle : client.task = none)
    (behind : LineReader.successes (plan.judges.take (stage.number + 1))
      (received exchange.passed) = some (found, unread))
    (free : stage.number < plan.lines.length → ∃ channel : Channel,
      client.channel = some (channel.holding unread none) ∧ channel.Open) (answer : Answer) :
    Over plan settings stage.number
      (exchange.absorbReading (client, [⟨stage.number, .ok answer⟩])) := by
  have same := passed_absorbReading exchange (client, [⟨stage.number, .ok answer⟩])
  refine .inl ⟨answer, result?_absorbReading fresh client _, ?_⟩
  refine ⟨smooth.absorbReading client rfl, serves, fresh.absorbReading client _, rested, idle,
    found, unread, ?_, free⟩
  rw [same.1]
  exact behind

variable [Mail.Reader] {before : Client} {now : Instant} {channel : Channel} {wait : Wait}
  {completed : List Completion}

theorem Serves.of_stands {number : Nat} {task : Task} {result : Option (Match × Bytes)}
    (serves : Serves settings number before)
    (stands : before.Stands now channel wait task unread result client completed) :
    Serves settings number client := by
  cases result with
  | none =>
      obtain ⟨_, core⟩ := stands
      exact ⟨(Client.settings_of_core core).trans serves.settings,
        (Client.lastTag_of_core core).trans serves.counted⟩
  | some next =>
      obtain ⟨_, _, _, core⟩ := stands
      exact ⟨(Client.settings_of_core core).trans serves.settings,
        (Client.lastTag_of_core core).trans serves.counted⟩

theorem waiting_of_silence (smooth : Smooth plan stage.number exchange)
    (fresh : Fresh stage.number exchange) (serves : Serves settings stage.number before)
    (rested : before.readings = []) (opened : channel.Open) (ticket : wait.ticket = stage.number)
    (patterns : wait.patterns = stage.patterns)
    (behind : LineReader.successes (plan.judges.take stage.number) (received exchange.passed) =
      some (found, unread))
    (silent : LineReader.read stage.judge unread = none)
    (stands : before.Stands now channel wait stage.task unread none client completed) :
    Waiting settings stage (exchange.absorbReading (client, completed)) := by
  have serves' : Serves settings stage.number client := serves.of_stands stands
  obtain ⟨rfl, core⟩ := stands
  refine ⟨channel, wait, unread, ?_⟩
  exact {
    smooth.absorbReading client rfl, serves' with
    fresh := by simpa [Exchange.absorbReading, Fresh] using fresh
    rested := (Client.readings_of_core core).trans rested
    connected := Client.channel_of_core core
    busy := Client.task_of_core core
    opened := opened
    ticket := ticket
    patterns := patterns
    silent := silent
    behind := ⟨found, by rw [(passed_absorbReading exchange _).1]; exact behind⟩ }

/-- A success is one more segment of what the stages in front of it have read. The call succeeds
with it, or reads messages. -/
theorem course_of_success {next : Match} {rest : Bytes} (smooth : Smooth plan stage.number exchange)
    (fresh : Fresh stage.number exchange) (serves : Serves settings stage.number before)
    (rested : before.readings = []) (opened : channel.Open) (ticket : wait.ticket = stage.number)
    (behind : LineReader.successes (plan.judges.take stage.number) (received exchange.passed) =
      some (found, unread))
    (reads : LineReader.read stage.judge unread = some (next, rest)) (success : next.index = 0)
    (stands : before.Stands now channel wait stage.task unread (some (next, rest)) client
      completed) :
    Reads settings stage (exchange.absorbReading (client, completed)) ∨
      Over plan settings stage.number (exchange.absorbReading (client, completed)) := by
  have serves' : Serves settings stage.number client := serves.of_stands stands
  obtain ⟨ended, greeting, mailbox, core⟩ := stands
  have idle : client.task = none := Client.task_of_core core
  have readings : client.readings =
      before.readings ++ Client.begins now wait.ticket (.ok next) stage.task :=
    Client.readings_of_core core
  have kept : client.channel =
      some (Client.left stage.task (.ok next) (channel.holding rest none)) :=
    Client.channel_of_core core
  rw [rested, List.nil_append, ticket] at readings
  rw [Client.left_success success] at kept
  rw [ticket] at ended
  have further : LineReader.successes (plan.judges.take (stage.number + 1))
      (received exchange.passed) = some (found ++ [next], rest) := by
    rw [List.take_add_one, stage.judged]
    exact LineReader.successes_snoc behind reads success
  rcases Client.ends_of_success now stage.number success stage.task with
    ⟨answer, ends, begins⟩ | ⟨tag, reading, task, ends, begins, number, filled⟩
  · rw [ends] at ended
    rw [begins] at readings
    rw [ended]
    apply Or.inr
    apply over_of_success smooth fresh serves' readings idle further
    intro _
    exact ⟨channel, kept, opened⟩
  · rw [ends] at ended
    rw [begins] at readings
    rw [ended]
    apply Or.inl
    exact {
      smooth.absorbReading client rfl, serves' with
      fresh := by simpa [Exchange.absorbReading, Fresh] using fresh
      idle := idle
      last := stage.last tag task
      reading := ⟨reading, readings, number, filled⟩
      behind := by
        simp only [Exchange.absorbReading, List.map_nil, List.append_nil, further]
        rfl }

/-- A refusal ends the call as a failure does, and the reader gets no further. -/
theorem over_of_refusal {next : Match} {rest : Bytes} (smooth : Smooth plan stage.number exchange)
    (fresh : Fresh stage.number exchange) (rested : before.readings = [])
    (ticket : wait.ticket = stage.number)
    (behind : LineReader.successes (plan.judges.take stage.number) (received exchange.passed) =
      some (found, unread))
    (reads : LineReader.read stage.judge unread = some (next, rest)) (refuses : next.index ≠ 0)
    (stands : before.Stands now channel wait stage.task unread (some (next, rest)) client
      completed) :
    Over plan settings stage.number (exchange.absorbReading (client, completed)) := by
  obtain ⟨ended, greeting, mailbox, core⟩ := stands
  have readings : client.readings =
      before.readings ++ Client.begins now wait.ticket (.ok next) stage.task :=
    Client.readings_of_core core
  have kept : client.channel =
      some (Client.left stage.task (.ok next) (channel.holding rest none)) :=
    Client.channel_of_core core
  have fails : Client.Fails (.ok next) := by
    rintro found ⟨⟩
    exact refuses
  obtain ⟨⟨failure, ends⟩, begins⟩ := Client.ends_of_fails now stage.number fails stage.task
  rw [rested, List.nil_append, ticket, begins] at readings
  rw [ticket, ends] at ended
  rw [ended]
  apply over_of_failure smooth fresh behind
  · intro other rest' reads'
    rw [reads] at reads'
    cases reads'
    exact refuses
  · exact readings
  · exact Client.task_of_core core
  · intro greeting channel' has
    rw [kept, greeting] at has
    cases has
    exact Client.destroyed_left fails _

/-- What a wait leads to: the call goes on waiting, reads messages, or is over. -/
theorem course_of_stands (smooth : Smooth plan stage.number exchange)
    (fresh : Fresh stage.number exchange) (serves : Serves settings stage.number before)
    (rested : before.readings = []) (opened : channel.Open) (ticket : wait.ticket = stage.number)
    (patterns : wait.patterns = stage.patterns)
    (behind : LineReader.successes (plan.judges.take stage.number) (received exchange.passed) =
      some (found, unread))
    (stands : before.Stands now channel wait stage.task unread
      (LineReader.read stage.judge unread) client completed) :
    let after := exchange.absorbReading (client, completed)
    Waiting settings stage after ∨ Reads settings stage after ∨
      Over plan settings stage.number after := by
  intro after
  cases reads : LineReader.read stage.judge unread with
  | none =>
      rw [reads] at stands
      exact .inl (waiting_of_silence smooth fresh serves rested opened ticket patterns behind reads
        stands)
  | some next =>
      obtain ⟨next, rest⟩ := next
      rw [reads] at stands
      apply Or.inr
      by_cases success : next.index = 0
      · exact course_of_success smooth fresh serves rested opened ticket behind reads success stands
      · exact .inr (over_of_refusal smooth fresh rested ticket behind reads success stands)

end Stage

end ImapDialogue.Session

import ImapDialogue.Proofs.Exchange.Events
import ImapDialogue.Proofs.Exchange.Punctuality
import ImapDialogue.Proofs.Session.Gating
import ImapDialogue.Proofs.Settings.Acceptance
import Mathlib.Data.Rat.Floor

/-!
Sessions that run out of time. The time that an environment sets is a positive number of
milliseconds without an upper limit, and a timer has one: beyond it a wait is over after a single
millisecond. Up to it no wait of a session is over early.
-/

namespace ImapDialogue

/-! ## The time that is set -/

theorem error_of_map {ε α β : Type} {result : Except ε α} {change : α → β} {fault : ε}
    (fails : result.map change = .error fault) : result = .error fault := by
  cases result with
  | error fault => exact congrArg Except.error (Except.error.inj fails)
  | ok value => cases fails

theorem Environment.timeout_of_settings {environment : Environment} {settings : Settings}
    (accepted : environment.settings = .ok settings) :
    ∃ length : Nat, 0 < length ∧ environment.integer "IMAP_TIMEOUT_MS" 30000 = .ok length ∧
      settings.timeout = some (.finite length) := by
  obtain ⟨length, _, _, _, reads, parts⟩ := settings_ok accepted
  exact ⟨length, integer_pos (by decide) reads, reads, by rw [parts]⟩

/-- A timer is set to a whole number of milliseconds as it is, up to the longest delay. -/
theorem Clock.delay_natural {length : Nat} (positive : 0 < length) :
    delay (.finite length) = if length ≤ longestDelay then length else 1 := by
  have whole : (length : Rat).floor.toNat = length := by
    have floor : (length : Rat).floor = (length : Int) := Rat.floor_intCast length
    rw [floor, Int.toNat_natCast]
  have least : 1 ≤ (length : Rat) := by exact_mod_cast positive
  by_cases fits : length ≤ longestDelay
  · have fits' : (length : Rat) ≤ (longestDelay : Rat) := by exact_mod_cast fits
    simp [delay, least, fits, fits', whole]
  · have exceeds : ¬(length : Rat) ≤ (longestDelay : Rat) := by exact_mod_cast fits
    simp [delay, fits, exceeds]

/-! ## Waiting in vain -/

/-- Actions of a server with which nothing happens for longer than some time. -/
def Mute (length : Nat) (queue : List Action) : Prop :=
  queue = [] ∨ ∃ pause others, queue = .pause pause :: others ∧ length < Clock.delay pause

namespace Exchange

variable {exchange later : Exchange} {starts : List Nat} {timeout : Number} {waits : Bool}

theorem mem_completed_of_result? {ticket : Nat} {result : Except Failure Answer}
    (ended : exchange.result? ticket = some result) :
    ∃ ticket', ⟨ticket', result⟩ ∈ exchange.completed := by
  obtain ⟨completion, found, rfl⟩ := Option.map_eq_some_iff.mp ended
  exact ⟨completion.ticket, List.mem_of_find?_eq_some found⟩

variable [Mail.Reader]

theorem Going.mem_completed (going : Going exchange later) {completion : Completion}
    (ended : completion ∈ exchange.completed) : completion ∈ later.completed := by
  apply going.keeps (motive := fun exchange => completion ∈ exchange.completed)
  · intro exchange change _ ended
    exact List.mem_append_left _ ended
  · intro exchange clock ended
    exact ended
  · intro exchange pause queue ended
    exact ended
  · intro exchange turns ended
    exact List.mem_append_left _ ended
  · exact ended

theorem expire_waiting {channel : Channel} {task : Task} {wait : Wait}
    (has : exchange.client.channel = some channel) (waits : channel.intake.wait = some wait)
    (busy : exchange.client.task = some task) (timer : Timer) :
    let expired := exchange.expire timer
    let failure := Failure.timeout wait.patterns wait.timeout channel.intake.unread
    expired.completed = exchange.completed ++ [⟨wait.ticket, .error failure⟩] ∧
      expired.moments = exchange.moments ++ [(exchange.clock.jumpTo timer).now] ∧
      expired.client.readings = exchange.client.readings := by
  intro expired failure
  have settled : channel.expire.2.settled = [⟨wait.ticket, .error failure⟩] := by
    simp only [Channel.expire, Channel.withIntake, Intake.expire, waits]
    rfl
  obtain ⟨completed, greeting, mailbox, core⟩ :=
    Client.react_settled has exchange.now Channel.expire busy settled
  rw [Client.ends_error] at completed
  have readings := Client.readings_of_core core
  have fails : Client.Fails (.error failure) := by rintro found ⟨⟩
  obtain ⟨_, nothing⟩ := Client.ends_of_fails exchange.now wait.ticket fails task
  refine ⟨?_, ?_, ?_⟩
  · exact congrArg (exchange.completed ++ ·) completed
  · exact congrArg (fun ended => exchange.moments ++
      ended.map fun _ => (exchange.clock.jumpTo timer).now) completed
  · exact readings.trans (by rw [nothing, List.append_nil])

/-- A call that the server says nothing to runs out of time. -/
theorem finish_mute {channel : Channel} {task : Task} {wait : Wait}
    (has : exchange.client.channel = some channel) (waits : channel.intake.wait = some wait)
    (busy : exchange.client.task = some task) (rested : exchange.client.readings = [])
    (pending : exchange.result? wait.ticket = none) (idle : exchange.server.pause = none)
    {length : Nat} (due : wait.timer.due = exchange.clock.now + length)
    (mute : Mute length exchange.server.queue) :
    let failure := Failure.timeout wait.patterns wait.timeout channel.intake.unread
    (exchange.finish wait.ticket).completed =
        exchange.completed ++ [⟨wait.ticket, .error failure⟩] ∧
      (exchange.finish wait.ticket).moments =
        exchange.moments ++ [(exchange.clock.jumpTo wait.timer).now] := by
  intro failure
  have still := Session.read_rested rested
  have waiting : ¬(exchange.read.result? wait.ticket).isSome = true := by
    rw [still, pending]
    exact Bool.false_ne_true
  have timed : exchange.read.client.timer? = some wait.timer := by
    rw [still, Client.timer?, has]
    simp [waits]
  obtain ⟨completed, moments, readings⟩ := expire_waiting has waits busy wait.timer
  have quiet := Session.read_rested (readings.trans rested)
  have ended : ((exchange.expire wait.timer).read.result? wait.ticket).isSome = true := by
    rw [quiet, result?, completed]
    simp
  suffices fires : ∃ pause queue, exchange.finish wait.ticket =
      (exchange.expire wait.timer).withQueue pause queue by
    obtain ⟨pause, queue, same⟩ := fires
    rw [same]
    exact ⟨completed, moments⟩
  rcases mute with nothing | ⟨pause, others, pauses, longer⟩
  · rw [finish, idle, nothing, finishFrom_expire waiting timed, still, finishFrom_ended ended,
      quiet]
    exact ⟨_, _, rfl⟩
  · have paused : exchange.finish wait.ticket =
        exchange.finishFrom wait.ticket true (some (exchange.clock.timer pause)) others := by
      rw [finish, idle, pauses, finishFrom_pause waiting, still]
    have sooner : wait.timer.due < (exchange.clock.timer pause).due := by
      rw [due]
      exact Nat.add_lt_add_left longer exchange.clock.now
    rw [paused, finishFrom_sooner waiting timed sooner, still, finishFrom_ended ended, quiet]
    exact ⟨_, _, rfl⟩

/-! ## Calls in order -/

/-- The times at which the calls begin that are made in order, as long as they succeed. -/
def beginnings (exchange : Exchange) (ticket : Nat) : List Call → List Nat
  | [] => []
  | call :: others =>
      let after := exchange.call ticket call
      exchange.clock.now :: match after.result? ticket with
        | some (.error _) => []
        | _ => after.beginnings (ticket + 1) others

theorem Punctual.converse (punctual : exchange.Punctual starts timeout true) (calls : List Call) :
    (exchange.converse starts.length calls).1.Punctual
      (starts ++ exchange.beginnings starts.length calls) timeout true := by
  -- The induction is on the calls; the times at which the calls in front began are known.
  induction calls generalizing exchange starts with
  | nil =>
      rw [beginnings, List.append_nil]
      exact punctual
  | cons call others induction =>
      have after : (exchange.call starts.length call).Punctual (starts ++ [exchange.clock.now])
          timeout true := (punctual.begin call).finish starts.length
      have behind := induction after
      rw [List.length_append, List.length_singleton, List.append_assoc, List.singleton_append]
        at behind
      rw [Exchange.converse, beginnings]
      dsimp only
      cases exchange.call starts.length call |>.result? starts.length with
      | none => exact behind
      | some result =>
          cases result with
          | error failure => exact after
          | ok answer => exact behind

theorem mem_completed_call {completion : Completion} (ended : completion ∈ exchange.completed)
    (ticket : Nat) (call : Call) : completion ∈ (exchange.call ticket call).completed :=
  (Going.here.finish ticket).mem_completed (List.mem_append_left _ ended)

theorem mem_completed_of_converse {ticket : Nat} {calls : List Call} {failure : Failure}
    (fails : (exchange.converse ticket calls).2 = .error failure) :
    ∃ ticket', ⟨ticket', .error failure⟩ ∈ (exchange.converse ticket calls).1.completed := by
  induction calls generalizing exchange ticket with
  | nil => cases fails
  | cons call others induction =>
      rw [Exchange.converse] at fails ⊢
      dsimp only at fails ⊢
      cases result : (exchange.call ticket call).result? ticket with
      | none =>
          simp only [result] at fails ⊢
          exact induction fails
      | some how =>
          cases how with
          | error reason =>
              simp only [result] at fails ⊢
              cases fails
              exact mem_completed_of_result? result
          | ok answer =>
              simp only [result] at fails ⊢
              exact induction (error_of_map fails)

theorem punctual_connect (settings : Settings) (script : Script) (now : Instant) :
    ((start settings script now).connect script).Punctual [Clock.start.now]
      (settings.timeout.getD Client.standardTimeout) true := by
  have started := ((punctual_start settings script now).append [Clock.start.now]).allow
  have told := started.holds.of_core (Client.core_tell _
    (.connecting (Client.create settings).settings.host (Client.create settings).settings.port))
  unfold connect
  dsimp only
  split
  · next message _ =>
      refine started.spared ⟨told.of_core (Client.core_tell _ _), ?_⟩
      exact List.forall_mem_singleton.mpr (untimed_error rfl)
  · refine Punctual.withQueue ?_ none script.greeting
    exact started.spared (told.connect _ now 0 _ (Wait.inTime_begun .start rfl))

theorem waits_connect (settings : Settings) {script : Script} (accepts : script.refusal = none)
    (now : Instant) :
    let begun := (start settings script now).connect script
    let timeout := settings.timeout.getD Client.standardTimeout
    ∃ channel, begun.client.channel = some channel ∧
      channel.intake.wait = some ⟨0, Command.greetings, timeout, ⟨0 + Clock.delay timeout⟩⟩ ∧
      channel.intake.unread = [] ∧ begun.client.task = some .greeting ∧
      begun.client.readings = [] ∧ begun.completed = [] ∧ begun.moments = [] ∧
      (begun.server.pause = none ∧ begun.server.queue = script.greeting) ∧
      begun.clock = .start := by
  intro begun timeout
  let started := start settings script now
  let told := started.client.tell
    (.connecting started.client.settings.host started.client.settings.port)
  let channel : Channel := { Channel.fresh true with writeFault := script.writeFault }
  let connected : Client := { told with channel := some channel }
  let step := told.connect started.clock started.now 0 script.writeFault
  have connects : begun = (started.absorb step).withQueue none script.greeting := by
    show (start settings script now).connect script = _
    rw [connect, accepts]
  -- No line has come when the wait begins, so that it stays open.
  have opened : channel.Open := ⟨rfl, rfl, rfl, rfl⟩
  obtain ⟨nothing, core⟩ := @Client.await_stands connected channel _ _ [] _ .greeting rfl rfl
    opened Command.recognizes_greetings started.clock started.now 0
  have has := Client.channel_of_core core
  have busy := Client.task_of_core core
  have rested := Client.readings_of_core core
  have ended : step.completed = [] := nothing
  rw [connects]
  refine ⟨_, has, rfl, rfl, busy, rested, ?_, ?_, ⟨rfl, rfl⟩, rfl⟩
  · exact congrArg ([] ++ ·) ended
  · exact congrArg (fun ended : List Completion => [] ++ ended.map fun _ => Clock.start.now) ended

end Exchange

namespace Session

section Reader

variable [Mail.Reader]

/-- The times at which the waits of a session begin: the wait for the greeting, and behind that
those of the calls. -/
def beginnings (settings : Settings) (surroundings : Surroundings) : List Nat :=
  let connected := ((Exchange.start settings surroundings.script surroundings.now).connect
    surroundings.script).finish 0
  Clock.start.now :: match connected.result? 0 with
    | some (.error _) => []
    | _ => connected.beginnings 1 calls

theorem punctual_run (settings : Settings) (surroundings : Surroundings) :
    (run settings surroundings).exchange.Punctual (beginnings settings surroundings)
      (settings.timeout.getD Client.standardTimeout) true := by
  have connected :=
    (Exchange.punctual_connect settings surroundings.script surroundings.now).finish 0
  have closed := ((connected.converse calls).close (calls.length + 1)).finish (calls.length + 1)
  show (talk settings surroundings.script surroundings.now).1.Punctual _ _ _
  rw [talk, beginnings]
  dsimp only
  cases (((Exchange.start settings surroundings.script surroundings.now).connect
    surroundings.script).finish 0).result? 0 with
  | none => exact closed
  | some result =>
      cases result with
      | error failure => exact connected
      | ok answer => exact closed

theorem mem_completed_of_run {settings : Settings} {surroundings : Surroundings} {failure : Failure}
    (fails : (run settings surroundings).result = .error failure) :
    ∃ ticket, ⟨ticket, .error failure⟩ ∈ (run settings surroundings).exchange.completed := by
  change (talk settings surroundings.script surroundings.now).2 = .error failure at fails
  show ∃ ticket, ⟨ticket, .error failure⟩ ∈
    (talk settings surroundings.script surroundings.now).1.completed
  rw [talk] at fails ⊢
  dsimp only at fails ⊢
  split at fails
  · next reason ended =>
      cases fails
      exact Exchange.mem_completed_of_result? ended
  · obtain ⟨ticket, ended⟩ := Exchange.mem_completed_of_converse (error_of_map fails)
    exact ⟨ticket, Exchange.mem_completed_call ended _ .close⟩

/-- Nobody greets, and the session is over when its time is up. -/
theorem run_mute {settings : Settings} {surroundings : Surroundings} {timeout : Number}
    (given : settings.timeout = some timeout) (accepts : surroundings.script.refusal = none)
    (mute : Mute (Clock.delay timeout) surroundings.script.greeting) :
    (run settings surroundings).exchange.completed =
        [⟨0, .error (.timedOut Command.greetings timeout [])⟩] ∧
      (run settings surroundings).exchange.moments = [Clock.delay timeout] := by
  obtain ⟨channel, has, waits, empty, busy, rested, completed, moments, ⟨idle, queue⟩, clock⟩ :=
    Exchange.waits_connect settings accepts surroundings.now
  rw [given, Option.getD_some] at waits
  obtain ⟨completed', moments'⟩ := Exchange.finish_mute has waits busy rested
    (by rw [Exchange.result?, completed]; rfl) idle (by rw [clock]; rfl) (queue.symm ▸ mute)
  rw [completed, empty, List.nil_append] at completed'
  rw [moments, clock, List.nil_append] at moments'
  have fails : (((Exchange.start settings surroundings.script surroundings.now).connect
      surroundings.script).finish 0).result? 0 =
        some (.error (.timedOut Command.greetings timeout [])) := by
    rw [Exchange.result?, completed']
    rfl
  have stops : (run settings surroundings).exchange =
      ((Exchange.start settings surroundings.script surroundings.now).connect
        surroundings.script).finish 0 := by
    show (talk settings surroundings.script surroundings.now).1 = _
    rw [talk]
    dsimp only
    rw [fails]
  rw [stops]
  refine ⟨completed', moments'.trans ?_⟩
  simp [Clock.start, Clock.jumpTo]

/-- In a session with the settings of an environment, a wait that runs out of time has lasted for as
long as its timer was set to, to the millisecond: for the time that the environment sets, unless a
timer cannot be set to that. Then the wait was over after a single millisecond, and so is every
session whose server says nothing for longer than that. What a session fails for is how one of its
calls ended. -/
theorem timeouts_come_in_time_unless_too_long {environment : Environment} {settings : Settings}
    (accepted : environment.settings = .ok settings) :
    ∃ length : Nat, 0 < length ∧ settings.timeout = some (.finite length) ∧
      ∀ surroundings : Surroundings,
        let session := run settings surroundings
        let delay := if length ≤ Clock.longestDelay then length else 1
        (∀ (place ticket : Nat) (patterns : List Pattern) (limit : Number) (unread : Bytes),
          session.exchange.completed[place]? =
              some ⟨ticket, .error (.timedOut patterns limit unread)⟩ →
            limit = .finite length ∧ ∃ began ended,
              (beginnings settings surroundings)[ticket]? = some began ∧
                session.exchange.moments[place]? = some ended ∧ ended = began + delay) ∧
        (∀ failure, session.result = .error failure →
          ∃ ticket, ⟨ticket, .error failure⟩ ∈ session.exchange.completed) ∧
        (surroundings.script.refusal = none → Mute delay surroundings.script.greeting →
          session.exchange.completed =
              [⟨0, .error (.timedOut Command.greetings (.finite length) [])⟩] ∧
            session.exchange.moments = [delay]) := by
  obtain ⟨length, positive, _, given⟩ := Environment.timeout_of_settings accepted
  refine ⟨length, positive, given, ?_⟩
  intro surroundings session delay
  have set : Clock.delay (.finite length) = delay := Clock.delay_natural positive
  refine ⟨?_, fun _ => mem_completed_of_run, ?_⟩
  · intro place ticket patterns limit unread ends
    have punctual := (punctual_run settings surroundings).ended
    rw [given, Option.getD_some] at punctual
    obtain ⟨within, completed⟩ := List.getElem?_eq_some_iff.mp ends
    have within' : place < session.exchange.moments.length := punctual.length_eq ▸ within
    have timely := punctual.get within within'
    rw [List.get_eq_getElem, List.get_eq_getElem, completed] at timely
    obtain ⟨same, began, begins, ended⟩ := timely patterns limit unread rfl
    exact ⟨same, began, _, begins, List.getElem?_eq_getElem within', set ▸ ended⟩
  · intro accepts mute
    obtain ⟨completed, moments⟩ := run_mute given accepts (set.symm ▸ mute)
    exact ⟨completed, moments.trans (congrArg ([·]) set)⟩

end Reader

def slowServer (length : Number) : Script where
  greeting := [.pause length, .send (Bytes.ofNarrow "* OK hi\r\n")]
  replies := [
    [.send (Bytes.ofNarrow "1 OK logged in successfully as reader\r\n")],
    [.send (Bytes.ofNarrow "2 OK SELECT was successful\r\n")],
    [.send (Bytes.ofNarrow "3 OK FETCH completed\r\n")]]
  refusal := none
  writeFault := none

/-- A greeting that comes a second too late is not awaited. -/
theorem late_greeting_times_out :
    readerEnvironment.settings = .ok readerSettings ∧
      let exchange := (run readerSettings ⟨⟨[]⟩, [], slowServer (.finite 31000), ⟨0⟩⟩).exchange
      exchange.completed = [⟨0, .error (.timedOut Command.greetings (.finite 30000) [])⟩] ∧
        ∃ ended, exchange.moments[0]? = some ended ∧ ended = 0 + 30000 := by
  have accepted : readerEnvironment.settings = .ok readerSettings := rfl
  refine ⟨accepted, ?_⟩
  obtain ⟨length, _, given, sessions⟩ := timeouts_come_in_time_unless_too_long accepted
  have set : (30000 : Rat) = length := Number.finite.inj (Option.some.inj given)
  obtain rfl : 30000 = length := by exact_mod_cast set
  obtain ⟨timely, _, mutes⟩ := sessions ⟨⟨[]⟩, [], slowServer (.finite 31000), ⟨0⟩⟩
  obtain ⟨completed, _⟩ := mutes rfl (.inr ⟨_, _, rfl, by decide⟩)
  refine ⟨completed, ?_⟩
  obtain ⟨_, began, ended, begins, ends, lasts⟩ := timely 0 0 Command.greetings (.finite 30000) []
    (by rw [completed]; rfl)
  cases begins
  exact ⟨ended, ends, lasts⟩

def patientEnvironment : Environment :=
  ⟨[("IMAP_USER", "reader"), ("IMAP_PASS", "secret"), ("IMAP_LOCK_PATH", ""),
    ("IMAP_TIMEOUT_MS", "2147483648")]⟩

def patientSettings : Settings :=
  { readerSettings with lockFile := .skip, timeout := some (.finite 2147483648) }

/-- A greeting that comes after five milliseconds is not awaited, though there is almost a month's
time for it. -/
theorem early_greeting_times_out :
    patientEnvironment.settings = .ok patientSettings ∧
      patientSettings.timeout = some (.finite 2147483648) ∧
      let surroundings : Surroundings := ⟨⟨[]⟩, [], slowServer (.finite 5), ⟨0⟩⟩
      let exchange := (run patientSettings surroundings).exchange
      exchange.completed[0]? =
          some ⟨0, .error (.timedOut Command.greetings (.finite 2147483648) [])⟩ ∧
        ¬∃ began ended, (beginnings patientSettings surroundings)[0]? = some began ∧
          exchange.moments[0]? = some ended ∧ began + 2147483648 ≤ ended := by
  refine ⟨by decide +kernel, rfl, ?_⟩
  intro surroundings exchange
  have mute : Mute (Clock.delay (.finite 2147483648)) surroundings.script.greeting :=
    .inr ⟨_, _, rfl, by decide +kernel⟩
  obtain ⟨completed, moments⟩ := run_mute (rfl : patientSettings.timeout = _) rfl mute
  refine ⟨by rw [completed]; rfl, ?_⟩
  rintro ⟨began, ended, begins, ends, lasts⟩
  rw [moments] at ends
  cases begins
  cases ends
  revert lasts
  decide +kernel

end Session

end ImapDialogue

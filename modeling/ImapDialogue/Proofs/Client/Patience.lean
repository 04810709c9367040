import ImapDialogue.Proofs.Channel.Sparing
import ImapDialogue.Proofs.Client.Account
import ImapDialogue.Proofs.Client.Turns

/-!
How long a client waits. A call says that its time was up only if its wait says so, and a wait says
so only when its timer fires: nothing else that happens to a client, and no call that is begun,
makes any call run out of time.
-/

namespace ImapDialogue.Client

variable {client later : Client} {channel : Channel} {timeout : Number} {held held' : Wait → Prop}
  {task : Task} {ticket : Nat} {how : Except Failure Match} {completion : Completion}

/-! ## Ends of waits -/

theorem isTimeout_failedCommand (found : Match) : (failedCommand found).isTimeout = false := by
  unfold failedCommand
  dsimp only
  split <;> rfl

section Reader

variable [Mail.Reader]

/-- A call that runs out of time has a wait that ran out of it. -/
theorem timeout_of_mem_ends {now : Instant} (member : completion ∈ ends now ticket how task)
    {failure : Failure} (fails : completion.result = .error failure)
    (timeout : failure.isTimeout = true) :
    completion.ticket = ticket ∧ how = .error failure := by
  refine ⟨ticket_of_mem_ends member, ?_⟩
  cases how with
  | error reason =>
      rw [ends_error, List.mem_singleton] at member
      rw [member] at fails
      exact congrArg Except.error (Except.error.inj fails)
  | ok found =>
      by_cases success : found.index = 0
      · rcases ends_of_success now ticket success task with
          ⟨answer, only, _⟩ | ⟨_, _, _, nothing, _⟩
        · rw [only, List.mem_singleton] at member
          rw [member] at fails
          cases fails
        · rw [nothing] at member
          cases member
      · by_cases command : task = .greeting
        · rw [command, ends, welcome, if_neg success, List.mem_singleton] at member
          rw [member] at fails
          cases fails
          cases timeout
        · rw [ends_refused now ticket success command, List.mem_singleton] at member
          rw [member] at fails
          cases fails
          rw [isTimeout_failedCommand] at timeout
          cases timeout

theorem timeout_of_mem_settle {now : Instant} {settled : List Settlement}
    (member : completion ∈ (client.settle now settled).2) {failure : Failure}
    (fails : completion.result = .error failure) (timeout : failure.isTimeout = true) :
    ⟨completion.ticket, .error failure⟩ ∈ settled := by
  induction settled generalizing client with
  | nil => cases member
  | cons settlement others induction =>
      rw [settle] at member
      cases waits : client.task with
      | none =>
          rw [waits] at member
          exact List.mem_cons_of_mem settlement (induction member)
      | some task =>
          rw [waits] at member
          rcases List.mem_append.mp member with first | second
          · rw [conclude_completed] at first
            obtain ⟨ticket, result⟩ := timeout_of_mem_ends first fails timeout
            rw [ticket, ← result]
            exact List.mem_cons_self
          · exact List.mem_cons_of_mem settlement (induction second)

/-- Where no wait ran out of time no call does. -/
theorem untimed_of_mem_ends {now : Instant} (untimed : Untimed how)
    (member : completion ∈ ends now ticket how task) : Untimed completion.result := by
  intro failure fails
  rw [Bool.eq_false_iff]
  intro timeout
  obtain ⟨_, same⟩ := timeout_of_mem_ends member fails timeout
  exact Bool.eq_false_iff.mp (untimed failure same) timeout

theorem untimed_of_mem_settle {now : Instant} {settled : List Settlement}
    (untimed : ∀ settlement ∈ settled, Untimed settlement.result)
    (member : completion ∈ (client.settle now settled).2) : Untimed completion.result := by
  intro failure fails
  rw [Bool.eq_false_iff]
  intro timeout
  have settles := timeout_of_mem_settle member fails timeout
  exact Bool.eq_false_iff.mp (untimed _ settles failure rfl) timeout

end Reader

/-! ## Open waits -/

/-- A client that waits for a given time, on a calm channel, with such waits open only as are
allowed. -/
structure Holds (timeout : Number) (held : Wait → Prop) (client : Client) : Prop where
  timeout : client.timeout = timeout
  calm : ∀ channel, client.channel = some channel → channel.Calm
  waits : ∀ wait, client.wait? = some wait → held wait

/-- The same client later on, and no call that has ended meanwhile ran out of time. -/
structure Spared (timeout : Number) (held : Wait → Prop) (later : Client)
    (completed : List Completion) : Prop where
  holds : later.Holds timeout held
  untimed : ∀ completion ∈ completed, Untimed completion.result

theorem timer?_eq (client : Client) : client.timer? = client.wait?.map (·.timer) := by
  unfold timer? wait?
  cases client.channel with
  | none => rfl
  | some channel => cases waits : channel.intake.wait <;> simp [waits]

theorem timer?_of_wait? {wait : Wait} (waits : client.wait? = some wait) :
    client.timer? = some wait.timer := by
  rw [timer?_eq, waits]
  rfl

namespace Holds

theorem imp (holds : client.Holds timeout held) (allows : ∀ wait, held wait → held' wait) :
    client.Holds timeout held' :=
  ⟨holds.timeout, holds.calm, fun wait waits => allows wait (holds.waits wait waits)⟩

/-- Other parts of the client play no role, and a channel may be lost, or changed if that opens no
wait on it. -/
theorem of_parts (holds : client.Holds timeout held) (settings : later.settings = client.settings)
    (kept : ∀ next, later.channel = some next → ∃ channel, client.channel = some channel ∧
      next.Calm ∧ ∀ wait, next.intake.wait = some wait → channel.intake.wait = some wait) :
    later.Holds timeout held where
  timeout := by
    rw [← holds.timeout, Client.timeout, Client.timeout, settings]
  calm := by
    intro next has
    obtain ⟨_, _, calm, _⟩ := kept next has
    exact calm
  waits := by
    intro wait waits
    obtain ⟨next, has, open_⟩ := Option.bind_eq_some_iff.mp waits
    obtain ⟨channel, had, _, before⟩ := kept next has
    apply holds.waits wait
    rw [wait?, had]
    exact before wait open_

theorem of_core (holds : client.Holds timeout held) (same : later.core = client.core) :
    later.Holds timeout held := by
  refine holds.of_parts (settings_of_core same) ?_
  intro channel has
  have had := (channel_of_core same).symm.trans has
  exact ⟨channel, had, holds.calm channel had, fun _ => id⟩

theorem absorb (holds : client.Holds timeout held) {result : Channel × Effects}
    (calm : result.1.Calm) (waits : ∀ wait, result.1.intake.wait = some wait → held' wait) :
    (client.absorb result.1 result.2).Holds timeout held' := by
  have same := core_absorb client result.1 result.2
  have settings := settings_of_core same
  have has := channel_of_core same
  refine ⟨?_, ?_, ?_⟩
  · rw [← holds.timeout, Client.timeout, Client.timeout, settings]
  · intro channel has'
    cases has.symm.trans has'
    exact calm
  · intro wait waits'
    rw [wait?, has] at waits'
    exact waits wait waits'

/-! ## Messages -/

theorem readOn (holds : client.Holds timeout held) (readings : List Reading) :
    Spared timeout held (client.readOn readings).1 (client.readOn readings).2 := by
  obtain ⟨completed, core⟩ := client.readOn_spec readings
  have moved : { client with
      readings := readings.filterMap Reading.left?
      events := client.events ++ readings.flatMap (Reading.telling client.listeners) }.Holds
      timeout held := ⟨holds.timeout, holds.calm, holds.waits⟩
  refine ⟨moved.of_core core, ?_⟩
  rw [completed]
  intro completion member
  obtain ⟨reading, _, ends⟩ := List.mem_filterMap.mp member
  obtain ⟨answer, succeeds⟩ := Reading.ending?_ok ends
  rw [succeeds]
  exact untimed_ok answer

theorem read (holds : client.Holds timeout held) (turns : Nat) :
    Spared timeout held (client.read turns).1 (client.read turns).2 := by
  induction turns generalizing client with
  | zero => exact ⟨holds, List.forall_mem_nil _⟩
  | succ turns induction =>
      obtain ⟨first, untimed⟩ := holds.readOn client.readings
      obtain ⟨later, untimed'⟩ := induction first
      exact ⟨later, List.forall_mem_append.mpr ⟨untimed, untimed'⟩⟩

/-! ## Events -/

variable [Mail.Reader]

theorem conclude (holds : client.Holds timeout held) (now : Instant) (ticket : Nat) (task : Task)
    (how : Except Failure Match) :
    (client.conclude now ticket task how).1.Holds timeout held := by
  obtain ⟨greeting, mailbox, same⟩ := client.conclude_core now ticket task how
  have settings := settings_of_core same
  have channel := channel_of_core same
  refine holds.of_parts settings ?_
  intro next has
  obtain ⟨channel, had, rfl⟩ := Option.map_eq_some_iff.mp (channel.symm.trans has)
  have calm := holds.calm channel had
  refine ⟨channel, had, ?_⟩
  unfold left
  split
  · exact ⟨(Channel.spares_destroy calm).calm, (Channel.spares_destroy calm).wait⟩
  · exact ⟨calm, fun _ => id⟩

theorem settle (holds : client.Holds timeout held) (now : Instant) (settled : List Settlement) :
    (client.settle now settled).1.Holds timeout held := by
  induction settled generalizing client with
  | nil => exact holds
  | cons settlement others induction =>
      rw [Client.settle]
      cases waits : client.task with
      | none => exact induction holds
      | some task =>
          have idle : { client with task := none }.Holds timeout held :=
            ⟨holds.timeout, holds.calm, holds.waits⟩
          exact induction (idle.conclude now settlement.ticket task settlement.result)

theorem effects (holds : client.Holds timeout held) (has : client.channel = some channel)
    {result : Channel × Effects} (spares : channel.Spares result) (now : Instant) :
    let ended := (client.absorb result.1 result.2).settle now result.2.settled
    Spared timeout held ended.1 ended.2 := by
  have absorbed := holds.absorb spares.calm fun wait waits => holds.waits wait (by
    rw [wait?, has]
    exact spares.wait wait waits)
  exact ⟨absorbed.settle now _, fun _ => untimed_of_mem_settle spares.settled⟩

theorem react (holds : client.Holds timeout held) {change : Channel → Channel × Effects}
    (spares : ∀ channel : Channel, channel.Calm → channel.Spares (change channel))
    (now : Instant) :
    Spared timeout held (client.react now change).client (client.react now change).completed := by
  cases has : client.channel with
  | none =>
      rw [react_unconnected has]
      exact ⟨holds, List.forall_mem_nil _⟩
  | some channel =>
      simp only [Client.react, has]
      exact holds.effects has (spares channel (holds.calm channel has)) now

/-- The timer fires. No wait is open behind that, and a call that ran out of time is the one that
waited. -/
theorem expire (holds : client.Holds timeout held) (now : Instant) :
    let step := client.react now Channel.expire
    step.client.Holds timeout (fun _ => False) ∧
      ∀ completion ∈ step.completed, ∀ failure, completion.result = .error failure →
        failure.isTimeout = true → ∃ wait unread, client.wait? = some wait ∧
          completion.ticket = wait.ticket ∧
            failure = .timeout wait.patterns wait.timeout unread := by
  cases has : client.channel with
  | none =>
      rw [react_unconnected has]
      refine ⟨⟨holds.timeout, holds.calm, ?_⟩, List.forall_mem_nil _⟩
      intro wait waits
      rw [wait?, has] at waits
      cases waits
  | some channel =>
      obtain ⟨calm, idle, settled⟩ := Channel.calm_expire (holds.calm channel has)
      have absorbed : (client.absorb channel.expire.1 channel.expire.2).Holds timeout
          fun _ => False := by
        refine holds.absorb calm ?_
        intro wait waits
        rw [idle] at waits
        cases waits
      simp only [Client.react, has]
      refine ⟨absorbed.settle now _, ?_⟩
      intro completion member failure fails timeout
      obtain ⟨wait, waits, ticket, result⟩ :=
        settled _ (timeout_of_mem_settle member fails timeout)
      refine ⟨wait, channel.intake.unread, ?_, ticket, Except.error.inj result⟩
      rw [wait?, has]
      exact waits

/-! ## Calls -/

theorem await (holds : client.Holds timeout held) (clock : Clock) (now : Instant) (ticket : Nat)
    (patterns : List Pattern) (task : Task)
    (opens : held ⟨ticket, patterns, timeout, clock.timer timeout⟩) :
    Spared timeout held (client.await clock now ticket patterns task).client
      (client.await clock now ticket patterns task).completed := by
  cases has : client.channel with
  | none =>
      rw [Client.await, has]
      exact ⟨holds, List.forall_mem_singleton.mpr (untimed_error rfl)⟩
  | some channel =>
      obtain ⟨calm, course, untimed⟩ := Channel.calm_await (holds.calm channel has)
        ⟨ticket, patterns, client.timeout, clock.timer client.timeout⟩
      rw [await_eq has]
      rw [holds.timeout] at calm course untimed ⊢
      generalize channel.await ⟨ticket, patterns, timeout, clock.timer timeout⟩ = begun
        at calm course untimed ⊢
      have absorbed : (client.absorb begun.1 begun.2).Holds timeout held := by
        refine holds.absorb calm ?_
        intro wait waits
        rcases course wait waits with old | rfl
        · apply holds.waits wait
          rw [wait?, has]
          exact old
        · exact opens
      dsimp only
      split
      · exact ⟨⟨absorbed.timeout, absorbed.calm, absorbed.waits⟩, List.forall_mem_nil _⟩
      · next settlement others settled =>
          refine ⟨absorbed.conclude now ticket task _, ?_⟩
          rw [settled] at untimed
          rw [conclude_completed]
          exact fun _ => untimed_of_mem_ends (untimed settlement List.mem_cons_self)

theorem command (holds : client.Holds timeout held) (clock : Clock) (now : Instant) (ticket : Nat)
    (verb arguments shown marker : String) (task : String → Task)
    (opens : ∀ patterns, held ⟨ticket, patterns, timeout, clock.timer timeout⟩) :
    let step := client.command clock now ticket verb arguments shown marker task
    Spared timeout held step.client step.completed := by
  cases has : client.channel with
  | none =>
      rw [command_unconnected has]
      exact ⟨holds.of_core (core_tell _ _), List.forall_mem_singleton.mpr (untimed_error rfl)⟩
  | some channel =>
      let tag := toString (client.lastTag + 1)
      let line := tag ++ " " ++ verb ++ " " ++ arguments
      let told := tag ++ " " ++ verb ++ " " ++ shown
      have has' : (client.counting told).channel = some channel := has
      have counting : (client.counting told).Holds timeout held :=
        ⟨holds.timeout, holds.calm, holds.waits⟩
      obtain ⟨spares, result⟩ := Channel.spares_send (holds.calm channel has) line (some told)
      have settled := counting.effects has' spares now
      rw [command_eq has]
      dsimp only
      rw [goOn]
      dsimp only at settled ⊢
      generalize channel.send line (some told) = sent at result settled ⊢
      generalize ((client.counting told).absorb sent.channel sent.effects).settle now
        sent.effects.settled = behind at settled ⊢
      obtain ⟨behind, untimed⟩ := settled
      split
      · next failure failed =>
          exact ⟨behind, List.forall_mem_cons.mpr
            ⟨untimed_error (result failure failed), untimed⟩⟩
      · obtain ⟨awaited, untimed'⟩ := behind.await clock now ticket (Command.answers tag marker)
          (task tag) (opens _)
        exact ⟨awaited, List.forall_mem_append.mpr ⟨untimed, untimed'⟩⟩

theorem close (holds : client.Holds timeout held) (now : Instant) (ticket : Nat) :
    Spared timeout held (client.close now ticket).client (client.close now ticket).completed := by
  have told := holds.of_core (core_tell client .closing)
  obtain ⟨closed, untimed⟩ := told.react (fun _ => Channel.spares_destroy) now
  refine ⟨closed.of_parts rfl (by rintro channel ⟨⟩), ?_⟩
  exact List.forall_mem_cons.mpr ⟨untimed_ok _, untimed⟩

/-- A call begins. A wait that it opens is over when its time is up from then on. -/
theorem begin (holds : client.Holds timeout held) (clock : Clock) (now : Instant) (ticket : Nat)
    (call : Call) (opens : ∀ patterns, held ⟨ticket, patterns, timeout, clock.timer timeout⟩) :
    Spared timeout held (client.begin clock now ticket call).client
      (client.begin clock now ticket call).completed := by
  cases asks : call.asking? client.settings with
  | some asking =>
      obtain ⟨told, _, same, begun⟩ := client.begin_eq_command clock now ticket asks
      rw [begun]
      exact (holds.of_core same).command clock now ticket _ _ _ _ _ opens
  | none =>
      cases call with
      | login | select | fetch => cases asks
      | close => exact holds.close now ticket
      | listen | unlisten =>
          exact ⟨⟨holds.timeout, holds.calm, holds.waits⟩,
            List.forall_mem_singleton.mpr (untimed_ok _)⟩

theorem connect (holds : client.Holds timeout held) (clock : Clock) (now : Instant) (ticket : Nat)
    (fault : Option String)
    (opens : ∀ patterns, held ⟨ticket, patterns, timeout, clock.timer timeout⟩) :
    Spared timeout held (client.connect clock now ticket fault).client
      (client.connect clock now ticket fault).completed := by
  have connecting : { client with
      channel := some { Channel.fresh true with writeFault := fault } }.Holds timeout held := by
    refine ⟨holds.timeout, ?_, by rintro wait ⟨⟩⟩
    rintro channel ⟨⟩
    exact Channel.calm_fresh fault
  exact connecting.await clock now ticket Command.greetings .greeting (opens _)

end Holds

theorem holds_create (settings : Settings) (held : Wait → Prop) :
    (create settings).Holds (settings.timeout.getD standardTimeout) held :=
  ⟨rfl, by rintro channel ⟨⟩, by rintro wait ⟨⟩⟩

end ImapDialogue.Client

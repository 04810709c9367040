import ImapDialogue.Proofs.Client.Asking
import ImapDialogue.Proofs.Client.Tidings
import ImapDialogue.Proofs.Exchange.Moves
import ImapDialogue.Proofs.Exchange.Reaching

/-!
The cases to consider where something is to hold throughout a dialogue: an event on the channel, time
that passes, messages that are read, and a call that is begun.
-/

namespace ImapDialogue.Exchange

variable {exchange later : Exchange}

structure Event (change : Channel → Channel × Effects) : Prop where
  incident : ∀ channel : Channel, channel.Incident (change channel)
  brings : ∀ channel : Channel, channel.Fit → channel.Brings (change channel)

theorem event_expire : Event Channel.expire :=
  ⟨Channel.incident_expire, fun _ fit => Channel.brings_expire fit⟩

variable [Mail.Reader]

theorem act_cases (exchange : Exchange) (action : Action) :
    exchange.act action = exchange ∨
      ∃ change, Event change ∧ exchange.act action = exchange.react change := by
  cases action with
  | send chunk =>
      refine .inr ⟨_, ⟨fun channel => channel.incident_receive chunk, ?_⟩, rfl⟩
      exact fun _ fit => Channel.brings_receive fit chunk
  | hangUp =>
      exact .inr ⟨_, ⟨Channel.incident_hangUp, fun _ fit => Channel.brings_hangUp fit⟩, rfl⟩
  | fail message =>
      refine .inr ⟨_, ⟨fun channel => channel.incident_fail message, ?_⟩, rfl⟩
      exact fun _ fit => Channel.brings_fail fit message
  | report message =>
      refine .inr ⟨_, ⟨fun channel => channel.incident_report message, ?_⟩, rfl⟩
      exact fun _ fit => Channel.brings_report fit message
  | failWrites message =>
      refine .inr ⟨_, ⟨fun channel => channel.incident_failWrites message, ?_⟩, rfl⟩
      exact fun _ fit => Channel.brings_failWrites fit message
  | pause length => exact .inl rfl

/-- What is kept by events, by the clock, by the server's script and by reading is kept while a
dialogue goes on. -/
theorem Going.keeps {motive : Exchange → Prop} (going : Going exchange later)
    (react : ∀ {exchange : Exchange} {change : Channel → Channel × Effects}, Event change →
      motive exchange → motive (exchange.react change))
    (clock : ∀ {exchange : Exchange} (clock : Clock), motive exchange →
      motive { exchange with clock := clock })
    (queue : ∀ {exchange : Exchange} (pause : Option Timer) (queue : List Action),
      motive exchange → motive (exchange.withQueue pause queue))
    (read : ∀ {exchange : Exchange} (turns : Nat), motive exchange →
      motive (exchange.absorbReading (exchange.client.read turns)))
    (here : motive exchange) : motive later := by
  induction going with
  | here => exact here
  | @acted later action _ behind =>
      rcases later.act_cases action with same | ⟨change, event, same⟩
      · rw [same]
        exact behind
      · rw [same]
        exact react event behind
  | @expired later timer _ behind => exact react event_expire (clock (later.clock.jumpTo timer) behind)
  | later moved _ behind => exact clock moved behind
  | queued pause others _ behind => exact queue pause others behind
  | turned turns _ behind => exact read turns behind

/-- How a call begins: with a command that is given on the channel, without one, or by closing. -/
theorem begin_cases (exchange : Exchange) (ticket : Nat) (call : Call) :
    (∃ channel asking, exchange.client.channel = some channel ∧
      call.asking? exchange.client.settings = some asking ∧
        exchange.client.issues? call = some asking) ∨
    (exchange.client.issues? call = none ∧ ∃ client completed, exchange.client.Follows [] client ∧
      exchange.begin ticket call = exchange.absorbReading (client, completed)) ∨
    (exchange.client.issues? call = none ∧ ∃ client completed, exchange.client.Follows [] client ∧
      client.Closed ∧
      exchange.begin ticket call = exchange.absorbReading (client.release, completed)) := by
  have quiet : ∀ {call : Call},
      (exchange.client.begin exchange.clock exchange.now ticket call).written = [] →
        exchange.begin ticket call = exchange.absorbReading
          ((exchange.client.begin exchange.clock exchange.now ticket call).client,
            (exchange.client.begin exchange.clock exchange.now ticket call).completed) := by
    intro call silent
    rw [Exchange.begin, exchange.absorb_silent silent]
  cases has : exchange.client.channel with
  | none =>
      obtain ⟨silent, follows⟩ :=
        Client.begin_unconnected has exchange.clock exchange.now ticket call
      exact .inr (.inl ⟨Client.issues?_unconnected has call, _, _, follows, quiet silent⟩)
  | some channel =>
      have issues := Client.issues?_connected has call
      cases asks : call.asking? exchange.client.settings with
      | some asking => exact .inl ⟨channel, asking, rfl, rfl, issues.trans asks⟩
      | none =>
          refine .inr ?_
          rw [issues, asks]
          cases call with
          | login | select | fetch => cases asks
          | close =>
              obtain ⟨silent, client, follows, closed, left⟩ :=
                exchange.client.close_spec exchange.now ticket
              have closes := @quiet .close silent
              rw [Client.begin, left] at closes
              exact .inr ⟨rfl, client, _, follows, closed, closes⟩
          | listen name =>
              refine .inl ⟨rfl, _, _, ?_, quiet rfl⟩
              exact Client.follows_aside _ _ _ _ _ _ _
          | unlisten name =>
              refine .inl ⟨rfl, _, _, ?_, quiet rfl⟩
              exact Client.follows_aside _ _ _ _ _ _ _

/-- What holds of a client that is made and of one that connects, and is kept when a call is begun
and while a dialogue goes on, holds of every exchange that is reached. -/
theorem Reached.keeps {settings : Settings} {calls : List Call} {motive : List Call → Exchange → Prop}
    (reached : Reached settings calls exchange)
    (start : ∀ script now, motive [] (Exchange.start settings script now))
    (connected : ∀ script now, motive [] ((Exchange.start settings script now).connect script))
    (begun : ∀ {calls : List Call} {exchange : Exchange} (ticket : Nat) (call : Call),
      motive calls exchange → motive (calls ++ [call]) (exchange.begin ticket call))
    (going : ∀ {calls : List Call} {exchange later : Exchange}, Going exchange later →
      motive calls exchange → motive calls later) : motive calls exchange := by
  induction reached with
  | start script now => exact start script now
  | connected script now => exact connected script now
  | begun ticket call _ before => exact begun ticket call before
  | acted action _ before => exact going (Going.here.acted action) before
  | expired timer _ before => exact going (Going.here.expired timer) before
  | later clock _ before => exact going (Going.here.later clock) before
  | queued pause queue _ before => exact going (Going.here.queued pause queue) before
  | turned turns _ before => exact going (Going.here.turned turns) before

end ImapDialogue.Exchange

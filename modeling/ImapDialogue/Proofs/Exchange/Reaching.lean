import ImapDialogue.Proofs.Exchange.Finishing
import ImapDialogue.Session.Basic
import Mathlib.Data.List.Infix

/-!
The exchanges that a client can come to. Whatever calls are made and whatever the server does, a
dialogue or a session is made of a few kinds of moves, so what each of them preserves holds
throughout.
-/

namespace ImapDialogue.Exchange

def Timed (exchange : Exchange) : Prop := exchange.moments.length = exchange.completed.length

section Timed

variable {exchange : Exchange}

theorem Timed.absorb (timed : exchange.Timed) (step : Client.Step) : (exchange.absorb step).Timed := by
  unfold Timed at timed ⊢
  simp [Exchange.absorb, timed]

theorem Timed.absorbReading (timed : exchange.Timed) (outcome : Client × List Completion) :
    (exchange.absorbReading outcome).Timed := by
  unfold Timed at timed ⊢
  simp [Exchange.absorbReading, timed]

end Timed

variable [Mail.Reader]

/-- An exchange goes on to another one while no call is begun: the server acts, time passes, and
messages are read. -/
inductive Going (exchange : Exchange) : Exchange → Prop
  | here : Going exchange exchange
  | acted {later : Exchange} (action : Action) : Going exchange later → Going exchange (later.act action)
  | expired {later : Exchange} (timer : Timer) :
      Going exchange later → Going exchange (later.expire timer)
  | later {later : Exchange} (clock : Clock) :
      Going exchange later → Going exchange { later with clock := clock }
  | queued {later : Exchange} (pause : Option Timer) (queue : List Action) :
      Going exchange later → Going exchange (later.withQueue pause queue)
  | turned {later : Exchange} (turns : Nat) :
      Going exchange later → Going exchange (later.absorbReading (later.client.read turns))

namespace Going

variable {begun exchange : Exchange}

theorem read (going : Going begun exchange) : Going begun exchange.read := going.turned turnsBetween

theorem readAll (going : Going begun exchange) : Going begun exchange.readAll := going.turned _

theorem drainFrom (going : Going begun exchange) (queue : List Action) :
    Going begun (exchange.drainFrom queue) := by
  induction exchange, queue using drainFrom.induct with
  | case1 exchange => exact going.queued none []
  | case2 exchange length others => exact going.queued _ _
  | case3 exchange action others other induction =>
      rw [drainFrom_act exchange others other]
      exact induction (going.acted action).read

theorem drain (going : Going begun exchange) : Going begun exchange.drain := by
  unfold Exchange.drain
  split
  · exact going
  · exact going.drainFrom _

theorem finishFrom (going : Going begun exchange) (ticket : Nat) (waits : Bool)
    (pause : Option Timer) (queue : List Action) :
    Going begun (exchange.finishFrom ticket waits pause queue) := by
  -- The induction is on the recursion of the loop.
  induction exchange, waits, pause, queue using finishFrom.induct ticket with
  | case1 exchange waits pause queue rested ended =>
      rw [finishFrom_ended ended]
      exact going.read.queued pause queue
  | case2 exchange waits rested pending length others induction =>
      rw [finishFrom_pause pending]
      exact induction going.read
  | case3 exchange waits rested pending action others other induction =>
      rw [finishFrom_act pending other]
      exact induction (going.read.acted action)
  | case4 exchange rested pending timer timed induction =>
      rw [finishFrom_expire pending timed]
      exact induction (going.read.expired timer)
  | case5 exchange waits rested pending untimed =>
      rw [finishFrom_readAll pending untimed]
      exact going.read.readAll.queued none []
  | case6 exchange rested pending pause queue timer timed sooner induction =>
      rw [finishFrom_sooner pending timed sooner]
      exact induction (going.read.expired timer)
  | case7 exchange rested pending pause queue released timer timed later same induction =>
      rw [finishFrom_together pending timed later same]
      exact induction ((going.read.later _).expired timer)
  | case8 exchange rested pending pause queue released timer timed later other induction =>
      rw [finishFrom_later pending timed later other]
      exact induction (going.read.later _)
  | case9 exchange waits rested pending pause queue released untimed induction =>
      rw [finishFrom_untimed pending untimed]
      exact induction (going.read.later _)

theorem finish (going : Going begun exchange) (ticket : Nat) :
    Going begun (exchange.finish ticket) := going.finishFrom ticket _ _ _

/-- Behind the beginning of its call a request is nothing but going on. -/
theorem perform (exchange : Exchange) (ticket : Nat) (request : Request) :
    Going (exchange.begin ticket request.call) (exchange.perform ticket request) := by
  unfold Exchange.perform
  dsimp only
  split
  · exact (here.finish ticket).drain
  · exact here.read

end Going

/-- An exchange that a client with some settings comes to by calls that are begun one after the
other, with the server, the clock and the reading of messages in between. -/
inductive Reached (settings : Settings) : List Call → Exchange → Prop
  | start (script : Script) (now : Instant) : Reached settings [] (start settings script now)
  | connected (script : Script) (now : Instant) :
      Reached settings [] ((Exchange.start settings script now).connect script)
  | begun {calls : List Call} {exchange : Exchange} (ticket : Nat) (call : Call) :
      Reached settings calls exchange → Reached settings (calls ++ [call]) (exchange.begin ticket call)
  | acted {calls : List Call} {exchange : Exchange} (action : Action) :
      Reached settings calls exchange → Reached settings calls (exchange.act action)
  | expired {calls : List Call} {exchange : Exchange} (timer : Timer) :
      Reached settings calls exchange → Reached settings calls (exchange.expire timer)
  | later {calls : List Call} {exchange : Exchange} (clock : Clock) :
      Reached settings calls exchange → Reached settings calls { exchange with clock := clock }
  | queued {calls : List Call} {exchange : Exchange} (pause : Option Timer) (queue : List Action) :
      Reached settings calls exchange → Reached settings calls (exchange.withQueue pause queue)
  | turned {calls : List Call} {exchange : Exchange} (turns : Nat) :
      Reached settings calls exchange →
        Reached settings calls (exchange.absorbReading (exchange.client.read turns))

namespace Reached

variable {settings : Settings} {calls : List Call} {exchange : Exchange}

theorem going (reached : Reached settings calls exchange) {later : Exchange}
    (going : Going exchange later) : Reached settings calls later := by
  induction going with
  | here => exact reached
  | acted action _ behind => exact behind.acted action
  | expired timer _ behind => exact behind.expired timer
  | later clock _ behind => exact behind.later clock
  | queued pause queue _ behind => exact behind.queued pause queue
  | turned turns _ behind => exact behind.turned turns

theorem finish (reached : Reached settings calls exchange) (ticket : Nat) :
    Reached settings calls (exchange.finish ticket) := reached.going (Going.here.finish ticket)

theorem drain (reached : Reached settings calls exchange) :
    Reached settings calls exchange.drain := reached.going Going.here.drain

theorem perform (reached : Reached settings calls exchange) (ticket : Nat) (request : Request) :
    Reached settings (calls ++ [request.call]) (exchange.perform ticket request) :=
  (reached.begun ticket request.call).going (.perform exchange ticket request)

theorem performAll (reached : Reached settings calls exchange) (ticket : Nat)
    (requests : List Request) :
    Reached settings (calls ++ requests.map (·.call)) (exchange.performAll ticket requests).2 := by
  induction requests generalizing calls exchange ticket with
  | nil =>
      rw [List.map_nil, List.append_nil]
      exact reached
  | cons request others induction =>
      rw [List.map_cons, List.append_cons]
      exact induction (reached.perform ticket request) (ticket + 1)

theorem converse (reached : Reached settings calls exchange) (ticket : Nat) (others : List Call) :
    ∃ made, made <+: others ∧
      Reached settings (calls ++ made) (exchange.converse ticket others).1 := by
  induction others generalizing calls exchange ticket with
  | nil =>
      refine ⟨[], List.prefix_rfl, ?_⟩
      rw [List.append_nil]
      exact reached
  | cons call others induction =>
      have after : Reached settings (calls ++ [call]) (exchange.call ticket call) :=
        (reached.begun ticket call).finish ticket
      obtain ⟨made, first, behind⟩ := induction after (ticket + 1)
      rw [← List.append_cons] at behind
      rw [Exchange.converse]
      dsimp only
      split
      · exact ⟨[call], ⟨others, rfl⟩, after⟩
      · exact ⟨call :: made, List.cons_prefix_cons.mpr ⟨rfl, first⟩, behind⟩
      · exact ⟨call :: made, List.cons_prefix_cons.mpr ⟨rfl, first⟩, behind⟩

end Reached

/-! ## Times -/

section Times

variable {settings : Settings} {calls : List Call} {exchange : Exchange}

theorem Timed.react (timed : exchange.Timed) (change : Channel → Channel × Effects) :
    (exchange.react change).Timed := by
  have noted : Timed { exchange with passed := exchange.passed ++ exchange.arrivals change } := timed
  exact noted.absorb _

theorem Reached.timed (reached : Reached settings calls exchange) : exchange.Timed := by
  induction reached with
  | start script now => rfl
  | connected script now =>
      have started : (Exchange.start settings script now).Timed := rfl
      unfold Exchange.connect
      dsimp only
      split
      · exact started.absorb _
      · exact started.absorb _
  | begun ticket call _ timed => exact timed.absorb _
  | acted action _ timed =>
      cases action with
      | pause length => exact timed
      | send | hangUp | fail | report | failWrites => exact timed.react _
  | @expired calls exchange timer _ timed =>
      have moved : Timed { exchange with clock := exchange.clock.jumpTo timer } := timed
      exact moved.react _
  | later clock _ timed => exact timed
  | queued pause queue _ timed => exact timed
  | turned turns _ timed => exact timed.absorbReading _

end Times

variable (settings : Settings) (script : Script) (now : Instant)

/-- In a dialogue the calls are made one after the other, and none without a greeting. -/
theorem reached_dialogue (requests : List Request) :
    ∃ made, made <+: requests.map (·.call) ∧
      Reached settings made (dialogue settings script now requests).last := by
  have connected : Reached settings [] _ := (Reached.connected script now).finish 0
  unfold Exchange.dialogue
  dsimp only
  split
  · exact ⟨[], List.nil_prefix, connected⟩
  · have made := connected.drain.performAll 1 requests
    rw [List.nil_append] at made
    exact ⟨requests.map (·.call), List.prefix_rfl, made⟩

theorem reached_unconnected (requests : List Request) :
    Reached settings (requests.map (·.call)) (unconnected settings script now requests).last :=
  (Reached.start script now : Reached settings [] _).performAll 1 requests

end Exchange

namespace Session

open Exchange (Reached)

/-- A session makes its calls in order, as many as succeed and one more, and closes. -/
theorem reached_run [Mail.Reader] (settings : Settings) (surroundings : Surroundings) :
    ∃ made, made <+: calls ∧ ∃ closing, closing <+: [Call.close] ∧
      Reached settings (made ++ closing) (run settings surroundings).exchange := by
  have connected : Reached settings [] _ :=
    (Reached.connected surroundings.script surroundings.now).finish 0
  show ∃ made, made <+: calls ∧ ∃ closing, closing <+: [Call.close] ∧
    Reached settings (made ++ closing) (talk settings surroundings.script surroundings.now).1
  unfold talk
  dsimp only
  split
  · exact ⟨[], List.nil_prefix, [], List.nil_prefix, connected⟩
  · obtain ⟨made, first, conversed⟩ := connected.converse 1 calls
    exact ⟨made, first, [.close], List.prefix_rfl, (conversed.begun _ .close).finish _⟩

end Session

end ImapDialogue

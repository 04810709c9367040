import ImapDialogue.Proofs.Client.Patience
import ImapDialogue.Proofs.Exchange.Moves
import ImapDialogue.Proofs.Exchange.Finishing
import Mathlib.Data.List.Forall2

/-!
When calls run out of time. The clock never passes the time at which the open wait is up: it stops
there, and only then does the timer fire. So a call that ran out of time ended as long after its
beginning as the timer was set to, to the millisecond.
-/

namespace ImapDialogue

/-- A call that ended at a moment, and if it ran out of time then when its time was up, counted from
its beginning. A call's ticket is its place among the times at which the calls began. -/
def Completion.Timely (starts : List Nat) (timeout : Number) (completion : Completion)
    (moment : Nat) : Prop :=
  ∀ patterns limit unread, completion.result = .error (.timedOut patterns limit unread) →
    limit = timeout ∧ ∃ start, starts[completion.ticket]? = some start ∧
      moment = start + Clock.delay timeout

/-- A wait that may be open at some time: it is up when its time is, counted from the beginning of
the call, and that is not past. -/
structure Wait.InTime (starts : List Nat) (timeout : Number) (waits : Bool) (now : Nat)
    (wait : Wait) : Prop where
  may : waits = true
  length : wait.timeout = timeout
  timer : ∃ start, starts[wait.ticket]? = some start ∧
    wait.timer.due = start + Clock.delay timeout
  early : now ≤ wait.timer.due

section Starts

variable {starts : List Nat} {timeout : Number} {waits : Bool} {now moment : Nat} {wait : Wait}
  {completion : Completion}

theorem getElem?_starts_append {ticket start : Nat} (began : starts[ticket]? = some start)
    (later : List Nat) : (starts ++ later)[ticket]? = some start := by
  rw [List.getElem?_append_left (List.getElem?_eq_some_iff.mp began).1]
  exact began

theorem Completion.Timely.append (timely : completion.Timely starts timeout moment)
    (later : List Nat) : completion.Timely (starts ++ later) timeout moment := by
  intro patterns limit unread result
  obtain ⟨same, start, began, ended⟩ := timely patterns limit unread result
  exact ⟨same, start, getElem?_starts_append began later, ended⟩

theorem Completion.timely_of_untimed (untimed : Untimed completion.result) :
    completion.Timely starts timeout moment := by
  intro patterns limit unread result
  cases untimed _ result

theorem Wait.InTime.append (inTime : wait.InTime starts timeout waits now) (later : List Nat) :
    wait.InTime (starts ++ later) timeout waits now := by
  obtain ⟨start, began, due⟩ := inTime.timer
  exact ⟨inTime.may, inTime.length, ⟨start, getElem?_starts_append began later, due⟩, inTime.early⟩

theorem Wait.inTime_begun {ticket : Nat} (clock : Clock) (began : starts[ticket]? = some clock.now)
    (patterns : List Pattern) :
    Wait.InTime starts timeout true clock.now
      ⟨ticket, patterns, timeout, clock.timer timeout⟩ where
  may := rfl
  length := rfl
  timer := ⟨clock.now, began, rfl⟩
  early := Nat.le_add_right clock.now _

end Starts

namespace Exchange

/-- An exchange in which no call ran out of time before its time was up, or behind that. A wait is
open only where one may be. -/
structure Punctual (starts : List Nat) (timeout : Number) (waits : Bool) (exchange : Exchange) :
    Prop where
  holds : exchange.client.Holds timeout (Wait.InTime starts timeout waits exchange.clock.now)
  ended : List.Forall₂ (Completion.Timely starts timeout) exchange.completed exchange.moments

variable {exchange : Exchange} {starts : List Nat} {timeout : Number} {waits : Bool}

theorem punctual_start (settings : Settings) (script : Script) (now : Instant) :
    (start settings script now).Punctual [] (settings.timeout.getD Client.standardTimeout) false :=
  ⟨Client.holds_create settings _, .nil⟩

namespace Punctual

theorem append (punctual : exchange.Punctual starts timeout waits) (later : List Nat) :
    exchange.Punctual (starts ++ later) timeout waits where
  holds := punctual.holds.imp fun _ inTime => inTime.append later
  ended := punctual.ended.imp fun _ _ timely => timely.append later

theorem allow (punctual : exchange.Punctual starts timeout waits) :
    exchange.Punctual starts timeout true where
  holds := punctual.holds.imp fun _ inTime => { inTime with may := rfl }
  ended := punctual.ended

theorem absorbReading (punctual : exchange.Punctual starts timeout waits) {waits' : Bool}
    {outcome : Client × List Completion}
    (holds : outcome.1.Holds timeout (Wait.InTime starts timeout waits' exchange.clock.now))
    (timely : ∀ completion ∈ outcome.2, completion.Timely starts timeout exchange.clock.now) :
    (exchange.absorbReading outcome).Punctual starts timeout waits' where
  holds := holds
  ended := by
    refine List.rel_append punctual.ended ?_
    exact List.forall₂_map_right_iff.mpr (List.forall₂_same.mpr timely)

theorem absorb (punctual : exchange.Punctual starts timeout waits) {waits' : Bool}
    {step : Client.Step}
    (holds : step.client.Holds timeout (Wait.InTime starts timeout waits' exchange.clock.now))
    (timely : ∀ completion ∈ step.completed, completion.Timely starts timeout exchange.clock.now) :
    (exchange.absorb step).Punctual starts timeout waits' := by
  have sent : (exchange.sending step.written).Punctual starts timeout waits :=
    ⟨punctual.holds, punctual.ended⟩
  rw [absorb_eq]
  exact sent.absorbReading holds timely

theorem spared (punctual : exchange.Punctual starts timeout waits) {waits' : Bool}
    {step : Client.Step}
    (spared : Client.Spared timeout (Wait.InTime starts timeout waits' exchange.clock.now)
      step.client step.completed) : (exchange.absorb step).Punctual starts timeout waits' :=
  punctual.absorb spared.holds fun completion member =>
    Completion.timely_of_untimed (spared.untimed completion member)

/-! ## Going on -/

theorem turned (punctual : exchange.Punctual starts timeout waits) (turns : Nat) :
    (exchange.absorbReading (exchange.client.read turns)).Punctual starts timeout waits := by
  obtain ⟨holds, untimed⟩ := punctual.holds.read turns
  exact punctual.absorbReading holds fun completion member =>
    Completion.timely_of_untimed (untimed completion member)

theorem read (punctual : exchange.Punctual starts timeout waits) :
    exchange.read.Punctual starts timeout waits := punctual.turned turnsBetween

theorem readAll (punctual : exchange.Punctual starts timeout waits) :
    exchange.readAll.Punctual starts timeout waits := punctual.turned _

theorem withQueue (punctual : exchange.Punctual starts timeout waits) (pause : Option Timer)
    (queue : List Action) : (exchange.withQueue pause queue).Punctual starts timeout waits :=
  ⟨punctual.holds, punctual.ended⟩

theorem inTime_of_timer (punctual : exchange.Punctual starts timeout waits) {timer : Timer}
    (own : exchange.client.timer? = some timer) :
    ∃ wait, exchange.client.wait? = some wait ∧ wait.timer = timer ∧
      wait.InTime starts timeout waits exchange.clock.now := by
  rw [Client.timer?_eq] at own
  obtain ⟨wait, waiting, rfl⟩ := Option.map_eq_some_iff.mp own
  exact ⟨wait, waiting, rfl, punctual.holds.waits wait waiting⟩

theorem untimed (punctual : exchange.Punctual starts timeout waits)
    (untimed : ∀ timer, waits = true → exchange.client.timer? = some timer → False) :
    exchange.Punctual starts timeout false where
  holds := by
    refine ⟨punctual.holds.timeout, punctual.holds.calm, ?_⟩
    intro wait waiting
    have inTime := punctual.holds.waits wait waiting
    exact (untimed wait.timer inTime.may (Client.timer?_of_wait? waiting)).elim
  ended := punctual.ended

/-- Time passes, but not beyond the time at which the open wait is up. -/
theorem later (punctual : exchange.Punctual starts timeout waits) {timer : Timer}
    (soon : ∀ own, waits = true → exchange.client.timer? = some own → timer.due ≤ own.due) :
    Punctual starts timeout waits { exchange with clock := exchange.clock.jumpTo timer } where
  holds := by
    refine ⟨punctual.holds.timeout, punctual.holds.calm, ?_⟩
    intro wait waiting
    have inTime := punctual.holds.waits wait waiting
    have ahead := soon wait.timer inTime.may (Client.timer?_of_wait? waiting)
    exact { inTime with early := Nat.max_le.mpr ⟨inTime.early, ahead⟩ }
  ended := punctual.ended

variable [Mail.Reader]

theorem react (punctual : exchange.Punctual starts timeout waits)
    {change : Channel → Channel × Effects}
    (spares : ∀ channel : Channel, channel.Calm → channel.Spares (change channel)) :
    (exchange.react change).Punctual starts timeout waits := by
  have noted : (exchange.noting change).Punctual starts timeout waits :=
    ⟨punctual.holds, punctual.ended⟩
  exact noted.spared (punctual.holds.react spares exchange.now)

theorem act (punctual : exchange.Punctual starts timeout waits) (action : Action) :
    (exchange.act action).Punctual starts timeout waits := by
  cases action with
  | send chunk => exact punctual.react fun _ calm => Channel.spares_receive calm chunk
  | hangUp => exact punctual.react fun _ => Channel.spares_hangUp
  | fail message => exact punctual.react fun _ calm => Channel.spares_fail calm message
  | report message => exact punctual.react fun _ calm => Channel.spares_report calm message
  | failWrites message => exact punctual.react fun _ calm => Channel.spares_failWrites calm message
  | pause length => exact punctual

theorem expire (punctual : exchange.Punctual starts timeout waits) {timer : Timer}
    (own : exchange.client.timer? = some timer) :
    (exchange.expire timer).Punctual starts timeout false := by
  let moved : Exchange := { exchange with clock := exchange.clock.jumpTo timer }
  obtain ⟨wait, waiting, fires, inTime⟩ := punctual.inTime_of_timer own
  obtain ⟨start, began, due⟩ := inTime.timer
  obtain ⟨holds, timeouts⟩ := punctual.holds.expire exchange.now
  have noted : (moved.noting Channel.expire).Punctual starts timeout waits := by
    have passed : moved.Punctual starts timeout waits := by
      apply punctual.later
      intro other _ has
      cases own.symm.trans has
      exact Nat.le_refl timer.due
    exact ⟨passed.holds, passed.ended⟩
  -- The clock has come to the time at which the wait is up.
  have reached : moved.clock.now = start + Clock.delay timeout := by
    rw [← due, fires]
    exact Nat.max_eq_right (fires ▸ inTime.early)
  refine noted.absorb (holds.imp fun _ => False.elim) ?_
  intro completion member patterns limit unread result
  obtain ⟨other, unread', waiting', ticket, failure⟩ := timeouts completion member _ result rfl
  cases waiting.symm.trans waiting'
  cases failure
  exact ⟨inTime.length, start, ticket ▸ began, reached⟩

theorem expire_at (punctual : exchange.Punctual starts timeout waits) {timer other : Timer}
    (own : exchange.client.timer? = some timer) (same : timer.due = other.due) :
    (Exchange.expire { exchange with clock := exchange.clock.jumpTo other } timer).Punctual starts
      timeout false := by
  have passed : Punctual starts timeout waits
      { exchange with clock := exchange.clock.jumpTo other } := by
    apply punctual.later
    intro own' _ has
    cases own.symm.trans has
    exact Nat.le_of_eq same.symm
  exact passed.expire own

theorem finishFrom (punctual : exchange.Punctual starts timeout waits) (ticket : Nat)
    (pause : Option Timer) (queue : List Action) :
    (exchange.finishFrom ticket waits pause queue).Punctual starts timeout true := by
  -- The induction is on the recursion of the loop. Where no timer may fire any more no wait is
  -- open, so that the clock may pass any time.
  induction exchange, waits, pause, queue using finishFrom.induct ticket with
  | case1 exchange waits pause queue rested ended =>
      rw [finishFrom_ended ended]
      exact (punctual.read.withQueue pause queue).allow
  | case2 exchange waits rested pending length others induction =>
      rw [finishFrom_pause pending]
      exact induction punctual.read
  | case3 exchange waits rested pending action others other induction =>
      rw [finishFrom_act pending other]
      exact induction (punctual.read.act action)
  | case4 exchange rested pending timer timed induction =>
      rw [finishFrom_expire pending timed]
      exact induction (punctual.read.expire timed)
  | case5 exchange waits rested pending untimed =>
      rw [finishFrom_readAll pending untimed]
      exact (punctual.read.readAll.withQueue none []).allow
  -- The timer fires while the server pauses, at the end of the pause, or later.
  | case6 exchange rested pending pause queue timer timed sooner induction =>
      rw [finishFrom_sooner pending timed sooner]
      exact induction (punctual.read.expire timed)
  | case7 exchange rested pending pause queue released timer timed later same induction =>
      rw [finishFrom_together pending timed later same]
      exact induction (punctual.read.expire_at timed same)
  | case8 exchange rested pending pause queue released timer timed later other induction =>
      rw [finishFrom_later pending timed later other]
      apply induction
      apply punctual.read.later
      intro own _ has
      obtain rfl := Option.some.inj (timed.symm.trans has)
      exact Nat.le_of_not_lt later
  | case9 exchange waits rested pending pause queue released untimed induction =>
      rw [finishFrom_untimed pending untimed]
      apply induction
      apply (punctual.read.untimed untimed).later
      rintro own ⟨⟩

theorem finish (punctual : exchange.Punctual starts timeout true) (ticket : Nat) :
    (exchange.finish ticket).Punctual starts timeout true := punctual.finishFrom ticket _ _

/-! ## Calls -/

theorem begin (punctual : exchange.Punctual starts timeout waits) (call : Call) :
    (exchange.begin starts.length call).Punctual (starts ++ [exchange.clock.now]) timeout true := by
  have allowed := (punctual.append [exchange.clock.now]).allow
  exact allowed.spared (allowed.holds.begin exchange.clock exchange.now starts.length call
    (Wait.inTime_begun exchange.clock List.getElem?_concat_length))

theorem close (punctual : exchange.Punctual starts timeout waits) (ticket : Nat) :
    (exchange.begin ticket .close).Punctual starts timeout waits :=
  punctual.spared (punctual.holds.close exchange.now ticket)

end Punctual

end Exchange

end ImapDialogue

import ImapDialogue.Proofs.Client.Veil
import ImapDialogue.Proofs.Exchange.Finishing
import ImapDialogue.Proofs.Exchange.Moves

/-!
An exchange with the client's password taken away, and with it the data that the client sent. What
the server and the clock do next does not depend on either, so all of it goes on in the same way,
and so it does behind a call.
-/

namespace ImapDialogue

def Server.veiled (server : Server) : Server :=
  { server with received := server.received.map fun _ => [] }

def Passage.veiled : Passage → Passage
  | .received chunk => .received chunk
  | .written _ => .written []
  | .ended completion => .ended completion

theorem Server.veiled_receive (server : Server) {data data' : List Bytes}
    (lines : (data'.flatMap Bytes.lines).length = (data.flatMap Bytes.lines).length) :
    (server.veiled.receive data').veiled = (server.receive data).veiled := by
  have each : ∀ (lines lines' : List Bytes) (server server' : Server),
      lines'.length = lines.length → server'.veiled = server.veiled →
        (lines'.foldl receiveLine server').veiled = (lines.foldl receiveLine server).veiled := by
    intro lines
    induction lines with
    | nil =>
        intro lines' server server' count same
        rw [List.eq_nil_of_length_eq_zero count]
        exact same
    | cons line lines induction =>
        intro lines' server server' count same
        cases lines' with
        | nil => cases count
        | cons line' lines' =>
            refine induction lines' _ _ (Nat.succ.inj count) ?_
            simp only [veiled, Server.mk.injEq] at same
            simp [receiveLine, veiled, same]
  exact each _ _ _ _ lines (by simp [veiled])

namespace Exchange

/-- The exchange with the password and the data sent taken away. -/
def veiled (exchange : Exchange) : Exchange :=
  { exchange with
    client := exchange.client.veiled
    server := exchange.server.veiled
    passed := exchange.passed.map Passage.veiled }

variable (exchange : Exchange)

/-! ## Moves -/

theorem veiled_absorbReading (client : Client) (completed : List Completion) :
    exchange.veiled.absorbReading (client.veiled, completed) =
      (exchange.absorbReading (client, completed)).veiled := by
  simp [absorbReading, veiled, Passage.veiled]

theorem veiled_absorb {step step' : Client.Step} (alike : Client.Alike step step') :
    (exchange.veiled.absorb step').veiled = (exchange.absorb step).veiled := by
  have server := exchange.server.veiled_receive alike.lines
  have sent : ∀ data : List Bytes, (data.map Passage.written).map Passage.veiled =
      List.replicate data.length (.written []) := by
    intro data
    rw [List.map_map, ← List.map_const']
    rfl
  have passed : ∀ passage : Passage, passage.veiled.veiled = passage.veiled := by
    rintro (_ | _ | _) <;> rfl
  have client : step.client.veiled.veiled = step.client.veiled := rfl
  simp [absorb, veiled, server, alike.client, alike.completed, sent, alike.written, passed, client,
    Function.comp_def]

theorem veiled_absorb_silent {step : Client.Step} (silent : step.written = []) :
    exchange.veiled.absorb { step with client := step.client.veiled } =
      (exchange.absorb step).veiled := by
  have silent' : { step with client := step.client.veiled }.written = [] := silent
  rw [absorb_silent exchange silent, absorb_silent exchange.veiled silent', veiled_absorbReading]

theorem veiled_noting (change : Channel → Channel × Effects) :
    exchange.veiled.noting change = (exchange.noting change).veiled := by
  have bare : (exchange.arrivals change).map Passage.veiled = exchange.arrivals change := by
    unfold Exchange.arrivals
    split
    · rfl
    · rw [List.map_map]
      rfl
  have arrivals : exchange.veiled.arrivals change =
      (exchange.arrivals change).map Passage.veiled := bare.symm
  rw [noting, noting, arrivals, veiled, veiled, List.map_append]

theorem veiled_withQueue (pause : Option Timer) (queue : List Action) :
    exchange.veiled.withQueue pause queue = (exchange.withQueue pause queue).veiled := rfl

theorem clock_veiled : exchange.veiled.clock = exchange.clock := rfl

theorem veiled_later (clock : Clock) :
    { exchange.veiled with clock := clock } = veiled { exchange with clock := clock } := rfl

theorem veiled_read : exchange.veiled.read = exchange.read.veiled := by
  rw [read, read, ← veiled_absorbReading]
  exact congrArg _ (exchange.client.veiled_read turnsBetween)

theorem veiled_readAll : exchange.veiled.readAll = exchange.readAll.veiled := by
  rw [readAll, readAll, ← veiled_absorbReading]
  exact congrArg _ exchange.client.veiled_readAll

section Looks

variable {exchange : Exchange} {ticket : Nat}

theorem result?_veiled (exchange : Exchange) (ticket : Nat) :
    exchange.veiled.result? ticket = exchange.result? ticket := rfl

theorem ended_veiled (ended : (exchange.read.result? ticket).isSome = true) :
    (exchange.veiled.read.result? ticket).isSome = true := by
  rwa [veiled_read, result?_veiled]

theorem pending_veiled (pending : ¬(exchange.read.result? ticket).isSome = true) :
    ¬(exchange.veiled.read.result? ticket).isSome = true := by
  rwa [veiled_read, result?_veiled]

theorem timer?_veiled_read (exchange : Exchange) :
    exchange.veiled.read.client.timer? = exchange.read.client.timer? := by
  rw [veiled_read, veiled, Client.timer?_veiled]

theorem timed_veiled {timer : Timer} (timed : exchange.read.client.timer? = some timer) :
    exchange.veiled.read.client.timer? = some timer := exchange.timer?_veiled_read.trans timed

theorem untimed_veiled {waits : Bool}
    (untimed : ∀ timer, waits = true → exchange.read.client.timer? = some timer → False)
    (timer : Timer) (may : waits = true) :
    exchange.veiled.read.client.timer? = some timer → False := by
  rw [timer?_veiled_read]
  exact untimed timer may

end Looks

variable [Mail.Reader]

theorem veiled_react {change : Channel → Channel × Effects}
    (silent : ∀ channel, (change channel).2.written = []) :
    exchange.veiled.react change = (exchange.react change).veiled := by
  have client : exchange.veiled.client.react exchange.veiled.now change =
      { exchange.client.react exchange.now change with
        client := (exchange.client.react exchange.now change).client.veiled } :=
    exchange.client.veiled_react exchange.now change
  rw [react_eq _ silent, react_eq _ silent, client, veiled_noting, veiled_absorbReading]

theorem veiled_act (action : Action) : exchange.veiled.act action = (exchange.act action).veiled := by
  cases action with
  | send chunk => exact exchange.veiled_react fun channel => (channel.incident_receive chunk).written
  | hangUp => exact exchange.veiled_react fun channel => channel.incident_hangUp.written
  | fail message => exact exchange.veiled_react fun channel => (channel.incident_fail message).written
  | report message =>
      exact exchange.veiled_react fun channel => (channel.incident_report message).written
  | failWrites message => exact exchange.veiled_react fun _ => rfl
  | pause length => rfl

theorem veiled_expire (timer : Timer) :
    exchange.veiled.expire timer = (exchange.expire timer).veiled :=
  veiled_react { exchange with clock := exchange.clock.jumpTo timer } fun channel =>
    channel.incident_expire.written

/-! ## Courses -/

theorem veiled_drainFrom (queue : List Action) :
    exchange.veiled.drainFrom queue = (exchange.drainFrom queue).veiled := by
  induction exchange, queue using drainFrom.induct with
  | case1 exchange => rfl
  | case2 exchange length others => rfl
  | case3 exchange action others other induction =>
      rw [drainFrom_act exchange others other, drainFrom_act exchange.veiled others other, ← induction,
        veiled_act, veiled_read]

theorem veiled_drain : exchange.veiled.drain = exchange.drain.veiled := by
  rw [drain, drain, show exchange.veiled.server.pause = exchange.server.pause from rfl]
  split
  · rfl
  · exact exchange.veiled_drainFrom exchange.server.queue

theorem veiled_finishFrom (ticket : Nat) (waits : Bool) (pause : Option Timer)
    (queue : List Action) :
    exchange.veiled.finishFrom ticket waits pause queue =
      (exchange.finishFrom ticket waits pause queue).veiled := by
  -- The induction is on the recursion of the loop. What the loop looks at in its turns, the calls
  -- that have ended and the timer, is the same under the veil.
  induction exchange, waits, pause, queue using finishFrom.induct ticket with
  | case1 exchange waits pause queue rested ended =>
      rw [finishFrom_ended ended, finishFrom_ended (ended_veiled ended), veiled_read,
        veiled_withQueue]
  | case2 exchange waits rested pending length others induction =>
      rw [finishFrom_pause pending, finishFrom_pause (pending_veiled pending), ← induction,
        veiled_read, clock_veiled]
  | case3 exchange waits rested pending action others other induction =>
      rw [finishFrom_act pending other, finishFrom_act (pending_veiled pending) other, ← induction,
        veiled_read, veiled_act]
  | case4 exchange rested pending timer timed induction =>
      rw [finishFrom_expire pending timed,
        finishFrom_expire (pending_veiled pending) (timed_veiled timed), ← induction, veiled_read,
        veiled_expire]
  | case5 exchange waits rested pending untimed =>
      rw [finishFrom_readAll pending untimed,
        finishFrom_readAll (pending_veiled pending) (untimed_veiled untimed), veiled_read,
        veiled_readAll, veiled_withQueue]
  | case6 exchange rested pending pause queue timer timed sooner induction =>
      rw [finishFrom_sooner pending timed sooner,
        finishFrom_sooner (pending_veiled pending) (timed_veiled timed) sooner, ← induction,
        veiled_read, veiled_expire]
  | case7 exchange rested pending pause queue released timer timed later same induction =>
      rw [finishFrom_together pending timed later same,
        finishFrom_together (pending_veiled pending) (timed_veiled timed) later same, ← induction,
        ← veiled_expire, veiled_read, clock_veiled, veiled_later]
  | case8 exchange rested pending pause queue released timer timed later other induction =>
      rw [finishFrom_later pending timed later other,
        finishFrom_later (pending_veiled pending) (timed_veiled timed) later other, ← induction,
        veiled_read, clock_veiled, veiled_later]
  | case9 exchange waits rested pending pause queue released untimed induction =>
      rw [finishFrom_untimed pending untimed,
        finishFrom_untimed (pending_veiled pending) (untimed_veiled untimed), ← induction,
        veiled_read, clock_veiled, veiled_later]

theorem veiled_finish (ticket : Nat) :
    exchange.veiled.finish ticket = (exchange.finish ticket).veiled :=
  exchange.veiled_finishFrom ticket true exchange.server.pause exchange.server.queue

theorem veiled_connect (script : Script) :
    exchange.veiled.connect script = (exchange.connect script).veiled := by
  let told := exchange.client.tell
    (.connecting exchange.client.settings.host exchange.client.settings.port)
  unfold Exchange.connect
  dsimp only
  cases script.refusal with
  | some message =>
      have silent : (told.refuse 0 message).written = [] := rfl
      exact exchange.veiled_absorb_silent silent
  | none =>
      have silent : (told.connect exchange.clock exchange.now 0 script.writeFault).written = [] :=
        Client.await_written _ _ _ _
      change (exchange.veiled.absorb (told.veiled.connect exchange.clock exchange.now 0
          script.writeFault)).withQueue none script.greeting =
        ((exchange.absorb (told.connect exchange.clock exchange.now 0 script.writeFault)).withQueue
          none script.greeting).veiled
      rw [told.veiled_connect, veiled_absorb_silent _ silent, veiled_withQueue]

/-- A call leaves nothing else to see, even though a login sends another line. -/
theorem veiled_begin (unbroken : Utf8.Unbroken exchange.client.settings.password) (ticket : Nat)
    (call : Call) : (exchange.veiled.begin ticket call).veiled = (exchange.begin ticket call).veiled :=
  exchange.veiled_absorb
    (exchange.client.alike_begin unbroken exchange.clock exchange.now ticket call)

end Exchange

end ImapDialogue

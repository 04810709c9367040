import ImapDialogue.Client.Calls
import ImapDialogue.Exchange.Script

/-!
A client and a server following a script, on one clock. The server acts only when the client
has nothing left to do but to read messages, and the clock moves only when neither can go on:
then it comes to the next timer, the client's or the one that ends the server's pause. Where
both are due together both fire, before the server acts again. Messages are read in turns, a
few of them between two things that the server or the clock does, so that long messages are
still being read when more arrives.
-/

namespace ImapDialogue

/-- Something that passes between a client and its server, or the end of a call. -/
inductive Passage where
  | received (chunk : Bytes)
  | written (data : Bytes)
  | ended (completion : Completion)

/-- A dialogue in progress, with the calendar time that it happens at, the calls that have ended
so far, the time on the clock at each of these ends, and all that has passed, in order. -/
structure Exchange where
  client : Client
  server : Server
  clock : Clock
  now : Instant
  completed : List Completion
  moments : List Nat
  passed : List Passage

namespace Exchange

variable [Mail.Reader]

def absorb (exchange : Exchange) (step : Client.Step) : Exchange :=
  { exchange with
    client := step.client
    server := exchange.server.receive step.written
    completed := exchange.completed ++ step.completed
    moments := exchange.moments ++ step.completed.map fun _ => exchange.clock.now
    passed := exchange.passed ++ (step.written.map .written ++ step.completed.map .ended) }

def arrivals (exchange : Exchange) (change : Channel → Channel × Effects) : List Passage :=
  match exchange.client.channel with
  | none => []
  | some channel =>
      ((change channel).2.traffic.filter (·.direction = .incoming)).map (.received ·.bytes)

def react (exchange : Exchange) (change : Channel → Channel × Effects) : Exchange :=
  { exchange with passed := exchange.passed ++ exchange.arrivals change }.absorb
    (exchange.client.react exchange.now change)

/-- The server closes the connection: first its side, then the client closes the other. -/
def hangUp (channel : Channel) : Channel × Effects :=
  let (halfClosed, first) := channel.closeInput
  let (closed, second) := halfClosed.destroy
  (closed, first.append second)

def act (exchange : Exchange) : Action → Exchange
  | .send chunk => exchange.react (·.receive chunk)
  | .hangUp => exchange.react hangUp
  | .fail message => exchange.react (·.fail message)
  | .report message => exchange.react (·.report message)
  | .failWrites message =>
      exchange.react fun channel => ({ channel with writeFault := some message }, .none)
  | .pause _ => exchange

def withQueue (exchange : Exchange) (pause : Option Timer) (queue : List Action) : Exchange :=
  { exchange with server := { exchange.server with pause := pause, queue := queue } }

def expire (exchange : Exchange) (timer : Timer) : Exchange :=
  { exchange with clock := exchange.clock.jumpTo timer }.react Channel.expire

def absorbReading (exchange : Exchange) (outcome : Client × List Completion) : Exchange :=
  { exchange with
    client := outcome.1
    completed := exchange.completed ++ outcome.2
    moments := exchange.moments ++ outcome.2.map fun _ => exchange.clock.now
    passed := exchange.passed ++ outcome.2.map .ended }

/-- For how many turns the client reads messages between two things that the server or the
clock does. -/
def turnsBetween : Nat := 10

/-- Lets the client read messages before the server or the clock goes on. -/
def read (exchange : Exchange) : Exchange :=
  exchange.absorbReading (exchange.client.read turnsBetween)

def readAll (exchange : Exchange) : Exchange := exchange.absorbReading exchange.client.readAll

def result? (exchange : Exchange) (ticket : Nat) : Option (Except Failure Answer) :=
  (exchange.completed.find? (·.ticket == ticket)).map (·.result)

def drainFrom (exchange : Exchange) : List Action → Exchange
  | [] => exchange.withQueue none []
  | .pause length :: others => exchange.withQueue (some (exchange.clock.timer length)) others
  | action :: others => drainFrom (exchange.act action).read others

/-- Does what the server has to do without moving the clock. -/
def drain (exchange : Exchange) : Exchange :=
  match exchange.server.pause with
  | some _ => exchange
  | none => exchange.drainFrom exchange.server.queue

/-- Goes on until the call with a ticket has ended: the server acts, and where it cannot, the
next timer fires. Where no timer is left either, messages are all there is to wait for. `waits`
says whether the timer of an open wait may still fire, which it does at most once. -/
def finishFrom (exchange : Exchange) (ticket : Nat) (waits : Bool) (pause : Option Timer)
    (queue : List Action) : Exchange :=
  let rested := exchange.read
  if (rested.result? ticket).isSome then rested.withQueue pause queue
  else
    match pause, queue with
    | none, .pause length :: others =>
        finishFrom rested ticket waits (some (rested.clock.timer length)) others
    | none, action :: others => finishFrom (rested.act action) ticket waits none others
    | none, [] =>
        match waits, rested.client.timer? with
        | true, some waiting => finishFrom (rested.expire waiting) ticket false none []
        | _, _ => rested.readAll.withQueue none []
    | some timer, queue =>
        let released := { rested with clock := rested.clock.jumpTo timer }
        match waits, rested.client.timer? with
        | true, some waiting =>
            if waiting.due < timer.due then
              finishFrom (rested.expire waiting) ticket false (some timer) queue
            else if waiting.due = timer.due then
              finishFrom (released.expire waiting) ticket false none queue
            else finishFrom released ticket true none queue
        | _, _ => finishFrom released ticket false none queue
termination_by 2 * queue.length + (if pause.isSome then 1 else 0) + (if waits then 1 else 0)
decreasing_by all_goals grind

/-- Goes on until the call with a ticket has ended. An open wait is then that call's own, or
that call reads messages. -/
def finish (exchange : Exchange) (ticket : Nat) : Exchange :=
  exchange.finishFrom ticket true exchange.server.pause exchange.server.queue

def start (settings : Settings) (script : Script) (now : Instant) : Exchange :=
  ⟨.create settings, .start script, .start, now, [], [], []⟩

def connect (exchange : Exchange) (script : Script) : Exchange :=
  let told := exchange.client.tell
    (.connecting exchange.client.settings.host exchange.client.settings.port)
  match script.refusal with
  | some message => exchange.absorb (told.refuse 0 message)
  | none =>
      (exchange.absorb (told.connect exchange.clock exchange.now 0 script.writeFault)).withQueue
        none script.greeting

def begin (exchange : Exchange) (ticket : Nat) (call : Call) : Exchange :=
  exchange.absorb (exchange.client.begin exchange.clock exchange.now ticket call)

end Exchange

end ImapDialogue

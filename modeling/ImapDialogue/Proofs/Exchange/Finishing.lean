import ImapDialogue.Exchange.Basic
import Mathlib.Tactic.Common

/-!
Going on until a call has ended. Whatever the server does and whichever timers fire, a call that
waits for a line comes to its end or to reading messages, and one that reads messages comes to
its end.
-/

namespace ImapDialogue.Exchange

variable [Mail.Reader]

/-! ## The loop, turn by turn -/

section Loop

variable {exchange : Exchange} {ticket : Nat} {waits : Bool} {pause : Option Timer}
  {queue others : List Action} {timer due : Timer}

theorem finishFrom_ended (ended : (exchange.read.result? ticket).isSome = true) :
    exchange.finishFrom ticket waits pause queue = exchange.read.withQueue pause queue := by
  rw [finishFrom.eq_def]
  dsimp only
  rw [if_pos ended]

variable (pending : ¬(exchange.read.result? ticket).isSome = true)

include pending

theorem finishFrom_pause (length : Number) :
    exchange.finishFrom ticket waits none (.pause length :: others) =
      exchange.read.finishFrom ticket waits (some (exchange.read.clock.timer length)) others := by
  rw [finishFrom.eq_def]
  dsimp only
  rw [if_neg pending]

theorem finishFrom_act {action : Action} (other : ∀ length, action ≠ .pause length) :
    exchange.finishFrom ticket waits none (action :: others) =
      (exchange.read.act action).finishFrom ticket waits none others := by
  rw [finishFrom.eq_def]
  dsimp only
  rw [if_neg pending]
  cases action with
  | pause length => exact (other length rfl).elim
  | send | hangUp | fail | report | failWrites => rfl

/-- The server has nothing left to do, and the timer of the wait fires. -/
theorem finishFrom_expire (timed : exchange.read.client.timer? = some timer) :
    exchange.finishFrom ticket true none [] =
      (exchange.read.expire timer).finishFrom ticket false none [] := by
  rw [finishFrom.eq_def]
  dsimp only
  rw [if_neg pending, timed]

theorem finishFrom_readAll
    (untimed : ∀ timer, waits = true → exchange.read.client.timer? = some timer → False) :
    exchange.finishFrom ticket waits none [] = exchange.read.readAll.withQueue none [] := by
  rw [finishFrom.eq_def]
  dsimp only
  rw [if_neg pending]
  split
  · next timer timed => exact (untimed timer rfl timed).elim
  · rfl

theorem finishFrom_sooner (timed : exchange.read.client.timer? = some timer)
    (sooner : timer.due < due.due) :
    exchange.finishFrom ticket true (some due) queue =
      (exchange.read.expire timer).finishFrom ticket false (some due) queue := by
  rw [finishFrom.eq_def]
  dsimp only
  rw [if_neg pending, timed]
  dsimp only
  rw [if_pos sooner]

theorem finishFrom_together (timed : exchange.read.client.timer? = some timer)
    (later : ¬timer.due < due.due) (same : timer.due = due.due) :
    exchange.finishFrom ticket true (some due) queue =
      (Exchange.expire { exchange.read with clock := exchange.read.clock.jumpTo due }
        timer).finishFrom ticket false none queue := by
  rw [finishFrom.eq_def]
  dsimp only
  rw [if_neg pending, timed]
  dsimp only
  rw [if_neg later, if_pos same]

theorem finishFrom_later (timed : exchange.read.client.timer? = some timer)
    (later : ¬timer.due < due.due) (other : ¬timer.due = due.due) :
    exchange.finishFrom ticket true (some due) queue =
      Exchange.finishFrom { exchange.read with clock := exchange.read.clock.jumpTo due } ticket
        true none queue := by
  rw [finishFrom.eq_def]
  dsimp only
  rw [if_neg pending, timed]
  dsimp only
  rw [if_neg later, if_neg other]

theorem finishFrom_untimed
    (untimed : ∀ timer, waits = true → exchange.read.client.timer? = some timer → False) :
    exchange.finishFrom ticket waits (some due) queue =
      Exchange.finishFrom { exchange.read with clock := exchange.read.clock.jumpTo due } ticket
        false none queue := by
  rw [finishFrom.eq_def]
  dsimp only
  rw [if_neg pending]
  split
  · next timer timed => exact (untimed timer rfl timed).elim
  · rfl

end Loop

theorem drainFrom_act (exchange : Exchange) {action : Action} (others : List Action)
    (other : ∀ length, action ≠ .pause length) :
    exchange.drainFrom (action :: others) = (exchange.act action).read.drainFrom others := by
  rw [drainFrom]
  exact other

/-! ## The course of a call -/

/-- The course that a call takes. It waits first, and a timer runs as long as it does; it may read
messages next; then it is over. -/
structure Course (ticket : Nat) (waiting reading past : Exchange → Prop) : Prop where
  waiting_pending : ∀ {exchange}, waiting exchange → exchange.result? ticket = none
  waiting_timed : ∀ {exchange}, waiting exchange → exchange.client.timer?.isSome
  waiting_read : ∀ {exchange}, waiting exchange → waiting exchange.read
  waiting_clock : ∀ {exchange} clock, waiting exchange → waiting { exchange with clock := clock }
  waiting_act : ∀ {exchange} action, waiting exchange →
    waiting (exchange.act action) ∨ reading (exchange.act action) ∨ past (exchange.act action)
  waiting_expire : ∀ {exchange} timer, waiting exchange → past (exchange.expire timer)
  reading_pending : ∀ {exchange}, reading exchange → exchange.result? ticket = none
  reading_read : ∀ {exchange}, reading exchange → reading exchange.read ∨ past exchange.read
  reading_clock : ∀ {exchange} clock, reading exchange → reading { exchange with clock := clock }
  reading_act : ∀ {exchange} action, reading exchange → reading (exchange.act action)
  reading_expire : ∀ {exchange} timer, reading exchange → reading (exchange.expire timer)
  reading_all : ∀ {exchange}, reading exchange → past exchange.readAll
  over_ended : ∀ {exchange}, past exchange → (exchange.result? ticket).isSome
  over_read : ∀ {exchange}, past exchange → past exchange.read
  over_queue : ∀ {exchange} pause queue, past exchange → past (exchange.withQueue pause queue)

variable {ticket : Nat} {waiting reading past : Exchange → Prop}

/-- How a call that is not over stands in the middle of the loop. Once the timer may not fire any
more it does not wait any more. -/
def Underway (waiting reading : Exchange → Prop) (waits : Bool) (exchange : Exchange) : Prop :=
  (waits = true ∧ waiting exchange) ∨ reading exchange

namespace Course

theorem stands_read (course : Course ticket waiting reading past) {waits : Bool}
    {exchange : Exchange} (stands : Underway waiting reading waits exchange ∨ past exchange) :
    Underway waiting reading waits exchange.read ∨ past exchange.read := by
  rcases stands with (⟨may, waits⟩ | reads) | ended
  · exact .inl (.inl ⟨may, course.waiting_read waits⟩)
  · rcases course.reading_read reads with reads | ended
    · exact .inl (.inr reads)
    · exact .inr ended
  · exact .inr (course.over_read ended)

theorem pending_of_underway (course : Course ticket waiting reading past) {waits : Bool}
    {exchange : Exchange} (underway : Underway waiting reading waits exchange) :
    exchange.result? ticket = none := by
  rcases underway with ⟨_, waits⟩ | reads
  · exact course.waiting_pending waits
  · exact course.reading_pending reads

theorem underway_act (course : Course ticket waiting reading past) {waits : Bool}
    {exchange : Exchange} (action : Action)
    (underway : Underway waiting reading waits exchange) :
    Underway waiting reading waits (exchange.act action) ∨ past (exchange.act action) := by
  rcases underway with ⟨may, waits⟩ | reads
  · rcases course.waiting_act action waits with waits' | reads | ended
    · exact .inl (.inl ⟨may, waits'⟩)
    · exact .inl (.inr reads)
    · exact .inr ended
  · exact .inl (.inr (course.reading_act action reads))

theorem underway_expire (course : Course ticket waiting reading past) {waits : Bool}
    {exchange : Exchange} (timer : Timer)
    (underway : Underway waiting reading waits exchange) :
    Underway waiting reading false (exchange.expire timer) ∨ past (exchange.expire timer) := by
  rcases underway with ⟨_, waits⟩ | reads
  · exact .inr (course.waiting_expire timer waits)
  · exact .inl (.inr (course.reading_expire timer reads))

theorem underway_clock (course : Course ticket waiting reading past) {waits : Bool}
    {exchange : Exchange} (clock : Clock)
    (underway : Underway waiting reading waits exchange) :
    Underway waiting reading waits { exchange with clock := clock } := by
  rcases underway with ⟨may, waits⟩ | reads
  · exact .inl ⟨may, course.waiting_clock clock waits⟩
  · exact .inr (course.reading_clock clock reads)

theorem reading_of_untimed (course : Course ticket waiting reading past) {waits : Bool}
    {exchange : Exchange} (underway : Underway waiting reading waits exchange)
    (untimed : ∀ timer, waits = true → exchange.client.timer? = some timer → False) :
    reading exchange := by
  rcases underway with ⟨may, waits⟩ | reads
  · obtain ⟨timer, timed⟩ := Option.isSome_iff_exists.mp (course.waiting_timed waits)
    exact (untimed timer may timed).elim
  · exact reads

theorem over_finishFrom (course : Course ticket waiting reading past) (exchange : Exchange)
    (waits : Bool) (pause : Option Timer) (queue : List Action)
    (stands : Underway waiting reading waits exchange ∨ past exchange) :
    past (exchange.finishFrom ticket waits pause queue) := by
  -- The induction is on the recursion of the loop. Its invariant is the hypothesis: a wait lasts
  -- only as long as its timer may still fire.
  induction exchange, waits, pause, queue using finishFrom.induct ticket with
  | case1 exchange waits pause queue rested ended =>
      rw [finishFrom_ended ended]
      rcases course.stands_read stands with underway | past
      · rw [course.pending_of_underway underway] at ended
        cases ended
      · exact course.over_queue pause queue past
  | case2 exchange waits rested pending length others induction =>
      rw [finishFrom_pause pending]
      exact induction (course.stands_read stands)
  | case3 exchange waits rested pending action others other induction =>
      have underway := (course.stands_read stands).resolve_right
        (mt course.over_ended pending)
      rw [finishFrom_act pending other]
      exact induction (course.underway_act action underway)
  | case4 exchange rested pending timer timed induction =>
      have underway := (course.stands_read stands).resolve_right
        (mt course.over_ended pending)
      rw [finishFrom_expire pending timed]
      exact induction (course.underway_expire timer underway)
  | case5 exchange waits rested pending untimed =>
      have underway := (course.stands_read stands).resolve_right
        (mt course.over_ended pending)
      have reads := course.reading_of_untimed underway untimed
      rw [finishFrom_readAll pending untimed]
      exact course.over_queue none [] (course.reading_all reads)
  -- The timer fires while the server pauses, at the end of the pause, or later.
  | case6 exchange rested pending pause queue timer timed sooner induction =>
      have underway := (course.stands_read stands).resolve_right
        (mt course.over_ended pending)
      rw [finishFrom_sooner pending timed sooner]
      exact induction (course.underway_expire timer underway)
  | case7 exchange rested pending pause queue released timer timed later same induction =>
      have underway := (course.stands_read stands).resolve_right
        (mt course.over_ended pending)
      rw [finishFrom_together pending timed later same]
      exact induction (course.underway_expire timer (course.underway_clock _ underway))
  | case8 exchange rested pending pause queue released timer timed later other induction =>
      have underway := (course.stands_read stands).resolve_right
        (mt course.over_ended pending)
      rw [finishFrom_later pending timed later other]
      exact induction (.inl (course.underway_clock _ underway))
  | case9 exchange waits rested pending pause queue released untimed induction =>
      have underway := (course.stands_read stands).resolve_right
        (mt course.over_ended pending)
      have reads := course.reading_clock (rested.clock.jumpTo pause)
        (course.reading_of_untimed underway untimed)
      rw [finishFrom_untimed pending untimed]
      exact induction (.inl (.inr reads))

end Course

end ImapDialogue.Exchange

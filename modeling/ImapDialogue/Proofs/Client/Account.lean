import ImapDialogue.Proofs.Client.Tally

/-!
A client that stays true to its tally. Whatever happens on its channel and whatever is asked of it,
every end of a command agrees with what was taken for it, its mailbox is that of the last selection
that succeeded, and what was taken and what is still unread are together all that it has heard.
-/

namespace ImapDialogue

theorem Client.conclude_mailbox [Mail.Reader] (client : Client) (now : Instant) (ticket : Nat)
    (task : Task) (how : Except Failure Match) :
    (client.conclude now ticket task how).1.mailbox = (task.selects? how).or client.mailbox := by
  cases task with
  | greeting =>
      obtain ⟨greeting, same⟩ := client.concludeGreeting_core how
      have kept := congrArg Client.mailbox same
      exact kept
  | login tag =>
      have kept := congrArg Client.mailbox (client.concludeCommand_core tag how)
      exact kept
  | select tag mailbox =>
      have kept := congrArg Client.mailbox (client.concludeCommand_core tag how)
      have said := client.concludeCommand_result tag how
      simp only [conclude, Task.selects?]
      split
      · next found parts =>
          rw [parts] at said
          rw [← said]
          rfl
      · next failure parts =>
          rw [parts] at kept said
          rw [← said]
          exact kept
  | fetch tag =>
      have kept := congrArg Client.mailbox (client.concludeCommand_core tag how)
      simp only [conclude, Task.selects?]
      split
      · next behind found parts =>
          rw [parts] at kept
          have later := congrArg Client.mailbox (decodeFetch_spec behind now ticket found.before).2
          exact later.trans kept
      · next failure parts =>
          rw [parts] at kept
          exact kept

/-- What the end of a wait leaves of a channel is as fit, as free and as far as the channel was. Only
a wait for the greeting closes it, and then no other wait may be open. -/
theorem Channel.fit_left {channel : Channel} (fit : channel.Fit) {task : Task}
    (safe : task ≠ .greeting ∨ channel.intake.wait = none) (how : Except Failure Match) :
    (Client.left task how channel).Fit ∧
      (Client.left task how channel).intake.wait = channel.intake.wait ∧
      (Client.left task how channel).intake.unread = channel.intake.unread := by
  rcases safe with command | idle
  · rw [Client.left_command command]
    exact ⟨fit, rfl, rfl⟩
  · unfold Client.left
    split
    · have brings := brings_destroy fit
      rcases brings.course with ⟨_, free, rest⟩ | ⟨wait, _, waits, _⟩
      · rw [behind, incoming_of_quiet (quiet_destroy channel), List.append_nil] at rest
        exact ⟨brings.fit, free, rest⟩
      · rw [idle] at waits
        cases waits
    · exact ⟨fit, rfl, rfl⟩

theorem Reading.ticket_turn (reading : Reading) : reading.turn.1.ticket = reading.ticket := by
  unfold turn
  split
  · rfl
  · split <;> rfl

namespace Client

def wait? (client : Client) : Option Wait := client.channel.bind (·.intake.wait)

/-- How the open wait fits what the client goes on with when it ends: it is for a call that is due,
or neither is there. -/
inductive Paired (settings : Settings) (next : Nat) (issued : List Issue) (taken : List Taking)
    (completed : List Completion) : Option Task → Option Wait → Prop
  | idle : Paired settings next issued taken completed none none
  | busy {task : Task} {wait : Wait}
      (due : Due settings next issued taken completed wait.ticket task wait.patterns) :
      Paired settings next issued taken completed (some task) (some wait)

structure Standing (settings : Settings) (next : Nat) (issued : List Issue) (taken : List Taking)
    (completed : List Completion) (client : Client) : Prop where
  tally : Tally settings next issued taken completed
  mailbox : client.mailbox = lastSelected issued completed
  readings : ∀ reading ∈ client.readings, Fetched issued taken reading.ticket

/-- A client whose channel agrees with it as well, given all that it has heard. -/
structure Account (settings : Settings) (next : Nat) (issued : List Issue) (taken : List Taking)
    (completed : List Completion) (stream : Bytes) (client : Client) : Prop
    extends client.Standing settings next issued taken completed where
  heard : ∃ rest, stream = consumed taken ++ rest ∧
    ∀ channel, client.channel = some channel → channel.intake.unread = rest
  fit : ∀ channel, client.channel = some channel → channel.Fit
  paired : Paired settings next issued taken completed client.task client.wait?

variable {settings : Settings} {next ticket : Nat} {issued : List Issue} {taken : List Taking}
  {completed : List Completion} {stream data : Bytes} {client later : Client} {channel : Channel}
  {task : Task} {patterns : List Pattern} {how : Except Failure Match}

theorem account_create (settings : Settings) : (create settings).Account settings 1 [] [] [] [] where
  tally := {
    begun := Nat.one_pos
    early := by rintro issue ⟨⟩
    distinct := List.nodup_nil
    past := by rintro completion ⟨⟩
    single := List.nodup_nil
    leads := by rintro taking ⟨⟩
    fair := by rintro completion ⟨⟩ }
  mailbox := rfl
  readings := by rintro reading ⟨⟩
  heard := ⟨[], rfl, by rintro channel ⟨⟩⟩
  fit := by rintro channel ⟨⟩
  paired := .idle

theorem Standing.account (standing : client.Standing settings next issued taken completed)
    (has : client.channel = some channel) (fit : channel.Fit)
    (heard : stream = consumed taken ++ channel.intake.unread)
    (paired : Paired settings next issued taken completed client.task channel.intake.wait) :
    client.Account settings next issued taken completed stream where
  toStanding := standing
  heard := by
    refine ⟨channel.intake.unread, heard, ?_⟩
    intro other known
    cases has.symm.trans known
    rfl
  fit := by
    intro other known
    cases has.symm.trans known
    exact fit
  paired := by
    rw [wait?, has, Option.bind_some]
    exact paired

theorem Account.of_parts (account : client.Account settings next issued taken completed stream)
    (channel : later.channel = client.channel) (task : later.task = client.task)
    (readings : later.readings = client.readings) (mailbox : later.mailbox = client.mailbox) :
    later.Account settings next issued taken completed stream where
  tally := account.tally
  mailbox := mailbox.trans account.mailbox
  readings := readings ▸ account.readings
  heard := by
    rw [channel]
    exact account.heard
  fit := by
    rw [channel]
    exact account.fit
  paired := by
    rw [task, wait?, channel]
    exact account.paired

theorem Account.of_core (account : client.Account settings next issued taken completed stream)
    (same : later.core = client.core) :
    later.Account settings next issued taken completed stream := by
  have mailbox := congrArg Client.mailbox same
  exact account.of_parts (channel_of_core same) (task_of_core same) (readings_of_core same) mailbox

theorem Paired.map {next' : Nat} {issued' : List Issue} {taken' : List Taking}
    {completed' : List Completion} {task : Option Task} {wait : Option Wait}
    (paired : Paired settings next issued taken completed task wait)
    (keeps : ∀ {ticket : Nat} {task : Task} {patterns : List Pattern},
      Due settings next issued taken completed ticket task patterns →
        Due settings next' issued' taken' completed' ticket task patterns) :
    Paired settings next' issued' taken' completed' task wait := by
  cases paired with
  | idle => exact .idle
  | busy due => exact .busy (keeps due)

theorem parts_absorb (client : Client) (channel : Channel) (effects : Effects) :
    let seen := client.absorb channel effects
    seen.channel = some channel ∧ seen.task = client.task ∧ seen.readings = client.readings ∧
      seen.mailbox = client.mailbox := by
  have same := core_absorb client channel effects
  have task := task_of_core same
  have readings := readings_of_core same
  have mailbox := congrArg Client.mailbox same
  exact ⟨channel_of_core same, task, readings, mailbox⟩

/-! ## Calls -/

section Calls

variable (account : client.Account settings next issued taken completed stream)

include account

theorem Account.issue (asking : Asking) :
    client.Account settings (next + 1) (issued ++ [⟨next, asking⟩]) taken completed stream where
  tally := account.tally.issue asking
  mailbox := by
    rw [account.mailbox, lastSelected_concat]
    exact fun completion member => Nat.ne_of_lt (account.tally.past completion member)
  readings := by
    intro reading member
    obtain ⟨⟨found, took, completes⟩, aside⟩ := account.readings reading member
    refine ⟨⟨found, took, completes⟩, ?_⟩
    rw [mailboxOf_concat issued (Nat.ne_of_lt (account.tally.known took))]
    exact aside
  heard := account.heard
  fit := account.fit
  paired := account.paired.map fun due => due.issue asking

theorem Account.skip (result : Except Failure Answer) :
    client.Account settings (next + 1) issued taken (completed ++ [⟨next, result⟩]) stream where
  tally := account.tally.skip result
  mailbox := by
    have aside : lastSelected issued [⟨next, result⟩] = none := by
      apply lastSelected_none
      intro completion member
      rw [List.mem_singleton.mp member]
      exact selected?_eq_none (mailboxOf_none fun issue within =>
        Nat.ne_of_lt (account.tally.early issue within).2)
    rw [lastSelected_append, aside, Option.none_or]
    exact account.mailbox
  readings := account.readings
  heard := account.heard
  fit := account.fit
  paired := account.paired.map fun due => {
    due with
    early := Nat.lt_succ_of_lt due.early
    pending := by
      intro completion member
      rcases List.mem_append.mp member with old | new
      · exact due.pending completion old
      · rw [List.mem_singleton.mp new]
        exact Nat.ne_of_gt due.early }

theorem Account.due {wait : Wait} (waits : client.wait? = some wait) :
    ∃ task, Due settings next issued taken completed wait.ticket task wait.patterns := by
  have paired := account.paired
  rw [waits] at paired
  generalize client.task = task at paired
  cases paired with
  | busy due => exact ⟨_, due⟩

/-- A call ends that no wait is open for any more, and it selects no mailbox. -/
theorem Account.finish {completion : Completion} (early : completion.ticket < next)
    (fair : Fair taken completion) (aside : completion.selected? issued = none)
    (other : ∀ wait, client.wait? = some wait → completion.ticket ≠ wait.ticket) :
    client.Account settings next issued taken (completed ++ [completion]) stream where
  tally := account.tally.finish early fair
  mailbox := by
    have silent : lastSelected issued [completion] = none :=
      lastSelected_none (List.forall_mem_singleton.mpr aside)
    rw [lastSelected_append, silent, Option.none_or]
    exact account.mailbox
  readings := account.readings
  heard := account.heard
  fit := account.fit
  paired := by
    have paired := account.paired
    generalize client.task = task at paired ⊢
    generalize client.wait? = wait at paired other ⊢
    cases paired with
    | idle => exact .idle
    | busy due =>
        refine .busy { due with pending := ?_ }
        intro later member
        rcases List.mem_append.mp member with old | new
        · exact due.pending later old
        · rw [List.mem_singleton.mp new]
          exact other _ rfl

theorem Account.answer (fetched : Fetched issued taken ticket) (answer : Answer) :
    client.Account settings next issued taken (completed ++ [⟨ticket, .ok answer⟩]) stream := by
  obtain ⟨⟨found, took, completes⟩, aside⟩ := fetched
  refine account.finish (account.tally.known took) (.success took completes)
    (selected?_eq_none aside) ?_
  intro wait waits same
  obtain ⟨task, due⟩ := account.due waits
  exact due.untaken _ took same

/-- A client that nothing can be sent with any more has no open wait. -/
theorem Account.wait_of_shut (shut : client.Shut) : client.wait? = none := by
  cases has : client.channel with
  | none => rw [wait?, has, Option.bind_none]
  | some channel =>
      have sound := (account.fit channel has).sound
      rw [wait?, has, Option.bind_some]
      apply sound.idle
      rcases shut channel has with ended | destroyed
      · exact ended
      · rw [sound.ended, destroyed, Bool.or_true, Bool.true_or]

theorem Account.disconnect (free : client.wait? = none) :
    client.release.Account settings next issued taken completed stream where
  tally := account.tally
  mailbox := account.mailbox
  readings := account.readings
  heard := by
    obtain ⟨rest, heard, _⟩ := account.heard
    exact ⟨rest, heard, by rintro channel ⟨⟩⟩
  fit := by rintro channel ⟨⟩
  paired := by
    have paired := account.paired
    rw [free] at paired
    exact paired

theorem Account.readOn {readings : List Reading}
    (fetched : ∀ reading ∈ readings, Fetched issued taken reading.ticket) :
    (client.readOn readings).1.Account settings next issued taken
      (completed ++ (client.readOn readings).2) stream := by
  induction readings generalizing client completed with
  | nil =>
      rw [Client.readOn, List.append_nil]
      exact { account with readings := by rintro reading ⟨⟩ }
  | cons reading others induction =>
      have fetched' : Fetched issued taken reading.turn.1.ticket := by
        rw [Reading.ticket_turn]
        exact fetched reading List.mem_cons_self
      have later : ∀ reading ∈ others, Fetched issued taken reading.ticket := fun other member =>
        fetched other (List.mem_cons_of_mem reading member)
      have told := account.of_core
        (core_tellAll client (reading.turn.2.toList.map Unread.notice))
      rw [Client.readOn]
      dsimp only
      split
      · have announced : ((client.tellAll (reading.turn.2.toList.map Unread.notice)).announce
            reading.turn.1.mails).Account settings next issued taken completed stream :=
          told.of_parts rfl rfl rfl rfl
        rw [List.append_cons]
        exact induction (announced.answer fetched' _) later
      · have read := induction told later
        exact {
          read with
          readings := by
            intro other member
            rcases List.mem_cons.mp member with rfl | member
            · exact fetched'
            · exact read.readings other member }

theorem Account.read (turns : Nat) :
    (client.read turns).1.Account settings next issued taken
      (completed ++ (client.read turns).2) stream := by
  induction turns generalizing client completed with
  | zero =>
      rw [Client.read, List.append_nil]
      exact account
  | succ turns induction =>
      have later := induction (account.readOn account.readings)
      rw [List.append_assoc] at later
      exact later

end Calls

/-! ## Ends of waits -/

variable [Mail.Reader]

theorem await_eq (has : client.channel = some channel) (clock : Clock) (now : Instant) :
    client.await clock now ticket patterns task =
      let begun := channel.await ⟨ticket, patterns, client.timeout, clock.timer client.timeout⟩
      let seen := client.absorb begun.1 begun.2
      match begun.2.settled with
      | [] => ⟨{ seen with task := some task }, [], []⟩
      | settlement :: _ =>
          let ended := seen.conclude now ticket task settlement.result
          ⟨ended.1, [], ended.2⟩ := by
  unfold Client.await
  split
  · next free =>
      rw [has] at free
      cases free
  · next other found =>
      cases has.symm.trans found
      rfl

theorem command_unconnected (free : client.channel = none) (clock : Clock) (now : Instant)
    (ticket : Nat) (verb arguments shown marker : String) (task : String → Task) :
    client.command clock now ticket verb arguments shown marker task =
      ⟨client.tell (.noConnection verb), [], [⟨ticket, .error .notConnected⟩]⟩ := by
  rw [Client.command, free]

theorem Standing.conclude (standing : client.Standing settings next issued taken completed)
    (due : Due settings next issued taken completed ticket task patterns) {rest : Bytes}
    (comes : Comes patterns data how rest) (now : Instant) :
    (client.conclude now ticket task how).1.Standing settings next issued
      (taken ++ takes ticket how) (completed ++ ends now ticket how task) where
  tally := standing.tally.settle due comes now
  mailbox := by
    rw [conclude_mailbox, lastSelected_append, due.lastSelected_ends standing.tally,
      standing.mailbox]
  readings := by
    obtain ⟨greeting, mailbox, same⟩ := client.conclude_core now ticket task how
    have begun := readings_of_core same
    intro reading member
    rw [begun] at member
    rcases List.mem_append.mp member with old | new
    · exact (standing.readings reading old).more _
    · exact due.fetched standing.tally now new

theorem Standing.concluded (standing : client.Standing settings next issued taken completed)
    (has : client.channel = some channel) (fit : channel.Fit)
    (due : Due settings next issued taken completed ticket task patterns)
    (safe : task ≠ .greeting ∨ channel.intake.wait = none)
    (heard : stream = consumed taken ++ data)
    (comes : Comes patterns data how channel.intake.unread) (now : Instant)
    (paired : Paired settings next issued (taken ++ takes ticket how)
      (completed ++ ends now ticket how task) client.task channel.intake.wait) :
    (client.conclude now ticket task how).1.Account settings next issued
      (taken ++ takes ticket how) (completed ++ ends now ticket how task) stream := by
  obtain ⟨greeting, mailbox, same⟩ := client.conclude_core now ticket task how
  obtain ⟨fit', wait, unread⟩ := Channel.fit_left fit safe how
  have has' : (client.conclude now ticket task how).1.channel = some (left task how channel) := by
    have left := channel_of_core same
    rw [left, has]
    rfl
  have task' : (client.conclude now ticket task how).1.task = client.task := by
    have kept := task_of_core same
    exact kept
  have took : consumed (takes ticket how) ++ channel.intake.unread = data := by
    have keeps := comes.keeps ticket
    cases how with
    | error failure => exact keeps
    | ok found =>
        rw [consumed, takes, List.flatMap_singleton]
        exact keeps
  refine (standing.conclude due comes now).account has' fit' ?_ ?_
  · rw [unread, consumed_append, List.append_assoc, took]
    exact heard
  · rw [task', wait]
    exact paired

theorem Account.come (account : client.Account settings next issued taken completed stream)
    (has : client.channel = some channel) {result : Channel × Effects}
    (brings : channel.Brings result) (now : Instant) :
    let ended := (client.absorb result.1 result.2).settle now result.2.settled
    ∃ taken', ended.1.Account settings next issued taken' (completed ++ ended.2)
      (stream ++ Traffic.incoming result.2.traffic) := by
  obtain ⟨has', task, readings, mailbox⟩ := client.parts_absorb result.1 result.2
  generalize client.absorb result.1 result.2 = seen at has' task readings mailbox ⊢
  obtain ⟨rest, heard, unread⟩ := account.heard
  have grown : stream ++ Traffic.incoming result.2.traffic =
      consumed taken ++ channel.behind result.2 := by
    rw [heard, Channel.behind, unread channel has, List.append_assoc]
  have paired := account.paired
  rw [wait?, has, Option.bind_some] at paired
  rcases brings.course with ⟨silent, wait, left⟩ | ⟨wait, how, waits, settled, idle, comes⟩
  · dsimp only
    rw [silent]
    refine ⟨taken, ?_⟩
    rw [settle, List.append_nil]
    have standing : seen.Standing settings next issued taken completed :=
      ⟨account.tally, mailbox.trans account.mailbox, readings ▸ account.readings⟩
    refine standing.account has' brings.fit (grown.trans (by rw [left])) ?_
    rw [task, wait]
    exact paired
  · rw [waits] at paired
    generalize waiting : client.task = waiting_ at paired
    cases paired with
    | @busy task' _ due =>
        have standing : { seen with task := none }.Standing settings next issued taken completed :=
          ⟨account.tally, mailbox.trans account.mailbox, readings ▸ account.readings⟩
        have concluded := standing.concluded has' brings.fit due (.inr idle) grown comes now
          (by rw [idle]; exact .idle)
        rw [settled]
        simp only [settle, task, waiting, conclude_completed, List.append_nil]
        exact ⟨_, concluded⟩

theorem Account.await (account : client.Account settings next issued taken completed stream)
    (has : client.channel = some channel)
    (due : Due settings next issued taken completed ticket task patterns)
    (safe : task ≠ .greeting ∨ channel.intake.wait = none)
    (apart : ∀ wait, channel.intake.wait = some wait → wait.ticket ≠ ticket) (clock : Clock)
    (now : Instant) :
    let step := client.await clock now ticket patterns task
    ∃ taken', step.client.Account settings next issued taken' (completed ++ step.completed)
      stream := by
  let wait : Wait := ⟨ticket, patterns, client.timeout, clock.timer client.timeout⟩
  obtain ⟨fit, course⟩ := Channel.await_brings (account.fit channel has) wait
  obtain ⟨rest, heard, unread⟩ := account.heard
  have paired := account.paired
  rw [wait?, has, Option.bind_some] at paired
  rw [await_eq has]
  dsimp only
  generalize channel.await wait = begun at fit course ⊢
  obtain ⟨has', task', readings, mailbox⟩ := client.parts_absorb begun.1 begun.2
  generalize client.absorb begun.1 begun.2 = seen at has' task' readings mailbox ⊢
  have standing : seen.Standing settings next issued taken completed :=
    ⟨account.tally, mailbox.trans account.mailbox, readings ▸ account.readings⟩
  rcases course with ⟨idle, silent, waits, left⟩ | ⟨how, settled, waits, comes⟩
  · rw [idle] at paired
    generalize client.task = before at paired
    cases paired
    simp only [silent, List.append_nil]
    have waiting : { seen with task := some task }.Standing settings next issued taken completed :=
      { standing with }
    refine ⟨taken, waiting.account has' fit ?_ ?_⟩
    · rw [left, unread channel has]
      exact heard
    · rw [waits]
      exact .busy due
  · rw [unread channel has] at comes
    have concluded := standing.concluded has' fit due (safe.imp id waits.trans) heard comes
      now
    simp only [settled, conclude_completed]
    refine ⟨_, concluded ?_⟩
    rw [task', waits]
    generalize client.task = before at paired ⊢
    generalize waiting : channel.intake.wait = wait' at paired ⊢
    cases paired with
    | idle => exact .idle
    | busy other =>
        refine .busy (other.more _ _ ?_ ?_)
        · intro taking member
          rw [(ticket_of_mem_takes member).1]
          exact (apart _ waiting).symm
        · intro completion member
          rw [ticket_of_mem_ends member]
          exact (apart _ waiting).symm

/-- A command is given on a channel. If its line cannot be sent it fails for that, and otherwise it
waits for its answer. -/
theorem Account.command (account : client.Account settings next issued taken completed stream)
    (counted : client.lastTag = issued.length) (has : client.channel = some channel)
    (clock : Clock) (now : Instant) (asking : Asking) :
    let step := client.command clock now next asking.verb asking.arguments asking.shown
      (asking.marker settings) (asking.task ·)
    ∃ taken', step.client.Account settings (next + 1) (issued ++ [⟨next, asking⟩]) taken'
      (completed ++ step.completed) stream := by
  let tag := toString (client.lastTag + 1)
  let line := asking.line (client.lastTag + 1)
  let shown := asking.shownLine (client.lastTag + 1)
  have begun : client.command clock now next asking.verb asking.arguments asking.shown
      (asking.marker settings) (asking.task ·) =
        (client.counting shown).goOn clock now next (Command.answers tag (asking.marker settings))
          (asking.task tag) (channel.send line (some shown)) := command_eq has _ _ _ _ _ _ _ _
  have early : ∀ wait, client.wait? = some wait → wait.ticket < next := by
    intro wait waits
    obtain ⟨task, due⟩ := account.due waits
    exact due.early
  have counting : (client.counting shown).Account settings (next + 1) (issued ++ [⟨next, asking⟩])
      taken completed stream := (account.issue asking).of_parts rfl rfl rfl rfl
  have has' : (client.counting shown).channel = some channel := has
  have brings := Channel.brings_send (account.fit channel has) line shown
  have sends := Channel.sent_cases (account.fit channel has) line shown
  have shows : Traffic.incoming (channel.send line (some shown)).effects.traffic = [] := by
    rw [(channel.send_spec line shown).1]
    rfl
  rw [begun]
  generalize channel.send line (some shown) = sent at brings sends shows ⊢
  rcases sends with ⟨result, same, silent⟩ | ⟨failure, result, blameless⟩
  · obtain ⟨has'', task, readings, mailbox⟩ :=
      (client.counting shown).parts_absorb channel sent.effects
    have seen := counting.of_parts (has''.trans has'.symm) task readings mailbox
    have due : Due settings (next + 1) (issued ++ [⟨next, asking⟩]) taken completed next
        (asking.task tag) (Command.answers tag (asking.marker settings)) := {
      owed := by
        simp only [tag, counted]
        exact .command List.getElem?_concat_length
      early := Nat.lt_succ_self next
      untaken := fun taking member => Nat.ne_of_lt (account.tally.known member)
      pending := fun completion member => Nat.ne_of_lt (account.tally.past completion member) }
    have awaited := seen.await has'' due (.inl (asking.task_ne_greeting _))
      (fun wait waits => Nat.ne_of_lt (early wait (by rw [wait?, has]; exact waits))) clock now
    simp only [goOn, silent, same, settle, result, List.nil_append]
    exact awaited
  · have failed := counting.finish (Nat.lt_succ_self next)
      (.silence blameless fun taking member => Nat.ne_of_lt (account.tally.known member)) rfl
      fun wait waits => Nat.ne_of_gt (early wait waits)
    have come := failed.come has' brings now
    dsimp only at come
    rw [shows, List.append_nil] at come
    simp only [goOn, result]
    rw [List.append_cons completed]
    exact come

theorem Account.close (account : client.Account settings next issued taken completed stream)
    (now : Instant) :
    let step := client.close now next
    ∃ taken', step.client.Account settings (next + 1) issued taken' (completed ++ step.completed)
      stream := by
  have telling : (client.tell .closing).Account settings (next + 1) issued taken
      (completed ++ [⟨next, .ok .done⟩]) stream :=
    (account.skip (.ok .done)).of_core (core_tell client .closing)
  cases has : client.channel with
  | none =>
      have free : (client.tell .closing).channel = none := has
      rw [Client.close, react_unconnected free]
      exact ⟨taken, telling.disconnect (by rw [wait?, free, Option.bind_none])⟩
  | some channel =>
      have has' : (client.tell .closing).channel = some channel := has
      obtain ⟨taken', closed⟩ := telling.come has'
        (Channel.brings_destroy (account.fit channel has)) now
      have shut := (client.tell .closing).shut_effects channel.destroy.1 now channel.destroy.2
        (Channel.shut_destroy channel)
      rw [Channel.incoming_of_quiet (Channel.quiet_destroy channel), List.append_nil] at closed
      rw [Client.close, react, has']
      dsimp only
      rw [List.append_cons completed]
      exact ⟨taken', closed.disconnect (closed.wait_of_shut shut)⟩

theorem Account.begin (account : client.Account settings next issued taken completed stream)
    (configured : client.settings = settings) (counted : client.lastTag = issued.length)
    (clock : Clock) (now : Instant) (call : Call) :
    let step := client.begin clock now next call
    ∃ taken', step.client.Account settings (next + 1)
      (issued ++ (client.issues? call).toList.map (⟨next, ·⟩)) taken'
      (completed ++ step.completed) stream := by
  cases asks : call.asking? client.settings with
  | some asking =>
      obtain ⟨told, follows, same, begun⟩ := client.begin_eq_command clock now next asks
      have account' := account.of_core same
      have channel := channel_of_core same
      rw [begun, configured]
      cases has : client.channel with
      | none =>
          rw [command_unconnected (channel.trans has), issues?_unconnected has, Option.toList_none,
            List.map_nil, List.append_nil]
          exact ⟨taken, (account'.skip _).of_core (core_tell _ _)⟩
      | some channel' =>
          rw [issues?_connected has, asks]
          exact account'.command ((lastTag_of_core same).trans counted)
            (channel.trans has) clock now asking
  | none =>
      have nothing : client.issues? call = none := by
        rw [issues?, asks, ite_self]
      rw [nothing, Option.toList_none, List.map_nil, List.append_nil]
      cases call with
      | login | select | fetch => cases asks
      | listen name => exact ⟨taken, (account.skip _).of_parts rfl rfl rfl rfl⟩
      | unlisten name => exact ⟨taken, (account.skip _).of_parts rfl rfl rfl rfl⟩
      | close => exact account.close now

theorem account_connect (clock : Clock) (now : Instant) {told : Client}
    (same : told.core = (create settings).core) (fault : Option String) :
    let step := told.connect clock now 0 fault
    ∃ taken, step.client.Account settings 1 [] taken step.completed [] := by
  let channel : Channel := { Channel.fresh true with writeFault := fault }
  have created := (account_create settings).of_core same
  have standing : { told with channel := some channel }.Standing settings 1 [] [] [] :=
    { created with }
  have idle : told.task = none := task_of_core same
  have connecting : { told with channel := some channel }.Account settings 1 [] [] [] [] :=
    standing.account rfl (Channel.fit_fresh fault) rfl (idle ▸ .idle)
  have due : Due settings 1 [] [] [] 0 .greeting Command.greetings := {
    owed := .greeting
    early := Nat.one_pos
    untaken := by rintro taking ⟨⟩
    pending := by rintro completion ⟨⟩ }
  exact connecting.await rfl due (.inr rfl) (by rintro wait ⟨⟩) clock now

end Client

end ImapDialogue

import ImapDialogue.Client.Calls
import Mathlib.Tactic.Common

/-!
What showing and telling leave alone. A client without its transcript and its log is the same
whatever it observed and told, and how a call ends does not depend on either.
-/

namespace ImapDialogue.Client

def core (client : Client) : Client := { client with transcript := [], echoed := [], log := [] }

@[simp] theorem core_tell (client : Client) (notice : Notice) :
    (client.tell notice).core = client.core := rfl

@[simp] theorem core_tellAll (client : Client) (notices : List Notice) :
    (client.tellAll notices).core = client.core := by
  induction notices generalizing client with
  | nil => rfl
  | cons notice notices induction => exact induction (client.tell notice)

theorem core_observe (client : Client) (traffic : Traffic) :
    (client.observe traffic).core = client.core := by
  unfold observe
  dsimp only
  split <;> rfl

theorem core_absorb (client : Client) (channel : Channel) (effects : Effects) :
    (client.absorb channel effects).core = { client with channel := some channel }.core := by
  have shown : ∀ (traffic : List Traffic) (client : Client),
      (traffic.foldl observe client).core = client.core := by
    intro traffic
    induction traffic with
    | nil => intro client; rfl
    | cons first others induction =>
        intro client
        rw [List.foldl_cons, induction, core_observe]
  rw [absorb, core_tellAll, shown]

theorem channel_of_core {client client' : Client} (same : client.core = client'.core) :
    client.channel = client'.channel := by
  have fields := congrArg Client.channel same
  exact fields

theorem task_of_core {client client' : Client} (same : client.core = client'.core) :
    client.task = client'.task := by
  have fields := congrArg Client.task same
  exact fields

theorem readings_of_core {client client' : Client} (same : client.core = client'.core) :
    client.readings = client'.readings := by
  have fields := congrArg Client.readings same
  exact fields

theorem events_of_core {client client' : Client} (same : client.core = client'.core) :
    client.events = client'.events := by
  have fields := congrArg Client.events same
  exact fields

theorem listeners_of_core {client client' : Client} (same : client.core = client'.core) :
    client.listeners = client'.listeners := by
  have fields := congrArg Client.listeners same
  exact fields

theorem settings_of_core {client client' : Client} (same : client.core = client'.core) :
    client.settings = client'.settings := by
  have fields := congrArg Client.settings same
  exact fields

theorem lastTag_of_core {client client' : Client} (same : client.core = client'.core) :
    client.lastTag = client'.lastTag := by
  have fields := congrArg Client.lastTag same
  exact fields

/-! ## Ends of waits -/

def Closed (client : Client) : Prop :=
  ∀ channel, client.channel = some channel → channel.destroyed = true

def verdict : Except Failure Match → Except Failure Match
  | .error failure => .error failure
  | .ok found => if found.index = 0 then .ok found else .error (failedCommand found)

theorem concludeCommand_core (client : Client) (tag : String) (result : Except Failure Match) :
    (client.concludeCommand tag result).1.core = client.core := by
  cases result with
  | error failure => rfl
  | ok found =>
      simp only [concludeCommand]
      split
      · rfl
      · simp

theorem concludeCommand_result (client : Client) (tag : String)
    (result : Except Failure Match) :
    (client.concludeCommand tag result).2 = verdict result := by
  cases result with
  | error failure => rfl
  | ok found =>
      simp only [concludeCommand, verdict]
      split <;> rfl

def welcome : Except Failure Match → Except Failure Answer
  | .error failure => .error failure
  | .ok found =>
      if found.index = 0 then .ok .greeted
      else .error (.commandFailed "*" "BYE" (responseLine found))

theorem concludeGreeting_result (client : Client) (result : Except Failure Match) :
    (client.concludeGreeting result).2 = welcome result := by
  cases result with
  | error failure => rfl
  | ok found =>
      simp only [concludeGreeting, welcome]
      split <;> rfl

def Fails (result : Except Failure Match) : Prop := ∀ found, result = .ok found → found.index ≠ 0

theorem verdict_of_fails {result : Except Failure Match} (fails : Fails result) :
    ∃ failure, verdict result = .error failure := by
  cases result with
  | error failure => exact ⟨failure, rfl⟩
  | ok found => exact ⟨failedCommand found, if_neg (fails found rfl)⟩

theorem welcome_of_fails {result : Except Failure Match} (fails : Fails result) :
    ∃ failure, welcome result = .error failure := by
  cases result with
  | error failure => exact ⟨failure, rfl⟩
  | ok found => exact ⟨_, if_neg (fails found rfl)⟩

/-- What is left of a channel when a wait on it ends: it is closed unless it was the greeting
that came, or no greeting was waited for. -/
def left (task : Task) (result : Except Failure Match) (channel : Channel) : Channel :=
  match task, welcome result with
  | .greeting, .error _ => channel.destroy.1
  | _, _ => channel

theorem left_command {task : Task} (command : task ≠ .greeting) (result : Except Failure Match)
    (channel : Channel) : left task result channel = channel := by
  unfold left
  split
  · exact absurd rfl command
  · rfl

theorem left_success {found : Match} (success : found.index = 0) (task : Task)
    (channel : Channel) : left task (.ok found) channel = channel := by
  have greeted : welcome (.ok found) = .ok .greeted := if_pos success
  unfold left
  split
  · next same =>
      rw [greeted] at same
      cases same
  · rfl

theorem destroyed_left {result : Except Failure Match} (fails : Fails result)
    (channel : Channel) : (left .greeting result channel).destroyed = true := by
  obtain ⟨failure, judged⟩ := welcome_of_fails fails
  simp only [left, judged]
  exact channel.destroyed_destroy

theorem destroyed_left_of_destroyed (task : Task) (result : Except Failure Match)
    {channel : Channel} (destroyed : channel.destroyed = true) :
    (left task result channel).destroyed = true := by
  unfold left
  split
  · exact channel.destroyed_destroy
  · exact destroyed

theorem concludeGreeting_core (client : Client) (result : Except Failure Match) :
    ∃ greeting, (client.concludeGreeting result).1.core = { client with
      greeting := greeting
      channel := client.channel.map (left .greeting result) }.core := by
  cases result with
  | error failure =>
      refine ⟨client.greeting, ?_⟩
      have told := core_tell client (.noGreeting failure)
      exact congrArg hangUp told
  | ok found =>
      simp only [concludeGreeting]
      by_cases first : found.index = 0
      · have same : left .greeting (.ok found) = id := by
          funext channel
          simp [left, welcome, first]
        refine ⟨responseLine found, ?_⟩
        rw [if_pos first, same, Option.map_id]
        rfl
      · have same : left .greeting (.ok found) = fun channel => channel.destroy.1 := by
          funext channel
          simp [left, welcome, first]
        refine ⟨client.greeting, ?_⟩
        rw [if_neg first, same]
        rfl

/-! ## Ends of calls -/

variable [Mail.Reader]

/-- The messages that a fetch reads before it ends. -/
def unread (now : Instant) (before : Bytes) : List Unread :=
  (Response.collect before).1.filterMap (Unread.ofRecord? now)

/-- How a call ends together with its wait; a fetch that reads messages ends later. -/
def ends (now : Instant) (ticket : Nat) (result : Except Failure Match) : Task → List Completion
  | .greeting => [⟨ticket, welcome result⟩]
  | .login _ => [⟨ticket, (verdict result).map fun _ => .done⟩]
  | .select _ _ => [⟨ticket, (verdict result).map fun _ => .done⟩]
  | .fetch _ =>
      match verdict result with
      | .error failure => [⟨ticket, .error failure⟩]
      | .ok found =>
          if unread now found.before = [] then
            [⟨ticket, .ok (.fetched (Response.collect found.before).1 [])⟩]
          else []

def begins (now : Instant) (ticket : Nat) (result : Except Failure Match) : Task → List Reading
  | .fetch _ =>
      match verdict result with
      | .error _ => []
      | .ok found =>
          if unread now found.before = [] then []
          else [⟨ticket, (Response.collect found.before).1, [], unread now found.before⟩]
  | .greeting | .login _ | .select _ _ => []

theorem ends_of_fails (now : Instant) (ticket : Nat) {result : Except Failure Match}
    (fails : Fails result) (task : Task) :
    (∃ failure, ends now ticket result task = [⟨ticket, .error failure⟩]) ∧
      begins now ticket result task = [] := by
  obtain ⟨failure, judged⟩ := verdict_of_fails fails
  cases task with
  | greeting =>
      obtain ⟨failure', judged'⟩ := welcome_of_fails fails
      exact ⟨⟨failure', by rw [ends, judged']⟩, rfl⟩
  | login tag =>
      refine ⟨⟨failure, ?_⟩, rfl⟩
      rw [ends, judged]
      rfl
  | select tag mailbox =>
      refine ⟨⟨failure, ?_⟩, rfl⟩
      rw [ends, judged]
      rfl
  | fetch tag =>
      simp only [ends, begins, judged, and_true]
      exact ⟨failure, rfl⟩

/-- A call whose line is a success succeeds with it, or it is a fetch and reads messages. -/
theorem ends_of_success (now : Instant) (ticket : Nat) {found : Match}
    (success : found.index = 0) (task : Task) :
    (∃ answer, ends now ticket (.ok found) task = [⟨ticket, .ok answer⟩] ∧
        begins now ticket (.ok found) task = []) ∨
      ∃ tag reading, task = .fetch tag ∧ ends now ticket (.ok found) task = [] ∧
        begins now ticket (.ok found) task = [reading] ∧ reading.ticket = ticket ∧
        reading.unread ≠ [] := by
  have judged : verdict (.ok found) = .ok found := if_pos success
  cases task with
  | greeting =>
      refine .inl ⟨.greeted, ?_, rfl⟩
      rw [ends, welcome, if_pos success]
  | login tag =>
      refine .inl ⟨.done, ?_, rfl⟩
      rw [ends, judged]
      rfl
  | select tag mailbox =>
      refine .inl ⟨.done, ?_, rfl⟩
      rw [ends, judged]
      rfl
  | fetch tag =>
      simp only [ends, begins, judged]
      by_cases none : unread now found.before = []
      · rw [if_pos none, if_pos none]
        exact .inl ⟨_, rfl, rfl⟩
      · rw [if_neg none, if_neg none]
        exact .inr ⟨tag, _, rfl, rfl, rfl, rfl, none⟩

theorem decodeFetch_spec (client : Client) (now : Instant) (ticket : Nat) (before : Bytes) :
    (client.decodeFetch now ticket before).2 =
        (if unread now before = [] then
          [⟨ticket, .ok (.fetched (Response.collect before).1 [])⟩]
        else []) ∧
      (client.decodeFetch now ticket before).1.core = { client with
        readings := client.readings ++
          (if unread now before = [] then []
          else [Reading.mk ticket (Response.collect before).1 [] (unread now before)]) }.core := by
  have told := core_tell (client.tellAll ((Response.collect before).2.map .undecodable))
    (.received ((Response.collect before).1.map (·.sequence)))
  rw [core_tellAll] at told
  cases waiting : unread now before with
  | nil =>
      have none : (Response.collect before).1.filterMap (Unread.ofRecord? now) = [] := waiting
      simp only [decodeFetch, none, if_true, List.append_nil, true_and]
      exact told
  | cons first others =>
      have some : (Response.collect before).1.filterMap (Unread.ofRecord? now) =
          first :: others := waiting
      simp only [decodeFetch, some, reduceCtorEq, if_false, true_and]
      exact congrArg (fun (told : Client) => { told with readings := told.readings ++
        [Reading.mk ticket (Response.collect before).1 [] (first :: others)] }) told

theorem conclude_completed (client : Client) (now : Instant) (ticket : Nat) (task : Task)
    (result : Except Failure Match) :
    (client.conclude now ticket task result).2 = ends now ticket result task := by
  cases task with
  | greeting =>
      simp only [conclude, ends, concludeGreeting_result]
  | login tag => simp only [conclude, ends, concludeCommand_result]
  | select tag mailbox =>
      have same := client.concludeCommand_result tag result
      simp only [conclude, ends]
      split
      · next found parts =>
          rw [parts] at same
          rw [← same]
          rfl
      · next failure parts =>
          rw [parts] at same
          rw [← same]
          rfl
  | fetch tag =>
      have same := client.concludeCommand_result tag result
      simp only [conclude, ends]
      split
      · next found parts =>
          rw [parts] at same
          rw [← same]
          exact (decodeFetch_spec _ now ticket found.before).1
      · next failure parts =>
          rw [parts] at same
          rw [← same]

/-- The end of a wait changes nothing but the greeting, the mailbox, the messages to be read and
perhaps the channel. -/
theorem conclude_core (client : Client) (now : Instant) (ticket : Nat) (task : Task)
    (result : Except Failure Match) :
    ∃ greeting mailbox, (client.conclude now ticket task result).1.core = { client with
      greeting := greeting
      mailbox := mailbox
      channel := client.channel.map (left task result)
      readings := client.readings ++ begins now ticket result task }.core := by
  have kept : ∀ {task : Task}, task ≠ .greeting →
      client.channel.map (left task result) = client.channel := by
    intro task command
    have same : left task result = id := funext (left_command command result)
    rw [same, Option.map_id, id_eq]
  cases task with
  | greeting =>
      obtain ⟨greeting, same⟩ := client.concludeGreeting_core result
      refine ⟨greeting, client.mailbox, ?_⟩
      rw [begins, List.append_nil]
      exact same
  | login tag =>
      refine ⟨client.greeting, client.mailbox, ?_⟩
      rw [kept (by simp), begins, List.append_nil]
      exact client.concludeCommand_core tag result
  | select tag mailbox =>
      have same := client.concludeCommand_core tag result
      rw [kept (by simp)]
      simp only [conclude, begins, List.append_nil]
      split
      · next behind found parts =>
          rw [parts] at same
          exact ⟨client.greeting, some mailbox,
            congrArg (fun (behind : Client) => { behind with mailbox := some mailbox }) same⟩
      · next behind failure parts =>
          rw [parts] at same
          exact ⟨client.greeting, client.mailbox, same⟩
  | fetch tag =>
      have same := client.concludeCommand_core tag result
      have said := client.concludeCommand_result tag result
      refine ⟨client.greeting, client.mailbox, ?_⟩
      rw [kept (by simp)]
      simp only [conclude, begins]
      split
      · next behind found parts =>
          rw [parts] at same said
          rw [(decodeFetch_spec behind now ticket found.before).2, ← said]
          exact congrArg (fun (behind : Client) => { behind with
            readings := behind.readings ++ (if unread now found.before = [] then []
              else [Reading.mk ticket (Response.collect found.before).1 []
                (unread now found.before)]) }) same
      · next behind failure parts =>
          rw [parts] at same said
          rw [← said, List.append_nil]
          exact same

theorem await_written {client : Client} {task : Task} (clock : Clock) (now : Instant)
    (ticket : Nat) (patterns : List Pattern) :
    (client.await clock now ticket patterns task).written = [] := by
  unfold await
  split
  · rfl
  · dsimp only
    split <;> rfl

/-! ## Commands -/

def counting (client : Client) (shown : String) : Client :=
  { client with
    lastTag := client.lastTag + 1
    commands := client.commands ++ [shown] }.tell (.sending shown)

def goOn (client : Client) (clock : Clock) (now : Instant) (ticket : Nat) (patterns : List Pattern)
    (task : Task) (sent : Channel.Sent) : Step :=
  let (behind, completed) :=
    (client.absorb sent.channel sent.effects).settle now sent.effects.settled
  match sent.result with
  | .error failure => ⟨behind, [], ⟨ticket, .error failure⟩ :: completed⟩
  | .ok () =>
      let step := behind.await clock now ticket patterns task
      { step with
        written := sent.effects.written ++ step.written
        completed := completed ++ step.completed }

/-- A command whose line went out waits for its answer. -/
theorem goOn_sent (client : Client) (clock : Clock) (now : Instant) (ticket : Nat)
    (patterns : List Pattern) (task : Task) (channel : Channel) {effects : Effects}
    (silent : effects.settled = []) :
    client.goOn clock now ticket patterns task ⟨.ok (), channel, effects⟩ =
      let step := (client.absorb channel effects).await clock now ticket patterns task
      { step with written := effects.written ++ step.written } := by
  simp only [goOn, silent, settle, List.nil_append]

theorem command_eq {client : Client} {channel : Channel} (has : client.channel = some channel)
    (clock : Clock) (now : Instant) (ticket : Nat) (verb arguments shown marker : String)
    (task : String → Task) :
    let tag := toString (client.lastTag + 1)
    let told := tag ++ " " ++ verb ++ " " ++ shown
    client.command clock now ticket verb arguments shown marker task =
      (client.counting told).goOn clock now ticket (Command.answers tag marker) (task tag)
        (channel.send (tag ++ " " ++ verb ++ " " ++ arguments) (some told)) := by
  rw [command, has]
  rfl

end ImapDialogue.Client

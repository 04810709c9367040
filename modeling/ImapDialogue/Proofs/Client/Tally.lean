import ImapDialogue.Proofs.Client.Asking
import ImapDialogue.Proofs.Client.Tidings

/-!
Which line ends which command. Every wait is for the lines of one command, or for the greeting, and
takes at most one line. What the waits of commands took is tallied with how these ended: a command
that succeeded took its completion, one that failed by an answer took that answer, and one that
failed otherwise took nothing.
-/

namespace ImapDialogue

structure Issue where
  ticket : Nat
  asking : Asking

/-- A line that the wait of a call took, with the data in front of it. -/
structure Taking where
  ticket : Nat
  found : Match

/-- The lines that the wait of a call ends with, as a judge: those that greet, or those that answer
the command with the number of its place. -/
inductive Expects (settings : Settings) (issued : List Issue) : Nat → (Bytes → Option Nat) → Prop
  | greeting : Expects settings issued 0 Command.greeting?
  | command {place : Nat} {issue : Issue} (issues : issued[place]? = some issue) :
      Expects settings issued issue.ticket
        (Command.answer? (Bytes.digits (place + 1)) (Utf8.encode (issue.asking.marker settings)))

def Taking.Answers (settings : Settings) (issued : List Issue) (taking : Taking) : Prop :=
  ∃ judge, Expects settings issued taking.ticket judge ∧
    LineReader.read judge (taking.found.before ++ taking.found.text) = some (taking.found, [])

def Taking.Shows (taking : Taking) (test : Bytes → Bool) : Prop :=
  ∃ line ending, Line.Plain line ∧ Line.Ending ending ∧ taking.found.text = line ++ ending ∧
    test line = true

inductive Fair (taken : List Taking) : Completion → Prop
  | success {ticket : Nat} {answer : Answer} {found : Match} (took : ⟨ticket, found⟩ ∈ taken)
      (completes : found.index = 0) : Fair taken ⟨ticket, .ok answer⟩
  | refusal {ticket : Nat} {found : Match} (took : ⟨ticket, found⟩ ∈ taken)
      (refuses : found.index ≠ 0) : Fair taken ⟨ticket, .error (Client.failedCommand found)⟩
  | silence {ticket : Nat} {failure : Failure} (silent : failure.isAnswer = false)
      (nothing : ∀ taking ∈ taken, taking.ticket ≠ ticket) : Fair taken ⟨ticket, .error failure⟩

def mailboxOf (issued : List Issue) (ticket : Nat) : Option String :=
  (issued.find? (·.ticket == ticket)).bind (·.asking.mailbox?)

def Completion.selected? (issued : List Issue) (completion : Completion) : Option String :=
  match completion.result with
  | .ok _ => mailboxOf issued completion.ticket
  | .error _ => none

def lastSelected (issued : List Issue) (completed : List Completion) : Option String :=
  (completed.filterMap (·.selected? issued)).getLast?

def takes (ticket : Nat) : Except Failure Match → List Taking
  | .ok found => [⟨ticket, found⟩]
  | .error _ => []

/-- All the data that was taken, in order. -/
def consumed (taken : List Taking) : Bytes :=
  taken.flatMap fun taking => taking.found.before ++ taking.found.text

inductive Owed (settings : Settings) (issued : List Issue) : Nat → Task → List Pattern → Prop
  | greeting : Owed settings issued 0 .greeting Command.greetings
  | command {place : Nat} {issue : Issue} (issues : issued[place]? = some issue) :
      Owed settings issued issue.ticket (issue.asking.task (toString (place + 1)))
        (Command.answers (toString (place + 1)) (issue.asking.marker settings))

def Taking.Leads (settings : Settings) (issued : List Issue) (taking : Taking) : Prop :=
  ∃ task patterns data rest, Owed settings issued taking.ticket task patterns ∧
    Comes patterns data (.ok taking.found) rest

structure Tally (settings : Settings) (next : Nat) (issued : List Issue) (taken : List Taking)
    (completed : List Completion) : Prop where
  begun : 0 < next
  early : ∀ issue ∈ issued, 0 < issue.ticket ∧ issue.ticket < next
  distinct : (issued.map (·.ticket)).Nodup
  past : ∀ completion ∈ completed, completion.ticket < next
  single : (taken.map (·.ticket)).Nodup
  leads : ∀ taking ∈ taken, taking.Leads settings issued
  fair : ∀ completion ∈ completed, completion.ticket ∈ issued.map (·.ticket) →
    Fair taken completion

structure Due (settings : Settings) (next : Nat) (issued : List Issue) (taken : List Taking)
    (completed : List Completion) (ticket : Nat) (task : Task) (patterns : List Pattern) :
    Prop where
  owed : Owed settings issued ticket task patterns
  early : ticket < next
  untaken : ∀ taking ∈ taken, taking.ticket ≠ ticket
  pending : ∀ completion ∈ completed, completion.ticket ≠ ticket

structure Fetched (issued : List Issue) (taken : List Taking) (ticket : Nat) : Prop where
  took : ∃ found, ⟨ticket, found⟩ ∈ taken ∧ found.index = 0
  aside : mailboxOf issued ticket = none

def Issue.completes (settings : Settings) (number : Nat) (issue : Issue) : Bytes → Bool :=
  Command.completes (Bytes.digits number) (Utf8.encode (issue.asking.marker settings))

def refused (number : Nat) (line : Bytes) : Bool :=
  Command.refuses (Bytes.digits number) line || Command.parts line

/-- How the command with a number ends on what was taken: it succeeds only by its completion, it
fails by an answer only if that refuses it or is a farewell, and the failure tells which answer it
was; nothing was taken for a command that failed without an answer. -/
structure Issue.Ends (settings : Settings) (taken : List Taking) (number : Nat) (issue : Issue)
    (result : Except Failure Answer) : Prop where
  success : ∀ answer, result = .ok answer → ∃ taking ∈ taken, taking.ticket = issue.ticket ∧
    taking.Shows (issue.completes settings number)
  refusal : ∀ failure, result = .error failure → failure.isAnswer = true →
    ∃ taking ∈ taken, taking.ticket = issue.ticket ∧ taking.Shows (refused number) ∧
      failure = Client.failedCommand taking.found
  silence : ∀ failure, result = .error failure → failure.isAnswer = false →
    ∀ taking ∈ taken, taking.ticket ≠ issue.ticket

variable {settings : Settings} {next ticket : Nat} {issued : List Issue} {taken further : List Taking}
  {completed : List Completion} {task : Task} {patterns : List Pattern} {data rest : Bytes}
  {how : Except Failure Match}

/-! ## Commands by their tickets -/

theorem find_issue (distinct : (issued.map (·.ticket)).Nodup) {issue : Issue}
    (member : issue ∈ issued) : issued.find? (·.ticket == issue.ticket) = some issue := by
  induction issued with
  | nil => cases member
  | cons first others induction =>
      obtain ⟨apart, distinct⟩ := List.nodup_cons.mp distinct
      rcases List.mem_cons.mp member with rfl | later
      · exact List.find?_cons_of_pos (beq_self_eq_true _)
      · have other : first.ticket ≠ issue.ticket := by
          intro same
          exact apart (List.mem_map.mpr ⟨issue, later, same.symm⟩)
        rw [List.find?_cons_of_neg (by simpa using other)]
        exact induction distinct later

theorem mailboxOf_issue (distinct : (issued.map (·.ticket)).Nodup) {issue : Issue}
    (member : issue ∈ issued) : mailboxOf issued issue.ticket = issue.asking.mailbox? := by
  rw [mailboxOf, find_issue distinct member]
  rfl

theorem mailboxOf_none (unknown : ∀ issue ∈ issued, issue.ticket ≠ ticket) :
    mailboxOf issued ticket = none := by
  have missing : issued.find? (·.ticket == ticket) = none := by
    rw [List.find?_eq_none]
    intro issue member
    simpa using unknown issue member
  rw [mailboxOf, missing]
  rfl

/-- A further command does not matter to tickets that came before its own. -/
theorem mailboxOf_concat (issued : List Issue) {issue : Issue} (other : ticket ≠ issue.ticket) :
    mailboxOf (issued ++ [issue]) ticket = mailboxOf issued ticket := by
  have silent : [issue].find? (·.ticket == ticket) = none :=
    List.find?_cons_of_neg (by simpa using Ne.symm other)
  rw [mailboxOf, mailboxOf, List.find?_append, silent, Option.or_none]

theorem lastSelected_append (issued : List Issue) (completed later : List Completion) :
    lastSelected issued (completed ++ later) =
      (lastSelected issued later).or (lastSelected issued completed) := by
  rw [lastSelected, List.filterMap_append, List.getLast?_append]
  rfl

theorem lastSelected_none (nothing : ∀ completion ∈ completed, completion.selected? issued = none) :
    lastSelected issued completed = none := by
  rw [lastSelected, List.filterMap_eq_nil_iff.mpr nothing]
  rfl

theorem selected?_eq_none {completion : Completion}
    (aside : mailboxOf issued completion.ticket = none) : completion.selected? issued = none := by
  unfold Completion.selected?
  split
  · exact aside
  · rfl

theorem lastSelected_concat {issue : Issue}
    (past : ∀ completion ∈ completed, completion.ticket ≠ issue.ticket) :
    lastSelected (issued ++ [issue]) completed = lastSelected issued completed := by
  have same : completed.filterMap (·.selected? (issued ++ [issue])) =
      completed.filterMap (·.selected? issued) := by
    apply List.filterMap_congr
    intro completion member
    unfold Completion.selected?
    rw [mailboxOf_concat issued (past completion member)]
  rw [lastSelected, same]
  rfl

/-! ## More of everything -/

theorem issue_stays {place : Nat} {issue : Issue} (issues : issued[place]? = some issue)
    (others : List Issue) : (issued ++ others)[place]? = some issue := by
  rw [List.getElem?_append_left (List.getElem?_eq_some_iff.mp issues).1]
  exact issues

theorem Client.isAnswer_failedCommand (found : Match) : (failedCommand found).isAnswer = true := by
  unfold failedCommand
  dsimp only
  split <;> rfl

theorem Owed.issue (owed : Owed settings issued ticket task patterns) (issue : Issue) :
    Owed settings (issued ++ [issue]) ticket task patterns := by
  cases owed with
  | greeting => exact .greeting
  | command issues => exact .command (issue_stays issues [issue])

theorem Fair.more {completion : Completion} (fair : Fair taken completion)
    (apart : ∀ taking ∈ further, taking.ticket ≠ completion.ticket) :
    Fair (taken ++ further) completion := by
  cases fair with
  | success took completes => exact .success (List.mem_append_left further took) completes
  | refusal took refuses => exact .refusal (List.mem_append_left further took) refuses
  | silence silent nothing =>
      refine .silence silent fun taking member => ?_
      rcases List.mem_append.mp member with old | new
      · exact nothing taking old
      · exact apart taking new

theorem Fetched.more (fetched : Fetched issued taken ticket) (further : List Taking) :
    Fetched issued (taken ++ further) ticket where
  took := by
    obtain ⟨found, took, completes⟩ := fetched.took
    exact ⟨found, List.mem_append_left further took, completes⟩
  aside := fetched.aside

theorem consumed_append (taken further : List Taking) :
    consumed (taken ++ further) = consumed taken ++ consumed further := List.flatMap_append

namespace Tally

variable (tally : Tally settings next issued taken completed)

include tally

theorem known_owed (owed : Owed settings issued ticket task patterns) : ticket < next := by
  cases owed with
  | greeting => exact tally.begun
  | command issues => exact (tally.early _ (List.mem_of_getElem? issues)).2

theorem known {taking : Taking} (member : taking ∈ taken) : taking.ticket < next := by
  obtain ⟨task, patterns, data, rest, owed, _⟩ := tally.leads taking member
  exact tally.known_owed owed

theorem issue (asking : Asking) :
    Tally settings (next + 1) (issued ++ [⟨next, asking⟩]) taken completed where
  begun := Nat.succ_pos next
  early := by
    intro issue member
    rcases List.mem_append.mp member with old | new
    · exact ⟨(tally.early issue old).1, Nat.lt_succ_of_lt (tally.early issue old).2⟩
    · rw [List.mem_singleton.mp new]
      exact ⟨tally.begun, Nat.lt_succ_self next⟩
  distinct := by
    rw [List.map_append, List.nodup_append]
    refine ⟨tally.distinct, List.pairwise_singleton _ _, ?_⟩
    intro old member new member'
    obtain ⟨issue, within, rfl⟩ := List.mem_map.mp member
    rw [List.mem_singleton.mp member']
    exact Nat.ne_of_lt (tally.early issue within).2
  past := fun completion member => Nat.lt_succ_of_lt (tally.past completion member)
  single := tally.single
  leads := by
    intro taking member
    obtain ⟨task, patterns, data, rest, owed, comes⟩ := tally.leads taking member
    exact ⟨task, patterns, data, rest, owed.issue _, comes⟩
  fair := by
    intro completion member issues
    rw [List.map_append, List.mem_append] at issues
    rcases issues with old | new
    · exact tally.fair completion member old
    · exact absurd (List.mem_singleton.mp new) (Nat.ne_of_lt (tally.past completion member))

theorem skip (result : Except Failure Answer) :
    Tally settings (next + 1) issued taken (completed ++ [⟨next, result⟩]) where
  begun := Nat.succ_pos next
  early := fun issue member =>
    ⟨(tally.early issue member).1, Nat.lt_succ_of_lt (tally.early issue member).2⟩
  distinct := tally.distinct
  past := by
    intro completion member
    rcases List.mem_append.mp member with old | new
    · exact Nat.lt_succ_of_lt (tally.past completion old)
    · rw [List.mem_singleton.mp new]
      exact Nat.lt_succ_self next
  single := tally.single
  leads := tally.leads
  fair := by
    intro completion member issues
    rcases List.mem_append.mp member with old | new
    · exact tally.fair completion old issues
    · rw [List.mem_singleton.mp new] at issues
      obtain ⟨issue, within, same⟩ := List.mem_map.mp issues
      exact absurd same (Nat.ne_of_lt (tally.early issue within).2)

theorem finish {completion : Completion} (early : completion.ticket < next)
    (fair : Fair taken completion) :
    Tally settings next issued taken (completed ++ [completion]) where
  __ := tally
  past := by
    intro other member
    rcases List.mem_append.mp member with old | new
    · exact tally.past other old
    · rw [List.mem_singleton.mp new]
      exact early
  fair := by
    intro other member issues
    rcases List.mem_append.mp member with old | new
    · exact tally.fair other old issues
    · rw [List.mem_singleton.mp new]
      exact fair

section Issued

variable {place : Nat} {issue : Issue} (issues : issued[place]? = some issue)

include issues

theorem same_issue {place' : Nat} {issue' : Issue} (issues' : issued[place']? = some issue')
    (same : issue.ticket = issue'.ticket) : place = place' ∧ issue = issue' := by
  have known : (issued.map (·.ticket))[place]? = (issued.map (·.ticket))[place']? := by
    rw [List.getElem?_map, List.getElem?_map, issues, issues']
    exact congrArg some same
  have within : place < (issued.map (·.ticket)).length := by
    rw [List.length_map]
    exact (List.getElem?_eq_some_iff.mp issues).1
  obtain rfl := (List.getElem?_inj within tally.distinct).mp known
  exact ⟨rfl, Option.some.inj (issues.symm.trans issues')⟩

theorem leads_taken {found : Match} (took : ⟨issue.ticket, found⟩ ∈ taken) :
    ∃ data rest, Comes (Command.answers (toString (place + 1)) (issue.asking.marker settings)) data
      (.ok found) rest := by
  obtain ⟨task, patterns, data, rest, owed, comes⟩ := tally.leads _ took
  generalize number : (Taking.mk issue.ticket found).ticket = ticket at owed
  cases owed with
  | greeting =>
      exact absurd number (Nat.ne_of_gt (tally.early issue (List.mem_of_getElem? issues)).1)
  | command issues' =>
      obtain ⟨rfl, rfl⟩ := tally.same_issue issues issues' number
      exact ⟨data, rest, comes⟩

variable (answers : ∀ taking ∈ taken, taking.Answers settings issued)

include answers

theorem answer_taken {found : Match} (took : ⟨issue.ticket, found⟩ ∈ taken) :
    ∃ line ending, Line.Plain line ∧ Line.Ending ending ∧ found.text = line ++ ending ∧
      Command.answer? (Bytes.digits (place + 1)) (Utf8.encode (issue.asking.marker settings)) line =
        some found.index := by
  obtain ⟨judge, expects, reads⟩ := answers _ took
  obtain ⟨line, ending, plain, ends, text, answer⟩ := LineReader.line_of_read reads
  refine ⟨line, ending, plain, ends, text, ?_⟩
  generalize number : (Taking.mk issue.ticket found).ticket = ticket at expects
  cases expects with
  | greeting =>
      exact absurd number (Nat.ne_of_gt (tally.early issue (List.mem_of_getElem? issues)).1)
  | command issues' =>
      obtain ⟨rfl, rfl⟩ := tally.same_issue issues issues' number
      exact answer

theorem ends {completion : Completion} (ended : completion ∈ completed)
    (same : completion.ticket = issue.ticket) :
    issue.Ends settings taken (place + 1) completion.result := by
  have fair : Fair taken completion := tally.fair completion ended
    (List.mem_map.mpr ⟨issue, List.mem_of_getElem? issues, same.symm⟩)
  cases fair with
  | @success ticket _ found took completes =>
      cases same
      obtain ⟨line, ending, plain, ends, text, answers⟩ := tally.answer_taken issues answers took
      rw [completes] at answers
      have shows := Command.completes_of_answer answers
      exact {
        success := fun _ _ => ⟨_, took, rfl, line, ending, plain, ends, text, shows⟩
        refusal := by rintro failure ⟨⟩
        silence := by rintro failure ⟨⟩ }
  | @refusal ticket found took refuses =>
      cases same
      obtain ⟨line, ending, plain, ends, text, answers⟩ := tally.answer_taken issues answers took
      have shows := Command.refuses_of_answer answers refuses
      exact {
        success := by rintro answer ⟨⟩
        refusal := by
          rintro failure ⟨⟩ _
          exact ⟨_, took, rfl, ⟨line, ending, plain, ends, text, shows⟩, rfl⟩
        silence := by
          rintro failure ⟨⟩ silent
          rw [Client.isAnswer_failedCommand] at silent
          cases silent }
  | silence silent nothing =>
      cases same
      exact {
        success := by rintro answer ⟨⟩
        refusal := by
          rintro failure ⟨⟩ answered
          rw [silent] at answered
          cases answered
        silence := fun _ _ _ => nothing }

end Issued

end Tally

/-! ## Ends of waits -/

section Reader

variable [Mail.Reader]

theorem Client.ends_error (now : Instant) (ticket : Nat) (failure : Failure) (task : Task) :
    ends now ticket (.error failure) task = [⟨ticket, .error failure⟩] := by
  cases task <;> rfl

theorem Client.ends_refused (now : Instant) (ticket : Nat) {found : Match} (refuses : found.index ≠ 0)
    (command : task ≠ .greeting) :
    ends now ticket (.ok found) task = [⟨ticket, .error (failedCommand found)⟩] := by
  have judged : verdict (.ok found) = .error (failedCommand found) := if_neg refuses
  cases task with
  | greeting => exact absurd rfl command
  | login tag =>
      rw [ends, judged]
      rfl
  | select tag mailbox =>
      rw [ends, judged]
      rfl
  | fetch tag => rw [ends, judged]

theorem Client.ticket_of_mem_ends {now : Instant} {completion : Completion}
    (member : completion ∈ ends now ticket how task) : completion.ticket = ticket := by
  by_cases fails : Fails how
  · obtain ⟨⟨failure, only⟩, _⟩ := ends_of_fails now ticket fails task
    rw [only] at member
    rw [List.mem_singleton.mp member]
  · unfold Fails at fails
    push Not at fails
    obtain ⟨found, rfl, success⟩ := fails
    rcases ends_of_success now ticket success task with ⟨answer, only, _⟩ | ⟨_, _, _, nothing, _⟩
    · rw [only] at member
      rw [List.mem_singleton.mp member]
    · rw [nothing] at member
      cases member

end Reader

def Task.selects? (task : Task) (how : Except Failure Match) : Option String :=
  match task, Client.verdict how with
  | .select _ mailbox, .ok _ => some mailbox
  | _, _ => none

namespace Due

variable (due : Due settings next issued taken completed ticket task patterns)

include due

theorem more (further : List Taking) (later : List Completion)
    (apart : ∀ taking ∈ further, taking.ticket ≠ ticket)
    (apart' : ∀ completion ∈ later, completion.ticket ≠ ticket) :
    Due settings next issued (taken ++ further) (completed ++ later) ticket task patterns where
  owed := due.owed
  early := due.early
  untaken := by
    intro taking member
    rcases List.mem_append.mp member with old | new
    · exact due.untaken taking old
    · exact apart taking new
  pending := by
    intro completion member
    rcases List.mem_append.mp member with old | new
    · exact due.pending completion old
    · exact apart' completion new

theorem issue (asking : Asking) :
    Due settings (next + 1) (issued ++ [⟨next, asking⟩]) taken completed ticket task patterns where
  owed := due.owed.issue _
  early := Nat.lt_succ_of_lt due.early
  untaken := due.untaken
  pending := due.pending

variable (tally : Tally settings next issued taken completed)

include tally

theorem command (issues : ticket ∈ issued.map (·.ticket)) : task ≠ .greeting := by
  cases due.owed with
  | greeting =>
      obtain ⟨issue, member, same⟩ := List.mem_map.mp issues
      exact absurd same (Nat.ne_of_gt (tally.early issue member).1)
  | command issues => exact Asking.task_ne_greeting _ _

variable [Mail.Reader]

theorem lastSelected_ends (now : Instant) :
    lastSelected issued (Client.ends now ticket how task) = task.selects? how := by
  have aside : mailboxOf issued ticket = none →
      lastSelected issued (Client.ends now ticket how task) = none := by
    intro unknown
    apply lastSelected_none
    intro completion member
    apply selected?_eq_none
    rw [Client.ticket_of_mem_ends member]
    exact unknown
  cases due.owed with
  | greeting => exact aside (mailboxOf_none fun issue member => Nat.ne_of_gt (tally.early issue member).1)
  | @command place issue issues =>
      have selects := mailboxOf_issue tally.distinct (List.mem_of_getElem? issues)
      obtain ⟨ticket, asking⟩ := issue
      cases asking with
      | login user password => exact aside selects
      | fetch sequence item => exact aside selects
      | select mailbox =>
          simp only [Client.ends, Asking.task, Task.selects?, lastSelected]
          cases Client.verdict how with
          | error failure => rfl
          | ok found =>
              have last : [Completion.mk ticket (.ok .done)].filterMap (·.selected? issued) =
                  [mailbox] := List.filterMap_cons_some selects
              exact congrArg List.getLast? last

theorem fetched (now : Instant) {reading : Reading}
    (member : reading ∈ Client.begins now ticket how task) :
    Fetched issued (taken ++ takes ticket how) reading.ticket := by
  by_cases fails : Client.Fails how
  · rw [(Client.ends_of_fails now ticket fails task).2] at member
    cases member
  · unfold Client.Fails at fails
    push Not at fails
    obtain ⟨found, rfl, completes⟩ := fails
    rcases Client.ends_of_success now ticket completes task with
      ⟨_, _, nothing⟩ | ⟨tag, begun, fetches, _, only, same, _⟩
    · rw [nothing] at member
      cases member
    · rw [only] at member
      rw [List.mem_singleton.mp member, same]
      refine ⟨⟨found, List.mem_append_right taken List.mem_cons_self, completes⟩, ?_⟩
      cases due.owed with
      | greeting => cases fetches
      | @command place issue issues =>
          rw [mailboxOf_issue tally.distinct (List.mem_of_getElem? issues)]
          cases asked : issue.asking with
          | login user password => rfl
          | fetch sequence item => rfl
          | select mailbox =>
              rw [asked] at fetches
              cases fetches

theorem fair_ends (now : Instant) (comes : Comes patterns data how rest) {completion : Completion}
    (member : completion ∈ Client.ends now ticket how task)
    (issues : completion.ticket ∈ issued.map (·.ticket)) :
    Fair (taken ++ takes ticket how) completion := by
  rw [Client.ticket_of_mem_ends member] at issues
  cases comes with
  | @failed failure silent =>
      rw [Client.ends_error] at member
      rw [List.mem_singleton.mp member, takes, List.append_nil]
      exact .silence silent due.untaken
  | @found found _ leads =>
      have took : (⟨ticket, found⟩ : Taking) ∈ taken ++ takes ticket (.ok found) :=
        List.mem_append_right taken List.mem_cons_self
      by_cases completes : found.index = 0
      · rcases Client.ends_of_success now ticket completes task with
          ⟨answer, only, _⟩ | ⟨_, _, _, nothing, _⟩
        · rw [only] at member
          rw [List.mem_singleton.mp member]
          exact .success took completes
        · rw [nothing] at member
          cases member
      · rw [Client.ends_refused now ticket completes (due.command tally issues)] at member
        rw [List.mem_singleton.mp member]
        exact .refusal took completes

end Due

theorem ticket_of_mem_takes {taking : Taking} (member : taking ∈ takes ticket how) :
    taking.ticket = ticket ∧ how = .ok taking.found := by
  cases how with
  | error failure => cases member
  | ok found =>
      rw [takes, List.mem_singleton] at member
      rw [member]
      exact ⟨rfl, rfl⟩

theorem Tally.settle [Mail.Reader] (tally : Tally settings next issued taken completed)
    (due : Due settings next issued taken completed ticket task patterns)
    (comes : Comes patterns data how rest) (now : Instant) :
    Tally settings next issued (taken ++ takes ticket how)
      (completed ++ Client.ends now ticket how task) where
  __ := tally
  past := by
    intro completion member
    rcases List.mem_append.mp member with old | new
    · exact tally.past completion old
    · rw [Client.ticket_of_mem_ends new]
      exact due.early
  single := by
    rw [List.map_append, List.nodup_append]
    refine ⟨tally.single, ?_, ?_⟩
    · cases how with
      | error failure => exact List.nodup_nil
      | ok found => exact List.pairwise_singleton _ _
    · intro old member new member'
      obtain ⟨taking, within, rfl⟩ := List.mem_map.mp member
      obtain ⟨taking', within', rfl⟩ := List.mem_map.mp member'
      rw [(ticket_of_mem_takes within').1]
      exact due.untaken taking within
  leads := by
    intro taking member
    rcases List.mem_append.mp member with old | new
    · exact tally.leads taking old
    · obtain ⟨same, rfl⟩ := ticket_of_mem_takes new
      exact ⟨task, patterns, data, rest, same ▸ due.owed, comes⟩
  fair := by
    intro completion member issues
    rcases List.mem_append.mp member with old | new
    · apply (tally.fair completion old issues).more
      intro taking within
      rw [(ticket_of_mem_takes within).1]
      exact (due.pending completion old).symm
    · exact due.fair_ends tally now comes new issues

theorem Owed.answers (unbroken : ∀ asking : Asking, Utf8.Unbroken (asking.marker settings))
    (owed : Owed settings issued ticket task patterns) {found : Match}
    (comes : Comes patterns data (.ok found) rest) : Taking.Answers settings issued ⟨ticket, found⟩ := by
  cases comes with
  | found leads =>
      cases owed with
      | greeting =>
          rw [LineReader.first_eq_read Command.recognizes_greetings] at leads
          exact ⟨_, .greeting, LineReader.read_of_parts leads⟩
      | @command place issue issues =>
          have plain := Utf8.plain_encode (unbroken issue.asking)
          rw [LineReader.first_eq_read (Command.recognizes_tagged (place + 1) plain),
            Command.numbered_answers] at leads
          exact ⟨_, .command issues, LineReader.read_of_parts leads⟩

/-- As long as no marker is broken into lines, what was taken ends with the first line in it that its
call waits for. -/
theorem Tally.answers (tally : Tally settings next issued taken completed)
    (unbroken : ∀ asking : Asking, Utf8.Unbroken (asking.marker settings)) :
    ∀ taking ∈ taken, taking.Answers settings issued := by
  intro taking member
  obtain ⟨task, patterns, data, rest, owed, comes⟩ := tally.leads taking member
  exact owed.answers unbroken comes

end ImapDialogue

import ImapDialogue.Proofs.Number.Spelling
import ImapDialogue.Settings.Environment

/-!
Which environments are accepted. Four things are required, in an order, and the first that is
missing is told; with all of them the settings are well formed, and every part of them comes from a
variable of its own.
-/

namespace ImapDialogue

theorem Number.positiveInteger?_iff (number : Number) (value : Nat) :
    number.positiveInteger? = some value ↔ 0 < value ∧ number = .finite value := by
  constructor
  · intro reads
    cases number with
    | infinite negative => cases reads
    | finite exact =>
        rw [positiveInteger?, Option.ite_none_right_eq_some, Bool.and_eq_true, decide_eq_true_eq,
          decide_eq_true_eq] at reads
        obtain ⟨⟨whole, positive⟩, same⟩ := reads
        cases same
        have natural : ((exact.num.toNat : Nat) : Int) = exact.num := Int.toNat_of_nonneg positive.le
        refine ⟨by omega, ?_⟩
        rw [← Int.cast_natCast, natural, Rat.coe_int_num_of_den_eq_one whole]
  · rintro ⟨positive, rfl⟩
    simp [positiveInteger?, positive]

def Numeral.Counts (text : String) (value : Nat) : Prop :=
  0 < value ∧ ∃ magnitude, Means text magnitude ∧ magnitude.rounded = .finite value

theorem Numeral.counts_iff (text : String) (value : Nat) :
    (read text).bind Number.positiveInteger? = some value ↔ Counts text value := by
  rw [Option.bind_eq_some_iff]
  constructor
  · rintro ⟨number, reads, whole⟩
    obtain ⟨positive, rfl⟩ := (Number.positiveInteger?_iff _ _).mp whole
    exact ⟨positive, (read_iff _ _).mp reads⟩
  · rintro ⟨positive, means⟩
    exact ⟨_, (read_iff _ _).mpr means, (Number.positiveInteger?_iff _ _).mpr ⟨positive, rfl⟩⟩

/-- Where two steps in a row succeed, both of them do. -/
theorem ok_of_bind {ε α β : Type} {first : Except ε α} {next : α → Except ε β} {last : β}
    (succeeds : first >>= next = .ok last) :
    ∃ value, first = .ok value ∧ next value = .ok last := by
  cases first with
  | error fault => cases succeeds
  | ok value => exact ⟨value, rfl, succeeds⟩

structure Settings.WellFormed (settings : Settings) : Prop where
  host : settings.host ≠ ""
  port : 1 ≤ settings.port ∧ settings.port ≤ 65535
  email : settings.email ≠ ""
  password : settings.password ≠ ""
  mailbox : ∃ mailbox, settings.mailbox = some mailbox ∧ mailbox ≠ ""
  lockFile : settings.lockFile = .skip ∨ ∃ path, settings.lockFile = .path path ∧ path ≠ ""
  sequence : settings.fetch.sequence ≠ some ""
  item : settings.fetch.item ≠ some ""
  timeout : ∃ length : Nat, 0 < length ∧ settings.timeout = some (.finite length)

open Numeral (Counts)

namespace Environment

variable {environment : Environment} {name : String}

/-! ## Single variables -/

def Filled (environment : Environment) (name text : String) : Prop :=
  environment.lookup name = some text ∧ text ≠ ""

def Vacant (environment : Environment) (name : String) : Prop :=
  environment.lookup name = none ∨ environment.lookup name = some ""

theorem filled_eq_some (text : String) :
    environment.filled name = some text ↔ environment.Filled name text := by
  rw [filled, Option.filter_eq_some_iff, Filled]
  simp

theorem filled_eq_none : environment.filled name = none ↔ environment.Vacant name := by
  rw [filled, Option.filter_eq_none_iff, Vacant]
  cases environment.lookup name <;> simp

theorem integer_ok_iff (standard value : Nat) :
    environment.integer name standard = .ok value ↔
      environment.Vacant name ∧ value = standard ∨
        ∃ text, environment.Filled name text ∧ Counts text value := by
  simp only [← filled_eq_none, ← filled_eq_some, ← Numeral.counts_iff, integer]
  cases environment.filled name with
  | none => simp [eq_comm]
  | some text =>
      simp only [Option.some.injEq, exists_eq_left']
      generalize (Numeral.read text).bind Number.positiveInteger? = counted
      cases counted <;> simp

theorem integer_pos {standard value : Nat} (positive : 0 < standard)
    (reads : environment.integer name standard = .ok value) : 0 < value := by
  rcases (integer_ok_iff standard value).mp reads with ⟨_, rfl⟩ | ⟨_, _, positive', _⟩
  · exact positive
  · exact positive'

theorem integer_error_iff (standard : Nat) (fault : SettingsError) :
    environment.integer name standard = .error fault ↔
      ∃ text, environment.Filled name text ∧ (∀ value, ¬Counts text value) ∧
        fault = .notPositiveInteger name text := by
  simp only [← filled_eq_some, ← Numeral.counts_iff, integer]
  cases environment.filled name with
  | none => simp
  | some text =>
      simp only [Option.some.injEq, exists_eq_left']
      generalize (Numeral.read text).bind Number.positiveInteger? = counted
      cases counted <;> simp [eq_comm]

theorem required_ok_iff (value : String) :
    environment.required name = .ok value ↔ environment.Filled name value := by
  rw [← filled_eq_some, required]
  cases environment.filled name <;> simp

theorem required_error_iff (fault : SettingsError) :
    environment.required name = .error fault ↔ environment.Vacant name ∧ fault = .missing name := by
  rw [← filled_eq_none, required]
  cases environment.filled name <;> simp [eq_comm]

theorem port_eq : environment.port =
    match environment.integer "IMAP_PORT" 10000 with
    | .error fault => .error fault
    | .ok port => if 65535 < port then .error (.portTooLarge port) else .ok port := by
  rw [Environment.port]
  cases environment.integer "IMAP_PORT" 10000 <;> rfl

theorem port_ok_iff (port : Nat) :
    environment.port = .ok port ↔
      environment.integer "IMAP_PORT" 10000 = .ok port ∧ port ≤ 65535 := by
  rw [port_eq]
  cases environment.integer "IMAP_PORT" 10000 with
  | error fault => simp
  | ok read =>
      dsimp only
      split_ifs with large
      · simp only [Except.ok.injEq, false_iff, not_and]
        omega
      · simp only [Except.ok.injEq]
        omega

theorem port_error_iff (fault : SettingsError) :
    environment.port = .error fault ↔
      environment.integer "IMAP_PORT" 10000 = .error fault ∨
        ∃ port, environment.integer "IMAP_PORT" 10000 = .ok port ∧ 65535 < port ∧
          fault = .portTooLarge port := by
  rw [port_eq]
  cases environment.integer "IMAP_PORT" 10000 with
  | error fault => simp
  | ok read =>
      dsimp only
      split_ifs with large <;> simp [large, eq_comm]

/-! ## What is required -/

inductive Requirement where
  | port
  | user
  | password
  | timeout
deriving DecidableEq

namespace Requirement

def order : List Requirement := [.port, .user, .password, .timeout]

def subject : Requirement → String
  | .port => "IMAP_PORT"
  | .user => "IMAP_USER"
  | .password => "IMAP_PASS"
  | .timeout => "IMAP_TIMEOUT_MS"

end Requirement

/-- How an environment misses a requirement, and the fault that tells so. A port or a time may be left
open, but one that is given has to be a positive integer, and a port has an upper limit. -/
inductive Violates (environment : Environment) : Requirement → SettingsError → Prop where
  | portUnread {text : String} (given : environment.Filled "IMAP_PORT" text)
      (other : ∀ value, ¬Counts text value) :
      Violates environment .port (.notPositiveInteger "IMAP_PORT" text)
  | portTooLarge {text : String} {port : Nat} (given : environment.Filled "IMAP_PORT" text)
      (counts : Counts text port) (large : 65535 < port) :
      Violates environment .port (.portTooLarge port)
  | userMissing (vacant : environment.Vacant "IMAP_USER") :
      Violates environment .user (.missing "IMAP_USER")
  | passwordMissing (vacant : environment.Vacant "IMAP_PASS") :
      Violates environment .password (.missing "IMAP_PASS")
  | timeoutUnread {text : String} (given : environment.Filled "IMAP_TIMEOUT_MS" text)
      (other : ∀ value, ¬Counts text value) :
      Violates environment .timeout (.notPositiveInteger "IMAP_TIMEOUT_MS" text)

def FirstFault (environment : Environment) (fault : SettingsError) : Prop :=
  ∃ front requirement back, Requirement.order = front ++ requirement :: back ∧
    environment.Violates requirement fault ∧
    ∀ earlier ∈ front, ∀ other, ¬environment.Violates earlier other

def faultOf {α : Type} : Except SettingsError α → Option SettingsError
  | .error fault => some fault
  | .ok _ => none

def fault? (environment : Environment) : Requirement → Option SettingsError
  | .port => faultOf environment.port
  | .user => faultOf (environment.required "IMAP_USER")
  | .password => faultOf (environment.required "IMAP_PASS")
  | .timeout => faultOf (environment.integer "IMAP_TIMEOUT_MS" 30000)

theorem faultOf_eq_some {α : Type} {result : Except SettingsError α} (fault : SettingsError) :
    faultOf result = some fault ↔ result = .error fault := by
  cases result <;> simp [faultOf]

theorem fault?_iff (requirement : Requirement) (fault : SettingsError) :
    environment.fault? requirement = some fault ↔ environment.Violates requirement fault := by
  cases requirement with
  | port =>
      rw [fault?, faultOf_eq_some, port_error_iff, integer_error_iff]
      simp only [integer_ok_iff]
      constructor
      · rintro (⟨text, given, other, rfl⟩ | ⟨port, ⟨_, rfl⟩ | ⟨text, given, counts⟩, large, rfl⟩)
        · exact .portUnread given other
        · omega
        · exact .portTooLarge given counts large
      · intro violated
        cases violated with
        | portUnread given other => exact .inl ⟨_, given, other, rfl⟩
        | portTooLarge given counts large =>
            exact .inr ⟨_, .inr ⟨_, given, counts⟩, large, rfl⟩
  | user =>
      rw [fault?, faultOf_eq_some, required_error_iff]
      constructor
      · rintro ⟨vacant, rfl⟩
        exact .userMissing vacant
      · intro violated
        cases violated with
        | userMissing vacant => exact ⟨vacant, rfl⟩
  | password =>
      rw [fault?, faultOf_eq_some, required_error_iff]
      constructor
      · rintro ⟨vacant, rfl⟩
        exact .passwordMissing vacant
      · intro violated
        cases violated with
        | passwordMissing vacant => exact ⟨vacant, rfl⟩
  | timeout =>
      rw [fault?, faultOf_eq_some, integer_error_iff]
      constructor
      · rintro ⟨text, given, other, rfl⟩
        exact .timeoutUnread given other
      · intro violated
        cases violated with
        | timeoutUnread given other => exact ⟨_, given, other, rfl⟩

theorem settings_error_iff (fault : SettingsError) :
    environment.settings = .error fault ↔
      Requirement.order.findSome? environment.fault? = some fault := by
  unfold settings Requirement.order
  simp only [List.findSome?, fault?]
  -- The checks are made in the order of the requirements, and the first that fails ends them.
  cases environment.port with
  | error fault => simp [faultOf, Bind.bind, Except.bind]
  | ok port =>
  cases environment.required "IMAP_USER" with
  | error fault => simp [faultOf, Bind.bind, Except.bind]
  | ok email =>
  cases environment.required "IMAP_PASS" with
  | error fault => simp [faultOf, Bind.bind, Except.bind]
  | ok password =>
  cases environment.integer "IMAP_TIMEOUT_MS" 30000 with
  | error fault => simp [faultOf, Bind.bind, Except.bind]
  | ok timeout => simp [faultOf, Bind.bind, Except.bind, Pure.pure, Except.pure]

theorem settings_ok {settings : Settings} (accepted : environment.settings = .ok settings) :
    ∃ timeout : Nat,
      environment.port = .ok settings.port ∧
        environment.required "IMAP_USER" = .ok settings.email ∧
        environment.required "IMAP_PASS" = .ok settings.password ∧
        environment.integer "IMAP_TIMEOUT_MS" 30000 = .ok timeout ∧
        settings =
          { host := (environment.filled "IMAP_HOST").getD "127.0.0.1"
            port := settings.port
            email := settings.email
            password := settings.password
            mailbox := some ((environment.filled "IMAP_MAILBOX").getD "INBOX")
            lockFile := environment.lockFile
            fetch := ⟨environment.filled "IMAP_FETCH_SET", environment.filled "IMAP_FETCH_ITEM"⟩
            markers := default
            timeout := some (.finite timeout)
            echo := .standardOutput
            logging := ⟨environment.logs, false, false⟩ } := by
  obtain ⟨port, reads, accepted⟩ := ok_of_bind accepted
  obtain ⟨email, reads', accepted⟩ := ok_of_bind accepted
  obtain ⟨password, reads'', accepted⟩ := ok_of_bind accepted
  obtain ⟨timeout, waits, accepted⟩ := ok_of_bind accepted
  cases accepted
  exact ⟨timeout, reads, reads', reads'', waits, rfl⟩

/-! ## What is accepted -/

theorem lockFile_filled : environment.lockFile = .skip ∨
    ∃ path, environment.lockFile = .path path ∧ path ≠ "" := by
  unfold lockFile
  split
  · exact .inr ⟨_, rfl, by decide⟩
  · next path given =>
      split
      · exact .inl rfl
      · next filled => exact .inr ⟨path, rfl, by simpa using filled⟩

theorem ne_empty_of_filled {text : String} (filled : environment.filled name = some text) : text ≠ "" :=
  ((filled_eq_some text).mp filled).2

theorem getD_filled_ne_empty {standard : String} (proper : standard ≠ "") :
    (environment.filled name).getD standard ≠ "" := by
  cases filled : environment.filled name with
  | none => exact proper
  | some text => exact ne_empty_of_filled filled

/-- Settings that two environments give have a part in common wherever its variable is the same in
both, whatever the other variables are. -/
structure Separate (first second : Environment) (settings settings' : Settings) : Prop where
  host : first.lookup "IMAP_HOST" = second.lookup "IMAP_HOST" → settings.host = settings'.host
  port : first.lookup "IMAP_PORT" = second.lookup "IMAP_PORT" → settings.port = settings'.port
  email : first.lookup "IMAP_USER" = second.lookup "IMAP_USER" → settings.email = settings'.email
  password : first.lookup "IMAP_PASS" = second.lookup "IMAP_PASS" →
    settings.password = settings'.password
  mailbox : first.lookup "IMAP_MAILBOX" = second.lookup "IMAP_MAILBOX" →
    settings.mailbox = settings'.mailbox
  lockFile : first.lookup "IMAP_LOCK_PATH" = second.lookup "IMAP_LOCK_PATH" →
    settings.lockFile = settings'.lockFile
  sequence : first.lookup "IMAP_FETCH_SET" = second.lookup "IMAP_FETCH_SET" →
    settings.fetch.sequence = settings'.fetch.sequence
  item : first.lookup "IMAP_FETCH_ITEM" = second.lookup "IMAP_FETCH_ITEM" →
    settings.fetch.item = settings'.fetch.item
  timeout : first.lookup "IMAP_TIMEOUT_MS" = second.lookup "IMAP_TIMEOUT_MS" →
    settings.timeout = settings'.timeout
  logging : first.lookup "IMAP_DEBUG" = second.lookup "IMAP_DEBUG" →
    settings.logging = settings'.logging
  markers : settings.markers = settings'.markers
  echo : settings.echo = settings'.echo

theorem wellFormed_settings {settings : Settings} (accepted : environment.settings = .ok settings) :
    settings.WellFormed := by
  obtain ⟨timeout, port, email, password, length, parts⟩ := settings_ok accepted
  obtain ⟨port, most⟩ := (port_ok_iff _).mp port
  refine ⟨?_, ⟨integer_pos (by decide) port, most⟩, ((required_ok_iff _).mp email).2,
    ((required_ok_iff _).mp password).2, ?_, ?_, ?_, ?_, timeout,
    integer_pos (by decide) length, ?_⟩
  all_goals rw [parts]
  · exact getD_filled_ne_empty (by decide)
  · exact ⟨_, rfl, getD_filled_ne_empty (by decide)⟩
  · exact lockFile_filled
  · exact fun empty => ne_empty_of_filled empty rfl
  · exact fun empty => ne_empty_of_filled empty rfl

theorem filled_congr {first second : Environment} (same : first.lookup name = second.lookup name) :
    first.filled name = second.filled name := by
  rw [filled, filled, same]

theorem integer_congr {first second : Environment} (same : first.lookup name = second.lookup name)
    (standard : Nat) : first.integer name standard = second.integer name standard := by
  rw [integer, integer, filled_congr same]

theorem required_congr {first second : Environment} (same : first.lookup name = second.lookup name) :
    first.required name = second.required name := by
  rw [required, required, filled_congr same]

theorem separate_settings {first second : Environment} {settings settings' : Settings}
    (accepted : first.settings = .ok settings) (accepted' : second.settings = .ok settings') :
    Separate first second settings settings' := by
  obtain ⟨timeout, port, email, password, length, parts⟩ := settings_ok accepted
  obtain ⟨timeout', port', email', password', length', parts'⟩ := settings_ok accepted'
  constructor
  case port =>
    intro same
    rw [port_eq, integer_congr same, ← port_eq, port'] at port
    exact (Except.ok.inj port).symm
  case email =>
    intro same
    rw [required_congr same, email'] at email
    exact (Except.ok.inj email).symm
  case password =>
    intro same
    rw [required_congr same, password'] at password
    exact (Except.ok.inj password).symm
  case timeout =>
    intro same
    rw [integer_congr same, length'] at length
    rw [parts, parts', Except.ok.inj length]
  all_goals rw [parts, parts']
  all_goals dsimp only
  case host => exact fun same => by rw [filled_congr same]
  case mailbox => exact fun same => by rw [filled_congr same]
  case lockFile => exact fun same => by rw [lockFile, lockFile, same]
  case sequence => exact filled_congr
  case item => exact filled_congr
  case logging => exact fun same => by rw [logs, logs, same]

/-! ## Faults -/

theorem message_violates {requirement : Requirement} {fault : SettingsError}
    (violated : environment.Violates requirement fault) :
    ∃ rest, fault.message = requirement.subject ++ rest := by
  have unread : ∀ name text, (SettingsError.notPositiveInteger name text).message =
      name ++ (" must be a positive integer, got \"" ++ (text ++ "\"")) := by
    intro name text
    change name ++ " must be a positive integer, got \"" ++ text ++ "\"" = _
    rw [String.append_assoc, String.append_assoc]
  have opening : "IMAP_PORT must be at most 65535, got " =
      "IMAP_PORT" ++ " must be at most 65535, got " := by decide
  cases violated with
  | portUnread => exact ⟨_, unread _ _⟩
  | @portTooLarge text port =>
      refine ⟨" must be at most 65535, got " ++ (Number.ofNat port).text, ?_⟩
      change "IMAP_PORT must be at most 65535, got " ++ _ = "IMAP_PORT" ++ _
      rw [opening, String.append_assoc]
  | userMissing => exact ⟨" is not set", rfl⟩
  | passwordMissing => exact ⟨" is not set", rfl⟩
  | timeoutUnread => exact ⟨_, unread _ _⟩

theorem fault?_eq_none (requirement : Requirement) :
    environment.fault? requirement = none ↔ ∀ fault, ¬environment.Violates requirement fault := by
  rw [Option.eq_none_iff_forall_ne_some]
  exact forall_congr' fun fault => not_congr (fault?_iff requirement fault)

theorem settings_error_iff_firstFault (fault : SettingsError) :
    environment.settings = .error fault ↔ environment.FirstFault fault := by
  rw [settings_error_iff, List.findSome?_eq_some_iff, FirstFault]
  simp only [fault?_iff, fault?_eq_none]

theorem settings_ok_iff (environment : Environment) :
    (∃ settings, environment.settings = .ok settings) ↔
      ∀ requirement fault, ¬environment.Violates requirement fault := by
  have every : ∀ requirement, requirement ∈ Requirement.order := by
    intro requirement
    cases requirement <;> decide
  have unfaulted : (∃ settings, environment.settings = .ok settings) ↔
      ∀ fault, environment.settings ≠ .error fault := by
    cases environment.settings <;> simp
  simp only [unfaulted, ne_eq, settings_error_iff, ← Option.eq_none_iff_forall_ne_some,
    List.findSome?_eq_none_iff, every, forall_const, fault?_eq_none]

/-- Bad environments are refused, and no others. The fault is that of the first requirement that is
missed and begins with its variable; what is accepted are well-formed settings, with each part from
its own variable. -/
theorem bad_environments_are_refused (environment : Environment) :
    (∀ fault, environment.settings = .error fault ↔ environment.FirstFault fault) ∧
      ((∃ settings, environment.settings = .ok settings) ↔
        ∀ requirement fault, ¬environment.Violates requirement fault) ∧
      (∀ requirement fault, environment.Violates requirement fault →
        ∃ rest, fault.message = requirement.subject ++ rest) ∧
      ∀ settings, environment.settings = .ok settings →
        settings.WellFormed ∧
          ∀ other settings', other.settings = .ok settings' →
            Separate environment other settings settings' :=
  ⟨settings_error_iff_firstFault, settings_ok_iff environment, fun _ _ => message_violates,
    fun _ accepted => ⟨wellFormed_settings accepted, fun _ _ => separate_settings accepted⟩⟩

end Environment

end ImapDialogue

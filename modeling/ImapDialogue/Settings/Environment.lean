import ImapDialogue.Settings.Basic
import ImapDialogue.Number.Numeral

/-!
Settings from environment variables. An empty variable counts as an absent one, except that
an empty lock path means that no lock file is removed. Faults are looked for in a fixed
order: port, user, password, timeout.
-/

namespace ImapDialogue

/-- Variables and their values. Of two values for one name the first counts. -/
structure Environment where
  entries : List (String × String)
deriving DecidableEq, Repr

inductive SettingsError where
  | notPositiveInteger (name value : String)
  | portTooLarge (port : Nat)
  | missing (name : String)
  | other (message : String)
deriving DecidableEq, Repr

/-- The text of a fault. A port beyond double precision is shown as the nearest number. -/
def SettingsError.message : SettingsError → String
  | .notPositiveInteger name value => name ++ " must be a positive integer, got \"" ++ value ++ "\""
  | .portTooLarge port => "IMAP_PORT must be at most 65535, got " ++ (Number.ofNat port).text
  | .missing name => name ++ " is not set"
  | .other message => message

namespace Environment

def names : List String :=
  ["IMAP_HOST", "IMAP_PORT", "IMAP_USER", "IMAP_PASS", "IMAP_MAILBOX", "IMAP_LOCK_PATH",
    "IMAP_FETCH_SET", "IMAP_FETCH_ITEM", "IMAP_TIMEOUT_MS", "IMAP_DEBUG"]

def lookup (environment : Environment) (name : String) : Option String :=
  environment.entries.lookup name

def filled (environment : Environment) (name : String) : Option String :=
  (environment.lookup name).filter (!·.isEmpty)

def integer (environment : Environment) (name : String) (standard : Nat) :
    Except SettingsError Nat :=
  match environment.filled name with
  | none => .ok standard
  | some text =>
      match (Numeral.read text).bind Number.positiveInteger? with
      | some value => .ok value
      | none => .error (.notPositiveInteger name text)

def required (environment : Environment) (name : String) : Except SettingsError String :=
  match environment.filled name with
  | some value => .ok value
  | none => .error (.missing name)

def port (environment : Environment) : Except SettingsError Nat := do
  let port ← environment.integer "IMAP_PORT" 10000
  if 65535 < port then .error (.portTooLarge port) else .ok port

/-- The lock file's place: an absent variable leaves the standard one, an empty one turns
removal off. -/
def lockFile (environment : Environment) : LockFile :=
  match environment.lookup "IMAP_LOCK_PATH" with
  | none => .path Settings.standardLockPath
  | some path => if path.isEmpty then .skip else .path path

def logs (environment : Environment) : Bool :=
  environment.lookup "IMAP_DEBUG" == some "1" || environment.lookup "IMAP_DEBUG" == some "true"

def settings (environment : Environment) : Except SettingsError Settings := do
  let port ← environment.port
  let email ← environment.required "IMAP_USER"
  let password ← environment.required "IMAP_PASS"
  let timeout ← environment.integer "IMAP_TIMEOUT_MS" 30000
  return {
    host := (environment.filled "IMAP_HOST").getD "127.0.0.1"
    port := port
    email := email
    password := password
    mailbox := some ((environment.filled "IMAP_MAILBOX").getD "INBOX")
    lockFile := environment.lockFile
    fetch := ⟨environment.filled "IMAP_FETCH_SET", environment.filled "IMAP_FETCH_ITEM"⟩
    markers := default
    timeout := some (.finite timeout)
    echo := .standardOutput
    logging := ⟨environment.logs, false, false⟩ }

end Environment

end ImapDialogue

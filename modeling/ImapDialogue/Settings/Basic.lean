import ImapDialogue.Number.Decimal

/-!
What a dialogue is told before it starts. Every part but the server's address and the
credentials may be left open; the parts that use an open one say what stands for it.
-/

namespace ImapDialogue

inductive LockFile where
  | standard
  | skip
  | path (path : String)
deriving DecidableEq, Repr

inductive Echo where
  | standardOutput
  | stream
  | off
deriving DecidableEq, Repr

structure FetchRequest where
  sequence : Option String
  item : Option String
deriving DecidableEq, Repr, Inhabited

structure Markers where
  login : Option String
  select : Option String
  fetch : Option String
deriving DecidableEq, Repr, Inhabited

structure Logging where
  enabled : Bool
  traffic : Bool
  ownLogger : Bool
deriving DecidableEq, Repr, Inhabited

structure Settings where
  host : String
  port : Nat
  email : String
  password : String
  mailbox : Option String
  lockFile : LockFile
  fetch : FetchRequest
  markers : Markers
  timeout : Option Number
  echo : Echo
  logging : Logging
deriving DecidableEq, Repr

/-- Settings that replace loaded ones, part by part. -/
structure Overrides where
  host : Option String
  port : Option Nat
  email : Option String
  password : Option String
  mailbox : Option String
  lockFile : Option LockFile
  fetch : Option FetchRequest
  markers : Option Markers
  timeout : Option Number
  echo : Option Echo
  logging : Option Logging
deriving DecidableEq, Repr, Inhabited

namespace Settings

def standardLockPath : String := "../maildir/.lock"

/-- Each part that the overrides name replaces the loaded one as a whole. -/
def override (settings : Settings) (overrides : Overrides) : Settings where
  host := overrides.host.getD settings.host
  port := overrides.port.getD settings.port
  email := overrides.email.getD settings.email
  password := overrides.password.getD settings.password
  mailbox := overrides.mailbox.or settings.mailbox
  lockFile := overrides.lockFile.getD settings.lockFile
  fetch := overrides.fetch.getD settings.fetch
  markers := overrides.markers.getD settings.markers
  timeout := overrides.timeout.or settings.timeout
  echo := overrides.echo.getD settings.echo
  logging := overrides.logging.getD settings.logging

end Settings

end ImapDialogue

import ImapDialogue.Session.Basic
import ImapDialogue.Settings.EnvironmentFile

/-!
The program around a session: settings come from the environment, a summary is printed, and
the exit code tells whether the session succeeded.
-/

namespace ImapDialogue

structure ProgramRun where
  exitCode : Nat
  session : Option Session
  files : FileTree
  log : List LogEntry

namespace ProgramRun

variable [Mail.Reader]

def summary (report : SessionReport) : List LogEntry :=
  (Notice.summary report.records.length report.mails.length :: report.mails.map .mail).map
    (⟨.consoleOutput, ·⟩)

def complaint (message : String) : LogEntry := ⟨.consoleErrors, .sessionFailed message⟩

def ofSession (session : Session) : ProgramRun :=
  match session.result with
  | .ok report => ⟨0, some session, session.files, session.log ++ summary report⟩
  | .error failure => ⟨1, some session, session.files, session.log ++ [complaint failure.message]⟩

/-- Runs the program in an environment, with settings that replace loaded ones. -/
def run (environment : Environment) (overrides : Overrides) (surroundings : Surroundings) :
    ProgramRun :=
  match environment.settings with
  | .error error => ⟨1, none, surroundings.files, [complaint error.message]⟩
  | .ok settings => ofSession (Session.run (settings.override overrides) surroundings)

def environmentFile : String := ".env"

/-- Runs the program as it runs from a command line: variables that the environment leaves
open are taken from the environment file, if there is one. -/
def launch (environment : Environment) (surroundings : Surroundings) : ProgramRun :=
  let completed := match surroundings.files.read? surroundings.directory environmentFile with
    | some content => environment.completeFrom content
    | none => environment
  run completed default surroundings

end ProgramRun

end ImapDialogue

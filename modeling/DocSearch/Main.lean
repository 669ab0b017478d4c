import DocSearch.Admin.Command

/-!
# The command line

Reads the settings, the environment and the files that a command needs, and prints its report.  All
that is done outside the program is done here; what is printed is a `Report`, computed from the
texts that were read.  A schema file that cannot be read is an error, a missing file of entities is
an empty one.
-/

namespace DocSearch.CommandLine

/-- The text of `file`, and `missing` if there is none. -/
def fileText (file : String) (missing : Except Failure String) : IO (Except Failure String) := do
  try
    pure (.ok (← IO.FS.readFile file))
  catch e =>
    match e with
    | .noFileOrDirectory .. => pure (missing.mapError fun _ => .io (toString e))
    | _ => pure (.error (.io (toString e)))

/-- The variables of `Settings.variableNames` that are set. -/
def setVariables : IO (List (String × String)) :=
  Settings.variableNames.filterMapM fun name => do pure ((← IO.getEnv name).map (name, ·))

/-- The settings that a command runs with: `Settings.standard`, or those of a file with the
environment over it. -/
def currentSettings : Option String → IO (Except Failure Settings)
  | none => pure (.ok Settings.standard)
  | some file => do
    let text ← fileText file (.error (.io ""))
    let environment ← setVariables
    pure (text.bind fun text => Settings.load text environment)

/-- The report of a command under `settings`. -/
def report (settings : Settings) : Command → IO Report
  | .checkSchema file => do
    let body ← fileText file (.error (.io ""))
    pure (.ofExcept (body.map Report.checkSchema))
  | .query statement offset limit => do
    let entities ← fileText settings.entityFile (.ok "[]")
    pure (.ofExcept (entities.map fun text => .ofQuery settings text statement offset limit))
  | .stats => do
    let entities ← fileText settings.entityFile (.ok "[]")
    pure (.ofExcept (entities.map (Report.ofStats settings)))

/-- The report of the invocation `i`, which needs a known log format. -/
def reportOf (i : Invocation) : IO Report := do
  match ← currentSettings i.config with
  | .error e => pure (.failed e)
  | .ok settings =>
    match LogFormat.ofLabel settings.logFormat with
    | .error e => pure (.failed e)
    | .ok _ => report settings i.command

end DocSearch.CommandLine

/-- Runs the command that the arguments `args` state, and exits as its report says. -/
def main (args : List String) : IO UInt32 := do
  match DocSearch.Invocation.ofArguments? args with
  | none =>
    (← IO.getStderr).putStr DocSearch.Command.usage
    pure 2
  | some i => do
    let r ← DocSearch.CommandLine.reportOf i
    (← IO.getStdout).putStr r.stdout
    (← IO.getStderr).putStr r.stderr
    pure (UInt32.ofNat r.exitCode)

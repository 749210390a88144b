import Handover.CommandLine
import Handover.Config.Load
import Handover.Demo
import Handover.Json.Printer
import Handover.Session.Wire

/-!
# What the commands print

Results go to the output, notices and errors to the other channel. The exit code is 0 for results and help,
1 for failures and 2 for a command line that says nothing to do.
-/

namespace Handover

structure Output where
  out : String := ""
  err : String := ""
  code : UInt32 := 0
  deriving DecidableEq, Repr

namespace Output

def usage : String :=
  String.join <| List.map (· ++ "\n") [
    "Agent registry and hot-swap coordinator", "", "Usage: orchestrator <COMMAND>", "", "Commands:",
    "  demo [--dead-replacement] [--timeout-secs <SECONDS>]",
    "      Swap agent-v1 for agent-v2 in-process and print the session",
    "  config [-d, --dir <DIR>]",
    "      Load, validate and print the configuration",
    "  help",
    "      Print this text"]

def reason : UsageError → String
  | .unknownCommand => "unrecognized subcommand"
  | .unknownWord => "unexpected argument"
  | .missingValue => "a value is required"
  | .badValue => "invalid value"
  | .surplusValue => "an option takes no value"
  | .repeated => "an option cannot be used multiple times"
  | .nothingAsked | .help | .version => ""

def ofUsageError : UsageError → Output
  | .help => { out := usage }
  | .version => { out := "orchestrator 0.1.0\n" }
  | .nothingAsked => { err := usage, code := 2 }
  | e => { err := s!"error: {reason e}\n\n" ++ usage, code := 2 }

/-- A failure and what caused it. -/
def ofFailure (what : String) (cause : Error) : Output :=
  { err := s!"Error: {what}\n\nCaused by:\n    {cause.text}\n", code := 1 }

/-- The session of a demonstration. One that cannot be configured runs with the defaults. -/
def ofDemo (loaded : Except Error Config) (supply : Rehearsal.Supply) (dead : Bool) (seconds : Nat) :
    Output :=
  let (config, notice) := match loaded with
    | .ok c => (c, "")
    | .error e => ({}, s!"Warning: using default configuration ({e.text})\n")
  let problems := config.problems
  if problems.isEmpty then
    match Demo.run supply config dead (seconds * 1000) with
    | .ok (session, _) => { out := session.encode.pretty ++ "\n", err := notice }
    | .error e =>
      let o := ofFailure "demo swap did not start" e
      { o with err := notice ++ o.err }
  else
    { err := notice ++ s!"Error: invalid configuration ({problems.length} problem(s))\n", code := 1 }

/-- The configuration of a directory, if its values make sense. -/
def ofConfig (dir : String) (checked : Except Error Config) : Output :=
  match checked with
  | .ok c => { out := c.encode.pretty ++ "\n" }
  | .error e => ofFailure s!"failed to load configuration from {dir}" e

end Output
end Handover

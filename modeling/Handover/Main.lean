import Handover.Output
import Handover.Text.Ident
import Std.Time.DateTime.Timestamp

/-!
# The program

Reads the command line, the variables and the files of the configuration, and prints what comes of them. A
demonstration starts at the time of day; its waits take no time.
-/

open Handover

def readFile? (path : String) : IO (Option String) := do
  try return some (← IO.FS.readFile path)
  catch _ => return none

def readVariables (names : List String) : IO (List (String × String)) :=
  names.filterMapM fun name => return (← IO.getEnv name).map fun value => (name, value)

/-- The sources of the configuration in a directory. -/
def readSources (dir : String) : IO ConfigSources := do
  let vars ← readVariables (ConfigSources.environmentVariable :: Config.variableNames)
  let sources : ConfigSources := { vars }
  let files ← sources.fileNames.filterMapM fun name => do
    return (← readFile? s!"{dir}/{name}").map fun text => (name, text)
  return { sources with files }

/-- Time from now on, a nanosecond for each reading, and ids counted up from a random one. -/
def newSupply : IO Rehearsal.Supply := do
  let now := (← Std.Time.Timestamp.now).toNanosecondsSinceUnixEpoch.val
  let seed := (← IO.getRandomBytes 16).foldl (fun n b => n * 256 + b.toNat) 0
  let time (n : Nat) : Instant :=
    let nanos := now + n
    ⟨nanos.fdiv billion, (nanos.fmod billion).toNat⟩
  return { time, messageId := fun n => Ident.ofNat (seed + 2 * n), sessionId := fun n => Ident.ofNat (seed + 2 * n + 1) }

def perform (words : List String) : IO Output := do
  let usual := (← IO.getEnv "ORCH_CONFIG_DIR").getD CommandLine.configDir
  match CommandLine.parse usual words with
  | .error e => return .ofUsageError e
  | .ok (.config dir) => return .ofConfig dir (Config.loadValid (← readSources dir))
  | .ok (.demo dead seconds) =>
    let loaded := Config.load (← readSources CommandLine.configDir)
    return .ofDemo loaded (← newSupply) dead seconds

def main (words : List String) : IO UInt32 := do
  let o ← perform words
  IO.eprint o.err
  IO.print o.out
  return o.code

import Handover.Rehearsal.Scheduler

/-!
# A demonstration

An agent with some work behind it hands over to its successor, on a bus and a store of their own. Without a
runtime for the successor the swap is taken back.
-/

namespace Handover
namespace Demo
open Rehearsal

def oldName : String := "agent-v1"

def newName : String := "agent-v2"

def oldState (now : Instant) : AgentState :=
  let task : AgentTask :=
    { id := "task-1", taskType := "analyze", priority := 1, createdAt := now
      payload := .obj [("symbol", .str "BTCUSDT")] }
  let state : AgentState :=
    { metrics :=
        { total := 42, successful := 40, failed := 2
          realizedPnl := .make false 12540 2
          avgLatencyMs := .ofDecimal false 85 (-1) } }
  state.withMemory "last_price" (.float (Double.ofInt 50000))
    |>.withMemory "regime" (.obj [("trend", .str "up")])
    |>.withPending task
    |>.withConfiguration "ema_fast" (.int 12)

def oldAgent (now : Instant) : Registration :=
  { Registration.new oldName "technical" now with
    version := "1.0.0"
    capabilities := ["trend", "momentum"]
    state := oldState now }

def changes : Table Json :=
  .ofList [("version", .str "2.0.0"), ("improved_algorithm", .bool true)]

/-- The steps of the demonstration, none of which waits for the others to come to rest. -/
def script (config : Config) (dead : Bool) (timeoutMs : Nat) (now : Instant) : List Cue :=
  let steps : List Step :=
    [.coordinator "" (.new config (some ⟨config.blackboard.keyPrefix⟩)),
      .runtime (.start oldName oldName)]
      ++ (if dead then [] else [.runtime (.start newName newName)])
      ++ [.context (.new "" (some timeoutMs)), .coordinator "" (.register (some "") (oldAgent now)),
        .coordinator "" (.swap (some "") oldName newName changes), .coordinator "" .flush]
  steps.map fun step => { step, settle := false }

/-- The session of the swap, however it ended, or what kept it from starting. -/
def session? : List Report → Except Error Session
  | [] => .error (.other "no swap was started")
  | r :: rest =>
    match r.answer with
    | .ok (.session s) | .swapFailed _ (some s) => .ok s
    | .failed e | .swapFailed e none => .error e
    | .ok _ => session? rest

def turns : Nat := 1000000

/-- Runs the demonstration, and says how many milliseconds it took. -/
def run (supply : Supply) (config : Config) (dead : Bool) (timeoutMs : Nat) :
    Except Error (Session × Nat) := do
  let later := { supply with time := fun n => supply.time (n + 1) }
  let reports := rehearse turns later config.bus (script config dead timeoutMs (supply.time 0))
  return (← session? reports, reports.foldl (fun total r => total + r.millis) 0)

end Demo
end Handover

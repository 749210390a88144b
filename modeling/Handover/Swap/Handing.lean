import Handover.Agent.Registration

/-!
# What a successor takes over

The successor is registered with the kind, version and capabilities of the agent it replaces, unless the
configuration of the swap says otherwise, and gets the captured state later.
-/

namespace Handover
namespace Swap

/-- The keys of a swap's configuration that go into the registration and not into the state. -/
def reservedKeys : List String := ["type", "version", "capabilities"]

def textOr (fallback : String) (changes : Table Json) (key : String) : String :=
  ((changes.get? key).bind Json.text?).getD fallback

/-- The registration of the successor, without state. -/
def successor (old : Registration) (newName : String) (changes : Table Json) (now : Instant) :
    Registration :=
  { Registration.new newName (textOr old.agentType changes "type") now with
    version := textOr old.version changes "version"
    capabilities := match (changes.get? "capabilities").bind Json.items? with
      | some items => items.filterMap Json.text?
      | none => old.capabilities }

def captureEntry (session newName : String) (now : Instant) : HistoryEntry :=
  ({ timestamp := now, event := "hot_swap_capture" } : HistoryEntry)
    |>.withDetail "swap_id" (.str session) |>.withDetail "successor" (.str newName)

def transferEntry (session oldName : String) (now : Instant) : HistoryEntry :=
  ({ timestamp := now, event := "hot_swap_transfer" } : HistoryEntry)
    |>.withDetail "swap_id" (.str session) |>.withDetail "predecessor" (.str oldName)

/-- A configuration with the keys of the swap's that are not reserved laid over it. -/
def overlay (configuration changes : Table Json) : Table Json :=
  changes.foldl (fun t e => if e.1 ∈ reservedKeys then t else t.insert e.1 e.2) configuration

/-- The state that the successor gets. -/
def handed (snapshot : AgentState) (changes : Table Json) (session oldName : String) (now : Instant) :
    AgentState :=
  { snapshot with configuration := overlay snapshot.configuration changes }
    |>.recordHistory (transferEntry session oldName now)

end Swap
end Handover

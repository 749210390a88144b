import Handover.Json.Decode

/-!
# Errors
-/

namespace Handover

/-- Why a configuration could not be had. -/
inductive ConfigError where
  /-- A value that cannot be converted to the type of its key. -/
  | wrongType (text : String)
  | unreadable (text : String)
  | message (text : String)
  deriving DecidableEq, Repr

namespace ConfigError

def text : ConfigError → String
  | wrongType t | unreadable t | message t => t

end ConfigError

inductive Error where
  | config (why : ConfigError)
  | notFound (what : String)
  | validation (what : String)
  | communication (what : String)
  | timeout (subject : String) (millis : Nat)
  | store (what : String)
  | json (why : Fault)
  | transition (source target : String)
  | internal (what : String)
  | cancelled
  | deadlineExceeded
  | other (what : String)
  deriving DecidableEq, Repr

namespace Error

def text : Error → String
  | config why => s!"Configuration error: {why.text}"
  | notFound what => what
  | validation what => s!"Validation failed: {what}"
  | communication what => s!"Communication error: {what}"
  | timeout subject millis => s!"Request to {subject} timed out after {millis}ms"
  | store what => s!"Store error: {what}"
  | json why => s!"JSON serialization error: {why.text}"
  | transition source target => s!"Invalid state transition: from {source} to {target}"
  | internal what => s!"Internal error: {what}"
  | cancelled => "Operation cancelled"
  | deadlineExceeded => "Deadline exceeded"
  | other what => what

def isNotFound : Error → Bool
  | notFound _ => true
  | _ => false

/-- Failed deliveries and replies that did not come in time. -/
def isCommunication : Error → Bool
  | communication _ | timeout .. => true
  | _ => false

def agentMissing (name : String) : Error := .notFound s!"agent not found: {name}"

def sessionMissing (id : String) : Error := .notFound s!"swap session not found: {id}"

end Error
end Handover

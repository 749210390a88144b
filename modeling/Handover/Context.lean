import Handover.Error

/-!
# Contexts of operations

A context carries a cancellation token and perhaps a deadline. Tokens form a tree: cancelling one cancels
those below it. Moments are nanoseconds of a clock that only goes forward.
-/

namespace Handover

abbrev Moment := Nat

def millis (n : Nat) : Nat := n * 1000000

def wholeMillis (nanos : Nat) : Nat := nanos / 1000000

abbrev TokenId := Nat

structure Token where
  parent : Option TokenId := none
  cancelled : Bool := false
  deriving DecidableEq, Repr

/-- Tokens in the order of their making, so that a parent comes before its children. -/
structure Tokens where
  list : List Token := []
  deriving DecidableEq, Repr

namespace Tokens

def isCancelled (ts : Tokens) (id : TokenId) : Bool :=
  match ts.list[id]? with
  | some t => t.cancelled
  | none => false

def fresh (ts : Tokens) : TokenId × Tokens := (ts.list.length, ⟨ts.list ++ [({} : Token)]⟩)

/-- A token below another one; it starts out cancelled if that one is. -/
def child (ts : Tokens) (parent : TokenId) : TokenId × Tokens :=
  (ts.list.length, ⟨ts.list ++ [{ parent := some parent, cancelled := ts.isCancelled parent }]⟩)

/-- Marks `id` and every token below it; `reached` holds the marked ones among those passed. -/
def cancelFrom (id : TokenId) : (index : Nat) → (reached : List TokenId) → List Token → List Token
  | _, _, [] => []
  | index, reached, t :: rest =>
    let hit := index = id || (match t.parent with
      | some p => reached.contains p
      | none => false)
    if hit then { t with cancelled := true } :: cancelFrom id (index + 1) (index :: reached) rest
    else t :: cancelFrom id (index + 1) reached rest

def cancel (ts : Tokens) (id : TokenId) : Tokens := ⟨cancelFrom id 0 [] ts.list⟩

end Tokens

structure Context where
  token : TokenId
  deadline : Option Moment := none
  deriving DecidableEq, Repr

namespace Context

/-- A context of its own, without a deadline. -/
def fresh (ts : Tokens) : Context × Tokens :=
  let (token, tokens) := ts.fresh
  ({ token }, tokens)

/-- A context below this one, with the same deadline. -/
def child (c : Context) (ts : Tokens) : Context × Tokens :=
  let (token, tokens) := ts.child c.token
  ({ c with token }, tokens)

def deadlineAt (c : Context) (deadline : Moment) : Context :=
  { c with deadline := some (match c.deadline with
    | some d => min d deadline
    | none => deadline) }

def remaining (c : Context) (now : Moment) : Option Nat := c.deadline.map (· - now)

def effectiveTimeout (c : Context) (now : Moment) (timeout : Nat) : Nat :=
  match c.remaining now with
  | some left => min left timeout
  | none => timeout

def expired (c : Context) (now : Moment) : Bool :=
  match c.deadline with
  | some d => d ≤ now
  | none => false

def check (ts : Tokens) (c : Context) (now : Moment) : Except Error Unit :=
  if ts.isCancelled c.token then .error .cancelled
  else if c.expired now then .error .deadlineExceeded
  else .ok ()

end Context

/-- A wait bounded by a context: what cuts it short, and with which error. -/
structure Bound where
  subject : String
  token : TokenId
  deadline : Option Moment
  budgetMillis : Nat
  deriving DecidableEq, Repr

namespace Bound

def make (c : Context) (now : Moment) (subject : String) : Bound where
  subject
  token := c.token
  deadline := c.deadline
  budgetMillis := wholeMillis ((c.remaining now).getD 0)

/-- Starts a bounded wait, unless the context has failed already. -/
def start (ts : Tokens) (c : Context) (now : Moment) (subject : String) : Except Error Bound := do
  c.check ts now
  return make c now subject

def poll (b : Bound) (ts : Tokens) (now : Moment) : Option Error :=
  if ts.isCancelled b.token then some .cancelled
  else match b.deadline with
    | some d => if d ≤ now then some (.timeout b.subject b.budgetMillis) else none
    | none => none

end Bound
end Handover

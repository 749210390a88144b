import Handover.Number.Numeral

/-!
# Command line

The words of a command line stand for a command with its options, or for a reason not to run one. Words
are read from left to right, and the first reason counts. The value of an option is looked at only when
the next switch or the end of the line is reached.
-/

namespace Handover

inductive Invocation where
  | demo (deadReplacement : Bool) (timeoutSecs : Nat)
  | config (dir : String)
  deriving DecidableEq, Repr

inductive UsageError where
  | nothingAsked
  | help
  | version
  | unknownCommand
  | unknownWord
  | missingValue
  | badValue
  /-- A switch that takes no value was given one. -/
  | surplusValue
  | repeated
  deriving DecidableEq, Repr

namespace CommandLine

inductive SwitchKind where
  | help
  | flag
  /-- The next word or the rest of the word is a value that passes the check. -/
  | value (check : String → Bool)

structure Switch where
  long : String
  short : Option Char := none
  kind : SwitchKind

/-- The switches taken so far, and one whose value may still come. -/
structure Reading where
  taken : List (String × String) := []
  pending : Option (Switch × Option String) := none

namespace Reading

def take (r : Reading) (s : Switch) (value : String) : Except UsageError Reading :=
  if r.taken.any (·.1 = s.long) then .error .repeated
  else
    let fits := match s.kind with
      | .value check => check value
      | .flag | .help => true
    if fits then .ok ⟨(s.long, value) :: r.taken, none⟩ else .error .badValue

def settle (r : Reading) : Except UsageError Reading :=
  match r.pending with
  | none => .ok r
  | some (_, none) => .error .missingValue
  | some (s, some value) => { r with pending := none }.take s value

def switch (r : Reading) (s : Switch) (attached : Option String) : Except UsageError Reading := do
  match s.kind, attached with
  | .help, _ =>
    let _ ← r.settle
    throw .help
  | .flag, _ =>
    let r ← r.settle
    r.take s ""
  | .value _, some value =>
    let r ← r.settle
    r.take s value
  | .value _, none =>
    let r ← r.settle
    return { r with pending := some (s, none) }

/-- A word that is no switch: the value that is waited for, or nothing known. -/
def word (r : Reading) (w : String) : Except UsageError Reading :=
  match r.pending with
  | some (s, none) => .ok { r with pending := some (s, some w) }
  | _ => .error .unknownWord

end Reading

/-- A word behind two dashes: the name of a switch and the value behind `=`. -/
def longParts (cs : List Char) : String × Option String :=
  let name := cs.takeWhile (· ≠ '=')
  match cs.drop name.length with
  | [] => (String.ofList name, none)
  | _ :: value => (String.ofList name, some (String.ofList value))

def shortValue : List Char → Option String
  | [] => none
  | '=' :: value => some (String.ofList value)
  | value => some (String.ofList value)

def longSwitch (switches : List Switch) (r : Reading) (cs : List Char) : Except UsageError Reading :=
  let (name, attached) := longParts cs
  match switches.find? (·.long = name) with
  | none => .error .unknownWord
  | some s =>
    match s.kind, attached with
    | .value _, _ | _, none => r.switch s attached
    | _, some _ => .error .surplusValue

def shortSwitch (switches : List Switch) (r : Reading) (letter : Char) (rest : List Char) :
    Except UsageError Reading :=
  match switches.find? (·.short = some letter) with
  | none => .error .unknownWord
  | some s => r.switch s (shortValue rest)

def readWord (switches : List Switch) (r : Reading) (w : String) : Except UsageError Reading :=
  match w.toList with
  | '-' :: '-' :: cs => longSwitch switches r cs
  | '-' :: letter :: rest => shortSwitch switches r letter rest
  | _ => r.word w

/-- The switches in the words. Behind a lone `--` no word is known. -/
def read (switches : List Switch) (r : Reading) : List String → Except UsageError Reading
  | [] => r.settle
  | "--" :: [] => r.settle
  | "--" :: _ => .error .unknownWord
  | w :: rest => do
    let r ← readWord switches r w
    read switches r rest

def help : Switch := ⟨"help", some 'h', .help⟩

def demoSwitches : List Switch :=
  [help, ⟨"dead-replacement", none, .flag⟩,
    ⟨"timeout-secs", none, .value fun v => (Numeral.nat64? v.toList).isSome⟩]

def configSwitches : List Switch := [help, ⟨"dir", some 'd', .value fun _ => true⟩]

def valueOf (r : Reading) (long : String) : Option String := (r.taken.find? (·.1 = long)).map (·.2)

def demo (words : List String) : Except UsageError Invocation := do
  let r ← read demoSwitches {} words
  let seconds := ((valueOf r "timeout-secs").bind fun v => Numeral.nat64? v.toList).getD 30
  return .demo (valueOf r "dead-replacement").isSome seconds

def config (usual : String) (words : List String) : Except UsageError Invocation := do
  let r ← read configSwitches {} words
  return .config ((valueOf r "dir").getD usual)

def commands : List String := ["demo", "config", "help"]

/-- Help on a command, of which none has commands below it. -/
def helpOn : List String → UsageError
  | [] => .help
  | [name] => if name ∈ commands then .help else .unknownCommand
  | _ => .unknownCommand

def first (w : String) : UsageError :=
  match w.toList with
  | '-' :: '-' :: cs =>
    let (name, attached) := longParts cs
    let found := match name with
      | "help" => some UsageError.help
      | "version" => some .version
      | _ => none
    match found, attached with
    | none, _ => .unknownWord
    | some e, none => e
    | some _, some _ => .surplusValue
  | '-' :: 'h' :: _ => .help
  | '-' :: 'V' :: _ => .version
  | '-' :: _ :: _ => .unknownWord
  | _ => .unknownCommand

def configDir : String := "config"

/-- Reads the words behind the name of the program; `usual` is the directory where none is named. -/
def parse (usual : String) : List String → Except UsageError Invocation
  | [] | ["--"] => .error .nothingAsked
  | "--" :: w :: _ => .error (if w ∈ commands then .unknownWord else .unknownCommand)
  | "demo" :: words => demo words
  | "config" :: words => config usual words
  | "help" :: words => .error (helpOn words)
  | w :: _ => .error (first w)

end CommandLine
end Handover

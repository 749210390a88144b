import Handover.Config.Load

/-!
# The keys of a configuration

Every field of a configuration has a key, which is the name of its section and its own: `ofValues_get`. A table whose
sections are tables, with settings of the right types under the keys, is read into the configuration of these
settings and defaults: `ofSettings_holding`.
-/

namespace Handover
namespace Config

inductive Part where
  | bus
  | blackboard
  | swap
  | registry
  | logging
  deriving DecidableEq, Repr

inductive Kind where
  | text
  | number
  | flag
  deriving DecidableEq, Repr

inductive Key where
  | subjectPrefix
  | channelCapacity
  | keyPrefix
  | mirrorEnabled
  | pingTimeout
  | maxSessions
  | heartbeatTimeout
  | level
  | json
  deriving DecidableEq, Repr

/-! ## Values -/

def Kind.Value : Kind → Type
  | .text => String
  | .number => Nat
  | .flag => Bool

instance : (kind : Kind) → DecidableEq kind.Value
  | .text => inferInstanceAs (DecidableEq String)
  | .number => inferInstanceAs (DecidableEq Nat)
  | .flag => inferInstanceAs (DecidableEq Bool)

/-- A flag that is written out. -/
def flag? (text : String) : Option Bool :=
  if Setting.foldCase text = "true" then some true
  else if Setting.foldCase text = "false" then some false
  else none

/-- The value of a setting that is of the right type. Where a source knows texts only, numbers and flags are written
out. -/
def Kind.value? : (kind : Kind) → Setting → Option kind.Value
  | .text, .text t => some t
  | .number, .int (.ofNat n) => some n
  | .number, .text t => Numeral.nat64? t.toList
  | .flag, .bool b => some b
  | .flag, .text t => flag? t
  | _, _ => none

/-- Fits a setting to a type. -/
def Kind.read : (kind : Kind) → Setting → Except ConfigError kind.Value
  | .text => Setting.asText
  | .number => Setting.asNat
  | .flag => Setting.asBool

/-- What is found, if anything, fits what there is to be found. -/
def Kind.Fits (kind : Kind) : Option Setting → Option kind.Value → Prop := Option.Rel fun s v => kind.read s = .ok v

/-! ## Words -/

/-- The words that a flag may be written as. -/
def words : List String := ["true", "on", "yes", "false", "off", "no"]

theorem toLower_digit {c : Char} (digit : c.isDigit = true) : c.toLower = c := by
  simp only [Char.isDigit, Bool.and_eq_true, decide_eq_true_eq] at digit
  have small : ¬ (c.val ≥ 'A'.val ∧ c.val ≤ 'Z'.val) := fun upper =>
    absurd (UInt32.le_trans upper.1 digit.2) (by decide)
  exact dif_neg small

def initials : List Char := ['t', 'o', 'y', 'f', 'n']

theorem words_initial {word : String} (there : word ∈ words) : ∃ c ∈ word.toList.head?, c ∈ initials := by
  simp only [words, List.mem_cons, List.not_mem_nil, or_false] at there
  rcases there with rfl | rfl | rfl | rfl | rfl | rfl
  all_goals exact ⟨_, rfl, by decide⟩

theorem initials_plain {c : Char} (there : c ∈ initials) : c.isDigit = false := by
  simp only [initials, List.mem_cons, List.not_mem_nil, or_false] at there
  rcases there with rfl | rfl | rfl | rfl | rfl
  all_goals rfl

/-- Whatever their case, words do not start as numbers do. -/
theorem word_starts {text : String} (word : Setting.foldCase text ∈ words) :
    ∃ c cs, text.toList = c :: cs ∧ c ≠ '-' ∧ c ≠ '+' ∧ c.isDigit = false := by
  obtain ⟨letter, there, initial⟩ := words_initial word
  rw [Setting.foldCase, String.toList_map, List.head?_map] at there
  obtain ⟨c, first, rfl⟩ := Option.map_eq_some_iff.mp there
  obtain ⟨cs, whole⟩ := List.head?_eq_some_iff.mp first
  refine ⟨c, cs, whole, ?_, ?_, eq_false_of_ne_true fun digit => ?_⟩
  · rintro rfl
    exact absurd initial (by decide)
  · rintro rfl
    exact absurd initial (by decide)
  · rw [toLower_digit digit] at initial
    split at initial
    · exact absurd initial (by decide)
    · exact absurd digit (ne_true_of_eq_false (initials_plain initial))

theorem nat64?_plain {text : String} {n : Nat} (number : Numeral.nat64? text.toList = some n) :
    Setting.foldCase text ∉ words := by
  intro word
  obtain ⟨c, cs, whole, _, plus, digit⟩ := word_starts word
  simp [whole, Numeral.nat64?, Numeral.nat?, Numeral.digits?, plus, digit] at number

theorem int64?_plain {text : String} {i : Int} (number : Numeral.int64? text.toList = some i) :
    Setting.foldCase text ∉ words := by
  intro word
  obtain ⟨c, cs, whole, minus, plus, digit⟩ := word_starts word
  simp [whole, Numeral.int64?, Numeral.nat?, Numeral.digits?, minus, plus, digit] at number

theorem asNat_number (n : Nat) : Setting.asNat (.int n) = .ok n := by
  rw [Setting.asNat, if_pos (Int.natCast_nonneg n)]
  rfl

theorem asNat_text {text : String} {n : Nat} (number : Numeral.nat64? text.toList = some n) :
    Setting.asNat (.text text) = .ok n := by
  have plain := nat64?_plain number
  have set : Setting.foldCase text ∉ ["true", "on", "yes"] := fun word => plain (List.mem_append_left _ word)
  have unset : Setting.foldCase text ∉ ["false", "off", "no"] := fun word =>
    plain (List.mem_append_right ["true", "on", "yes"] word)
  simp only [Setting.asNat, set, unset, number, if_false]

theorem asBool_text {text : String} {b : Bool} (flag : flag? text = some b) :
    Setting.asBool (.text text) = .ok b := by
  unfold flag? at flag
  split at flag
  · rename_i word
    cases flag
    simp [Setting.asBool, word]
  · split at flag
    · rename_i word
      cases flag
      simp [Setting.asBool, word]
    · cases flag

theorem Kind.read_of_value {kind : Kind} {s : Setting} {v : kind.Value} (typed : kind.value? s = some v) :
    kind.read s = .ok v := by
  cases kind with
  | text =>
    cases s with
    | text t => exact congrArg Except.ok (Option.some.inj typed)
    | _ => cases typed
  | number =>
    cases s with
    | text t => exact asNat_text typed
    | int i =>
      cases i with
      | ofNat =>
        cases typed
        exact asNat_number v
      | negSucc n => cases typed
    | _ => cases typed
  | flag =>
    cases s with
    | text t => exact asBool_text typed
    | bool b => exact congrArg Except.ok (Option.some.inj typed)
    | _ => cases typed

theorem Kind.not_table {kind : Kind} {es : Table Setting} : kind.value? (.table es) = none := by
  cases kind <;> rfl

/-! ## Names -/

def Part.all : List Part := [.bus, .blackboard, .swap, .registry, .logging]

theorem Part.mem_all (p : Part) : p ∈ all := by
  cases p <;> decide

def Part.name : Part → String
  | .bus => "bus"
  | .blackboard => "blackboard"
  | .swap => "swap"
  | .registry => "registry"
  | .logging => "logging"

namespace Key

def all : List Key :=
  [.subjectPrefix, .channelCapacity, .keyPrefix, .mirrorEnabled, .pingTimeout, .maxSessions, .heartbeatTimeout, .level,
    .json]

theorem mem_all (k : Key) : k ∈ all := by
  cases k <;> decide

def part : Key → Part
  | .subjectPrefix | .channelCapacity => .bus
  | .keyPrefix | .mirrorEnabled => .blackboard
  | .pingTimeout | .maxSessions => .swap
  | .heartbeatTimeout => .registry
  | .level | .json => .logging

def field : Key → String
  | .subjectPrefix => "subject_prefix"
  | .channelCapacity => "channel_capacity"
  | .keyPrefix => "key_prefix"
  | .mirrorEnabled => "mirror_enabled"
  | .pingTimeout => "ping_timeout_ms"
  | .maxSessions => "max_sessions_retained"
  | .heartbeatTimeout => "heartbeat_timeout_ms"
  | .level => "level"
  | .json => "json"

def kind : Key → Kind
  | .subjectPrefix | .keyPrefix | .level => .text
  | .channelCapacity | .pingTimeout | .maxSessions | .heartbeatTimeout => .number
  | .mirrorEnabled | .json => .flag

def path (k : Key) : List String := [k.part.name, k.field]

theorem path_injective {k k' : Key} (same : k.path = k'.path) : k = k' := by
  revert same
  cases k <;> cases k' <;> decide

end Key

instance {p : Key → Prop} [DecidablePred p] : Decidable (∀ k, p k) :=
  decidable_of_iff (∀ k ∈ Key.all, p k) ⟨fun all k => all k k.mem_all, fun all k _ => all k⟩

instance {p : Key → Prop} [DecidablePred p] : Decidable (∃ k, p k) :=
  decidable_of_iff (∃ k ∈ Key.all, p k)
    ⟨fun ⟨k, _, here⟩ => ⟨k, here⟩, fun ⟨k, here⟩ => ⟨k, k.mem_all, here⟩⟩

instance {p : Part → Prop} [DecidablePred p] : Decidable (∀ q, p q) :=
  decidable_of_iff (∀ k ∈ Part.all, p k) ⟨fun all k => all k k.mem_all, fun all k _ => all k⟩

/-! ## Fields -/

def get (c : Config) : (k : Key) → k.kind.Value
  | .subjectPrefix => c.bus.subjectPrefix
  | .channelCapacity => c.bus.channelCapacity
  | .keyPrefix => c.blackboard.keyPrefix
  | .mirrorEnabled => c.blackboard.mirrorEnabled
  | .pingTimeout => c.swap.pingTimeoutMs
  | .maxSessions => c.swap.maxSessionsRetained
  | .heartbeatTimeout => c.registry.heartbeatTimeoutMs
  | .level => c.logging.level
  | .json => c.logging.json

def ofValues (v : (k : Key) → k.kind.Value) : Config where
  bus := { subjectPrefix := v .subjectPrefix, channelCapacity := v .channelCapacity }
  blackboard := { keyPrefix := v .keyPrefix, mirrorEnabled := v .mirrorEnabled }
  swap := { pingTimeoutMs := v .pingTimeout, maxSessionsRetained := v .maxSessions }
  registry := { heartbeatTimeoutMs := v .heartbeatTimeout }
  logging := { level := v .level, json := v .json }

theorem get_ofValues (v : (k : Key) → k.kind.Value) (k : Key) : (ofValues v).get k = v k := by
  cases k <;> rfl

theorem ofValues_get (c : Config) : ofValues c.get = c := rfl

/-- Some of the values of a configuration. -/
abbrev Layer := (k : Key) → Option k.kind.Value

/-- The configuration that has the values of a layer, and the defaults where it has none. -/
def ofLayer (l : Layer) : Config := ofValues fun k => (l k).getD (({} : Config).get k)

namespace Part

/-- Takes a section from another configuration. -/
def copy (d : Config) : Part → Config → Config
  | .bus, c => { c with bus := d.bus }
  | .blackboard, c => { c with blackboard := d.blackboard }
  | .swap, c => { c with swap := d.swap }
  | .registry, c => { c with registry := d.registry }
  | .logging, c => { c with logging := d.logging }

/-- Reads a section into its place. -/
def put : Part → Config → Setting → Except ConfigError Config
  | .bus, c, s => do return { c with bus := ← section? busFields {} s }
  | .blackboard, c, s => do return { c with blackboard := ← section? blackboardFields {} s }
  | .swap, c, s => do return { c with swap := ← section? swapFields {} s }
  | .registry, c, s => do return { c with registry := ← section? registryFields {} s }
  | .logging, c, s => do return { c with logging := ← section? loggingFields {} s }

variable {p q : Part} {l : Layer} {c d e : Config}

theorem copy_comm (differ : p ≠ q) : p.copy d (q.copy e c) = q.copy e (p.copy d c) := by
  cases p <;> cases q <;> first | exact absurd rfl differ | rfl

theorem copy_unset (unset : ∀ k : Key, k.part = p → l k = none) : p.copy (ofLayer l) c = p.copy {} c := by
  cases p with
  | bus => simp only [copy, ofLayer, ofValues, unset .subjectPrefix rfl, unset .channelCapacity rfl]; rfl
  | blackboard => simp only [copy, ofLayer, ofValues, unset .keyPrefix rfl, unset .mirrorEnabled rfl]; rfl
  | swap => simp only [copy, ofLayer, ofValues, unset .pingTimeout rfl, unset .maxSessions rfl]; rfl
  | registry => simp only [copy, ofLayer, ofValues, unset .heartbeatTimeout rfl]; rfl
  | logging => simp only [copy, ofLayer, ofValues, unset .level rfl, unset .json rfl]; rfl

/-- Under the keys of a section, a table holds settings that fit what a layer has. -/
def Holds (p : Part) (l : Layer) (es : Table Setting) : Prop :=
  ∀ k : Key, k.part = p → k.kind.Fits (es.get? k.field) (l k)

section Fields
variable {α : Type} {kind : Kind} {name : String} {start : α} {es : Table Setting}

theorem section?_done : section? [] start (.table es) = .ok start := rfl

theorem section?_fits {set : α → kind.Value → α} {v : Option kind.Value} {rest : Fields α}
    (fits : kind.Fits (es.get? name) v) :
    (section? ((name, fun c s => do return set c (← kind.read s)) :: rest) start (.table es)) =
      (section? rest (v.elim start (set start)) (.table es)) := by
  simp only [section?, List.foldlM_cons]
  generalize es.get? name = there at fits ⊢
  cases fits with
  | none => rfl
  | some fits =>
    simp only [fits]
    rfl

end Fields

theorem put_holding {es : Table Setting} (holds : p.Holds l es) :
    p.put c (.table es) = .ok (p.copy (ofLayer l) c) := by
  cases p with
  | bus =>
    have first : Kind.text.Fits (es.get? "subject_prefix") (l .subjectPrefix) := holds .subjectPrefix rfl
    have second : Kind.number.Fits (es.get? "channel_capacity") (l .channelCapacity) := holds .channelCapacity rfl
    have read : section? busFields {} (.table es) = _ := (section?_fits first).trans (section?_fits second)
    simp only [put, copy, ofLayer, ofValues, read, section?_done]
    cases l .subjectPrefix <;> cases l .channelCapacity <;> rfl
  | blackboard =>
    have first : Kind.text.Fits (es.get? "key_prefix") (l .keyPrefix) := holds .keyPrefix rfl
    have second : Kind.flag.Fits (es.get? "mirror_enabled") (l .mirrorEnabled) := holds .mirrorEnabled rfl
    have read : section? blackboardFields {} (.table es) = _ := (section?_fits first).trans (section?_fits second)
    simp only [put, copy, ofLayer, ofValues, read, section?_done]
    cases l .keyPrefix <;> cases l .mirrorEnabled <;> rfl
  | swap =>
    have first : Kind.number.Fits (es.get? "ping_timeout_ms") (l .pingTimeout) := holds .pingTimeout rfl
    have second : Kind.number.Fits (es.get? "max_sessions_retained") (l .maxSessions) := holds .maxSessions rfl
    have read : section? swapFields {} (.table es) = _ := (section?_fits first).trans (section?_fits second)
    simp only [put, copy, ofLayer, ofValues, read, section?_done]
    cases l .pingTimeout <;> cases l .maxSessions <;> rfl
  | registry =>
    have first : Kind.number.Fits (es.get? "heartbeat_timeout_ms") (l .heartbeatTimeout) := holds .heartbeatTimeout rfl
    have read : section? registryFields {} (.table es) = _ := section?_fits first
    simp only [put, copy, ofLayer, ofValues, read, section?_done]
    cases l .heartbeatTimeout <;> rfl
  | logging =>
    have first : Kind.text.Fits (es.get? "level") (l .level) := holds .level rfl
    have second : Kind.flag.Fits (es.get? "json") (l .json) := holds .json rfl
    have read : section? loggingFields {} (.table es) = _ := (section?_fits first).trans (section?_fits second)
    simp only [put, copy, ofLayer, ofValues, read, section?_done]
    cases l .level <;> cases l .json <;> rfl

end Part

/-! ## Sections -/

/-- A table whose sections hold what a layer says. A section that is not there says nothing. -/
def Holds (t : Table Setting) (l : Layer) : Prop :=
  ∀ p : Part, (t.get? p.name = none ∧ ∀ k : Key, k.part = p → l k = none) ∨
    ∃ es, t.get? p.name = some (.table es) ∧ p.Holds l es

/-- Reads a section of a table into its place, if it is there. -/
def lay (t : Table Setting) (c : Config) (p : Part) : Except ConfigError Config :=
  match t.get? p.name with
  | some s => p.put c s
  | none => .ok c

variable {t : Table Setting} {l : Layer} {c : Config}

theorem lay_holding (holds : Holds t l) (p : Part) (fresh : p.copy {} c = c) :
    lay t c p = .ok (p.copy (ofLayer l) c) := by
  rcases holds p with ⟨absent, unset⟩ | ⟨es, there, held⟩
  · rw [lay, absent, p.copy_unset unset, fresh]
  · rw [lay, there]
    exact p.put_holding held

/-- Each section is read into its own place, so the ones that are still to be read are as they were. -/
theorem lay_all_holding (holds : Holds t l) {parts : List Part} (once : parts.Nodup)
    (fresh : ∀ p ∈ parts, p.copy {} c = c) :
    parts.foldlM (lay t) c = .ok (parts.foldl (fun c p => p.copy (ofLayer l) c) c) := by
  induction parts generalizing c with
  | nil => rfl
  | cons p rest ih =>
    obtain ⟨first, once⟩ := List.nodup_cons.mp once
    rw [List.foldlM_cons, lay_holding holds p (fresh p (.head _))]
    refine ih once fun q later => ?_
    have differ : q ≠ p := fun same => first (same ▸ later)
    rw [q.copy_comm differ, fresh q (.tail _ later)]

theorem ofSettings_holding (holds : Holds t l) : ofSettings t = .ok (ofLayer l) := by
  have read : ofSettings t = Part.all.foldlM (lay t) {} := rfl
  rw [read, lay_all_holding holds (by decide) fun p _ => by cases p <;> rfl]
  rfl

end Config
end Handover

import Handover.Proofs.Config.Keys
import Handover.Proofs.Config.Merging
import Mathlib.Tactic.MkIffOfInductiveProp

/-!
# A configuration is what its layers say

A source describes a layer if what it holds under each key is the layer's value there, in sections that are tables. If
both files and the variables describe layers, loading succeeds, and every field has the value that the highest of the
layers has for it, or else its default: `each_field_is_of_the_highest_layer`. Which files are found, and what they say,
is up to any reader of files.
-/

namespace Handover

open Setting

namespace Config

/-- All that a source holds under a key. -/
def found (k : Key) (source : List (String × Setting)) : List Setting :=
  under k.field (within k.part.name (spread source))

/-- The key of a source names no place in a list. -/
def Unindexed (key : String) : Prop := '[' ∉ key.toList

instance (key : String) : Decidable (Unindexed key) := inferInstanceAs (Decidable ('[' ∉ key.toList))

/-- A source sets what a layer has, to settings of the right types. It may say more under names that are no keys. -/
@[mk_iff]
structure Describes (source : List (String × Setting)) (l : Layer) : Prop where
  unindexed : ∀ e ∈ source, Unindexed e.1
  tables : ∀ p : Part, ∀ s ∈ under p.name (spread source), s.IsTable
  fits : ∀ k, ∀ s ∈ found k source, ∃ v ∈ l k, k.kind.value? s = some v
  given : ∀ k, l k ≠ none → found k source ≠ []

instance (source : List (String × Setting)) (l : Layer) : Decidable (Describes source l) :=
  decidable_of_iff _ (describes_iff source l).symm

/-! ## Sources one upon another -/

/-- What the sources up to some point leave to be read. -/
structure Leaves (source : List (String × Setting)) (l : Layer) : Prop where
  tables : ∀ p : Part, ∀ s ∈ under p.name (spread source), s.IsTable
  values : ∀ k, ∀ s ∈ found k source, ¬ s.IsTable
  last : ∀ k : Key, k.kind.Fits (found k source).getLast? (l k)

variable {source source' : List (String × Setting)} {l l' : Layer}

theorem Describes.leaves (describes : Describes source l) : Leaves source l where
  tables := describes.tables
  values k s there := by
    obtain ⟨v, _, typed⟩ := describes.fits k s there
    rintro ⟨es, rfl⟩
    rw [Kind.not_table] at typed
    cases typed
  last k := by
    cases held : (found k source).getLast? with
    | none =>
      have unset : l k = none := Decidable.byContradiction fun set =>
        describes.given k set (List.getLast?_eq_none_iff.mp held)
      rw [unset]
      exact .none
    | some s =>
      obtain ⟨v, set, typed⟩ := describes.fits k s (List.mem_of_getLast? held)
      rw [set]
      exact .some (Kind.read_of_value typed)

theorem rel_or {α β : Type} {r : α → β → Prop} {a a' : Option α} {b b' : Option β} (first : Option.Rel r a b)
    (second : Option.Rel r a' b') : Option.Rel r (a.or a') (b.or b') := by
  cases first with
  | none => exact second
  | some related => exact .some related

theorem Leaves.append (lower : Leaves source l) (upper : Leaves source' l') :
    Leaves (source ++ source') fun k => (l' k).or (l k) where
  tables p s there := by
    rw [spread_append, under_append] at there
    exact (List.mem_append.mp there).elim (lower.tables p s) (upper.tables p s)
  values k s there := by
    rw [found, spread_append, within_append, under_append] at there
    exact (List.mem_append.mp there).elim (lower.values k s) (upper.values k s)
  last k := by
    rw [found, spread_append, within_append, under_append, List.getLast?_append, ← found, ← found]
    exact rel_or (upper.last k) (lower.last k)

theorem Leaves.holds (leaves : Leaves source l) : Holds (mergeEntries (spread source) []) l := by
  intro p
  rw [get?_merged (leaves.tables p)]
  split
  · rename_i none
    refine .inl ⟨rfl, ?_⟩
    rintro k rfl
    have nowhere : found k source = [] := by rw [found, within, none]; rfl
    have last := leaves.last k
    rw [nowhere, List.getLast?_nil] at last
    generalize l k = v at last ⊢
    cases last
    rfl
  · refine .inr ⟨_, rfl, ?_⟩
    rintro k rfl
    rw [get?_mergeEntries, ← found, mergeAll_values (leaves.values k), Table.get?, Option.or_none]
    exact leaves.last k

/-! ## Presets -/

/-- The values that the presets repeat. -/
def preset : Layer
  | .subjectPrefix => some ({} : Config).bus.subjectPrefix
  | .keyPrefix => some ({} : Config).blackboard.keyPrefix
  | .pingTimeout => some ({} : Config).swap.pingTimeoutMs
  | .level => some ({} : Config).logging.level
  | .json => some ({} : Config).logging.json
  | _ => none

theorem presets_describe : Describes ConfigSources.presets preset := by
  decide +kernel

/-- What the presets say is the default, so it is the same whether they are asked or not. -/
theorem getD_or_preset {k : Key} (v : Option k.kind.Value) :
    (v.or (preset k)).getD (({} : Config).get k) = v.getD (({} : Config).get k) := by
  cases v with
  | some v => rfl
  | none => cases k <;> rfl

/-! ## Variables -/

/-- How a text spells a value of each type. A plain text may spell nothing but itself. -/
def Kind.Spells : (kind : Kind) → (text : String) → kind.Value → Prop
  | .text, said, v =>
    v = said ∧ foldCase said ∉ ["true", "false"] ∧ Numeral.int64? said.toList = none ∧
      Numeral.double? said.toList = none
  | .number, said, v => Numeral.int64? said.toList = some (Int.ofNat v)
  | .flag, said, v => foldCase said = bif v then "true" else "false"

instance : (kind : Kind) → (said : String) → (v : kind.Value) → Decidable (kind.Spells said v)
  | .text, said, v =>
    have : Decidable (v = said) := instDecidableEqString v said
    inferInstanceAs (Decidable (v = said ∧ _ ∧ _ ∧ _))
  | .number, said, v => inferInstanceAs (Decidable (Numeral.int64? said.toList = some (Int.ofNat v)))
  | .flag, said, v => inferInstanceAs (Decidable (foldCase said = bif v then "true" else "false"))

theorem value?_ofText {kind : Kind} {text : String} {v : kind.Value} (spells : kind.Spells text v) :
    kind.value? (ofText text) = some v := by
  cases kind with
  | text =>
    obtain ⟨rfl, word, whole, decimal⟩ := spells
    simp only [List.mem_cons, List.not_mem_nil, or_false, not_or] at word
    simp only [ofText, word, whole, decimal, if_false]
    rfl
  | number =>
    have number : Numeral.int64? text.toList = some (Int.ofNat v) := spells
    have plain := int64?_plain number
    have set : foldCase text ≠ "true" := fun word => plain (by simp [words, word])
    have unset : foldCase text ≠ "false" := fun word => plain (by simp [words, word])
    simp only [ofText, set, unset, number, if_false]
    rfl
  | flag =>
    have word : foldCase text = bif v then "true" else "false" := spells
    cases v with
    | true => simp only [ofText, word]; rfl
    | false => simp only [ofText, word]; rfl

/-- The name of the variable of a key, up to case. -/
def Key.variableName (k : Key) : String := "orch__" ++ k.part.name ++ "__" ++ k.field

theorem folded_path (k : Key) : k.path.map foldCase = k.path := by
  cases k <;> decide +kernel

theorem variableKey?_of_key {k : Key} {name : String} (named : foldCase name = k.variableName) :
    ∃ key, ConfigSources.variableKey? name = some key ∧ pathOf key = k.path ∧ Unindexed key := by
  have spelled : ∃ key ∈ ConfigSources.variableKey? k.variableName, pathOf key = k.path ∧ Unindexed key := by
    cases k <;> decide +kernel
  have folded : foldCase k.variableName = k.variableName := by cases k <;> decide +kernel
  have same : ConfigSources.variableKey? name = ConfigSources.variableKey? k.variableName := by
    rw [ConfigSources.variableKey?, ConfigSources.variableKey?, named, folded]
  rw [same]
  exact spelled

/-- A path of no concern: it does not end at a section, and leads to no field. -/
def Aside (path : List String) : Prop :=
  (∀ p : Part, path.map foldCase ≠ [p.name]) ∧ ∀ k : Key, ¬ k.path <+: path.map foldCase

/-- A variable that says nothing about any section or field. -/
def Idle (name : String) : Prop := ∀ key ∈ ConfigSources.variableKey? name, Unindexed key ∧ Aside (pathOf key)

/-- Variables set what a layer has, to texts that spell it. There may be idle ones beside them. -/
@[mk_iff]
structure Sets (vars : List (String × String)) (l : Layer) : Prop where
  fits : ∀ p ∈ vars, Idle p.1 ∨ ∃ k : Key, foldCase p.1 = k.variableName ∧ ∃ v ∈ l k, k.kind.Spells p.2 v
  given : ∀ k, l k ≠ none → ∃ p ∈ vars, foldCase p.1 = k.variableName

instance (path : List String) : Decidable (Aside path) :=
  inferInstanceAs (Decidable ((∀ p : Part, path.map foldCase ≠ [p.name]) ∧ ∀ k : Key, ¬ k.path <+: path.map foldCase))

instance (name : String) : Decidable (Idle name) :=
  inferInstanceAs (Decidable (∀ key ∈ ConfigSources.variableKey? name, Unindexed key ∧ Aside (pathOf key)))

instance (vars : List (String × String)) (l : Layer) : Decidable (Sets vars l) :=
  decidable_of_iff _ (sets_iff vars l).symm

variable {s : ConfigSources} {e : String × Setting}

theorem mem_variableSettings : e ∈ s.variableSettings ↔
    ∃ p ∈ s.vars, ConfigSources.variableKey? p.1 = some e.1 ∧ ofText p.2 = e.2 := by
  simp only [ConfigSources.variableSettings, List.mem_filterMap, Option.map_eq_some_iff]
  constructor
  · rintro ⟨p, there, key, spelled, rfl⟩
    exact ⟨p, there, spelled, rfl⟩
  · rintro ⟨p, there, spelled, said⟩
    exact ⟨p, there, e.1, spelled, by rw [said]⟩

theorem Sets.entry (sets : Sets s.vars l) (there : e ∈ s.variableSettings) : Unindexed e.1 ∧
    (Aside (pathOf e.1) ∨ ∃ k : Key, pathOf e.1 = k.path ∧ ∃ v ∈ l k, k.kind.value? e.2 = some v) := by
  obtain ⟨p, there, spelled, said⟩ := mem_variableSettings.mp there
  rcases sets.fits p there with idle | ⟨k, named, v, set, spells⟩
  · obtain ⟨unindexed, aside⟩ := idle e.1 spelled
    exact ⟨unindexed, .inl aside⟩
  · obtain ⟨key, own, path, unindexed⟩ := variableKey?_of_key named
    cases spelled.symm.trans own
    exact ⟨unindexed, .inr ⟨k, path, v, set, said ▸ value?_ofText spells⟩⟩

theorem Sets.elsewhere (sets : Sets s.vars l) (there : e ∈ s.variableSettings) (p : Part) :
    (pathOf e.1).map foldCase ≠ [p.name] := by
  rcases (sets.entry there).2 with aside | ⟨k, path, _⟩
  · exact aside.1 p
  · rw [path, folded_path]
    simp [Key.path]

theorem Sets.describes (sets : Sets s.vars l) : Describes s.variableSettings l where
  unindexed e there := (sets.entry there).1
  tables p s there := by
    rw [under_spread] at there
    obtain ⟨e, there, here⟩ := List.mem_flatMap.mp there
    exact under_nested (sets.elsewhere there p) here
  fits k s there := by
    obtain ⟨e, there, here⟩ := mem_under_within_spread.mp there
    obtain ⟨rest, leads, whole⟩ := within_nested (sets.elsewhere there k.part) here
    rcases (sets.entry there).2 with aside | ⟨k', path, v, set, typed⟩
    · exact absurd ⟨rest, leads.symm⟩ (aside.2 k)
    · rw [path, folded_path] at leads
      cases rest with
      | nil =>
        obtain rfl := Key.path_injective leads
        exact ⟨v, set, whole rfl ▸ typed⟩
      | cons _ _ => simp [Key.path] at leads
  given k set := by
    obtain ⟨p, there, named⟩ := sets.given k set
    obtain ⟨key, spelled, path, _⟩ := variableKey?_of_key named
    have entry : (key, ofText p.2) ∈ s.variableSettings := mem_variableSettings.mpr ⟨p, there, spelled, rfl⟩
    have last : (pathOf key).map foldCase = [k.part.name, k.field] := by rw [path, folded_path]; rfl
    exact List.ne_nil_of_mem (mem_under_within_spread.mpr ⟨_, entry, mem_within_nested last⟩)

/-! ## Loading -/

/-- A file that can be read describes a layer. One that is not there describes the empty layer. -/
def Reads (s : ConfigSources) (name : String) (l : Layer) : Prop :=
  ∃ es, s.fileSettings name = .ok es ∧ Describes es l

instance (s : ConfigSources) (name : String) (l : Layer) : Decidable (Reads s name l) :=
  match read : s.fileSettings name with
  | .ok es => decidable_of_iff (Describes es l) (by simp [Reads, read])
  | .error _ => isFalse (by simp [Reads, read])

theorem reads_absent {name : String} (absent : s.file? name = none) : Reads s name fun _ => none :=
  ⟨[], by rw [ConfigSources.fileSettings, absent], by decide⟩

/-- What the sources of a configuration say, the lowest first. -/
structure Layers where
  base : Layer
  top : Layer
  vars : Layer

namespace Layers

def value (L : Layers) (k : Key) : k.kind.Value :=
  ((L.vars k).or ((L.top k).or (L.base k))).getD (({} : Config).get k)

/-- Two settings of all layers that do not differ at a key. -/
def Agree (L L' : Layers) (k : Key) : Prop :=
  L.base k = L'.base k ∧ L.top k = L'.top k ∧ L.vars k = L'.vars k

theorem Agree.value {L L' : Layers} {k : Key} (agree : L.Agree L' k) : L.value k = L'.value k := by
  rw [Layers.value, Layers.value, agree.1, agree.2.1, agree.2.2]

end Layers

structure Gives (s : ConfigSources) (L : Layers) : Prop where
  base : Reads s "default.toml" L.base
  top : Reads s s.environment L.top
  vars : Sets s.vars L.vars

variable {L : Layers}

theorem Gives.load (gives : Gives s L) : load s = .ok (ofValues L.value) := by
  obtain ⟨base, readBase, describesBase⟩ := gives.base
  obtain ⟨top, readTop, describesTop⟩ := gives.top
  have settings : s.settings =
      .ok (mergeEntries (spread (ConfigSources.presets ++ base ++ top ++ s.variableSettings)) []) := by
    rw [ConfigSources.settings, readBase, readTop]
    exact congrArg Except.ok ((layered_eq _).trans (by simp [List.append_assoc]))
  have leaves := ((presets_describe.leaves.append describesBase.leaves).append describesTop.leaves).append
    gives.vars.describes.leaves
  rw [Config.load, settings, Except.bind, ofSettings_holding leaves.holds, ofLayer]
  refine congrArg (Except.ok <| ofValues ·) (funext fun k => ?_)
  rw [← Option.or_assoc, ← Option.or_assoc, getD_or_preset, Option.or_assoc, Layers.value]

/-- Where there are no files and no variable concerns a field, the defaults are left as they are. -/
theorem load_of_nothing (base : s.file? "default.toml" = none) (top : s.file? s.environment = none)
    (idle : ∀ p ∈ s.vars, Idle p.1) : load s = .ok {} := by
  have nothing : Sets s.vars fun _ => none := ⟨fun p there => .inl (idle p there), fun _ set => absurd rfl set⟩
  have gives : Gives s ⟨fun _ => none, fun _ => none, fun _ => none⟩ :=
    ⟨reads_absent base, reads_absent top, nothing⟩
  exact gives.load

/-- Loading lays the file of the environment over the file `default.toml`, the variables over both, and all of them over
the defaults, field by field. What is set under one key changes no other field. -/
theorem each_field_is_of_the_highest_layer (gives : Gives s L) :
    ∃ c, load s = .ok c ∧ (∀ k, c.get k = L.value k) ∧
      ∀ (k : Key) (s' : ConfigSources) (L' : Layers), Gives s' L' → (∀ other, other ≠ k → L'.Agree L other) →
        ∃ c', load s' = .ok c' ∧ ∀ other, other ≠ k → c'.get other = c.get other := by
  refine ⟨_, gives.load, get_ofValues L.value, fun k s' L' gives' agree => ⟨_, gives'.load, fun other differ => ?_⟩⟩
  rw [get_ofValues, get_ofValues, (agree other differ).value]

namespace Sample

def production : String :=
  "bus.channel_capacity: 64\nSWAP:\n  ping_timeout_ms: 400\nlogging:\n  level: warn\n  colour: true\n"

/-- What a reader of YAML finds in the file of the environment. -/
def reader : FileReader where
  settings?
    | .yaml, said =>
      if said = production then
        some [("bus.channel_capacity", .int 64), ("SWAP", .table [("ping_timeout_ms", .int 400)]),
          ("logging", .table [("level", .text "warn"), ("colour", .bool true)])]
      else none
    | format, said => format.settings? said

/-- Sections are there in part, empty or not at all; one key is set by all three, and names are in any case. -/
def sources : ConfigSources where
  files := [
    ("default.toml",
      "[bus]\nsubject_prefix = \"fleet.\"\n[swap]\nping_timeout_ms = 800\nmax_sessions_retained = 16\n[registry]\n"),
    ("production.yaml", production)]
  vars := [
    ("HOME", "/root"),
    ("ORCH_ENV", "production"),
    ("ORCH__SWAP__PING_TIMEOUT_MS", "250"),
    ("orch__Logging__Json", "TRUE"),
    ("ORCH__BLACKBOARD__KEY_PREFIX", "")]
  reader := reader

def layers : Layers where
  base
    | .subjectPrefix => some "fleet."
    | .pingTimeout => some (800 : Nat)
    | .maxSessions => some (16 : Nat)
    | _ => none
  top
    | .channelCapacity => some (64 : Nat)
    | .pingTimeout => some (400 : Nat)
    | .level => some "warn"
    | _ => none
  vars
    | .pingTimeout => some (250 : Nat)
    | .json => some true
    | .keyPrefix => some ""
    | _ => none

theorem sources_give : Gives sources layers := ⟨by decide +kernel, by decide +kernel, by decide +kernel⟩

end Sample

theorem each_field_is_of_the_highest_layer_of_three :
    Gives Sample.sources Sample.layers ∧ load Sample.sources = .ok {
      bus := { subjectPrefix := "fleet.", channelCapacity := 64 }
      blackboard := { keyPrefix := "" }
      swap := { pingTimeoutMs := 250, maxSessionsRetained := 16 }
      logging := { level := "warn", json := true } } := by
  obtain ⟨c, loads, fields, _⟩ := each_field_is_of_the_highest_layer Sample.sources_give
  refine ⟨Sample.sources_give, loads.trans (congrArg Except.ok ?_)⟩
  rw [← ofValues_get c, funext fields]
  rfl

end Config
end Handover

import Handover.Config.Setting

/-!
# What merging settings leaves under a name

Sources are merged into one table. Under a name of it stands what the entries of that name make of each other, one
after another: `get?_mergeEntries`. Of values the last one stays; tables become one table, with the entries of all of
them: `get?_merged`. An entry at the top of a source may stand deeper, under the path that its key spells; `spread`
makes such entries tables within each other, and a source means the same then: `layered_eq`.
-/

namespace Handover
namespace Setting
variable {name : String} {s s' : Setting} {es : List (String × Setting)} {there : Option Setting}

def IsTable (s : Setting) : Prop := ∃ es, s = .table es

instance : DecidablePred IsTable
  | .table es => isTrue ⟨es, rfl⟩
  | .nothing | .bool _ | .int _ | .float _ | .text _ | .list _ => isFalse nofun

/-! ## Entries one after another -/

/-- The settings of a list of entries under a name, in whatever case it is written. -/
def under (name : String) (es : List (String × Setting)) : List Setting :=
  es.filterMap fun e => if foldCase e.1 = name then some e.2 else none

/-- The entries of the tables under a name. -/
def within (name : String) (es : List (String × Setting)) : List (String × Setting) := (under name es).flatMap entries

theorem under_append (name : String) (es es' : List (String × Setting)) :
    under name (es ++ es') = under name es ++ under name es' :=
  List.filterMap_append

theorem within_append (name : String) (es es' : List (String × Setting)) :
    within name (es ++ es') = within name es ++ within name es' := by
  rw [within, under_append, List.flatMap_append, ← within, ← within]

theorem mem_under : s ∈ under name es ↔ ∃ e ∈ es, foldCase e.1 = name ∧ e.2 = s := by
  simp [under, List.mem_filterMap]

theorem mem_within {e : String × Setting} :
    e ∈ within name es ↔ ∃ e' ∈ es, foldCase e'.1 = name ∧ e ∈ entries e'.2 := by
  simp only [within, List.mem_flatMap, mem_under]
  constructor
  · rintro ⟨_, ⟨e', there, own, rfl⟩, inside⟩
    exact ⟨e', there, own, inside⟩
  · rintro ⟨e', there, own, inside⟩
    exact ⟨e'.2, ⟨e', there, own, rfl⟩, inside⟩

theorem mergeEntries_append (es es' : List (String × Setting)) (t : Table Setting) :
    mergeEntries (es ++ es') t = mergeEntries es' (mergeEntries es t) := by
  induction es generalizing t with
  | nil => rw [List.nil_append, mergeEntries]
  | cons e rest ih => rw [List.cons_append, mergeEntries, mergeEntries, ih]

/-- Merges settings in under one name, one after another. -/
def mergeAll (settings : List Setting) (there : Option Setting) : Option Setting :=
  settings.foldl (fun there s => some (merge s there)) there

theorem get?_mergeEntries (name : String) (es : List (String × Setting)) (t : Table Setting) :
    (mergeEntries es t).get? name = mergeAll (under name es) (t.get? name) := by
  induction es generalizing t with
  | nil => rfl
  | cons e rest ih =>
    rw [mergeEntries, ih, Table.get?_insert]
    by_cases own : foldCase e.1 = name
    · simp [under, mergeAll, own]
    · simp [under, own, Ne.symm own]

/-! ## Values -/

theorem merge_value (value : ¬ s.IsTable) (there : Option Setting) : merge s there = s := by
  cases s with
  | table es => exact absurd ⟨es, rfl⟩ value
  | _ => rfl

/-- A value replaces all that was there before it. -/
theorem mergeAll_values {settings : List Setting} (values : ∀ s ∈ settings, ¬ s.IsTable) (there : Option Setting) :
    mergeAll settings there = settings.getLast?.or there := by
  induction settings generalizing there with
  | nil => rfl
  | cons s rest ih =>
    rw [mergeAll, List.foldl_cons, merge_value (values s (.head _)), ← mergeAll]
    rw [ih fun s' later => values s' (.tail _ later)]
    cases rest with
    | nil => rfl
    | cons s' rest => simp [List.getLast?_cons]

/-! ## Tables -/

theorem merge_table (filled : es ≠ []) (there : Option Setting) :
    merge (.table es) there = .table (mergeEntries es ((there.map entries).getD [])) := by
  cases es with
  | nil => exact absurd rfl filled
  | cons e rest => rfl

theorem merge_tables (es there : List (String × Setting)) :
    merge (.table es) (some (.table there)) = .table (mergeEntries es there) := by
  cases es with
  | nil => simp [merge, mergeEntries]
  | cons e rest => rfl

theorem mergeAll_tables {settings : List Setting} (tables : ∀ s ∈ settings, s.IsTable)
    (there : List (String × Setting)) :
    mergeAll settings (some (.table there)) = some (.table (mergeEntries (settings.flatMap entries) there)) := by
  induction settings generalizing there with
  | nil => simp [mergeAll, mergeEntries]
  | cons s rest ih =>
    obtain ⟨es, rfl⟩ := tables s (.head _)
    rw [mergeAll, List.foldl_cons, merge_tables, ← mergeAll, ih fun s' later => tables s' (.tail _ later)]
    rw [List.flatMap_cons, mergeEntries_append, entries]

/-- If only tables stand under a name, merging makes them one. -/
theorem get?_merged (tables : ∀ s ∈ under name es, s.IsTable) :
    (mergeEntries es []).get? name =
      if under name es = [] then none else some (.table (mergeEntries (within name es) [])) := by
  rw [get?_mergeEntries, within, Table.get?]
  cases settings : under name es with
  | nil => rfl
  | cons s rest =>
    rw [settings] at tables
    obtain ⟨first, rfl⟩ := tables s (.head _)
    -- The first table meets nothing, which is as good as an empty table.
    have alone : merge (.table first) none = merge (.table first) (some (.table [])) := by
      cases first <;> rfl
    rw [if_neg (by simp), mergeAll, List.foldl_cons, alone, ← List.foldl_cons, ← mergeAll, mergeAll_tables tables]

/-! ## Paths -/

/-- A setting under a path, as tables within each other. -/
def nested (s : Setting) : (path : List String) → List (String × Setting)
  | [] => []
  | [name] => [(name, s)]
  | name :: path => [(name, .table (nested s path))]

/-- The entries of a source, each under the path that its key spells. -/
def spread (source : List (String × Setting)) : List (String × Setting) :=
  source.flatMap fun e => nested e.2 (pathOf e.1)

theorem spread_append (source source' : List (String × Setting)) :
    spread (source ++ source') = spread source ++ spread source' :=
  List.flatMap_append

variable {path : List String} {field : String} {source : List (String × Setting)}

theorem under_spread (name : String) (source : List (String × Setting)) :
    under name (spread source) = source.flatMap fun e => under name (nested e.2 (pathOf e.1)) :=
  List.filterMap_flatMap

theorem within_spread (name : String) (source : List (String × Setting)) :
    within name (spread source) = source.flatMap fun e => within name (nested e.2 (pathOf e.1)) := by
  rw [within, under_spread, List.flatMap_assoc]
  rfl

theorem mem_under_within_spread : s ∈ under field (within name (spread source)) ↔
    ∃ e ∈ source, s ∈ under field (within name (nested e.2 (pathOf e.1))) := by
  rw [within_spread, under, List.filterMap_flatMap]
  exact List.mem_flatMap

/-- A setting under a path that ends deeper is inside of tables all the way. -/
theorem under_nested (elsewhere : path.map foldCase ≠ [name]) (here : s ∈ under name (nested s' path)) : s.IsTable := by
  obtain ⟨e, there, own, rfl⟩ := mem_under.mp here
  match path, there with
  | [last], there =>
    cases List.mem_singleton.mp there
    exact absurd (congrArg (fun n => [n]) own) elsewhere
  | _ :: next :: rest, there =>
    cases List.mem_singleton.mp there
    exact ⟨_, rfl⟩

/-- What a setting under a path puts under a name of a section is the setting itself, or a table if the path goes on. -/
theorem within_nested (elsewhere : path.map foldCase ≠ [name])
    (here : s ∈ under field (within name (nested s' path))) :
    ∃ rest, path.map foldCase = name :: field :: rest ∧ (rest = [] → s = s') := by
  obtain ⟨e, inside, own, rfl⟩ := mem_under.mp here
  obtain ⟨outer, there, around, inside⟩ := mem_within.mp inside
  match path, there with
  | [last], there =>
    cases List.mem_singleton.mp there
    exact absurd (congrArg (fun n => [n]) around) elsewhere
  | [first, last], there =>
    cases List.mem_singleton.mp there
    cases List.mem_singleton.mp inside
    exact ⟨[], by rw [← around, ← own]; rfl, fun _ => rfl⟩
  | first :: second :: next :: rest, there =>
    cases List.mem_singleton.mp there
    cases List.mem_singleton.mp inside
    exact ⟨(next :: rest).map foldCase, by rw [← around, ← own]; rfl, nofun⟩

theorem mem_within_nested (last : path.map foldCase = [name, field]) :
    s ∈ under field (within name (nested s path)) := by
  match path, last with
  | [first, second], last =>
    cases last
    exact mem_under.mpr ⟨(second, s), mem_within.mpr ⟨_, .head _, rfl, .head _⟩, rfl, rfl⟩

theorem assign_eq (t : Table Setting) (s : Setting) (path : List String) :
    assign t s path = mergeEntries (nested s path) t := by
  induction path generalizing t with
  | nil => rfl
  | cons name path ih =>
    cases path with
    | nil => rfl
    | cons next path =>
      have filled : nested s (next :: path) ≠ [] := by cases path <;> simp [nested]
      rw [assign, nested, mergeEntries, mergeEntries, merge_table filled, ih]
      all_goals exact List.cons_ne_nil _ _

theorem layered_eq (sources : List (List (String × Setting))) :
    layered sources = mergeEntries (spread sources.flatten) [] := by
  have folded : ∀ (source : List (String × Setting)) t,
      source.foldl (fun t e => assign t e.2 (pathOf e.1)) t = mergeEntries (spread source) t := by
    intro source
    induction source with
    | nil => exact fun _ => rfl
    | cons e rest ih =>
      intro t
      rw [List.foldl_cons, ih, assign_eq, spread, spread, List.flatMap_cons, mergeEntries_append]
  exact folded _ []

end Setting
end Handover

import Handover.Table

/-!
# Tables in the order of their names

A table that is made by insertions and removals has its names in increasing order. Such a table is told by what is
under each name: `Ordered.ext`.
-/

namespace Handover
namespace Table
variable {α : Type} {t u : Table α} {name other : String} {value : α}

theorem contains_iff_mem : t.contains name = true ↔ name ∈ t.names := by
  induction t with
  | nil => simp [contains, get?, names]
  | cons e rest ih =>
    obtain ⟨n, v⟩ := e
    simp only [contains, names] at ih
    by_cases same : n = name
    · simp [contains, get?, names, same]
    · simp [contains, get?, names, same, Ne.symm same, ih]

theorem contains_insert : (t.insert name value).contains other = (decide (other = name) || t.contains other) := by
  rw [contains, get?_insert]
  split
  · rename_i same
    simp [same]
  · rename_i differ
    simp [differ, contains]

theorem contains_erase_other (differ : other ≠ name) : (t.erase name).contains other = t.contains other := by
  rw [contains, get?_erase_of_ne differ, contains]

theorem contains_ofList (listed : List String) :
    (ofList (listed.map fun n => (n, ()))).contains name = true ↔ name ∈ listed := by
  have folded : ∀ t : Table Unit, ((listed.map fun n => (n, ())).foldl (fun t e => insert e.1 e.2 t) t).contains name =
      true ↔ name ∈ listed ∨ t.contains name = true := by
    induction listed with
    | nil => simp
    | cons n rest ih =>
      intro t
      rw [List.map_cons, List.foldl_cons, ih, contains_insert]
      simp only [List.mem_cons, Bool.or_eq_true, decide_eq_true_eq]
      rw [or_assoc, or_left_comm]
  rw [ofList, folded]
  simp [contains, get?]

theorem get?_none_iff : t.get? name = none ↔ name ∉ t.names := by
  rw [← contains_iff_mem, contains]
  cases t.get? name <;> simp

theorem get?_some_of_mem (there : name ∈ t.names) : ∃ value, t.get? name = some value := by
  rw [← contains_iff_mem, contains, Option.isSome_iff_exists] at there
  exact there

theorem mem_of_get? (there : t.get? name = some value) : (name, value) ∈ t := by
  induction t with
  | nil => cases there
  | cons e rest ih =>
    obtain ⟨n, v⟩ := e
    simp only [get?] at there
    split at there
    · rename_i same
      cases same
      cases there
      exact .head _
    · exact .tail _ (ih there)

theorem mem_names_insert : other ∈ (t.insert name value).names ↔ other = name ∨ other ∈ t.names := by
  simp only [← contains_iff_mem, contains_insert, Bool.or_eq_true, decide_eq_true_eq]

theorem erase_absent (absent : t.get? name = none) : t.erase name = t := by
  induction t with
  | nil => rfl
  | cons e rest ih =>
    obtain ⟨n, v⟩ := e
    simp only [get?] at absent
    split at absent
    · cases absent
    · rename_i differ
      rw [erase, if_neg differ, ih absent]

theorem names_erase_sublist (name : String) (t : Table α) : (t.erase name).names.Sublist t.names := by
  induction t with
  | nil => exact .slnil
  | cons e rest ih =>
    obtain ⟨n, v⟩ := e
    unfold erase
    split
    · exact ih.cons n
    · exact ih.cons_cons n

theorem erase_insert (name : String) (value : α) (t : Table α) : (t.insert name value).erase name = t.erase name := by
  induction t with
  | nil => simp [insert, erase]
  | cons e rest ih =>
    obtain ⟨n, v⟩ := e
    unfold insert
    split
    · rename_i same
      simp [erase, same]
    · rename_i differ
      split
      · simp [erase]
      · simp [erase, differ, ih]

/-- A value under a new name adds that name and nothing else. -/
theorem names_insert_perm (absent : t.get? name = none) (value : α) :
    (t.insert name value).names.Perm (name :: t.names) := by
  induction t with
  | nil => exact .refl _
  | cons e rest ih =>
    obtain ⟨n, v⟩ := e
    simp only [get?] at absent
    split at absent
    · cases absent
    · rename_i differ
      rw [insert, if_neg differ]
      split
      · exact .refl _
      · exact ((ih absent).cons n).trans (.swap name n (names rest))

/-! ## Increasing names -/

/-- The names increase. -/
def Ordered (t : Table α) : Prop := t.names.Pairwise (· < ·)

theorem ordered_nil : Ordered ([] : Table α) := .nil

theorem ordered_cons {n : String} {v : α} {rest : Table α} :
    Ordered ((n, v) :: rest) ↔ (∀ later ∈ rest.names, n < later) ∧ rest.Ordered :=
  List.pairwise_cons

theorem ordered_insert (ordered : t.Ordered) (name : String) (value : α) : (t.insert name value).Ordered := by
  induction t with
  | nil => exact List.pairwise_singleton _ _
  | cons e rest ih =>
    obtain ⟨n, v⟩ := e
    obtain ⟨least, ordered'⟩ := ordered_cons.mp ordered
    unfold insert
    split
    · rename_i same
      exact ordered_cons.mpr ⟨same ▸ least, ordered'⟩
    · rename_i differ
      split
      · rename_i before
        refine ordered_cons.mpr ⟨fun later there => ?_, ordered⟩
        rcases List.mem_cons.mp there with rfl | there
        · exact before
        · exact String.lt_trans before (least later there)
      · rename_i behind
        refine ordered_cons.mpr ⟨fun later there => ?_, ih ordered'⟩
        rcases mem_names_insert.mp there with rfl | there
        · exact Std.lt_of_le_of_ne (String.not_lt.mp behind) differ
        · exact least later there

theorem ordered_erase (ordered : t.Ordered) (name : String) : (t.erase name).Ordered :=
  List.Pairwise.sublist (names_erase_sublist name t) ordered

/-- Behind its first entry an ordered table has nothing more under that name. -/
theorem ordered_head {n : String} {v : α} {rest : Table α} (ordered : Ordered ((n, v) :: rest)) :
    rest.get? n = none :=
  get?_none_iff.mpr fun there => String.lt_irrefl n ((ordered_cons.mp ordered).1 n there)

theorem get?_of_mem (ordered : t.Ordered) (there : (name, value) ∈ t) : t.get? name = some value := by
  induction t with
  | nil => cases there
  | cons e rest ih =>
    obtain ⟨n, v⟩ := e
    obtain ⟨least, ordered'⟩ := ordered_cons.mp ordered
    rcases List.mem_cons.mp there with here | later
    · cases here
      simp [get?]
    · have before := least name (List.mem_map.mpr ⟨_, later, rfl⟩)
      have differ : n ≠ name := fun same => String.lt_irrefl n (same ▸ before)
      rw [get?, if_neg differ]
      exact ih ordered' later

theorem Ordered.ext (ordered : t.Ordered) (ordered' : u.Ordered) (same : ∀ name, t.get? name = u.get? name) :
    t = u := by
  induction t generalizing u with
  | nil =>
    cases u with
    | nil => rfl
    | cons e rest => simpa [get?] using same e.1
  | cons e rest ih =>
    cases u with
    | nil => simpa [get?] using same e.1
    | cons e' rest' =>
      obtain ⟨n, v⟩ := e
      obtain ⟨n', v'⟩ := e'
      have first : n = n' := by
        -- Each of the two names is in the other table, so none of them comes before the other one.
        have mine : n ∈ Table.names ((n', v') :: rest') := by
          rw [← contains_iff_mem, contains, ← same n]
          simp [get?]
        have yours : n' ∈ Table.names ((n, v) :: rest) := by
          rw [← contains_iff_mem, contains, same n']
          simp [get?]
        rcases List.mem_cons.mp mine with first | later
        · exact first
        rcases List.mem_cons.mp yours with first | later'
        · exact first.symm
        exact absurd ((ordered_cons.mp ordered).1 n' later') (String.lt_asymm ((ordered_cons.mp ordered').1 n later))
      subst first
      have value : v = v' := by simpa [get?] using same n
      subst value
      rw [ih (ordered_cons.mp ordered).2 (ordered_cons.mp ordered').2]
      intro name
      by_cases own : n = name
      · rw [← own, ordered_head ordered, ordered_head ordered']
      · simpa [get?, own] using same name

theorem insert_same (ordered : t.Ordered) (there : t.get? name = some value) : t.insert name value = t := by
  refine (ordered_insert ordered name value).ext ordered fun other => ?_
  rw [get?_insert]
  split
  · rename_i same
    rw [same, there]
  · rfl

/-- A removal takes what it removes from what is counted, and nothing else. -/
theorem countP_erase (ordered : t.Ordered) (there : t.get? name = some value) (p : α → Bool) :
    t.values.countP p = (t.erase name).values.countP p + if p value then 1 else 0 := by
  induction t with
  | nil => cases there
  | cons e rest ih =>
    obtain ⟨n, v⟩ := e
    obtain ⟨_, ordered'⟩ := ordered_cons.mp ordered
    by_cases own : n = name
    · subst own
      obtain rfl : v = value := by simpa [get?] using there
      have others : erase n ((n, v) :: rest) = rest := by rw [erase, if_pos rfl, erase_absent (ordered_head ordered)]
      rw [others, values, List.map_cons, List.countP_cons, values]
    · have later := ih ordered' (by simpa [get?, own] using there)
      simp only [erase, if_neg own, values, List.map_cons, List.countP_cons] at later ⊢
      omega

/-! ## Names alone -/

/-- The names as a table of their own. -/
def keys (t : Table α) : Table Unit := t.map fun e => (e.1, ())

@[simp]
theorem names_keys (t : Table α) : t.keys.names = t.names := by
  simp [keys, names]

theorem keys_insert (t : Table α) (name : String) (value : α) : (t.insert name value).keys = t.keys.insert name () := by
  induction t with
  | nil => rfl
  | cons e rest ih =>
    obtain ⟨n, v⟩ := e
    simp only [keys, List.map_cons] at ih ⊢
    rw [insert, insert]
    split
    · rfl
    · split
      · rfl
      · rw [List.map_cons, ih]

theorem keys_erase (t : Table α) (name : String) : (t.erase name).keys = t.keys.erase name := by
  induction t with
  | nil => rfl
  | cons e rest ih =>
    obtain ⟨n, v⟩ := e
    simp only [keys, List.map_cons] at ih ⊢
    rw [erase, erase]
    split
    · exact ih
    · rw [List.map_cons, ih]

theorem contains_keys : t.keys.contains name = t.contains name := by
  rw [Bool.eq_iff_iff, contains_iff_mem, contains_iff_mem, names_keys]

theorem keys_ordered (ordered : t.Ordered) : t.keys.Ordered := by
  rw [Ordered, names_keys]
  exact ordered

theorem keys_insert_known (ordered : t.Ordered) (known : t.contains name = true) (value : α) :
    (t.insert name value).keys = t.keys := by
  obtain ⟨_, there⟩ := get?_some_of_mem (t := t.keys) (contains_iff_mem.mp (contains_keys.trans known))
  rw [keys_insert]
  exact insert_same (keys_ordered ordered) there

theorem ofList_ordered (entries : List (String × α)) : (ofList entries).Ordered := by
  have folded : ∀ t : Table α, t.Ordered → (entries.foldl (fun t e => insert e.1 e.2 t) t).Ordered := by
    induction entries with
    | nil => exact fun _ ordered => ordered
    | cons e rest ih => exact fun t ordered => ih _ (ordered_insert ordered e.1 e.2)
  exact folded [] ordered_nil

/-- The names of an ordered table give its names back. -/
theorem ofList_names (ordered : t.Ordered) : ofList (t.names.map fun n => (n, ())) = t.keys := by
  refine (ofList_ordered _).ext (keys_ordered ordered) fun name => ?_
  have same : (ofList (t.names.map fun n => (n, ()))).contains name = t.keys.contains name := by
    rw [Bool.eq_iff_iff, contains_ofList, contains_iff_mem, names_keys]
  simp only [contains] at same
  cases left : get? name (ofList (t.names.map fun n => (n, ()))) <;> cases right : t.keys.get? name <;> simp_all

end Table
end Handover

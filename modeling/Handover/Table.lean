/-!
# Tables

A table lists values under names, in the order of the names. `insert` and `erase` keep the order; what is
under a name afterwards is said by `get?_insert` and `get?_erase`.
-/

namespace Handover

abbrev Table (α : Type) := List (String × α)

namespace Table
variable {α β : Type}

def get? (name : String) : Table α → Option α
  | [] => none
  | (n, v) :: rest => if n = name then some v else get? name rest

def contains (name : String) (t : Table α) : Bool := (get? name t).isSome

/-- Puts a value under a name, in place of the one there. -/
def insert (name : String) (value : α) : Table α → Table α
  | [] => [(name, value)]
  | (n, v) :: rest =>
    if n = name then (name, value) :: rest
    else if name < n then (name, value) :: (n, v) :: rest
    else (n, v) :: insert name value rest

def erase (name : String) : Table α → Table α
  | [] => []
  | (n, v) :: rest => if n = name then erase name rest else (n, v) :: erase name rest

def names (t : Table α) : List String := t.map (·.1)

def values (t : Table α) : List α := t.map (·.2)

def ofList (entries : List (String × α)) : Table α :=
  entries.foldl (fun t e => insert e.1 e.2 t) []

theorem get?_insert_self (name : String) (value : α) (t : Table α) :
    get? name (insert name value t) = some value := by
  induction t with
  | nil => simp [insert, get?]
  | cons e rest ih =>
    obtain ⟨n, v⟩ := e
    unfold insert
    split
    · simp [get?]
    · split
      · simp [get?]
      · rename_i h _
        simp [get?, h, ih]

theorem get?_insert_of_ne {name other : String} (h : other ≠ name) (value : α) (t : Table α) :
    get? other (insert name value t) = get? other t := by
  induction t with
  | nil => simp [insert, get?, Ne.symm h]
  | cons e rest ih =>
    obtain ⟨n, v⟩ := e
    unfold insert
    split
    · rename_i same
      simp [get?, same, Ne.symm h]
    · split
      · simp [get?, Ne.symm h]
      · simp [get?, ih]

theorem get?_insert (name other : String) (value : α) (t : Table α) :
    get? other (insert name value t) = if other = name then some value else get? other t := by
  split
  · rename_i h
    rw [h, get?_insert_self]
  · rename_i h
    exact get?_insert_of_ne h value t

theorem get?_erase_self (name : String) (t : Table α) : get? name (erase name t) = none := by
  induction t with
  | nil => rfl
  | cons e rest ih =>
    obtain ⟨n, v⟩ := e
    unfold erase
    split
    · exact ih
    · rename_i h
      simp [get?, h, ih]

theorem get?_erase_of_ne {name other : String} (h : other ≠ name) (t : Table α) :
    get? other (erase name t) = get? other t := by
  induction t with
  | nil => rfl
  | cons e rest ih =>
    obtain ⟨n, v⟩ := e
    unfold erase
    split
    · rename_i same
      simp [get?, same, Ne.symm h, ih]
    · simp [get?, ih]

theorem get?_erase (name other : String) (t : Table α) :
    get? other (erase name t) = if other = name then none else get? other t := by
  split
  · rename_i h
    rw [h, get?_erase_self]
  · rename_i h
    exact get?_erase_of_ne h t

theorem get?_none_of_not_mem {name : String} {t : Table α} (absent : name ∉ t.names) : get? name t = none := by
  induction t with
  | nil => rfl
  | cons e rest ih =>
    obtain ⟨n, v⟩ := e
    simp only [names, List.map_cons, List.mem_cons, not_or] at absent
    simp [get?, Ne.symm absent.1, ih absent.2]

end Table
end Handover

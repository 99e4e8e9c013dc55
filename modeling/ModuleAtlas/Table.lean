/-! # Tables

A table gives values to names. A name keeps the place at which it came first, whatever
value it is given later.
-/

namespace ModuleAtlas

/-- Values by name, in the order in which the names came first. -/
abbrev Table (α : Type) := List (String × α)

/-- A list of names with a name at its end, unless it is there already. -/
def insertName (names : List String) (name : String) : List String :=
  if name ∈ names then names else names ++ [name]

/-- Inserting a name adds that name and no other. -/
theorem mem_insertName {names : List String} {name other : String} :
    other ∈ insertName names name ↔ other ∈ names ∨ other = name := by
  unfold insertName
  split
  · next member => exact ⟨Or.inl, fun either => either.elim id fun same => same ▸ member⟩
  · rw [List.mem_append, List.mem_singleton]

/-- A name that is there already is not inserted again. -/
theorem insertName_of_mem {names : List String} {name : String} (member : name ∈ names) :
    insertName names name = names := if_pos member

/-- A new name at the end keeps names distinct. -/
theorem nodup_concat {names : List String} {name : String} (distinct : names.Nodup)
    (absent : name ∉ names) : (names ++ [name]).Nodup := by
  rw [List.nodup_append]
  refine ⟨distinct, by simp, fun first member second last => ?_⟩
  rw [List.mem_singleton] at last
  exact fun same => absent (last ▸ same ▸ member)

/-- Inserting keeps names distinct. -/
theorem nodup_insertName {names : List String} (distinct : names.Nodup) (name : String) :
    (insertName names name).Nodup := by
  unfold insertName
  split
  · exact distinct
  · next absent => exact nodup_concat distinct absent

namespace Table

variable {α : Type}

/-- The names of a table. -/
def names (table : Table α) : List String := table.map Prod.fst

/-- A table with a value for a name: the later value in the earlier place. -/
def set (table : Table α) (name : String) (value : α) : Table α :=
  if name ∈ table.names then table.map fun row => if row.1 = name then (name, value) else row
  else table ++ [(name, value)]

/-- A row answers for its own name and leaves all others to the rows behind it. -/
theorem lookup_cons (row : String × α) (table : Table α) (name : String) :
    List.lookup name (row :: table) = if name = row.1 then some row.2 else table.lookup name := by
  rw [List.lookup_cons]
  by_cases here : name = row.1
  · rw [if_pos here, beq_iff_eq.mpr here]
  · rw [if_neg here, beq_eq_false_iff_ne.mpr here]

/-- The names of a table are those with a value. -/
theorem mem_names_iff {table : Table α} {name : String} :
    name ∈ table.names ↔ (table.lookup name).isSome = true := by
  unfold names
  induction table with
  | nil => simp
  | cons row table ih =>
      rw [List.map_cons, List.mem_cons, ih, lookup_cons]
      by_cases here : name = row.1 <;> simp only [here, true_or, false_or, ↓reduceIte,
        Option.isSome_some]

/-- Setting a value inserts the name. -/
theorem names_set (table : Table α) (name : String) (value : α) :
    (table.set name value).names = insertName table.names name := by
  have kept : names (table.map fun row => if row.1 = name then (name, value) else row) =
      table.names := by
    unfold names
    rw [List.map_map]
    apply List.map_congr_left
    intro row _
    by_cases here : row.1 = name <;> simp only [Function.comp_apply, here, ↓reduceIte]
  unfold set insertName
  split
  · exact kept
  · rw [names, List.map_append]
    rfl

private theorem lookup_replaced (table : Table α) (name other : String) (value : α) :
    (table.map fun row => if row.1 = name then (name, value) else row).lookup other =
      if other = name then (table.lookup name).map fun _ => value else table.lookup other := by
  induction table with
  | nil => simp
  | cons row table ih =>
      rw [List.map_cons, lookup_cons, ih, lookup_cons, lookup_cons]
      by_cases here : row.1 = name
      · by_cases same : other = name
        · simp [here, same]
        · simp [here, same]
      · by_cases same : other = name
        · simp [here, same, Ne.symm here]
        · simp [here, same]

/-- Setting a value changes the value of this name and of no other. -/
theorem lookup_set (table : Table α) (name other : String) (value : α) :
    (table.set name value).lookup other =
      if other = name then some value else table.lookup other := by
  unfold set
  by_cases known : name ∈ table.names
  · obtain ⟨old, found⟩ := Option.isSome_iff_exists.mp (mem_names_iff.mp known)
    rw [if_pos known, lookup_replaced, found, Option.map_some]
  · have missing : table.lookup name = none := by
      rw [← Option.not_isSome_iff_eq_none]
      exact fun found => known (mem_names_iff.mpr found)
    rw [if_neg known, List.lookup_append, lookup_cons, List.lookup_nil]
    by_cases same : other = name
    · simp [same, missing]
    · simp [same]

end Table

end ModuleAtlas

set_option autoImplicit false

/-! Tables: finite maps in order of first insertion, one entry for each key. -/

namespace Lox

structure Table (κ α : Type) where
  entries : List (κ × α)
deriving Repr

namespace Table

variable {κ α : Type}

def empty : Table κ α := ⟨[]⟩

instance : Inhabited (Table κ α) := ⟨empty⟩

def lookup [DecidableEq κ] (key : κ) : List (κ × α) → Option α
  | [] => none
  | (k, value) :: rest => if k = key then some value else lookup key rest

/-- Changes the entry of a key, or adds one at the end. -/
def update [DecidableEq κ] (key : κ) (value : α) : List (κ × α) → List (κ × α)
  | [] => [(key, value)]
  | (k, old) :: rest => if k = key then (key, value) :: rest else (k, old) :: update key value rest

variable [DecidableEq κ]

def get? (table : Table κ α) (key : κ) : Option α :=
  lookup key table.entries

def contains (table : Table κ α) (key : κ) : Bool :=
  (table.get? key).isSome

def insert (table : Table κ α) (key : κ) (value : α) : Table κ α :=
  ⟨update key value table.entries⟩

omit [DecidableEq κ] in
def keys (table : Table κ α) : List κ :=
  table.entries.map (·.1)

@[simp]
theorem get?_empty (key : κ) : (empty : Table κ α).get? key = none := rfl

theorem lookup_update (key other : κ) (value : α) (entries : List (κ × α)) :
    lookup other (update key value entries) =
      if key = other then some value else lookup other entries := by
  induction entries with
  | nil => simp [update, lookup]
  | cons entry rest ih =>
      obtain ⟨k, old⟩ := entry
      by_cases same : k = key
      · subst same
        by_cases found : k = other <;> simp [update, lookup, found]
      · by_cases found : k = other
        · subst found
          simp [update, lookup, same, Ne.symm same]
        · simp [update, lookup, same, found, ih]

theorem get?_insert (table : Table κ α) (key other : κ) (value : α) :
    (table.insert key value).get? other = if key = other then some value else table.get? other :=
  lookup_update key other value table.entries

theorem isSome_lookup (key : κ) (entries : List (κ × α)) :
    (lookup key entries).isSome = true ↔ key ∈ entries.map (·.1) := by
  induction entries with
  | nil => simp [lookup]
  | cons entry rest ih =>
      obtain ⟨k, value⟩ := entry
      by_cases same : k = key
      · simp [lookup, same]
      · simp [lookup, same, Ne.symm same, ih]

theorem contains_iff_mem_keys (table : Table κ α) (key : κ) :
    table.contains key = true ↔ key ∈ table.keys :=
  isSome_lookup key table.entries

theorem keys_update (key : κ) (value : α) (entries : List (κ × α)) :
    (update key value entries).map (·.1) =
      if key ∈ entries.map (·.1) then entries.map (·.1) else entries.map (·.1) ++ [key] := by
  induction entries with
  | nil => simp [update]
  | cons entry rest ih =>
      obtain ⟨k, old⟩ := entry
      by_cases same : k = key
      · simp [update, same]
      · by_cases known : key ∈ rest.map (·.1)
        · simp only [update, if_neg same, List.map_cons, ih, if_pos known,
            if_pos (List.mem_cons_of_mem k known)]
        · have others : key ∉ k :: rest.map (·.1) := by
            simp only [List.mem_cons, not_or]
            exact ⟨Ne.symm same, known⟩
          simp only [update, if_neg same, List.map_cons, ih, if_neg known, if_neg others,
            List.cons_append]

/-- A key that is not new stays where it is. -/
theorem keys_insert (table : Table κ α) (key : κ) (value : α) :
    (table.insert key value).keys =
      if key ∈ table.keys then table.keys else table.keys ++ [key] :=
  keys_update key value table.entries

theorem mem_keys_insert (table : Table κ α) (key other : κ) (value : α) :
    other ∈ (table.insert key value).keys ↔ other = key ∨ other ∈ table.keys := by
  rw [keys_insert]
  split
  · next known =>
      refine ⟨.inr, fun either => ?_⟩
      rcases either with same | member
      · exact same ▸ known
      · exact member
  · simp only [List.mem_append, List.mem_singleton, or_comm]

end Table
end Lox

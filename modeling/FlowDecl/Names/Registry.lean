/-!
# Names

Names are kept in tables, and a registry holds tables that may share their names.
-/

namespace FlowDecl

/-! ## Name tables

A table gives every name that it has met a handle, the position at which the
name was entered.  Two handles of one table are equal exactly when their names
are, and a handle keeps its name while the table grows.

The names of a table are pairwise distinct, which the type records.
-/

/-- The position of a name in a table. -/
structure Handle where
  /-- The position, from zero. -/
  index : Nat
deriving DecidableEq, Repr, Inhabited

/-- The distinct names met so far, in the order in which they were first met. -/
structure NameTable where
  /-- The names. -/
  names : List String := []
  /-- No name is entered twice. -/
  distinct : names.Nodup := by exact List.nodup_nil

namespace NameTable

instance : Inhabited NameTable := ⟨{}⟩

/-- The table without names. -/
def empty : NameTable := {}

/-- The number of names. -/
def size (t : NameTable) : Nat := t.names.length

/-- Whether the table has no names. -/
def isEmpty (t : NameTable) : Bool := t.names.isEmpty

/-- The table with a name entered at its end, unless it has the name. -/
def insert (t : NameTable) (name : String) : NameTable :=
  if known : name ∈ t.names then t
  else
    ⟨t.names ++ [name], by
      rw [List.nodup_append]
      refine ⟨t.distinct, by simp, ?_⟩
      intro a ha b hb
      simp only [List.mem_singleton] at hb
      subst hb
      rintro rfl
      exact known ha⟩

/-- The handle of a name of the table.  Any other name has the position at which
it would be entered. -/
def handle (t : NameTable) (name : String) : Handle := ⟨t.names.idxOf name⟩

/-- The table with a name entered, and the handle of the name. -/
def intern (t : NameTable) (name : String) : NameTable × Handle :=
  (t.insert name, (t.insert name).handle name)

/-- The table with names entered one after the other. -/
def insertAll (t : NameTable) (names : List String) : NameTable := names.foldl insert t

/-- The name of a handle, if the table gave it. -/
def resolve? (t : NameTable) (h : Handle) : Option String := t.names[h.index]?

/-- The name of a handle of the table, and no text for any other handle. -/
def resolve (t : NameTable) (h : Handle) : String := (t.resolve? h).getD ""

/-! ### Entering and resolving -/

/-- A table that a name is entered into has that name and those it had. -/
theorem mem_insert {t : NameTable} {name other : String} :
    other ∈ (t.insert name).names ↔ other ∈ t.names ∨ other = name := by
  unfold insert
  split
  · next known =>
    constructor
    · exact Or.inl
    · rintro (h | rfl)
      · exact h
      · exact known
  · simp

/-- Entering a name keeps the handles of the names before it. -/
theorem names_insert_eq_append (t : NameTable) (name : String) :
    ∃ more, (t.insert name).names = t.names ++ more := by
  unfold insert
  split
  · exact ⟨[], by simp⟩
  · exact ⟨[name], rfl⟩

/-- Entering names keeps the places of those that are there. -/
theorem names_insertAll_eq_append (t : NameTable) (names : List String) :
    ∃ more, (t.insertAll names).names = t.names ++ more := by
  induction names generalizing t with
  | nil => exact ⟨[], by simp [insertAll]⟩
  | cons name names ih =>
    obtain ⟨first, hFirst⟩ := t.names_insert_eq_append name
    obtain ⟨rest, hRest⟩ := ih (t.insert name)
    exact ⟨first ++ rest, by
      rw [← List.append_assoc, ← hFirst, ← hRest]
      rfl⟩

theorem mem_insertAll {t : NameTable} {names : List String} {other : String} :
    other ∈ (t.insertAll names).names ↔ other ∈ t.names ∨ other ∈ names := by
  induction names generalizing t with
  | nil => simp [insertAll]
  | cons name names ih =>
    have step : t.insertAll (name :: names) = (t.insert name).insertAll names := rfl
    rw [step, ih, mem_insert]
    simp only [List.mem_cons]
    constructor
    · rintro ((h | h) | h)
      · exact Or.inl h
      · exact Or.inr (Or.inl h)
      · exact Or.inr (Or.inr h)
    · rintro (h | h | h)
      · exact Or.inl (Or.inl h)
      · exact Or.inl (Or.inr h)
      · exact Or.inr h

/-- The handle of a name of the table leads to the name. -/
theorem resolve?_handle {t : NameTable} {name : String} (known : name ∈ t.names) :
    t.resolve? (t.handle name) = some name := by
  unfold resolve? handle
  rw [List.getElem?_eq_getElem (List.idxOf_lt_length_of_mem known)]
  simp

/-- A name that is in a table is found again through its handle. -/
theorem resolve_handle {t : NameTable} {name : String} (known : name ∈ t.names) :
    t.resolve (t.handle name) = name := by
  simp [resolve, resolve?_handle known]

end NameTable

/-! ### Tests -/

example : ((NameTable.empty.intern "a").1.intern "b").2 = ⟨1⟩ := by decide
example : ((NameTable.empty.insertAll ["a", "b", "a"]).names) = ["a", "b"] := by decide

/-! ## Shared name tables

A registry holds name tables that may share their names.  A table is known by
its number and points to a store.  A clone points to the store of the table it
was made from, so a name entered through one of the two is known to both.  A
fresh table has a store of its own.
-/

/-- Numbered tables over shared stores. -/
structure Registry where
  /-- The stores. -/
  stores : List NameTable
  /-- The store of each table. -/
  owners : List Nat

namespace Registry

/-- The registry without tables. -/
def empty : Registry := ⟨[], []⟩

/-- The names known to a table. -/
def store? (r : Registry) (table : Nat) : Option NameTable := do
  let owner ← r.owners[table]?
  r.stores[owner]?

/-- The registry with a table that shares nothing, and its number. -/
def fresh (r : Registry) : Registry × Nat :=
  (⟨r.stores ++ [.empty], r.owners ++ [r.stores.length]⟩, r.owners.length)

/-- The registry with another table over the store of a given one, and its number. -/
def clone? (r : Registry) (table : Nat) : Option (Registry × Nat) := do
  let owner ← r.owners[table]?
  return (⟨r.stores, r.owners ++ [owner]⟩, r.owners.length)

/-- The registry with a name entered through a table, and the handle of the name. -/
def intern? (r : Registry) (table : Nat) (name : String) : Option (Registry × Handle) := do
  let owner ← r.owners[table]?
  let store ← r.stores[owner]?
  let (store, handle) := store.intern name
  return (⟨r.stores.set owner store, r.owners⟩, handle)

/-- The name of a handle, as a table knows it. -/
def resolve? (r : Registry) (table : Nat) (h : Handle) : Option String := do
  (← r.store? table).resolve? h

end Registry

end FlowDecl

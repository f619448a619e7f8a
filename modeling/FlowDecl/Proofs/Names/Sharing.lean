import FlowDecl.Names.Registry
import Mathlib.Data.Set.Card
import Mathlib.Logic.Relation

/-!
# Tables that share names

Steps on the tables of a registry come in any order and through any table.  What they did is kept
in a history, the list of the steps with their answers.  The statements here are about histories,
and do not say where a registry keeps its names.

Two tables are *related* in a history if cloning leads from one to the other, in any direction and
over any number of clones.  A registry keeps the tables that are related over one store, and no
other table over this store (`Linked`).  The names of the store are those that were entered
through its tables, and a handle leads to the name that it was given for (`Filled`).  Each step
preserves both, and what is seen from outside is read off from them (`Filled.shows`).
-/

namespace FlowDecl

/-! ## Steps and answers -/

/-- A step on the tables of a registry. -/
inductive TableStep where
  /-- Makes a table that shares nothing. -/
  | fresh
  /-- Makes another table over the names of a table. -/
  | clone (table : Nat)
  /-- Enters a name through a table. -/
  | intern (table : Nat) (name : String)
  /-- Looks up a handle through a table. -/
  | resolve (table : Nat) (h : Handle)
deriving DecidableEq, Repr

/-- What is known after a step. -/
inductive TableAnswer where
  /-- The number of a new table. -/
  | table (number : Nat)
  /-- The handle of a name. -/
  | handle (h : Handle)
  /-- The name of a handle. -/
  | text (name : String)
deriving DecidableEq, Repr

/-- Steps with their answers, in order. -/
abbrev TableHistory : Type := List (TableStep × Option TableAnswer)

namespace Registry

/-- Takes a step.  One through a table that is not there, or with a handle that the table does
not know, changes nothing and has no answer. -/
def take (r : Registry) : TableStep → Registry × Option TableAnswer
  | .fresh => (r.fresh.1, some (.table r.fresh.2))
  | .clone table =>
    match r.clone? table with
    | none => (r, none)
    | some (r, number) => (r, some (.table number))
  | .intern table name =>
    match r.intern? table name with
    | none => (r, none)
    | some (r, h) => (r, some (.handle h))
  | .resolve table h => (r, (r.resolve? table h).map .text)

/-- Takes steps one after the other. -/
def run (r : Registry) (steps : List TableStep) : Registry :=
  steps.foldl (fun r x => (r.take x).1) r

/-- The history of some steps. -/
def history (r : Registry) : List TableStep → TableHistory
  | [] => []
  | x :: steps => (x, (r.take x).2) :: (r.take x).1.history steps

theorem run_concat (r : Registry) (steps : List TableStep) (x : TableStep) :
    r.run (steps ++ [x]) = ((r.run steps).take x).1 := by
  simp [run]

theorem history_append (r : Registry) (a b : List TableStep) :
    r.history (a ++ b) = r.history a ++ (r.run a).history b := by
  induction a generalizing r with
  | nil => rfl
  | cons x a ih =>
    rw [List.cons_append, history, history, ih]
    rfl

theorem history_concat (r : Registry) (steps : List TableStep) (x : TableStep) :
    r.history (steps ++ [x]) = r.history steps ++ [(x, ((r.run steps).take x).2)] :=
  r.history_append steps [x]

end Registry

namespace TableHistory

/-- A table was made as a clone of another one. -/
def Cloned (past : TableHistory) (table number : Nat) : Prop :=
  (.clone table, some (.table number)) ∈ past

/-- Cloning leads from one table to the other. -/
def Related (past : TableHistory) : Nat → Nat → Prop := Relation.EqvGen past.Cloned

/-- A handle was given for a name that was entered through a table. -/
def Gave (past : TableHistory) (table : Nat) (name : String) (h : Handle) : Prop :=
  (.intern table name, some (.handle h)) ∈ past

instance (past : TableHistory) (table number : Nat) : Decidable (past.Cloned table number) :=
  inferInstanceAs (Decidable (_ ∈ past))

instance (past : TableHistory) (table : Nat) (name : String) (h : Handle) :
    Decidable (past.Gave table name h) :=
  inferInstanceAs (Decidable (_ ∈ past))

/-- The names that were entered through a table or one that is related to it. -/
def entered (past : TableHistory) (table : Nat) : Set String :=
  {name | ∃ other h, past.Related table other ∧ past.Gave other name h}

theorem Related.mono {past later : TableHistory} (grows : past ⊆ later) {a b : Nat}
    (related : past.Related a b) : later.Related a b :=
  Relation.EqvGen.mono (fun _ _ cloned => grows cloned) _ _ related

end TableHistory

/-! ## What a step does -/

/-- A handle keeps its name when another one is entered. -/
theorem NameTable.resolve?_insert {t : NameTable} {h : Handle} {name : String}
    (known : t.resolve? h = some name) (other : String) :
    (t.insert other).resolve? h = some name := by
  obtain ⟨more, hMore⟩ := t.names_insert_eq_append other
  rw [resolve?] at known ⊢
  rw [hMore, List.getElem?_append_left (List.getElem?_eq_some_iff.mp known).1, known]

/-- A name has one handle. -/
theorem NameTable.resolve?_inj {t : NameTable} {h k : Handle} {name : String}
    (first : t.resolve? h = some name) (second : t.resolve? k = some name) : h = k := by
  obtain ⟨i⟩ := h
  obtain ⟨j⟩ := k
  have bound : i < t.names.length := (List.getElem?_eq_some_iff.mp first).1
  exact congrArg Handle.mk ((List.getElem?_inj bound t.distinct).mp (first.trans second.symm))

namespace Registry

theorem store?_eq_some_iff {r : Registry} {table : Nat} {t : NameTable} :
    r.store? table = some t ↔
      ∃ owner, r.owners[table]? = some owner ∧ r.stores[owner]? = some t := by
  simp [store?, Option.bind_eq_some_iff]

/-- What a step does: it makes a table, enters a name, or changes nothing. -/
theorem take_cases (r : Registry) (x : TableStep) :
    (x = .fresh ∧ r.take x =
        (⟨r.stores ++ [.empty], r.owners ++ [r.stores.length]⟩, some (.table r.owners.length))) ∨
      (∃ table owner, x = .clone table ∧ r.owners[table]? = some owner ∧
        r.take x = (⟨r.stores, r.owners ++ [owner]⟩, some (.table r.owners.length))) ∨
      (∃ table name owner t, x = .intern table name ∧ r.owners[table]? = some owner ∧
        r.stores[owner]? = some t ∧
        r.take x = (⟨r.stores.set owner (t.insert name), r.owners⟩,
          some (.handle ((t.insert name).handle name)))) ∨
      ∃ answer, r.take x = (r, answer) ∧ (∀ number, answer ≠ some (.table number)) ∧
        ∀ h, answer ≠ some (.handle h) := by
  have idle : r.take x = (r, none) → ∃ answer, r.take x = (r, answer) ∧
      (∀ number, answer ≠ some (.table number)) ∧ ∀ h, answer ≠ some (.handle h) :=
    fun refused => ⟨none, refused, nofun, nofun⟩
  cases x with
  | fresh => exact .inl ⟨rfl, rfl⟩
  | clone table =>
    cases owned : r.owners[table]? with
    | none => exact .inr (.inr (.inr (idle (by simp [take, clone?, owned]))))
    | some owner => exact .inr (.inl ⟨table, owner, rfl, owned, by simp [take, clone?, owned]⟩)
  | intern table name =>
    cases owned : r.owners[table]? with
    | none => exact .inr (.inr (.inr (idle (by simp [take, intern?, owned]))))
    | some owner =>
      cases stored : r.stores[owner]? with
      | none => exact .inr (.inr (.inr (idle (by simp [take, intern?, owned, stored]))))
      | some t =>
        refine .inr (.inr (.inl ⟨table, name, owner, t, rfl, owned, stored, ?_⟩))
        simp [take, intern?, owned, stored, NameTable.intern]
  | resolve table h =>
    refine .inr (.inr (.inr ⟨_, rfl, ?_, ?_⟩))
    · intro number
      cases r.resolve? table h <;> simp
    · intro k
      cases r.resolve? table h <;> simp

/-! ## Tables over one store -/

theorem getElem?_concat_eq_some_iff {α : Type} {as : List α} {a b : α} {i : Nat} :
    (as ++ [a])[i]? = some b ↔ as[i]? = some b ∨ i = as.length ∧ a = b := by
  rcases lt_trichotomy i as.length with before | rfl | after
  · simp [List.getElem?_append_left before, before.ne]
  · simp
  · have past : as.length + 1 ≤ i := after
    simp [List.getElem?_append_right after.le, after.le, after.ne',
      Nat.sub_ne_zero_of_lt after]

/-- Tables are over one store exactly if the history relates them. -/
structure Linked (r : Registry) (past : TableHistory) : Prop where
  /-- Every table has a store. -/
  stored : ∀ {table owner : Nat}, r.owners[table]? = some owner → owner < r.stores.length
  /-- The tables are those that were made. -/
  made : ∀ {table : Nat}, table < r.owners.length ↔ ∃ x, (x, some (.table table)) ∈ past
  /-- A clone is over the store of the table that it was made from. -/
  cloned : ∀ {table number : Nat}, past.Cloned table number →
    ∃ owner, r.owners[table]? = some owner ∧ r.owners[number]? = some owner
  /-- Tables over one store are related. -/
  shared : ∀ {a b owner : Nat}, r.owners[a]? = some owner → r.owners[b]? = some owner →
    past.Related a b

/-- The names of a store are those that were entered through its tables. -/
structure Filled (r : Registry) (past : TableHistory) : Prop where
  /-- A name is in a store exactly if a table over the store gave a handle for it. -/
  names : ∀ {owner : Nat} {t}, r.stores[owner]? = some t → ∀ name,
    name ∈ t.names ↔ ∃ table h, r.owners[table]? = some owner ∧ past.Gave table name h
  /-- A handle leads to its name. -/
  gave : ∀ {table name h}, past.Gave table name h →
    ∃ owner t, r.owners[table]? = some owner ∧ r.stores[owner]? = some t ∧
      t.resolve? h = some name

variable {r : Registry} {past : TableHistory} {x : TableStep} {answer : Option TableAnswer}

/-- Tables that are related are over one store. -/
theorem Linked.owner_eq (linked : r.Linked past) {a b : Nat} (related : past.Related a b) :
    r.owners[a]? = r.owners[b]? := by
  induction related with
  | rel a b cloned =>
    obtain ⟨owner, hA, hB⟩ := linked.cloned cloned
    rw [hA, hB]
  | refl a => rfl
  | symm a b _ ih => exact ih.symm
  | trans a b c _ _ first second => exact first.trans second

/-- A step that makes no table keeps the links. -/
theorem Linked.of_no_table (linked : r.Linked past) {stores : List NameTable}
    (length : stores.length = r.stores.length) (none : ∀ number, answer ≠ some (.table number)) :
    (⟨stores, r.owners⟩ : Registry).Linked (past ++ [(x, answer)]) := by
  have old : ∀ {y number}, (y, some (.table number)) ∈ past ++ [(x, answer)] →
      (y, some (.table number)) ∈ past := by
    intro y number member
    rcases List.mem_append.mp member with member | new
    · exact member
    · cases List.mem_singleton.mp new
      exact absurd rfl (none number)
  exact {
    stored := fun owned => length ▸ linked.stored owned
    made := linked.made.trans
      ⟨fun ⟨y, member⟩ => ⟨y, List.mem_append_left _ member⟩, fun ⟨y, member⟩ => ⟨y, old member⟩⟩
    cloned := fun cloned => linked.cloned (old cloned)
    shared := fun hA hB => (linked.shared hA hB).mono (List.subset_append_left _ _) }

/-- A step that makes a table over a store keeps the links, if it relates the table to those that
are over the store already. -/
theorem Linked.add_table (linked : r.Linked past) {stores : List NameTable} {owner : Nat}
    (length : r.stores.length ≤ stores.length) (fits : owner < stores.length)
    (origin : ∀ table, x = .clone table → r.owners[table]? = some owner)
    (related : ∀ table, r.owners[table]? = some owner →
      TableHistory.Related (past ++ [(x, some (.table r.owners.length))]) table r.owners.length) :
    (⟨stores, r.owners ++ [owner]⟩ : Registry).Linked
      (past ++ [(x, some (.table r.owners.length))]) where
  stored owned := by
    rcases getElem?_concat_eq_some_iff.mp owned with owned | ⟨-, rfl⟩
    · exact (linked.stored owned).trans_le length
    · exact fits
  made {table} := by
    simp only [List.length_append, List.length_singleton, Nat.lt_succ_iff_lt_or_eq, linked.made,
      List.mem_append, List.mem_singleton, Prod.mk.injEq, Option.some.injEq,
      TableAnswer.table.injEq, exists_or, exists_eq_left]
  cloned {table number} cloned := by
    rcases List.mem_append.mp cloned with cloned | new
    · obtain ⟨o, hTable, hNumber⟩ := linked.cloned cloned
      exact ⟨o, getElem?_concat_eq_some_iff.mpr (.inl hTable),
        getElem?_concat_eq_some_iff.mpr (.inl hNumber)⟩
    · obtain ⟨rfl, hNumber⟩ := Prod.mk.inj (List.mem_singleton.mp new)
      cases hNumber
      exact ⟨owner, getElem?_concat_eq_some_iff.mpr (.inl (origin table rfl)),
        getElem?_concat_eq_some_iff.mpr (.inr ⟨rfl, rfl⟩)⟩
  shared {a b o} hA hB := by
    rcases getElem?_concat_eq_some_iff.mp hA with hA | ⟨rfl, rfl⟩
    · rcases getElem?_concat_eq_some_iff.mp hB with hB | ⟨rfl, rfl⟩
      · exact (linked.shared hA hB).mono (List.subset_append_left _ _)
      · exact related a hA
    · rcases getElem?_concat_eq_some_iff.mp hB with hB | ⟨rfl, -⟩
      · exact .symm _ _ (related b hB)
      · exact .refl _

/-- Every step keeps the links.  No table is over a store that is new. -/
theorem Linked.take (linked : r.Linked past) (x : TableStep) :
    (r.take x).1.Linked (past ++ [(x, (r.take x).2)]) := by
  rcases r.take_cases x with ⟨rfl, done⟩ | ⟨table, owner, rfl, owned, done⟩ |
    ⟨table, name, owner, t, rfl, owned, stored, done⟩ | ⟨answer, done, noTable, -⟩
  · rw [done]
    refine linked.add_table (by simp) (by simp) nofun ?_
    intro table owned
    exact absurd (linked.stored owned) (lt_irrefl _)
  · rw [done]
    refine linked.add_table le_rfl (linked.stored owned) ?_ ?_
    · rintro _ ⟨⟩
      exact owned
    · intro other shared
      refine .trans _ table _ ?_ (.rel _ _ (List.mem_append_right _ (List.mem_singleton_self _)))
      exact (linked.shared shared owned).mono (List.subset_append_left _ _)
  · rw [done]
    exact linked.of_no_table List.length_set nofun
  · rw [done]
    exact linked.of_no_table rfl noTable

/-! ## Names of a store -/

/-- A handle was given before the last step, or by it. -/
theorem gave_concat {table : Nat} {name : String} {h : Handle} :
    TableHistory.Gave (past ++ [(x, answer)]) table name h ↔
      past.Gave table name h ∨ x = .intern table name ∧ answer = some (.handle h) := by
  simp only [TableHistory.Gave, List.mem_append, List.mem_singleton, Prod.mk.injEq, eq_comm]

/-- A step that gives no handle keeps the names, if new tables have no names of their own.  What
was given before was given through a table that was there. -/
theorem Filled.of_no_handle (filled : r.Filled past) {r' : Registry}
    (none : ∀ h, answer ≠ some (.handle h))
    (owners : ∀ {table owner : Nat}, r.owners[table]? = some owner → r'.owners[table]? = some owner)
    (stores : ∀ {owner : Nat} {t}, r.stores[owner]? = some t → r'.stores[owner]? = some t)
    (rest : ∀ {owner : Nat} {t}, r'.stores[owner]? = some t →
      r.stores[owner]? = some t ∨ t = .empty ∧ ∀ table : Nat, r.owners[table]? ≠ some owner) :
    r'.Filled (past ++ [(x, answer)]) := by
  have same : ∀ {table name h}, TableHistory.Gave (past ++ [(x, answer)]) table name h ↔
      past.Gave table name h := by
    intro table name h
    rw [gave_concat, or_iff_left fun new => none h new.2]
  have owner_iff : ∀ {table name h owner}, past.Gave table name h →
      (r'.owners[table]? = some owner ↔ r.owners[table]? = some owner) := by
    intro table name h owner given
    obtain ⟨o, -, owned, -⟩ := filled.gave given
    rw [owners owned, owned]
  constructor
  · intro owner t stored name
    simp only [same]
    rcases rest stored with stored | ⟨rfl, unused⟩
    · rw [filled.names stored]
      exact exists₂_congr fun table h => and_congr_left fun given => (owner_iff given).symm
    · refine ⟨nofun, ?_⟩
      rintro ⟨table, h, owned, given⟩
      exact absurd ((owner_iff given).mp owned) (unused table)
  · intro table name h given
    obtain ⟨owner, t, owned, stored, leads⟩ := filled.gave (same.mp given)
    exact ⟨owner, t, owners owned, stores stored, leads⟩

/-- Entering a name through a table keeps the names of the other stores, and adds it to those of
the store of the table. -/
theorem Filled.intern (filled : r.Filled past) {table owner : Nat} {t : NameTable} {name : String}
    (owned : r.owners[table]? = some owner) (stored : r.stores[owner]? = some t) :
    (⟨r.stores.set owner (t.insert name), r.owners⟩ : Registry).Filled
      (past ++ [(.intern table name, some (.handle ((t.insert name).handle name)))]) := by
  have fits : owner < r.stores.length := (List.getElem?_eq_some_iff.mp stored).1
  have here : (r.stores.set owner (t.insert name))[owner]? = some (t.insert name) :=
    List.getElem?_set_self fits
  constructor
  · intro o t' stored' other
    by_cases same : o = owner
    · subst same
      cases here.symm.trans stored'
      rw [NameTable.mem_insert, filled.names stored]
      simp only [gave_concat, TableStep.intern.injEq]
      constructor
      · rintro (⟨a, h, hA, given⟩ | rfl)
        · exact ⟨a, h, hA, .inl given⟩
        · exact ⟨table, _, owned, .inr ⟨⟨rfl, rfl⟩, rfl⟩⟩
      · rintro ⟨a, h, hA, given | ⟨⟨rfl, rfl⟩, -⟩⟩
        · exact .inl ⟨a, h, hA, given⟩
        · exact .inr rfl
    · rw [List.getElem?_set_ne (Ne.symm same)] at stored'
      rw [filled.names stored']
      simp only [gave_concat, TableStep.intern.injEq]
      refine exists₂_congr fun a h => and_congr_right fun hA => (or_iff_left ?_).symm
      rintro ⟨⟨rfl, -⟩, -⟩
      exact same (Option.some.inj (hA.symm.trans owned))
  · intro a other h given
    rcases gave_concat.mp given with given | ⟨new, answer⟩
    · obtain ⟨o, t', hA, stored', leads⟩ := filled.gave given
      by_cases same : o = owner
      · subst same
        cases stored.symm.trans stored'
        exact ⟨o, _, hA, here, NameTable.resolve?_insert leads name⟩
      · exact ⟨o, t', hA, (List.getElem?_set_ne (Ne.symm same)).trans stored', leads⟩
    · cases new
      cases answer
      exact ⟨owner, _, owned, here, NameTable.resolve?_handle (NameTable.mem_insert.mpr (.inr rfl))⟩

/-- Every step keeps the names to the tables through which they were entered. -/
theorem Filled.take (linked : r.Linked past) (filled : r.Filled past) (x : TableStep) :
    (r.take x).1.Filled (past ++ [(x, (r.take x).2)]) := by
  rcases r.take_cases x with ⟨rfl, done⟩ | ⟨table, owner, rfl, owned, done⟩ |
    ⟨table, name, owner, t, rfl, owned, stored, done⟩ | ⟨answer, done, -, noHandle⟩
  · rw [done]
    refine filled.of_no_handle nofun ?_ ?_ ?_
    · exact fun owned => getElem?_concat_eq_some_iff.mpr (.inl owned)
    · exact fun stored => getElem?_concat_eq_some_iff.mpr (.inl stored)
    · intro owner t stored
      refine (getElem?_concat_eq_some_iff.mp stored).imp_right ?_
      rintro ⟨rfl, rfl⟩
      exact ⟨rfl, fun table owned => lt_irrefl _ (linked.stored owned)⟩
  · rw [done]
    exact filled.of_no_handle nofun (fun owned => getElem?_concat_eq_some_iff.mpr (.inl owned))
      id .inl
  · rw [done]
    exact filled.intern owned stored
  · rw [done]
    exact filled.of_no_handle noHandle id id .inl

/-! ## Runs -/

/-- A run keeps its tables linked and its stores filled as its history says. -/
theorem run_linked_filled (steps : List TableStep) :
    (empty.run steps).Linked (empty.history steps) ∧
      (empty.run steps).Filled (empty.history steps) := by
  induction steps using List.reverseRecOn with
  | nil =>
    refine ⟨⟨nofun, ?_, nofun, nofun⟩, nofun, nofun⟩
    intro table
    exact ⟨nofun, nofun⟩
  | append_singleton steps x ih =>
    obtain ⟨linked, filled⟩ := ih
    rw [run_concat, history_concat]
    exact ⟨linked.take x, filled.take linked x⟩

theorem history_subset (r : Registry) (a b : List TableStep) :
    r.history a ⊆ r.history (a ++ b) := by
  rw [history_append]
  exact List.subset_append_left _ _

/-- The tables with a store are those with a number. -/
theorem Linked.exists_store?_iff (linked : r.Linked past) {table : Nat} :
    (∃ t, r.store? table = some t) ↔ table < r.owners.length := by
  simp only [store?_eq_some_iff]
  constructor
  · rintro ⟨t, owner, owned, -⟩
    exact (List.getElem?_eq_some_iff.mp owned).1
  · intro bound
    have owned : r.owners[table]? = some r.owners[table] := List.getElem?_eq_getElem bound
    exact ⟨_, _, owned, List.getElem?_eq_getElem (linked.stored owned)⟩

/-- The names of a table are those that were entered through it or a table related to it. -/
theorem Filled.entered_eq (filled : r.Filled past) (linked : r.Linked past) {table : Nat}
    {t : NameTable} (there : r.store? table = some t) :
    past.entered table = {name | name ∈ t.names} := by
  obtain ⟨owner, owned, stored⟩ := store?_eq_some_iff.mp there
  ext name
  rw [Set.mem_ofPred_eq, filled.names stored]
  refine exists₂_congr fun other h => and_congr_left fun _ => ?_
  exact ⟨fun related => linked.owner_eq related ▸ owned, linked.shared owned⟩

/-- A handle leads to its name through every table that is related to the one that gave it. -/
theorem Filled.resolve?_of_related (filled : r.Filled past) (linked : r.Linked past)
    {a b : Nat} {name : String} {h : Handle} (given : past.Gave a name h)
    (related : past.Related a b) :
    ∃ t, r.store? b = some t ∧ t.resolve? h = some name := by
  obtain ⟨owner, t, owned, stored, leads⟩ := filled.gave given
  exact ⟨t, store?_eq_some_iff.mpr ⟨owner, linked.owner_eq related ▸ owned, stored⟩, leads⟩

/-- A table is left as it is by a step that enters no name through a table related to it. -/
theorem Linked.store?_take (linked : r.Linked past) {table : Nat} {t : NameTable}
    (there : r.store? table = some t)
    (apart : ∀ other name, x = .intern other name → ¬past.Related table other) :
    (r.take x).1.store? table = some t := by
  obtain ⟨owner, owned, stored⟩ := store?_eq_some_iff.mp there
  refine store?_eq_some_iff.mpr ⟨owner, ?_⟩
  rcases r.take_cases x with ⟨-, done⟩ | ⟨_, _, -, -, done⟩ |
    ⟨other, name, owner', t', rfl, owned', -, done⟩ | ⟨_, done, -⟩
  · rw [done]
    exact ⟨getElem?_concat_eq_some_iff.mpr (.inl owned),
      getElem?_concat_eq_some_iff.mpr (.inl stored)⟩
  · rw [done]
    exact ⟨getElem?_concat_eq_some_iff.mpr (.inl owned), stored⟩
  · rw [done]
    have differs : owner' ≠ owner := by
      rintro rfl
      exact apart other name rfl (linked.shared owned owned')
    exact ⟨owned, (List.getElem?_set_ne differs).trans stored⟩
  · rw [done]
    exact ⟨owned, stored⟩

/-- A table is left as it is by steps that enter no name through a table related to it. -/
theorem store?_run_append {steps more : List TableStep} {table : Nat} {t : NameTable}
    (there : (empty.run steps).store? table = some t)
    (apart : ∀ other name, .intern other name ∈ more →
      ¬(empty.history (steps ++ more)).Related table other) :
    (empty.run (steps ++ more)).store? table = some t := by
  induction more using List.reverseRecOn with
  | nil => rwa [List.append_nil]
  | append_singleton more x ih =>
    rw [← List.append_assoc] at apart ⊢
    have before : ∀ other, (empty.history (steps ++ more)).Related table other →
        (empty.history (steps ++ more ++ [x])).Related table other :=
      fun _ related => related.mono (history_subset _ _ _)
    rw [run_concat]
    refine (run_linked_filled (steps ++ more)).1.store?_take (ih ?_) ?_
    · exact fun other name member related =>
        apart other name (List.mem_append_left _ member) (before other related)
    · rintro other name rfl related
      exact apart other name (List.mem_append_right _ (List.mem_singleton_self _))
        (before other related)

/-- Cloning a table that is there makes a table. -/
theorem take_clone (r : Registry) (table : Nat) :
    (r.take (.clone table)).2 = r.owners[table]?.map fun _ => .table r.owners.length := by
  rw [take, clone?]
  cases r.owners[table]? <;> rfl

/-- Entering a name through a table that is there gives the handle in its store. -/
theorem take_intern (r : Registry) (table : Nat) (name : String) :
    (r.take (.intern table name)).2 = (r.store? table).map fun t => .handle (t.intern name).2 := by
  rw [take, intern?, store?]
  cases r.owners[table]? with
  | none => rfl
  | some owner =>
    simp only [Option.bind_eq_bind, Option.bind_some]
    cases r.stores[owner]? <;> rfl

/-- A table resolves a handle in its store. -/
theorem take_resolve (r : Registry) (table : Nat) (h : Handle) :
    (r.take (.resolve table h)).2 = ((r.store? table).bind (·.resolve? h)).map .text := rfl

/-- A table that is made has the next number. -/
theorem eq_length_of_take {table : Nat} (made : (r.take x).2 = some (.table table)) :
    table = r.owners.length := by
  rcases r.take_cases x with ⟨-, done⟩ | ⟨_, _, -, -, done⟩ | ⟨_, _, _, _, -, -, -, done⟩ |
    ⟨_, done, noTable, -⟩
  · rw [done] at made
    cases made
    rfl
  · rw [done] at made
    cases made
    rfl
  · rw [done] at made
    cases made
  · rw [done] at made
    exact absurd made (noTable table)

/-! ## What is seen of a registry -/

/-- What is seen of a registry through its tables, after the steps of a history. -/
structure Shows (r : Registry) (past : TableHistory) : Prop where
  /-- The tables are those that were made. -/
  tables : ∀ table, (∃ t, r.store? table = some t) ↔ ∃ x, (x, some (.table table)) ∈ past
  /-- A step that makes a table makes a new one. -/
  makes : ∀ x table, (r.take x).2 = some (.table table) → r.store? table = none
  /-- A table can be made, a table that is there can be cloned, and it gives a handle for every
  name. -/
  answers : (∃ table, (r.take .fresh).2 = some (.table table)) ∧
    ∀ table t, r.store? table = some t →
      (∃ number, (r.take (.clone table)).2 = some (.table number)) ∧
        ∀ name, ∃ h, (r.take (.intern table name)).2 = some (.handle h)
  /-- Handles that related tables gave are equal exactly if their names are. -/
  handles : ∀ a b x y h k, past.Related a b → past.Gave a x h → past.Gave b y k → (h = k ↔ x = y)
  /-- A handle that a table gave leads to its name through every related table. -/
  names : ∀ a b x h, past.Related a b → past.Gave a x h →
    (r.take (.resolve b h)).2 = some (.text x)
  /-- A table counts the names that were entered through it and the tables related to it. -/
  sizes : ∀ table t, r.store? table = some t →
    t.size = (past.entered table).encard ∧ (t.isEmpty ↔ (past.entered table).encard = 0)

/-- What is seen from outside follows from the links and the contents of the stores. -/
theorem Filled.shows (filled : r.Filled past) (linked : r.Linked past) : r.Shows past where
  tables table := by rw [linked.exists_store?_iff, linked.made]
  makes x table made := by
    rw [Option.eq_none_iff_forall_ne_some]
    intro t there
    have bound := linked.exists_store?_iff.mp ⟨t, there⟩
    exact absurd (eq_length_of_take made) bound.ne
  answers := by
    refine ⟨⟨_, rfl⟩, ?_⟩
    intro table t there
    obtain ⟨owner, owned, -⟩ := store?_eq_some_iff.mp there
    constructor
    · exact ⟨r.owners.length, by rw [take_clone, owned, Option.map_some]⟩
    · intro name
      exact ⟨(t.intern name).2, by rw [take_intern, there, Option.map_some]⟩
  handles a b x y h k related first second := by
    obtain ⟨t, hT, leads⟩ := filled.resolve?_of_related linked first related
    obtain ⟨t', hT', leads'⟩ := filled.resolve?_of_related linked second (.refl b)
    cases hT.symm.trans hT'
    constructor
    · rintro rfl
      exact Option.some.inj (leads.symm.trans leads')
    · rintro rfl
      exact NameTable.resolve?_inj leads leads'
  names a b x h related given := by
    obtain ⟨t, there, leads⟩ := filled.resolve?_of_related linked given related
    rw [take_resolve, there, Option.bind_some, leads, Option.map_some]
  sizes table t there := by
    have names : past.entered table = (t.names.toFinset : Set String) := by
      rw [filled.entered_eq linked there]
      ext name
      simp
    have count : (past.entered table).encard = t.size := by
      rw [names, Set.encard_coe_eq_coe_finsetCard, List.toFinset_card_of_nodup t.distinct]
      rfl
    rw [count]
    exact ⟨rfl, by simp [NameTable.isEmpty, NameTable.size]⟩

end Registry

/-- Any steps on tables, and any steps after them.  Tables that are related by cloning share their
names and their handles, and a handle keeps its name through all of them.  A table is left as it
is by steps that enter no name through a table related to it. -/
theorem clones_share_names (steps more : List TableStep) :
    let r := Registry.empty.run steps
    let past := Registry.empty.history steps
    let later := Registry.empty.run (steps ++ more)
    let whole := Registry.empty.history (steps ++ more)
    r.Shows past ∧
      (∀ a b x h, past.Gave a x h → whole.Related a b →
        (later.take (.resolve b h)).2 = some (.text x)) ∧
      ∀ table t, r.store? table = some t →
        (∀ other name, .intern other name ∈ more → ¬whole.Related table other) →
          later.store? table = some t ∧
            (∀ name, (later.take (.intern table name)).2 = (r.take (.intern table name)).2) ∧
            ∀ h, (later.take (.resolve table h)).2 = (r.take (.resolve table h)).2 := by
  intro r past later whole
  have shows : ∀ steps, (Registry.empty.run steps).Shows (Registry.empty.history steps) := by
    intro steps
    obtain ⟨linked, filled⟩ := Registry.run_linked_filled steps
    exact filled.shows linked
  refine ⟨shows steps, ?_, ?_⟩
  · intro a b x h given related
    exact (shows (steps ++ more)).names a b x h related (Registry.history_subset _ _ _ given)
  · intro table t there apart
    have same : later.store? table = some t := Registry.store?_run_append there apart
    refine ⟨same, ?_, ?_⟩
    · intro name
      rw [Registry.take_intern, Registry.take_intern, same, there]
    · intro h
      rw [Registry.take_resolve, Registry.take_resolve, same, there]

/-- Of three tables the last is a clone of the first.  What is entered through the second one is
not seen through them, as it is over another store. -/
theorem names_of_three_tables :
    let steps : List TableStep := [.fresh, .fresh, .intern 0 "a", .clone 0, .intern 2 "b",
      .intern 1 "b", .intern 0 "b"]
    let more : List TableStep := [.intern 1 "c", .clone 1]
    let past := Registry.empty.history steps
    let later := Registry.empty.run (steps ++ more)
    past.Related 0 2 ∧ past.Gave 0 "a" ⟨0⟩ ∧ past.Gave 2 "b" ⟨1⟩ ∧ past.Gave 0 "b" ⟨1⟩ ∧
      (later.take (.resolve 2 ⟨0⟩)).2 = some (.text "a") ∧ (past.entered 2).encard = 2 ∧
      ∃ t, later.store? 2 = some t ∧ t.names = ["a", "b"] := by
  intro steps more past later
  have cloned : past.Related 0 2 := .rel _ _ (by decide +kernel)
  have given : past.Gave 0 "a" ⟨0⟩ := by decide +kernel
  have names : ((Registry.empty.run steps).store? 2).map NameTable.names = some ["a", "b"] := by
    decide +kernel
  obtain ⟨t, there, hNames⟩ := Option.map_eq_some_iff.mp names
  obtain ⟨shows, keeps, apart⟩ := clones_share_names steps more
  refine ⟨cloned, given, by decide +kernel, by decide +kernel, ?_, ?_, t, ?_, hNames⟩
  · exact keeps 0 2 "a" ⟨0⟩ given (cloned.mono (Registry.history_subset _ _ _))
  · rw [← (shows.sizes 2 t there).1, NameTable.size, hNames]
    rfl
  · refine (apart 2 t there ?_).1
    intro other name member related
    have second : other = 1 := by
      simp only [more, List.mem_cons, TableStep.intern.injEq, reduceCtorEq, List.not_mem_nil,
        or_false] at member
      exact member.1
    subst second
    have same := (Registry.run_linked_filled (steps ++ more)).1.owner_eq related
    exact absurd same (by decide +kernel)

end FlowDecl

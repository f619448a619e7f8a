import Mathlib.Data.List.Infix

/-!
# Cutting texts

A text is cut at the occurrences of a separator, which are looked for from the left and do
not overlap.  What is left is the list of the pieces between them, so there is one piece more
than there are separators.

A piece is found where it stands if no occurrence of the separator begins in it (`Unbroken`).
The text after the piece takes part in this, since an occurrence may begin in the one and
end in the other.
-/

namespace FlowDecl

/-- The pieces of a text between the occurrences of a separator.  The number is that of the
characters still to be passed over. -/
def piecesFrom (sep : List Char) : Nat → List Char → List (List Char)
  | _, [] => [[]]
  | skip + 1, _ :: rest => piecesFrom sep skip rest
  | 0, c :: rest =>
    if sep <+: c :: rest then [] :: piecesFrom sep (sep.length - 1) rest
    else (piecesFrom sep 0 rest).modifyHead (c :: ·)

/-- A text cut at the occurrences of a separator. -/
def cut (sep text : String) : List String :=
  (piecesFrom sep.toList 0 text.toList).map String.ofList

example : cut "ab" "abxababy" = ["", "x", "", "y"] := by decide

/-- No occurrence of the separator begins in the first text, with the second one after it. -/
def Unbroken (sep : List Char) : List Char → List Char → Prop
  | [], _ => True
  | c :: cs, rest => ¬ sep <+: c :: (cs ++ rest) ∧ Unbroken sep cs rest

section Pieces

variable {sep cs ds rest : List Char} {c : Char}

/-- What two texts break only together does not break them apart. -/
theorem Unbroken.append (first : Unbroken sep cs (ds ++ rest)) (second : Unbroken sep ds rest) :
    Unbroken sep (cs ++ ds) rest := by
  induction cs with
  | nil => exact second
  | cons c cs ih =>
    obtain ⟨here, later⟩ := first
    rw [← List.append_assoc] at here
    exact ⟨here, ih later⟩

/-- A text without the first character of a separator is unbroken. -/
theorem unbroken_of_not_mem (starts : sep.head? = some c) (absent : c ∉ cs) :
    Unbroken sep cs rest := by
  induction cs with
  | nil => trivial
  | cons d cs ih =>
    refine ⟨?_, ih fun member => absent (List.mem_cons_of_mem d member)⟩
    rintro ⟨tail, found⟩
    have first : (sep ++ tail).head? = some c := by rw [List.head?_append, starts, Option.some_or]
    rw [found, List.head?_cons, Option.some.injEq] at first
    exact absent (first ▸ List.mem_cons_self)

theorem piecesFrom_length : piecesFrom sep cs.length (cs ++ rest) = piecesFrom sep 0 rest := by
  induction cs with
  | nil => rfl
  | cons c cs ih => exact ih

theorem piecesFrom_separator (notEmpty : sep ≠ []) :
    piecesFrom sep 0 (sep ++ rest) = [] :: piecesFrom sep 0 rest := by
  obtain ⟨c, cs, rfl⟩ := List.exists_cons_of_ne_nil notEmpty
  have here : c :: cs <+: c :: (cs ++ rest) := ⟨rest, rfl⟩
  rw [List.cons_append, piecesFrom, if_pos here, List.length_cons, Nat.add_sub_cancel,
    piecesFrom_length]

theorem piecesFrom_append (unbroken : Unbroken sep cs rest) :
    piecesFrom sep 0 (cs ++ rest) = (piecesFrom sep 0 rest).modifyHead (cs ++ ·) := by
  induction cs with
  | nil =>
    simp
    cases piecesFrom sep 0 rest <;> rfl
  | cons c cs ih =>
    obtain ⟨here, later⟩ := unbroken
    rw [List.cons_append, piecesFrom, if_neg here, ih later, List.modifyHead_modifyHead]
    rfl

theorem piecesFrom_ne_nil (skip : Nat) : piecesFrom sep skip cs ≠ [] := by
  fun_induction piecesFrom sep skip cs with
  | case1 => simp
  | case2 skip c rest ih => exact ih
  | case3 c rest found ih => simp
  | case4 c rest absent ih =>
    obtain ⟨first, more, pieces⟩ := List.exists_cons_of_ne_nil ih
    simp [pieces]

/-- The pieces with the separators between them are the text. -/
theorem intercalate_piecesFrom (notEmpty : sep ≠ []) (skip : Nat) :
    sep.intercalate (piecesFrom sep skip cs) = cs.drop skip := by
  fun_induction piecesFrom sep skip cs with
  | case1 => simp
  | case2 skip c rest ih => exact ih
  | case3 c rest found ih =>
    obtain ⟨d, tail, rfl⟩ := List.exists_cons_of_ne_nil notEmpty
    obtain ⟨rfl, more, rfl⟩ := List.cons_prefix_cons.1 found
    rw [List.intercalate_cons_of_ne_nil (piecesFrom_ne_nil _), ih]
    simp
  | case4 c rest absent ih =>
    have notNil : piecesFrom sep 0 rest ≠ [] := piecesFrom_ne_nil 0
    obtain ⟨first, more, pieces⟩ := List.exists_cons_of_ne_nil notNil
    rw [pieces] at ih ⊢
    rw [List.modifyHead_cons, List.intercalate_cons_cons_left, ih]
    rfl

/-- Changing characters that are not in the separator, and into none that is, changes only the
characters of the pieces. -/
theorem piecesFrom_map {f : Char → Char} (keeps : ∀ c ∈ sep, ∀ d, f d = c ↔ d = c) (skip : Nat) :
    piecesFrom sep skip (cs.map f) = (piecesFrom sep skip cs).map (List.map f) := by
  have occurs : ∀ {s : List Char}, (∀ c ∈ s, ∀ d, f d = c ↔ d = c) → ∀ ds : List Char,
      s <+: ds.map f ↔ s <+: ds := by
    intro s
    induction s with
    | nil => simp
    | cons c s ih =>
      rintro keeps (_ | ⟨d, ds⟩)
      · simp
      · have here := keeps c List.mem_cons_self d
        have later := ih (fun c' h => keeps c' (List.mem_cons_of_mem c h)) ds
        rw [List.map_cons, List.cons_prefix_cons, List.cons_prefix_cons, later, eq_comm, here,
          eq_comm]
  fun_induction piecesFrom sep skip cs with
  | case1 => simp [piecesFrom]
  | case2 skip c rest ih => exact ih
  | case3 c rest found ih =>
    have found : sep <+: f c :: rest.map f := (occurs keeps (c :: rest)).2 found
    rw [List.map_cons, piecesFrom, if_pos found, ih]
    rfl
  | case4 c rest absent ih =>
    have absent : ¬ sep <+: f c :: rest.map f := fun found =>
      absent ((occurs keeps (c :: rest)).1 found)
    have notNil : piecesFrom sep 0 rest ≠ [] := piecesFrom_ne_nil 0
    obtain ⟨first, more, pieces⟩ := List.exists_cons_of_ne_nil notNil
    rw [List.map_cons, piecesFrom, if_neg absent, ih, pieces]
    rfl

end Pieces

/-! ## Texts with a separator in them -/

section Texts

variable {sep a b : String}

/-- An unbroken text stands at the front of the first piece of what follows. -/
theorem cut_append (unbroken : Unbroken sep.toList a.toList b.toList) :
    cut sep (a ++ b) = (cut sep b).modifyHead (a ++ ·) := by
  rw [cut, String.toList_append, piecesFrom_append unbroken, cut]
  cases piecesFrom sep.toList 0 b.toList with
  | nil => rfl
  | cons first more => simp

theorem cut_separator (notEmpty : sep.toList ≠ []) : cut sep (sep ++ b) = "" :: cut sep b := by
  rw [cut, String.toList_append, piecesFrom_separator notEmpty, List.map_cons]
  rfl

/-- A piece in front of a separator. -/
theorem cut_append_separator (notEmpty : sep.toList ≠ [])
    (unbroken : Unbroken sep.toList a.toList (sep ++ b).toList) :
    cut sep (a ++ (sep ++ b)) = a :: cut sep b := by
  rw [cut_append unbroken, cut_separator notEmpty, List.modifyHead_cons, String.append_empty]

/-- A text without the separator in it is a single piece. -/
theorem cut_of_unbroken (unbroken : Unbroken sep.toList a.toList []) : cut sep a = [a] := by
  have whole : cut sep (a ++ "") = (cut sep "").modifyHead (a ++ ·) := cut_append unbroken
  rw [String.append_empty] at whole
  rw [whole]
  simp [cut, piecesFrom]

/-- The pieces of a text with the separators between them are the text. -/
theorem intercalate_cut (notEmpty : sep.toList ≠ []) : sep.intercalate (cut sep a) = a := by
  rw [← String.toList_inj, String.toList_intercalate, cut, List.map_map]
  simp [Function.comp_def, intercalate_piecesFrom notEmpty]

/-- Texts that differ in characters outside the separator only are cut at the same places. -/
theorem length_cut_of_map_eq {f : Char → Char} (keeps : ∀ c ∈ sep.toList, ∀ d, f d = c ↔ d = c)
    (same : a.toList.map f = b.toList.map f) :
    (cut sep a).map String.length = (cut sep b).map String.length := by
  have lengths : ∀ text : String, (cut sep text).map String.length =
      (piecesFrom sep.toList 0 (text.toList.map f)).map List.length := by
    intro text
    rw [piecesFrom_map keeps, cut, List.map_map, List.map_map]
    simp [Function.comp_def]
  rw [lengths, lengths, same]

end Texts

end FlowDecl

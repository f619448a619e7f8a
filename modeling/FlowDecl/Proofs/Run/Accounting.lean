import FlowDecl.Proofs.Run.Delivery

/-!
# Accounts of a run

A run counts the inputs that fail.  An input fails if it cannot be read, if its document does
not load, or if its output cannot be written.  The first two are decided by the tree that the
run found, and the last one by the tree that the outputs before it have left.  Here this is
said of the list of inputs, without turns or a shared table: `Emitter.settle` settles one
input, and `Emitter.failedInputs` lists those that fail.

The exit code and the summary of a run tell the number of failed inputs, and what is printed
is the text of every input that loads (`run_accounts_for_every_input`).  An input that does not
load might as well not be there, but for its failure.
-/

namespace FlowDecl

namespace Emitter

variable (e : Emitter)

/-! ## Settling inputs -/

/-- The text that an input is printed to, if it can be read and its document loads. -/
def printed? (t : FileTree) (file : String) : Option String :=
  match t.readText file with
  | .error _ => none
  | .ok text =>
    match printedText e.config e.forceExport text with
    | .error _ => none
    | .ok printed => some printed

/-- Whether an input fails, and the tree that it leaves.  It is printed from the tree before the
run, and its output is written into the tree that the inputs before it have left. -/
def settle (toStdout : Bool) (before now : FileTree) (file : String) : Bool × FileTree :=
  match e.printed? before file with
  | none => (true, now)
  | some printed =>
    if toStdout then (false, now)
    else
      match ((⟨e.outputPath file, printed⟩ : Emission).write : FileTree.M _) now with
      | (.error _, now) => (true, now)
      | (.ok (), now) => (false, now)

/-- The inputs that fail, in order. -/
def failedInputs (toStdout : Bool) (before : FileTree) : FileTree → List String → List String
  | _, [] => []
  | now, file :: files =>
    (if (e.settle toStdout before now file).1 then [file] else []) ++
      failedInputs toStdout before (e.settle toStdout before now file).2 files

/-- The tree that some inputs leave. -/
def treeLeft (toStdout : Bool) (before now : FileTree) (files : List String) : FileTree :=
  files.foldl (fun now file => (e.settle toStdout before now file).2) now

/-- Of two lists of inputs the second one meets the tree that the first one leaves. -/
theorem failedInputs_append (toStdout : Bool) (before now : FileTree) (xs ys : List String) :
    e.failedInputs toStdout before now (xs ++ ys) =
      e.failedInputs toStdout before now xs ++
        e.failedInputs toStdout before (e.treeLeft toStdout before now xs) ys := by
  induction xs generalizing now with
  | nil => rfl
  | cons x xs ih =>
    rw [List.cons_append, failedInputs, failedInputs, ih, List.append_assoc]
    rfl

theorem treeLeft_append (toStdout : Bool) (before now : FileTree) (xs ys : List String) :
    e.treeLeft toStdout before now (xs ++ ys) =
      e.treeLeft toStdout before (e.treeLeft toStdout before now xs) ys :=
  List.foldl_append

/-! ## Turns settle inputs -/

/-- An input is emitted exactly if there is a text that it is printed to. -/
theorem emission_cases (t : FileTree) (file : String) :
    (∃ cause, e.printed? t file = none ∧ e.emission t file = .error cause) ∨
      ∃ text, e.printed? t file = some text ∧
        e.emission t file = .ok ⟨e.outputPath file, text⟩ := by
  rw [printed?, emission_eq]
  cases t.readText file with
  | error cause => exact .inl ⟨_, rfl, rfl⟩
  | ok source =>
    dsimp only
    rw [emitText_eq]
    cases printedText e.config e.forceExport source with
    | error cause => exact .inl ⟨_, rfl, rfl⟩
    | ok text => exact .inr ⟨text, rfl, rfl⟩

/-- The turn of an input settles it: the turn leaves the tree that settling leaves, it fails if
settling fails, and it prints the text of the input if anything is printed at all. -/
theorem takeTurn_settles (toStdout : Bool) (before now : FileTree) (file : String) :
    let turn := takeTurn toStdout (e.emission before file) now
    let settled := e.settle toStdout before now file
    turn.after = settled.2 ∧ turn.delivery.failure?.isSome = settled.1 ∧
      turn.delivery.printed? =
        if toStdout then e.printed? before file else if settled.1 then none else some "" := by
  intro turn settled
  rcases e.emission_cases before file with
    ⟨cause, failed, emitted⟩ | ⟨text, printed, emitted⟩
  · simp only [turn, settled, settle, failed, emitted]
    cases toStdout <;> exact ⟨rfl, rfl, rfl⟩
  · simp only [turn, settled, settle, printed, emitted]
    cases toStdout with
    | true => exact ⟨rfl, rfl, rfl⟩
    | false =>
      simp only [takeTurn, deliver_written]
      rcases ((⟨e.outputPath file, text⟩ : Emission).write : FileTree.M _) now with
        ⟨cause | _, after⟩
      · exact ⟨rfl, rfl, rfl⟩
      · exact ⟨rfl, rfl, rfl⟩

/-- Turns leave the tree that settling their inputs leaves. -/
theorem treeAfter_turns (toStdout : Bool) (before now : FileTree) (files : List String) :
    treeAfter now (turns toStdout (files.map (e.emission before)) now) =
      e.treeLeft toStdout before now files := by
  induction files generalizing now with
  | nil => rfl
  | cons file files ih =>
    have settled := (e.takeTurn_settles toStdout before now file).1
    rw [List.map_cons, turns, treeAfter_cons, settled, ih]
    rfl

/-- There is one failure for each input that fails. -/
theorem length_failures_turns (toStdout : Bool) (before now : FileTree) (files : List String) :
    (((turns toStdout (files.map (e.emission before)) now).map Turn.delivery).filterMap
        Delivery.failure?).length = (e.failedInputs toStdout before now files).length := by
  induction files generalizing now with
  | nil => rfl
  | cons file files ih =>
    obtain ⟨after, failed, -⟩ := e.takeTurn_settles toStdout before now file
    rw [List.map_cons, turns, List.map_cons, failedInputs, after, List.length_append, ← ih]
    cases hFailure : (takeTurn toStdout (e.emission before file) now).delivery.failure? with
    | none =>
      rw [List.filterMap_cons_none hFailure, ← failed, hFailure]
      exact (Nat.zero_add _).symm
    | some failure =>
      rw [List.filterMap_cons_some hFailure, ← failed, hFailure, List.length_cons, Nat.add_comm]
      rfl

theorem join_filterMap_cons {α : Type} (f : α → Option String) (a : α) (as : List α) :
    String.join ((a :: as).filterMap f) = (f a).getD "" ++ String.join (as.filterMap f) := by
  cases h : f a with
  | none => simp [h]
  | some text => simp [h]

/-- What is printed is the text of each input that has one, and nothing if outputs are written. -/
theorem join_printed_turns (toStdout : Bool) (before now : FileTree) (files : List String) :
    String.join (((turns toStdout (files.map (e.emission before)) now).map
        Turn.delivery).filterMap Delivery.printed?) =
      if toStdout then String.join (files.filterMap (e.printed? before)) else "" := by
  induction files generalizing now with
  | nil => cases toStdout <;> rfl
  | cons file files ih =>
    obtain ⟨after, -, printed⟩ := e.takeTurn_settles toStdout before now file
    rw [List.map_cons, turns, List.map_cons, join_filterMap_cons, printed, ih]
    cases toStdout with
    | true => rw [if_pos rfl, if_pos rfl, if_pos rfl, join_filterMap_cons]
    | false =>
      simp only [Bool.false_eq_true, if_false]
      split <;> rfl

end Emitter

/-! ## The account -/

/-- How a run ends is decided by the failures of its deliveries. -/
theorem outcomeOf_eq (deliveries : List Delivery) :
    outcomeOf deliveries =
      let failures := deliveries.filterMap Delivery.failure?
      { exit := if failures = [] then 0 else 1
        stdout := String.join (deliveries.filterMap Delivery.printed?)
        failures := failures
        summary := if failures = [] then none
          else some (summaryText failures.length deliveries.length) } := by
  rw [outcomeOf]
  cases deliveries.filterMap Delivery.failure? with
  | nil => rfl
  | cons failure failures => rfl

/-- The account of a run over files: how it ends, and the tree that it leaves. -/
structure Outcome.Accounts (outcome : Outcome) (after : FileTree) (e : Emitter) (toStdout : Bool)
    (before : FileTree) (files : List String) : Prop where
  /-- There is one failure for each input that fails. -/
  failures : outcome.failures.length = (e.failedInputs toStdout before before files).length
  /-- The run ends well exactly if no input fails. -/
  exit : outcome.exit = if e.failedInputs toStdout before before files = [] then 0 else 1
  /-- The summary tells how many of the inputs have failed, if any. -/
  summary : outcome.summary =
    if e.failedInputs toStdout before before files = [] then none
    else some (toString (e.failedInputs toStdout before before files).length ++ " of " ++
      toString files.length ++ (if files.length = 1 then " file" else " files") ++ " failed")
  /-- What is printed is the text of every input that loads, in order. -/
  stdout : outcome.stdout =
    if toStdout then String.join (files.filterMap (e.printed? before)) else ""
  /-- The tree is the one that the outputs of all inputs leave. -/
  tree : after = e.treeLeft toStdout before before files

/-- The account of a run, from its turns: they leave as many failures as inputs fail. -/
theorem runFiles_accounts (c : CommandLine) (e : Emitter) (before : FileTree) :
    (runFiles (m := FileTree.M) c e before).1.Accounts
      (runFiles (m := FileTree.M) c e before).2 e c.stdout before c.files := by
  have count := e.length_failures_turns c.stdout before before c.files
  have inputs : ((turns c.stdout (c.files.map (e.emission before)) before).map
      Turn.delivery).length = c.files.length := by
    rw [List.length_map, ← List.length_map Turn.result, map_result_turns, List.length_map]
  rw [runFiles_eq, outcomeOf_eq, e.treeAfter_turns, e.join_printed_turns, inputs]
  have none : ((turns c.stdout (c.files.map (e.emission before)) before).map
      Turn.delivery).filterMap Delivery.failure? = [] ↔
        e.failedInputs c.stdout before before c.files = [] := by
    rw [← List.length_eq_zero_iff, ← List.length_eq_zero_iff, count]
  exact {
    failures := count
    exit := by simp only [none]
    summary := by
      simp only [none, count]
      rfl
    stdout := rfl
    tree := rfl }

/-- An input that has no text leaves the tree as it is, and its failure is one more. -/
theorem Emitter.failedInputs_of_not_printed (e : Emitter) (toStdout : Bool)
    (before now : FileTree) {file : String} (failed : e.printed? before file = none)
    (xs ys : List String) :
    (e.failedInputs toStdout before now (xs ++ file :: ys)).length =
        (e.failedInputs toStdout before now (xs ++ ys)).length + 1 ∧
      e.treeLeft toStdout before now (xs ++ file :: ys) =
        e.treeLeft toStdout before now (xs ++ ys) := by
  have settled : ∀ now, e.settle toStdout before now file = (true, now) := by
    intro now
    rw [settle, failed]
  constructor
  · rw [failedInputs_append, failedInputs_append, failedInputs, settled, if_pos rfl,
      List.length_append, List.length_append, List.length_append, List.length_singleton]
    dsimp only
    omega
  · rw [treeLeft_append, treeLeft_append, treeLeft, List.foldl_cons, settled]
    rfl

/-- The exit code, the summary and what is printed account for every input of a run: those that
fail are counted, and the others are printed or written.  An input that cannot be read or does
not load makes no difference to what is printed or written for the others. -/
theorem run_accounts_for_every_input {arguments : List String} {c : CommandLine}
    {options : Options} {before : FileTree} (parsed : CommandLine.parse arguments = .ok c)
    (usable : (settledOptions (m := FileTree.M) c before).1 = .ok options) :
    let e := Emitter.ofOptions options
    let ended := run (m := FileTree.M) arguments before
    ended.1.Accounts ended.2 e c.stdout before c.files ∧
      ∀ xs file ys, c.files = xs ++ file :: ys → e.printed? before file = none →
        let others := runFiles (m := FileTree.M) { c with files := xs ++ ys } e before
        others.1.stdout = ended.1.stdout ∧ others.2 = ended.2 ∧
          others.1.failures.length + 1 = ended.1.failures.length := by
  intro e ended
  have account : ended.1.Accounts ended.2 e c.stdout before c.files := by
    simp only [ended, run_eq_runFiles parsed usable]
    exact runFiles_accounts c e before
  refine ⟨account, ?_⟩
  intro xs file ys files failed others
  have rest : others.1.Accounts others.2 e c.stdout before (xs ++ ys) :=
    runFiles_accounts { c with files := xs ++ ys } e before
  obtain ⟨count, tree⟩ := e.failedInputs_of_not_printed c.stdout before before failed xs ys
  refine ⟨?_, ?_, ?_⟩
  · rw [rest.stdout, account.stdout, files, List.filterMap_append, List.filterMap_append,
      List.filterMap_cons_none failed]
  · rw [rest.tree, account.tree, files, tree]
  · rw [rest.failures, account.failures, files, count]

/-- Of four inputs one is no document and one is missing.  The last one stands in the directory of
the first output, which is spelled in another way, and the directory of its own output would be
the file that was written first. -/
theorem run_with_three_failures :
    let arguments := ["--outExtension", "/z", "a.json", "b.json", "c.json", "../w/a/z.json"]
    let c : CommandLine :=
      { files := ["a.json", "b.json", "c.json", "../w/a/z.json"], outExtension := some "/z" }
    let working : Location := ⟨["x".toList, "w".toList]⟩
    let directory := working.child "a".toList
    let before := ((FileTree.ofTexts working [("a.json", "[]"), ("b.json", "[\x7b\x7d]")]).set
      directory .directory).set (directory.child "z.json".toList) (.file (.text "[]"))
    let outcome := (run (m := FileTree.M) arguments before).1
    CommandLine.parse arguments = .ok c ∧
      (settledOptions (m := FileTree.M) c before).1 = .ok c.overrides ∧ outcome.exit = 1 ∧
      outcome.summary = some "3 of 4 files failed" ∧ outcome.stdout = "" := by
  intro arguments c working directory before outcome
  have parsed : CommandLine.parse arguments = .ok c := by decide +kernel
  have usable : (settledOptions (m := FileTree.M) c before).1 = .ok c.overrides := by
    decide +kernel
  have account := (run_accounts_for_every_input parsed usable).1
  have failed : (Emitter.ofOptions c.overrides).failedInputs c.stdout before before c.files =
      ["b.json", "c.json", "../w/a/z.json"] := by decide +kernel
  have summary : outcome.summary = _ := account.summary
  refine ⟨parsed, usable, ?_, ?_, account.stdout⟩
  · refine account.exit.trans ?_
    rw [failed]
    rfl
  · rw [summary, failed]
    decide +kernel

end FlowDecl

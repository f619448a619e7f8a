import FlowDecl.Proofs.Placement.OutputPath
import FlowDecl.Proofs.Run.Accounting

/-!
# Files of a run

What a run does to the files that it finds: which of them hold outputs in the end, and what can
happen to those that are inputs.
-/

namespace FlowDecl

/-! ## Outputs of a run

What a run does to the files that it finds.  Every input is emitted from the tree before the
run, also where an earlier output has overwritten it by the time that it is delivered.  In the
end a file holds the output that was last written to it, and every file to which no output was
written is as it was (`run_changes_only_outputs`).

Two inputs can have the same output path: `a.json` and `a.js.json` both stand at `a.ts`.  Then
the run ends well and the earlier output is gone (`outputs_can_collide`).  So a run that ends
well leaves the text of each input except where a later input has the same output file
(`run_keeps_last_output`).
-/

/-! ### What changes -/

/-- A run that prints changes nothing.  In a run that writes, a file holds the text of the last
emission that was written to it, or else what it held before, and what is written was emitted
from the files that were there before the run.  An input that is not emitted changes nothing
when its turn comes, and one that cannot be written changes no file. -/
theorem run_changes_only_outputs {arguments : List String} {c : CommandLine} {options : Options}
    {before : FileTree} (parsed : CommandLine.parse arguments = .ok c)
    (usable : (settledOptions (m := FileTree.M) c before).1 = .ok options) :
    let e := Emitter.ofOptions options
    let ts := turns c.stdout (c.files.map (e.emission before)) before
    let after := (run (m := FileTree.M) arguments before).2
    (run (m := FileTree.M) arguments before).1 = outcomeOf (ts.map Turn.delivery) ∧
      after = treeAfter before ts ∧
      (c.stdout = true → after = before) ∧
      (c.stdout = false →
        (∀ loc, after.file? loc =
          ((after.lastAt loc (ts.filterMap Turn.written?)).map fun x => .text x.text).or
            (before.file? loc)) ∧
        (∀ x ∈ ts.filterMap Turn.written?,
          ∃ file ∈ c.files, e.emission before file = .ok x ∧ x.path = e.outputPath file) ∧
        ∀ turn ∈ ts,
          (∀ cause, turn.result = .error cause → turn.after = turn.before) ∧
            ∀ failure, turn.delivery = .error failure →
              ∀ loc, turn.after.file? loc = turn.before.file? loc) := by
  intro e ts after
  have whole : run (m := FileTree.M) arguments before =
      (outcomeOf (ts.map Turn.delivery), treeAfter before ts) := run_eq parsed usable
  have left : after = treeAfter before ts := congrArg Prod.snd whole
  refine ⟨congrArg Prod.fst whole, left, ?_, ?_⟩
  · intro printed
    rw [left]
    simp only [ts, printed]
    exact treeAfter_toStdout _ _
  · intro writes
    have hTurns : ts = turns false (c.files.map (e.emission before)) before := by
      simp only [ts, writes]
    refine ⟨?_, ?_, ?_⟩
    · intro loc
      rw [left, hTurns]
      exact treeAfter_files _ _ _
    · intro x written
      obtain ⟨file, member, emitted⟩ := List.mem_map.mp (mem_results_of_written written)
      exact ⟨file, member, emitted, e.path_of_emission emitted⟩
    · intro turn member
      rw [hTurns] at member
      exact ⟨fun _ => after_eq_of_not_emitted member, fun _ => file?_eq_of_failed member⟩

/-- The first output overwrites the second input, which is printed from what it was, and the
output of the second input overwrites the first one.  The third input is no document.  The outputs
go to the working directory, which is spelled in another way. -/
theorem run_outputs_over_inputs :
    let arguments :=
      ["--outExtension", ".json", "--outDir", "../w", "a.js.json", "a.json", "b.json"]
    let c : CommandLine :=
      { files := ["a.js.json", "a.json", "b.json"], outExtension := some ".json"
        outDir := some "../w" }
    let working : Location := ⟨["x".toList, "w".toList]⟩
    let before := FileTree.ofTexts working
      [("a.js.json", "[]"), ("a.json", "[\x7b\"kind\": \"UseStrictStat\"\x7d]"), ("b.json", "[")]
    let after := (run (m := FileTree.M) arguments before).2
    let output : Location := working.child "a.json".toList
    CommandLine.parse arguments = .ok c ∧
      (settledOptions (m := FileTree.M) c before).1 = .ok c.overrides ∧
      after.file? output = some (.text "'use strict';\r\n\r\n") ∧
      ∀ loc, loc ≠ output → after.file? loc = before.file? loc := by
  intro arguments c working before after output
  have parsed : CommandLine.parse arguments = .ok c := by decide +kernel
  have usable : (settledOptions (m := FileTree.M) c before).1 = .ok c.overrides := by
    decide +kernel
  have files := ((run_changes_only_outputs parsed usable).2.2.2 rfl).1
  have written : (turns c.stdout (c.files.map ((Emitter.ofOptions c.overrides).emission before))
      before).filterMap Turn.written? =
        [⟨"../w/a.json", ""⟩, ⟨"../w/a.json", "'use strict';\r\n\r\n"⟩] := by decide +kernel
  have leads : after.locate "../w/a.json".toList = .ok output := by decide +kernel
  rw [written] at files
  refine ⟨parsed, usable, ?_, ?_⟩
  · have last : after.lastAt output
        [⟨"../w/a.json", ""⟩, ⟨"../w/a.json", "'use strict';\r\n\r\n"⟩] =
          some ⟨"../w/a.json", "'use strict';\r\n\r\n"⟩ := by decide +kernel
    refine (files output).trans ?_
    rw [last]
    rfl
  · intro loc elsewhere
    have differs : (Except.ok output : Except FileError Location) ≠ .ok loc := by
      intro same
      exact elsewhere (Except.ok.inj same).symm
    refine (files loc).trans ?_
    rw [FileTree.lastAt_cons, FileTree.lastAt_cons, leads, if_neg differs, if_neg differs]
    rfl

/-! ### What is lost -/

/-- An output can be lost in a run that ends well. -/
theorem outputs_can_collide :
    ¬ ∀ (arguments : List String) (c : CommandLine) (options : Options) (before : FileTree),
      CommandLine.parse arguments = .ok c →
      (settledOptions (m := FileTree.M) c before).1 = .ok options →
      c.files.Nodup → c.stdout = false → (run (m := FileTree.M) arguments before).1.exit = 0 →
      ∀ file ∈ c.files, ∃ x, (Emitter.ofOptions options).emission before file = .ok x ∧
        (run (m := FileTree.M) arguments before).2.readText x.path = .ok x.text := by
  intro claim
  let before := FileTree.ofTexts ⟨["w".toList]⟩
    [("a.js.json", "[\x7b\"kind\": \"UseStrictStat\"\x7d]"), ("a.json", "[]")]
  obtain ⟨x, emitted, kept⟩ := claim ["a.js.json", "a.json"]
    { files := ["a.js.json", "a.json"] } .empty before (by decide +kernel) (by decide +kernel)
    (by decide) rfl (by decide +kernel) "a.js.json" List.mem_cons_self
  have first : (Emitter.ofOptions .empty).emission before "a.js.json" =
      .ok ⟨"a.ts", "'use strict';\r\n\r\n"⟩ := by decide +kernel
  have left : (run (m := FileTree.M) ["a.js.json", "a.json"] before).2.readText "a.ts" =
      .ok "" := by decide +kernel
  rw [← Except.ok.inj (first.symm.trans emitted), left] at kept
  exact absurd kept (by decide)

/-- A run that ends well has emitted every input, and the file at an output path holds the text
of the last input whose output path leads to the same file.  No turn of such a run fails, so every
input is among those that were written. -/
theorem run_keeps_last_output {arguments : List String} {c : CommandLine} {options : Options}
    {before : FileTree} (parsed : CommandLine.parse arguments = .ok c)
    (usable : (settledOptions (m := FileTree.M) c before).1 = .ok options)
    (writes : c.stdout = false)
    (success : (run (m := FileTree.M) arguments before).1.exit = 0) :
    let e := Emitter.ofOptions options
    let after := (run (m := FileTree.M) arguments before).2
    ∃ xs : List Emission,
      c.files.map (e.emission before) = xs.map .ok ∧
        xs.map Emission.path = c.files.map e.outputPath ∧
        ∀ x ∈ xs, ∃ loc last, after.locate x.path.toList = .ok loc ∧
          after.lastAt loc xs = some last ∧ after.readText x.path = .ok last.text := by
  intro e after
  let ts := turns false (c.files.map (e.emission before)) before
  have whole : run (m := FileTree.M) arguments before =
      (outcomeOf (ts.map Turn.delivery), treeAfter before ts) := by
    simpa only [writes] using run_eq parsed usable
  have left : after = treeAfter before ts := congrArg Prod.snd whole
  have delivered : ∀ turn ∈ ts, ∃ x, turn.result = .ok x ∧ turn.written? = some x := by
    intro turn member
    rw [whole] at success
    have fine := outcomeOf_exit_eq_zero_iff.mp success turn.delivery (List.mem_map_of_mem member)
    cases hDelivery : turn.delivery with
    | error failure =>
      rw [hDelivery] at fine
      cases fine
    | ok text => exact exists_written_of_delivered member hDelivery
  have emitted : c.files.map (e.emission before) = (ts.filterMap Turn.written?).map .ok :=
    (map_result_turns false _ before).symm.trans (map_result_eq_of_delivered delivered)
  refine ⟨ts.filterMap Turn.written?, emitted, e.paths_of_emissions emitted, ?_⟩
  intro x member
  rw [left]
  obtain ⟨loc, leads⟩ := locate_of_mem_written member
  obtain ⟨last, hLast⟩ := FileTree.exists_lastAt member leads
  refine ⟨loc, last, leads, hLast, FileTree.readText_eq_ok_iff.mpr ⟨loc, leads, ?_⟩⟩
  rw [treeAfter_files, hLast]
  rfl

/-- The outputs of two of three inputs are one file, which stands in the working directory and is
spelled in two ways. -/
theorem run_keeps_last_of_three :
    let arguments := ["a.js.json", "b.flow.json", "--forceExport", "../w/a.json"]
    let c : CommandLine :=
      { files := ["a.js.json", "b.flow.json", "../w/a.json"], forceExport := true }
    let working : Location := ⟨["x".toList, "w".toList]⟩
    let before := FileTree.ofTexts working
      [("a.js.json", "[\x7b\"kind\": \"UseStrictStat\"\x7d]"), ("a.json", "[]"),
        ("b.flow.json", "\x7b\"statements\": []\x7d")]
    let after := (run (m := FileTree.M) arguments before).2
    CommandLine.parse arguments = .ok c ∧
      (settledOptions (m := FileTree.M) c before).1 = .ok c.overrides ∧ c.stdout = false ∧
      (run (m := FileTree.M) arguments before).1.exit = 0 ∧
      after.locate "a.ts".toList = .ok (working.child "a.ts".toList) ∧
      after.locate "../w/a.ts".toList = .ok (working.child "a.ts".toList) ∧
      ∃ xs : List Emission, xs.map Emission.path = ["a.ts", "b.ts", "../w/a.ts"] ∧
        ∀ x ∈ xs, ∃ loc last, after.locate x.path.toList = .ok loc ∧
          after.lastAt loc xs = some last ∧ after.readText x.path = .ok last.text := by
  intro arguments c working before after
  have parsed : CommandLine.parse arguments = .ok c := by decide +kernel
  have usable : (settledOptions (m := FileTree.M) c before).1 = .ok c.overrides := by
    decide +kernel
  have success : (run (m := FileTree.M) arguments before).1.exit = 0 := by decide +kernel
  obtain ⟨xs, -, paths, kept⟩ := run_keeps_last_output parsed usable rfl success
  have places : c.files.map (Emitter.ofOptions c.overrides).outputPath =
      ["a.ts", "b.ts", "../w/a.ts"] := by decide +kernel
  refine ⟨parsed, usable, rfl, success, ?_, ?_, xs, paths.trans places, kept⟩
  · decide +kernel
  · decide +kernel

/-! ## Inputs of a run

Nothing keeps an output from being written over an input.  With the extension `.json` an input
`a.json` is its own output path, and a run leaves there what the document was printed to
(`inputs_can_be_overwritten`).

This is the only way to lose an input (`run_keeps_inputs`).  An input that is changed stands
where the output of some input stands, and holds the text of that output.  Then it also has the
name of the output, unless the extension brings along a directory.  So a run changes no input
whose path does not end in the extension of the outputs.
-/

/-! ### What can happen to an input -/

/-- Between two trees the output of a source was written over a file. -/
structure Emitter.Overwrites (e : Emitter) (before after : FileTree) (source file : String) :
    Prop where
  /-- The path of the output leads to the file. -/
  meets : after.locate (e.outputPath source).toList = after.locate file.toList
  /-- The file holds the text that the source was printed to. -/
  holds : ∃ text, e.printed? before source = some text ∧
    after.lookup file.toList = .ok (.file (.text text))
  /-- The file has the name of the output, and its path ends with it. -/
  named : '/' ∉ e.extension.toList →
    Path.fileName? file.toList = some (outputName e.extension source.toList) ∧
      outputName e.extension source.toList <:+ file.toList

/-- A file has the extension of an output that is written over it. -/
theorem Emitter.Overwrites.extension_suffix {e : Emitter} {before after : FileTree}
    {source file : String} (h : e.Overwrites before after source file)
    (level : '/' ∉ e.extension.toList) : e.extension.toList <:+ file.toList :=
  (List.suffix_append _ _).trans (h.named level).2

/-- Two paths to one file end with the same name. -/
theorem FileTree.fileName?_eq_of_same {t : FileTree} {path path' name : List Char}
    {loc : Location} {contents : Contents} (located : t.locate path = .ok loc)
    (located' : t.locate path' = .ok loc) (file : t.file? loc = some contents)
    (last : (Path.split path).getLast? = some name) :
    Path.fileName? path' = some name ∧ name <:+ path' := by
  obtain ⟨_, below, ends, -⟩ := name_of_file located (not_directory_of_file? file)
  obtain ⟨_, below', ends', named'⟩ := name_of_file located' (not_directory_of_file? file)
  cases below.symm.trans below'
  cases last.symm.trans ends
  exact ⟨named', Path.suffix_of_getLast?_split ends'⟩

/-- What turns do to a file is to keep it or to write the output of one of the inputs over it. -/
theorem kept_or_overwritten (e : Emitter) (before : FileTree) (files : List String)
    {file : String} {contents : Contents}
    (there : before.lookup file.toList = .ok (.file contents)) :
    let after := treeAfter before (turns false (files.map (e.emission before)) before)
    after.lookup file.toList = .ok (.file contents) ∨
      ∃ source ∈ files, e.Overwrites before after source file := by
  intro after
  obtain ⟨loc, located, held⟩ := FileTree.lookup_eq_file_iff.mp there
  have leads : after.locate file.toList = .ok loc :=
    FileTree.locate_of_keeps (treeAfter_keeps _ before) located
  have holds : after.file? loc = _ := treeAfter_files (files.map (e.emission before)) before loc
  cases hLast : after.lastAt loc ((turns false (files.map (e.emission before)) before).filterMap
      Turn.written?) with
  | none =>
    left
    rw [hLast, held] at holds
    exact FileTree.lookup_eq_file_iff.mpr ⟨loc, leads, holds⟩
  | some x =>
    right
    rw [hLast] at holds
    obtain ⟨written, meets⟩ := FileTree.of_lastAt hLast
    obtain ⟨source, member, emitted⟩ := List.mem_map.mp (mem_results_of_written written)
    obtain ⟨_, -, failed⟩ | ⟨text, printed, whole⟩ := e.emission_cases before source
    · cases failed.symm.trans emitted
    obtain rfl : _ = x := Except.ok.inj (whole.symm.trans emitted)
    refine ⟨source, member, meets.trans leads.symm, ⟨text, printed, ?_⟩, ?_⟩
    · exact FileTree.lookup_eq_file_iff.mpr ⟨loc, leads, holds⟩
    · intro level
      exact FileTree.fileName?_eq_of_same meets leads holds
        (getLast?_split_outputPath e.outDir source level)

/-- What a run over files does to a file.  Only a run that writes can do more than keep it. -/
theorem run_keeps_or_overwrites {arguments : List String} {c : CommandLine} {before : FileTree}
    {file : String} {contents : Contents} (parsed : CommandLine.parse arguments = .ok c)
    (there : before.lookup file.toList = .ok (.file contents)) :
    let after := (run (m := FileTree.M) arguments before).2
    after.lookup file.toList = .ok (.file contents) ∨
      ∃ options, (settledOptions (m := FileTree.M) c before).1 = .ok options ∧
        c.stdout = false ∧ ∃ source ∈ c.files,
          (Emitter.ofOptions options).Overwrites before after source file := by
  intro after
  cases usable : (settledOptions (m := FileTree.M) c before).1 with
  | error cause =>
    have same : after = before := run_of_unusable parsed usable
    exact .inl (same ▸ there)
  | ok options =>
    have left : after = _ := congrArg Prod.snd (run_eq parsed usable)
    cases writes : c.stdout with
    | true =>
      rw [writes] at left
      have same : after = before := left.trans (treeAfter_toStdout _ before)
      exact .inl (same ▸ there)
    | false =>
      rw [writes] at left
      rw [left]
      refine (kept_or_overwritten (.ofOptions options) before c.files there).imp_right ?_
      exact fun overwritten => ⟨options, rfl, rfl, overwritten⟩

/-! ### Runs over their own inputs -/

/-- A run can write over an input. -/
theorem inputs_can_be_overwritten :
    ¬ ∀ (arguments : List String) (c : CommandLine) (before : FileTree),
      CommandLine.parse arguments = .ok c →
      ∀ file ∈ c.files, ∀ contents, before.lookup file.toList = .ok (.file contents) →
        (run (m := FileTree.M) arguments before).2.lookup file.toList =
          .ok (.file contents) := by
  intro claim
  let before := FileTree.ofTexts ⟨["w".toList]⟩
    [("a.json", "[\x7b\"kind\": \"UseStrictStat\"\x7d]")]
  have kept := claim ["--outExtension", ".json", "a.json"]
    { files := ["a.json"], outExtension := some ".json" } before (by decide +kernel) "a.json"
    List.mem_cons_self (.text "[\x7b\"kind\": \"UseStrictStat\"\x7d]") (by decide +kernel)
  have left : (run (m := FileTree.M) ["--outExtension", ".json", "a.json"] before).2.lookup
      "a.json".toList = .ok (.file (.text "'use strict';\r\n\r\n")) := by decide +kernel
  rw [left] at kept
  exact absurd kept (by decide)

/-- An input that is a file is kept as it is, unless the output of an input is written over it.
The latter takes a run that writes, and a file that has the name of the output.  So an input
whose path does not end in the extension of the outputs is kept.  The tree has no links, so a
file has one location, however its path is spelled. -/
theorem run_keeps_inputs (arguments : List String) (before : FileTree) :
    let after := (run (m := FileTree.M) arguments before).2
    (∀ stop, CommandLine.parse arguments = .error stop → after = before) ∧
      ∀ c, CommandLine.parse arguments = .ok c →
        ∀ file ∈ c.files, ∀ contents, before.lookup file.toList = .ok (.file contents) →
          (after.lookup file.toList = .ok (.file contents) ∨
            ∃ options, (settledOptions (m := FileTree.M) c before).1 = .ok options ∧
              c.stdout = false ∧ ∃ source ∈ c.files,
                (Emitter.ofOptions options).Overwrites before after source file) ∧
          ∀ options, (settledOptions (m := FileTree.M) c before).1 = .ok options →
            '/' ∉ options.extension.toList → ¬options.extension.toList <:+ file.toList →
              after.lookup file.toList = .ok (.file contents) := by
  intro after
  refine ⟨fun stop => run_of_stopped before, ?_⟩
  intro c parsed file _ contents there
  have fate := run_keeps_or_overwrites parsed there
  refine ⟨fate, ?_⟩
  intro options usable level differs
  obtain kept | ⟨_, usable', -, source, -, overwritten⟩ := fate
  · exact kept
  · cases usable.symm.trans usable'
    exact absurd (overwritten.extension_suffix level) differs

/-- Of two inputs the first is kept, and its output is written over the second, in a directory that
is spelled from the root. -/
theorem run_writes_over_second_input :
    let arguments := ["--outDir", "/x/w", "a.json", "a.ts"]
    let c : CommandLine := { files := ["a.json", "a.ts"], outDir := some "/x/w" }
    let before := FileTree.ofTexts ⟨["x".toList, "w".toList]⟩
      [("a.json", "[]"), ("a.ts", "[\x7b\"kind\": \"UseStrictStat\"\x7d]")]
    let after := (run (m := FileTree.M) arguments before).2
    CommandLine.parse arguments = .ok c ∧
      after.lookup "a.json".toList = .ok (.file (.text "[]")) ∧
      ∃ source ∈ c.files,
        (Emitter.ofOptions c.overrides).Overwrites before after source "a.ts" := by
  intro arguments c before after
  have parsed : CommandLine.parse arguments = .ok c := by decide +kernel
  have usable : (settledOptions (m := FileTree.M) c before).1 = .ok c.overrides := by
    decide +kernel
  have fates := (run_keeps_inputs arguments before).2 c parsed
  refine ⟨parsed, ?_, ?_⟩
  · exact (fates "a.json" (by decide) (.text "[]") (by decide +kernel)).2 _ usable
      (by decide) (by decide)
  · have second := (fates "a.ts" (by decide) (.text "[\x7b\"kind\": \"UseStrictStat\"\x7d]")
      (by decide +kernel)).1
    have changed : after.lookup "a.ts".toList = .ok (.file (.text "")) := by decide +kernel
    obtain kept | ⟨options, usable', -, overwritten⟩ := second
    · exact absurd (changed.symm.trans kept) (by decide)
    · cases usable.symm.trans usable'
      exact overwritten

end FlowDecl

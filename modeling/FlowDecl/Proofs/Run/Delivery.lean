import FlowDecl.Proofs.Emission
import FlowDecl.Run

/-!
# Turns of a run

A run emits all of its inputs first and delivers them afterwards, one after the other.  The
delivery of one input is a turn: the tree before it, what the input was emitted to, what
became of it, and the tree after it.  A run is the list of its turns (`deliverAll_run`), and
every emission in it comes from the tree that the run found (`run_eq`).

A turn does one of three things to the tree (`takeTurn_cases`).  An input that is not emitted
leaves it alone.  An output that cannot be written leaves new directories at most.  An output
that is written is stored in the one file that its path leads to, and leads to still in every
later tree.  So a file holds what was last stored in it, and what it held before the run if
nothing was (`treeAfter_files`).
-/

namespace FlowDecl

/-! ## Turns -/

/-- The delivery of one input. -/
structure Turn where
  /-- The tree before. -/
  before : FileTree
  /-- What the input was emitted to. -/
  result : Except EmitError Emission
  /-- What became of it. -/
  delivery : Delivery
  /-- The tree after. -/
  after : FileTree

/-- The turn in which a result is delivered to a tree. -/
def takeTurn (toStdout : Bool) (result : Except EmitError Emission) (t : FileTree) : Turn where
  before := t
  result := result
  delivery := (deliver (m := FileTree.M) toStdout result t).1
  after := (deliver (m := FileTree.M) toStdout result t).2

/-- The turns in which results are delivered, each to the tree that the one before has left. -/
def turns (toStdout : Bool) : List (Except EmitError Emission) → FileTree → List Turn
  | [], _ => []
  | result :: results, t =>
    takeTurn toStdout result t :: turns toStdout results (takeTurn toStdout result t).after

/-- The tree after some turns. -/
def treeAfter (t : FileTree) (ts : List Turn) : FileTree := (ts.getLast?.map Turn.after).getD t

/-- The emission of a turn, if it was read, loaded and written. -/
def Turn.written? (turn : Turn) : Option Emission :=
  match turn.result, turn.delivery with
  | .ok x, .ok _ => some x
  | _, _ => none

/-- What a turn has written is what its input was emitted to, if the delivery did not fail. -/
theorem Turn.written?_eq_some_iff {turn : Turn} {x : Emission} :
    turn.written? = some x ↔ turn.result = .ok x ∧ ∃ text, turn.delivery = .ok text := by
  obtain ⟨before, result, delivery, after⟩ := turn
  cases result with
  | error cause => simp [written?]
  | ok y => cases delivery <;> simp [written?]

theorem Turn.written?_of_failed {turn : Turn} {failure : Failure}
    (failed : turn.delivery = .error failure) : turn.written? = none := by
  rw [Option.eq_none_iff_forall_ne_some]
  intro x written
  obtain ⟨-, text, delivered⟩ := written?_eq_some_iff.mp written
  rw [failed] at delivered
  cases delivered

theorem treeAfter_cons (t : FileTree) (turn : Turn) (ts : List Turn) :
    treeAfter t (turn :: ts) = treeAfter turn.after ts := by
  rw [treeAfter, treeAfter, List.getLast?_cons]
  cases ts.getLast? <;> rfl

/-- A run of deliveries is the list of its turns. -/
theorem deliverAll_run (toStdout : Bool) (results : List (Except EmitError Emission))
    (t : FileTree) :
    deliverAll (m := FileTree.M) toStdout results t =
      ((turns toStdout results t).map Turn.delivery, treeAfter t (turns toStdout results t)) := by
  induction results generalizing t with
  | nil => rfl
  | cons result results ih =>
    rw [deliverAll, FileTree.bind_run, FileTree.bind_run, ih, turns, List.map_cons,
      treeAfter_cons]
    rfl

/-- Each result has its turn, in order. -/
theorem map_result_turns (toStdout : Bool) (results : List (Except EmitError Emission))
    (t : FileTree) : (turns toStdout results t).map Turn.result = results := by
  induction results generalizing t with
  | nil => rfl
  | cons result results ih =>
    rw [turns, List.map_cons, ih]
    rfl

/-- What is written is one of the results. -/
theorem mem_results_of_written {toStdout : Bool} {results : List (Except EmitError Emission)}
    {t : FileTree} {x : Emission}
    (written : x ∈ (turns toStdout results t).filterMap Turn.written?) : .ok x ∈ results := by
  obtain ⟨turn, member, hWritten⟩ := List.mem_filterMap.mp written
  have emitted := (Turn.written?_eq_some_iff.mp hWritten).1
  rw [← map_result_turns toStdout results t]
  exact List.mem_map.mpr ⟨turn, member, emitted⟩

/-! ## One turn -/

/-- Between two trees, an emission was stored in the file at a location. -/
structure Stored (x : Emission) (loc : Location) (before after : FileTree) : Prop where
  /-- The path of the emission leads there. -/
  leads : after.locate x.path.toList = .ok loc
  /-- The file there holds the text. -/
  holds : after.file? loc = some (.text x.text)
  /-- Every other file is as it was, and no other is new. -/
  others : ∀ other, other ≠ loc → after.file? other = before.file? other
  /-- Every directory is still there. -/
  keeps : before.KeepsDirectories after

/-- Writing a text fails and changes nothing, or stores the text. -/
theorem writeText_cases (x : Emission) (t : FileTree) :
    (∃ cause, (FileSystem.writeText x.path x.text : FileTree.M _) t = (.error cause, t)) ∨
      ∃ t' loc, (FileSystem.writeText x.path x.text : FileTree.M _) t = (.ok (), t') ∧
        Stored x loc t t' := by
  rw [FileTree.writeText_run, FileTree.writeText]
  rcases t.write_cases x.path.toList (.text x.text) with
    ⟨cause, failed⟩ | ⟨loc, located, free, done⟩
  · exact .inl ⟨cause, by rw [failed]⟩
  · have keeps := FileTree.KeepsDirectories.set free (.file (.text x.text))
    refine .inr ⟨_, loc, by rw [done], ?_⟩
    exact {
      leads := FileTree.locate_of_keeps keeps located
      holds := FileTree.file?_set_self free _
      others := fun other ne => t.file?_set_of_ne ne _
      keeps := keeps }

/-- Writing an emission makes directories and then either fails or stores the text. -/
theorem Emission.write_cases (x : Emission) (t : FileTree) :
    (∃ cause t', (x.write : FileTree.M _) t = (.error cause, t') ∧ t.Grows t') ∨
      ∃ t' loc, (x.write : FileTree.M _) t = (.ok (), t') ∧ Stored x loc t t' := by
  rw [Emission.write]
  cases Path.parent? x.path.toList with
  | none =>
    rcases writeText_cases x t with ⟨cause, failed⟩ | stored
    · exact .inl ⟨cause, t, failed, .refl t⟩
    · exact .inr stored
  | some directory =>
    have grown := t.createDirectories_grows (.ofList directory)
    dsimp only
    rw [FileTree.bind_run, FileTree.createDirectories_run]
    generalize t.createDirectories (.ofList directory) = made at grown
    rcases made with ⟨t₁, cause | _⟩
    · exact .inl ⟨cause, t₁, rfl, grown⟩
    · rcases writeText_cases x t₁ with ⟨cause, failed⟩ | ⟨t', loc, done, stored⟩
      · exact .inl ⟨cause, t₁, failed, grown⟩
      · refine .inr ⟨t', loc, done, { stored with
          others := fun other ne => (stored.others other ne).trans (grown.files other)
          keeps := grown.keeps.trans stored.keeps }⟩

/-- Printing an input changes nothing. -/
theorem takeTurn_toStdout (result : Except EmitError Emission) (t : FileTree) :
    (takeTurn true result t).after = t := by
  cases result with
  | error cause => rfl
  | ok x => rfl

/-- An emission that is not printed is written, and fails if that does. -/
theorem deliver_written (x : Emission) (t : FileTree) :
    deliver (m := FileTree.M) false (.ok x) t =
      match (x.write : FileTree.M _) t with
      | (.error cause, t') => (.error (.write x.path cause), t')
      | (.ok (), t') => (.ok "", t') := by
  simp only [deliver, Bool.false_eq_true, if_false, FileTree.bind_run]
  rcases (x.write : FileTree.M _) t with ⟨cause | _, t'⟩
  · rfl
  · rfl

/-- What a turn does that may write: the input is not emitted, or its output cannot be written,
or its output is stored. -/
theorem takeTurn_cases (result : Except EmitError Emission) (t : FileTree) :
    (∃ cause, result = .error cause ∧ (takeTurn false result t).delivery = .error (.emit cause) ∧
        (takeTurn false result t).after = t) ∨
      (∃ x cause, result = .ok x ∧
        (takeTurn false result t).delivery = .error (.write x.path cause) ∧
        t.Grows (takeTurn false result t).after) ∨
      ∃ x loc, result = .ok x ∧ (takeTurn false result t).delivery = .ok "" ∧
        Stored x loc t (takeTurn false result t).after := by
  cases result with
  | error cause => exact .inl ⟨cause, rfl, rfl, rfl⟩
  | ok x =>
    have delivered := deliver_written x t
    right
    rcases x.write_cases t with ⟨cause, t', failed, grown⟩ | ⟨t', loc, done, stored⟩
    · left
      rw [failed] at delivered
      refine ⟨x, cause, rfl, ?_⟩
      rw [takeTurn, delivered]
      exact ⟨rfl, grown⟩
    · right
      rw [done] at delivered
      refine ⟨x, loc, rfl, ?_⟩
      rw [takeTurn, delivered]
      exact ⟨rfl, stored⟩

theorem takeTurn_keeps (result : Except EmitError Emission) (t : FileTree) :
    t.KeepsDirectories (takeTurn false result t).after := by
  rcases takeTurn_cases result t with
    ⟨_, _, _, same⟩ | ⟨_, _, _, _, grown⟩ | ⟨_, _, _, _, stored⟩
  · rw [same]
    exact .refl t
  · exact grown.keeps
  · exact stored.keeps

/-! ## All turns -/

/-- Printing changes nothing. -/
theorem treeAfter_toStdout (results : List (Except EmitError Emission)) (t : FileTree) :
    treeAfter t (turns true results t) = t := by
  induction results with
  | nil => rfl
  | cons result results ih =>
    rw [turns, treeAfter_cons, takeTurn_toStdout]
    exact ih

/-- Turns take no directory away. -/
theorem treeAfter_keeps (results : List (Except EmitError Emission)) (t : FileTree) :
    t.KeepsDirectories (treeAfter t (turns false results t)) := by
  induction results generalizing t with
  | nil => exact .refl t
  | cons result results ih =>
    rw [turns, treeAfter_cons]
    exact (takeTurn_keeps result t).trans (ih _)

/-- Each turn of a run is taken for some result in some tree. -/
theorem exists_takeTurn_of_mem {toStdout : Bool} {results : List (Except EmitError Emission)}
    {t : FileTree} {turn : Turn} (member : turn ∈ turns toStdout results t) :
    ∃ result before, turn = takeTurn toStdout result before := by
  induction results generalizing t with
  | nil => cases member
  | cons result results ih =>
    rw [turns] at member
    cases member with
    | head => exact ⟨result, t, rfl⟩
    | tail _ later => exact ih later

/-- An input that is not emitted changes nothing. -/
theorem after_eq_of_not_emitted {results : List (Except EmitError Emission)} {t : FileTree}
    {turn : Turn} (member : turn ∈ turns false results t) {cause : EmitError}
    (failed : turn.result = .error cause) : turn.after = turn.before := by
  obtain ⟨result, before, rfl⟩ := exists_takeTurn_of_mem member
  rcases takeTurn_cases result before with
    ⟨_, _, _, same⟩ | ⟨_, _, emitted, _⟩ | ⟨_, _, emitted, _⟩
  · exact same
  · cases emitted.symm.trans failed
  · cases emitted.symm.trans failed

/-- An input that fails changes no file. -/
theorem file?_eq_of_failed {results : List (Except EmitError Emission)} {t : FileTree}
    {turn : Turn} (member : turn ∈ turns false results t) {failure : Failure}
    (failed : turn.delivery = .error failure) (loc : Location) :
    turn.after.file? loc = turn.before.file? loc := by
  obtain ⟨result, before, rfl⟩ := exists_takeTurn_of_mem member
  rcases takeTurn_cases result before with
    ⟨_, _, _, same⟩ | ⟨_, _, _, _, grown⟩ | ⟨_, _, _, done, _⟩
  · rw [same]
    rfl
  · exact grown.files loc
  · cases done.symm.trans failed

/-- An input whose turn does not fail was emitted, and the emission was written. -/
theorem exists_written_of_delivered {results : List (Except EmitError Emission)} {t : FileTree}
    {turn : Turn} (member : turn ∈ turns false results t) {text : String}
    (delivered : turn.delivery = .ok text) :
    ∃ x, turn.result = .ok x ∧ turn.written? = some x := by
  obtain ⟨result, before, rfl⟩ := exists_takeTurn_of_mem member
  rcases takeTurn_cases result before with
    ⟨_, _, failed, _⟩ | ⟨_, _, _, failed, _⟩ | ⟨x, _, emitted, _⟩
  · cases failed.symm.trans delivered
  · cases failed.symm.trans delivered
  · exact ⟨x, emitted, Turn.written?_eq_some_iff.mpr ⟨emitted, text, delivered⟩⟩

/-- The tree that a turn leaves keeps its directories to the end. -/
theorem keeps_of_mem_turns {results : List (Except EmitError Emission)} {t : FileTree}
    {turn : Turn} (member : turn ∈ turns false results t) :
    turn.after.KeepsDirectories (treeAfter t (turns false results t)) := by
  induction results generalizing t with
  | nil => cases member
  | cons result results ih =>
    rw [turns] at member
    rw [turns, treeAfter_cons]
    cases member with
    | head => exact treeAfter_keeps results _
    | tail _ later => exact ih later

/-- The path of an emission that was written leads to a location in the end. -/
theorem locate_of_mem_written {results : List (Except EmitError Emission)} {t : FileTree}
    {x : Emission} (member : x ∈ (turns false results t).filterMap Turn.written?) :
    ∃ loc, (treeAfter t (turns false results t)).locate x.path.toList = .ok loc := by
  obtain ⟨turn, hTurn, written⟩ := List.mem_filterMap.mp member
  have keeps := keeps_of_mem_turns hTurn
  obtain ⟨result, before, rfl⟩ := exists_takeTurn_of_mem hTurn
  rcases takeTurn_cases result before with
    ⟨_, _, failed, _⟩ | ⟨_, _, _, failed, _⟩ | ⟨y, loc, emitted, done, stored⟩
  · rw [Turn.written?_of_failed failed] at written
    cases written
  · rw [Turn.written?_of_failed failed] at written
    cases written
  · have same : some y = some x :=
      (Turn.written?_eq_some_iff.mpr ⟨emitted, _, done⟩).symm.trans written
    cases same
    exact ⟨loc, FileTree.locate_of_keeps keeps stored.leads⟩

/-- The last of some emissions whose paths lead to a location. -/
def FileTree.lastAt (t : FileTree) (loc : Location) (xs : List Emission) : Option Emission :=
  (xs.filter fun x => t.locate x.path.toList = .ok loc).getLast?

/-- The last emission at a location is one of the later ones, or else the first if it leads there.
-/
theorem FileTree.lastAt_cons (t : FileTree) (loc : Location) (x : Emission)
    (xs : List Emission) :
    t.lastAt loc (x :: xs) =
      (t.lastAt loc xs).or (if t.locate x.path.toList = .ok loc then some x else none) := by
  rw [lastAt, lastAt]
  by_cases leads : t.locate x.path.toList = .ok loc
  · rw [List.filter_cons_of_pos (by simpa using leads), List.getLast?_cons, if_pos leads,
      Option.or_some]
  · rw [List.filter_cons_of_neg (by simpa using leads), if_neg leads, Option.or_none]

/-- There is a last emission at a location if any leads there. -/
theorem FileTree.exists_lastAt {t : FileTree} {loc : Location} {x : Emission}
    {xs : List Emission} (member : x ∈ xs) (leads : t.locate x.path.toList = .ok loc) :
    ∃ last, t.lastAt loc xs = some last := by
  have among : x ∈ xs.filter fun x => t.locate x.path.toList = .ok loc :=
    List.mem_filter.mpr ⟨member, by simpa using leads⟩
  exact ⟨_, List.getLast?_eq_some_getLast (List.ne_nil_of_mem among)⟩

theorem FileTree.of_lastAt {t : FileTree} {loc : Location} {xs : List Emission} {x : Emission}
    (h : t.lastAt loc xs = some x) : x ∈ xs ∧ t.locate x.path.toList = .ok loc := by
  have among := List.mem_of_getLast? h
  rw [List.mem_filter, decide_eq_true_iff] at among
  exact among

/-- A file holds the text that was last stored in it, or else what it held before.  Where a path
leads when its text is stored is where it leads in the end, so the final tree tells which texts
went to the file. -/
theorem treeAfter_files (results : List (Except EmitError Emission)) (t : FileTree)
    (loc : Location) :
    let ts := turns false results t
    (treeAfter t ts).file? loc =
      (((treeAfter t ts).lastAt loc (ts.filterMap Turn.written?)).map fun x => .text x.text).or
        (t.file? loc) := by
  induction results generalizing t with
  | nil => rfl
  | cons result results ih =>
    have later := ih (takeTurn false result t).after
    have keeps := treeAfter_keeps results (takeTurn false result t).after
    simp only [turns, treeAfter_cons]
    rw [later]
    rcases takeTurn_cases result t with
      ⟨_, _, failed, same⟩ | ⟨_, _, _, failed, grown⟩ | ⟨x, landed, emitted, done, stored⟩
    · rw [List.filterMap_cons_none (Turn.written?_of_failed failed), same]
    · rw [List.filterMap_cons_none (Turn.written?_of_failed failed), grown.files]
    · have written : (takeTurn false result t).written? = some x :=
        Turn.written?_eq_some_iff.mpr ⟨emitted, _, done⟩
      have leads := FileTree.locate_of_keeps keeps stored.leads
      rw [List.filterMap_cons_some written, FileTree.lastAt_cons, leads]
      by_cases here : loc = landed
      · rw [here, stored.holds, if_pos rfl]
        cases FileTree.lastAt _ landed _ with
        | none => rfl
        | some later => rfl
      · have elsewhere : (Except.ok landed : Except FileError Location) ≠ .ok loc := by
          intro same
          exact here (Except.ok.inj same).symm
        rw [stored.others loc here, if_neg elsewhere, Option.or_none]

/-- If no turn fails, the inputs were emitted to what was written. -/
theorem map_result_eq_of_delivered {ts : List Turn}
    (delivered : ∀ turn ∈ ts, ∃ x, turn.result = .ok x ∧ turn.written? = some x) :
    ts.map Turn.result = (ts.filterMap Turn.written?).map .ok := by
  induction ts with
  | nil => rfl
  | cons turn ts ih =>
    obtain ⟨x, emitted, written⟩ := delivered turn List.mem_cons_self
    have rest := ih fun other member => delivered other (List.mem_cons_of_mem turn member)
    rw [List.map_cons, List.filterMap_cons_some written, List.map_cons, emitted, rest]

/-! ## Runs -/

/-- A run ends well exactly if no delivery fails. -/
theorem outcomeOf_exit_eq_zero_iff {deliveries : List Delivery} :
    (outcomeOf deliveries).exit = 0 ↔ ∀ delivery ∈ deliveries, delivery.failure? = none := by
  rw [← List.filterMap_eq_nil_iff, outcomeOf]
  cases deliveries.filterMap Delivery.failure? with
  | nil => simp
  | cons failure failures => simp

theorem Options.atPath_run (path : String) (t : FileTree) :
    (Options.atPath (m := FileTree.M) path t).2 = t := by
  rw [atPath, FileTree.bind_run, FileTree.readText_run]
  cases t.readText path with
  | error cause => rfl
  | ok text =>
    dsimp only
    cases Options.parse text with
    | error cause => rfl
    | ok options => rfl

/-- Finding the options of the project changes nothing. -/
theorem projectOptions_run (c : CommandLine) (t : FileTree) :
    (projectOptions (m := FileTree.M) c t).2 = t := by
  rw [projectOptions]
  cases c.project with
  | some path => exact Options.atPath_run path t
  | none =>
    dsimp only
    rw [FileTree.bind_run, FileTree.pathExists_run]
    cases t.pathExists defaultOptionsFile with
    | true => exact Options.atPath_run defaultOptionsFile t
    | false => rfl

/-- Settling the options changes nothing. -/
theorem settledOptions_run (c : CommandLine) (t : FileTree) :
    (settledOptions (m := FileTree.M) c t).2 = t := by
  rw [settledOptions, FileTree.bind_run]
  exact projectOptions_run c t

/-- The inputs of a command line are emitted from the files that are there, and then take their
turns. -/
theorem runFiles_eq (c : CommandLine) (e : Emitter) (t : FileTree) :
    let ts := turns c.stdout (c.files.map (e.emission t)) t
    runFiles (m := FileTree.M) c e t = (outcomeOf (ts.map Turn.delivery), treeAfter t ts) := by
  rw [runFiles, FileTree.bind_run, Emitter.emitFiles_run, FileTree.bind_run, deliverAll_run]
  rfl

/-- A run with usable options is the run of its files. -/
theorem run_eq_runFiles {arguments : List String} {c : CommandLine} {options : Options}
    {before : FileTree} (parsed : CommandLine.parse arguments = .ok c)
    (usable : (settledOptions (m := FileTree.M) c before).1 = .ok options) :
    run (m := FileTree.M) arguments before =
      runFiles (m := FileTree.M) c (.ofOptions options) before := by
  have settled : settledOptions (m := FileTree.M) c before = (.ok options, before) :=
    Prod.ext usable (settledOptions_run c before)
  rw [run, parsed]
  dsimp only
  rw [runCommandLine, FileTree.bind_run, settled]

/-- A run whose options cannot be used fails for this cause alone, and changes nothing. -/
theorem run_eq_of_unusable {arguments : List String} {c : CommandLine} {cause : OptionsError}
    {before : FileTree} (parsed : CommandLine.parse arguments = .ok c)
    (unusable : (settledOptions (m := FileTree.M) c before).1 = .error cause) :
    run (m := FileTree.M) arguments before =
      ({ exit := 1, failures := [.options cause] }, before) := by
  have settled : settledOptions (m := FileTree.M) c before = (.error cause, before) :=
    Prod.ext unusable (settledOptions_run c before)
  rw [run, parsed]
  dsimp only
  rw [runCommandLine, FileTree.bind_run, settled]
  rfl

theorem run_of_unusable {arguments : List String} {c : CommandLine} {cause : OptionsError}
    {before : FileTree} (parsed : CommandLine.parse arguments = .ok c)
    (unusable : (settledOptions (m := FileTree.M) c before).1 = .error cause) :
    (run (m := FileTree.M) arguments before).2 = before :=
  congrArg Prod.snd (run_eq_of_unusable parsed unusable)

/-- A run whose arguments are not those of a command line over files changes nothing. -/
theorem run_of_stopped {arguments : List String} {stop : Stop} (before : FileTree)
    (stopped : CommandLine.parse arguments = .error stop) :
    (run (m := FileTree.M) arguments before).2 = before := by
  rw [run, stopped]
  cases stop <;> rfl

/-- A run with usable options is the list of its turns.  What is delivered comes from the files
that were there before. -/
theorem run_eq {arguments : List String} {c : CommandLine} {options : Options}
    {before : FileTree} (parsed : CommandLine.parse arguments = .ok c)
    (usable : (settledOptions (m := FileTree.M) c before).1 = .ok options) :
    let ts := turns c.stdout (c.files.map ((Emitter.ofOptions options).emission before)) before
    run (m := FileTree.M) arguments before =
      (outcomeOf (ts.map Turn.delivery), treeAfter before ts) := by
  rw [run_eq_runFiles parsed usable]
  exact runFiles_eq c _ before

end FlowDecl

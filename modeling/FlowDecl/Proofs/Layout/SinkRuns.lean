import FlowDecl.Proofs.Layout.Relocation
import Mathlib.Data.List.Infix
import Mathlib.Order.Bounds.Basic

/-!
# Runs of the sink

A run takes its steps in any order, and it goes on after a pop that is refused.  What it leaves
can be told from the steps and the levels that they meet.

*Text.*  Every step puts its own text behind what is there: a written text as it is, a line end,
or two blanks for each level.  The levels are those of the `moments` of the run.

*Level.*  A refused pop does not count, so the level is the number of pushes less the number of
the pops that were not refused.  A closed form needs no run: the level is the greatest amount by
which pushes exceed pops over all suffixes of the steps (`isGreatest_levelAfter`).  The suffix that
gives it starts after the last pop that was refused.

*Refusal.*  A pop is refused exactly if each push before it has been undone by a pop of its own,
with balanced steps between the two (`step_pop_iff`).
-/

namespace FlowDecl

/-! ## Moments -/

/-- A step of a run, and the sink that it meets. -/
structure Moment where
  /-- The sink before the step. -/
  sink : Sink
  /-- The step. -/
  step : Step

namespace Moment

/-- The text that a step puts at the end of the text. -/
def written (m : Moment) : String :=
  match m.step with
  | .push => ""
  | .pop => ""
  | .write text => text
  | .line => "\r\n"
  | .indent => .ofList (List.replicate (2 * m.sink.level) ' ')

/-- Whether the step is a pop that is not refused. -/
def undoesPush (m : Moment) : Bool := m.step = .pop && (m.sink.step .pop).isOk

end Moment

/-- The moments of a run, in order. -/
def Sink.moments (s : Sink) : List Step → List Moment
  | [] => []
  | x :: steps => ⟨s, x⟩ :: (s.perform x).moments steps

theorem indentText_eq (level : Nat) :
    indentText level = .ofList (List.replicate (2 * level) ' ') := by
  rw [← toList_indentText, String.ofList_toList]

/-- What a step writes is decided by the level that it meets. -/
theorem Moment.written_eq (m : Moment) : m.written = m.step.textAt m.sink.level := by
  obtain ⟨s, x⟩ := m
  cases x with
  | indent => exact (indentText_eq s.level).symm
  | _ => rfl

namespace Sink

theorem run_append (s : Sink) (a b : List Step) : s.run (a ++ b) = (s.run a).run b :=
  List.foldl_append

/-- A run puts the texts of its moments behind the text that is there. -/
theorem text_run (s : Sink) (steps : List Step) :
    (s.run steps).text = s.text ++ String.join ((s.moments steps).map Moment.written) := by
  induction steps generalizing s with
  | nil => simp [run, moments]
  | cons x steps ih =>
    have first : s.run (x :: steps) = (s.perform x).run steps := rfl
    rw [first, ih, moments, List.map_cons, String.join_cons, Moment.written_eq, perform_eq,
      String.append_assoc]

/-- A step is refused and changes nothing, or it is done. -/
theorem step_cases (s : Sink) (x : Step) :
    (x = .pop ∧ s.level = 0 ∧ s.step x = .error .unmatchedPop ∧ s.perform x = s) ∨
      (¬(x = .pop ∧ s.level = 0) ∧ s.step x = .ok (s.perform x)) := by
  by_cases refused : x = .pop ∧ s.level = 0
  · have failed : s.step x = .error .unmatchedPop := if_pos refused
    exact .inl ⟨refused.1, refused.2, failed, perform_of_step_error failed⟩
  · exact .inr ⟨refused, if_neg refused⟩

/-- A pop is refused exactly at level zero. -/
theorem step_pop_eq_error_iff (s : Sink) : s.step .pop = .error .unmatchedPop ↔ s.level = 0 := by
  simp [step]

end Sink

/-- A pop undoes a push exactly if it does not meet level zero. -/
theorem Moment.undoesPush_iff (m : Moment) :
    m.undoesPush ↔ m.step = .pop ∧ m.sink.level ≠ 0 := by
  by_cases zero : m.sink.level = 0 <;>
    simp [undoesPush, Sink.step, zero, Except.isOk, Except.toBool]

/-! ## The level -/

/-- By how much a step moves the level, unless it is refused. -/
def Step.shift : Step → ℤ
  | .push => 1
  | .pop => -1
  | .write _ => 0
  | .line => 0
  | .indent => 0

/-- By how much pushes exceed pops. -/
def excess (steps : List Step) : ℤ := steps.count .push - steps.count .pop

@[simp] theorem excess_nil : excess [] = 0 := rfl

@[simp] theorem excess_cons (x : Step) (steps : List Step) :
    excess (x :: steps) = x.shift + excess steps := by
  unfold excess
  cases x <;> simp [Step.shift] <;> omega

@[simp] theorem excess_append (a b : List Step) : excess (a ++ b) = excess a + excess b := by
  simp only [excess, List.count_append]
  omega

/-- A step moves the level, but not below zero. -/
theorem Step.levelAfter_eq_max (level : Nat) (x : Step) :
    (x.levelAfter level : ℤ) = max 0 (level + x.shift) := by
  cases x <;> simp only [levelAfter, shift] <;> omega

/-- The level after some steps is the greatest excess of their suffixes.  One more step continues
the best suffix, unless that leaves less than the empty one. -/
theorem isGreatest_levelAfter (steps : List Step) :
    IsGreatest {d | ∃ suffix, suffix <:+ steps ∧ d = excess suffix} (levelAfter 0 steps : ℤ) := by
  induction steps using List.reverseRecOn with
  | nil =>
    refine ⟨⟨[], List.suffix_rfl, rfl⟩, ?_⟩
    rintro _ ⟨suffix, h, rfl⟩
    rw [List.suffix_nil.mp h]
    exact le_rfl
  | append_singleton steps x ih =>
    obtain ⟨⟨best, hBest, level⟩, bound⟩ := ih
    have last : (levelAfter 0 (steps ++ [x]) : ℤ) = max 0 (levelAfter 0 steps + x.shift) := by
      rw [levelAfter_append, levelAfter_cons, levelAfter_nil, Step.levelAfter_eq_max]
    rw [last]
    constructor
    · rcases le_total ((levelAfter 0 steps : ℤ) + x.shift) 0 with low | high
      · exact ⟨[], List.nil_suffix, max_eq_left low⟩
      · refine ⟨best ++ [x], (List.suffix_append_inj_of_length_eq rfl).mpr ⟨hBest, rfl⟩, ?_⟩
        rw [max_eq_right high, level]
        simp
    · rintro _ ⟨suffix, h, rfl⟩
      rcases List.suffix_concat_iff.mp h with rfl | ⟨front, rfl, hFront⟩
      · exact le_max_left _ _
      · have le : excess front ≤ levelAfter 0 steps := bound ⟨front, hFront, rfl⟩
        refine le_trans ?_ (le_max_right _ _)
        simpa using le

/-! ## Pushes and the pops that undo them -/

/-- Behind every push of a run stands a pop of its own, with balanced steps between the two, and
the pop is not refused. -/
def Sink.PushesUndone (s : Sink) (steps : List Step) : Prop :=
  ∀ before after, steps = before ++ .push :: after →
    ∃ inner rest, after = inner ++ .pop :: rest ∧ Balanced inner ∧
      (⟨s.run (before ++ .push :: inner), .pop⟩ : Moment).undoesPush

/-- A step is a push, a pop, or leaves the level alone. -/
theorem Step.shift_cases (x : Step) : x = .push ∨ x = .pop ∨ x.shift = 0 := by
  cases x <;> simp [shift]

theorem Balanced.cons {x : Step} {steps : List Step} (still : x.shift = 0)
    (balanced : Balanced steps) : Balanced (x :: steps) := by
  cases x with
  | push => cases still
  | pop => cases still
  | write text => exact balanced.write
  | line => exact balanced.line
  | indent => exact balanced.indent

/-- Balanced steps have as many pops as pushes. -/
theorem Balanced.excess_eq {steps : List Step} (balanced : Balanced steps) : excess steps = 0 := by
  induction balanced with
  | nil => rfl
  | write _ ih => simpa [Step.shift] using ih
  | line _ ih => simpa [Step.shift] using ih
  | indent _ ih => simpa [Step.shift] using ih
  | nest _ _ ihInner ih => simp [Step.shift, ihInner, ih]

/-- Where pops exceed pushes, one of the pops stands behind balanced steps.  Behind a push the
first such pop undoes it, and a second one is found after that. -/
theorem exists_pop_of_excess_neg : ∀ {steps : List Step}, excess steps < 0 →
    ∃ inner rest, steps = inner ++ .pop :: rest ∧ Balanced inner
  | [], h => absurd h (lt_irrefl 0)
  | x :: steps, h => by
    rw [excess_cons] at h
    rcases x.shift_cases with rfl | rfl | still
    · rw [Step.shift] at h
      have first : excess steps < 0 := by omega
      obtain ⟨inner, rest, rfl, balanced⟩ := exists_pop_of_excess_neg first
      rw [excess_append, balanced.excess_eq, excess_cons, Step.shift] at h
      have second : excess rest < 0 := by omega
      obtain ⟨inner', rest', rfl, balanced'⟩ := exists_pop_of_excess_neg second
      exact ⟨.push :: inner ++ .pop :: inner', rest', by simp, balanced.nest balanced'⟩
    · exact ⟨[], steps, rfl, .nil⟩
    · have later : excess steps < 0 := by omega
      obtain ⟨inner, rest, rfl, balanced⟩ := exists_pop_of_excess_neg later
      exact ⟨x :: inner, rest, rfl, balanced.cons still⟩
termination_by steps => steps.length

/-- Where every push is undone, pushes do not exceed pops. -/
theorem excess_le_zero : ∀ {steps : List Step}, (∀ before after, steps = before ++ .push :: after →
    ∃ inner rest, after = inner ++ .pop :: rest ∧ Balanced inner) → excess steps ≤ 0
  | [], _ => le_refl 0
  | x :: steps, undone => by
    have tail : excess steps ≤ 0 := excess_le_zero fun before after h =>
      undone (x :: before) after (congrArg (x :: ·) h)
    rcases x.shift_cases with rfl | rfl | still
    · obtain ⟨inner, rest, rfl, balanced⟩ := undone [] steps rfl
      have later : excess rest ≤ 0 := excess_le_zero fun before after h =>
        undone (.push :: inner ++ .pop :: before) after (by simp [h])
      simp only [excess_cons, excess_append, balanced.excess_eq, Step.shift]
      omega
    · rw [excess_cons, Step.shift]
      omega
    · rw [excess_cons, still]
      omega
termination_by steps => steps.length

namespace Sink

/-- A pop is refused exactly if every push before it has been undone: at level zero no suffix has
more pushes than pops, also not one that starts with a push. -/
theorem step_pop_iff (steps : List Step) :
    (empty.run steps).step .pop = .error .unmatchedPop ↔ empty.PushesUndone steps := by
  have level : (empty.run steps).level = levelAfter 0 steps := by
    rw [run_eq]
    rfl
  rw [step_pop_eq_error_iff, level]
  obtain ⟨⟨best, ⟨front, hBest⟩, attained⟩, bound⟩ := isGreatest_levelAfter steps
  constructor
  · intro zero before after split
    have most : excess (.push :: after) ≤ levelAfter 0 steps := bound ⟨_, ⟨before, split.symm⟩, rfl⟩
    rw [zero, excess_cons, Step.shift] at most
    have later : excess after < 0 := by omega
    obtain ⟨inner, rest, rfl, balanced⟩ := exists_pop_of_excess_neg later
    have deeper : (empty.run (before ++ .push :: inner)).level = levelAfter 0 before + 1 := by
      rw [run_eq, levelAfter_append, levelAfter_cons, balanced.levelAfter_eq]
      rfl
    refine ⟨inner, rest, rfl, balanced, (Moment.undoesPush_iff _).mpr ⟨rfl, ?_⟩⟩
    rw [deeper]
    exact Nat.succ_ne_zero _
  · intro undone
    have none : excess best ≤ 0 := excess_le_zero fun before after split => by
      obtain ⟨inner, rest, found, balanced, -⟩ := undone (front ++ before) after (by
        rw [← hBest, split, List.append_assoc])
      exact ⟨inner, rest, found, balanced⟩
    omega

/-- A push adds one to the level, and a pop that is not refused takes one away. -/
theorem level_perform_add (s : Sink) (x : Step) :
    (s.perform x).level + (if (⟨s, x⟩ : Moment).undoesPush then 1 else 0) =
      s.level + (if x == .push then 1 else 0) := by
  simp only [Moment.undoesPush_iff]
  cases x with
  | pop =>
    by_cases zero : s.level = 0
    · simp [perform, zero]
    · simpa [perform, zero] using Nat.sub_add_cancel (Nat.one_le_iff_ne_zero.mpr zero)
  | _ => simp [perform]

/-- The level is the number of pushes less the number of pops that are not refused. -/
theorem level_run_add (s : Sink) (steps : List Step) :
    (s.run steps).level + (s.moments steps).countP Moment.undoesPush =
      s.level + steps.count .push := by
  induction steps generalizing s with
  | nil => rfl
  | cons x steps ih =>
    have first : s.run (x :: steps) = (s.perform x).run steps := rfl
    have one := s.level_perform_add x
    have rest := ih (s.perform x)
    rw [first, moments, List.countP_cons, List.count_cons]
    omega

end Sink

/-! ## Any run -/

/-- Any sequence of steps on an empty sink. -/
theorem sink_runs (steps : List Step) :
    let s := Sink.empty.run steps
    (∀ more, ∃ added, (Sink.empty.run (steps ++ more)).text = s.text ++ added) ∧
      s.text = String.join ((Sink.empty.moments steps).map Moment.written) ∧
      (∀ x, s.step x = .ok (Sink.empty.run (steps ++ [x])) ∨
        x = .pop ∧ s.step x = .error .unmatchedPop ∧ Sink.empty.run (steps ++ [x]) = s) ∧
      (s.step .pop = .error .unmatchedPop ↔ Sink.empty.PushesUndone steps) ∧
      s.level + (Sink.empty.moments steps).countP Moment.undoesPush = steps.count .push ∧
      IsGreatest {d | ∃ suffix, suffix <:+ steps ∧ d = excess suffix} (s.level : ℤ) := by
  intro s
  have level : s.level = levelAfter 0 steps := by
    simp only [s, Sink.run_eq]
    rfl
  refine ⟨?_, ?_, ?_, Sink.step_pop_iff steps, ?_, level ▸ isGreatest_levelAfter steps⟩
  · intro more
    exact ⟨_, by rw [Sink.run_append, Sink.text_run]⟩
  · simp [s, Sink.text_run, Sink.empty]
  · intro x
    have next : Sink.empty.run (steps ++ [x]) = s.perform x := Sink.run_append _ _ _
    rw [next]
    rcases s.step_cases x with ⟨pop, -, refused, same⟩ | ⟨-, done⟩
    · exact .inr ⟨pop, refused, same⟩
    · exact .inl done
  · exact (Sink.empty.level_run_add steps).trans (Nat.zero_add _)

end FlowDecl

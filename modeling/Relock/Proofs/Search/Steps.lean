import Relock.Lock.Search.Run

/-!
# Steps of a search

The states that a search goes through, counted in steps. Every run ends after some number of steps,
and what each single step preserves holds in all states of the run. Two searches that are related
step by step give the same answer.
-/

namespace Relock

namespace Subject

/-- What a search has come to after a number of steps: an answer, with which it stops, or a
state. -/
def steps (subject : Subject) : Nat → Search → Search.Step
  | 0, search => .more search
  | count + 1, search =>
      match subject.advance search with
      | .done answer => .done answer
      | .more next => subject.steps count next

variable {subject : Subject}

/-- A run takes finitely many steps, the last of which gives its answer. -/
theorem exists_steps_eq_run {search : Search} (halts : Acc subject.Follows search) :
    ∃ count, subject.steps count search = .done (subject.run search halts) := by
  induction halts with
  | intro search halts ih =>
      cases step : subject.advance search with
      | done answer =>
          refine ⟨1, ?_⟩
          rw [run_of_done _ step, steps, step]
      | more next =>
          obtain ⟨count, rest⟩ := ih next step
          refine ⟨count + 1, ?_⟩
          rw [run_of_more _ step, steps]
          simpa only [step] using rest

/-- A search that enters its call gives its answer after finitely many steps. -/
theorem exists_steps_eq_searchFrom {lock : AccessPath} {call : Call} {root : Frame}
    (entered : subject.enter lock call = some root) :
    ∃ count, subject.steps count (.start root) = .done (subject.searchFrom lock call) := by
  rw [searchFrom_of_enter_eq_some entered]
  exact exists_steps_eq_run (acc_start entered)

/-- Further steps do not change an answer. -/
theorem steps_add_of_done {count : Nat} {search : Search} {answer : Option (List StackFrame)}
    (finished : subject.steps count search = .done answer) (more : Nat) :
    subject.steps (count + more) search = .done answer := by
  induction count generalizing search with
  | zero => cases finished
  | succ count ih =>
      rw [Nat.succ_add, steps]
      rw [steps] at finished
      cases step : subject.advance search with
      | done stop => simpa only [step] using finished
      | more next =>
          rw [step] at finished
          exact ih finished

/-- The answer to a search, if it is there after the given number of steps. -/
def answerWithin? (subject : Subject) (count : Nat) (lock : AccessPath) (call : Call) :
    Option (Option (List StackFrame)) :=
  match subject.enter lock call with
  | none => some none
  | some root =>
      match subject.steps count (.start root) with
      | .done answer => some answer
      | .more _ => none

theorem searchFrom_of_answerWithin? {count : Nat} {lock : AccessPath} {call : Call}
    {answer : Option (List StackFrame)}
    (answered : subject.answerWithin? count lock call = some answer) :
    subject.searchFrom lock call = answer := by
  unfold answerWithin? at answered
  cases entered : subject.enter lock call with
  | none =>
      rw [entered] at answered
      cases answered
      exact searchFrom_of_enter_eq_none entered
  | some root =>
      simp only [entered] at answered
      split at answered
      · rename_i stop finished
        cases answered
        obtain ⟨enough, searched⟩ := exists_steps_eq_searchFrom entered
        -- Both answers are there after as many steps as the two take together.
        have own := steps_add_of_done finished enough
        have other := steps_add_of_done searched count
        rw [Nat.add_comm, own] at other
        exact (Search.Step.done.inj other).symm
      · cases answered

section Invariant

variable {Invariant : Search → Prop}
  (preserved : ∀ search next, Invariant search → subject.Move search next → Invariant next)

include preserved

/-- What every move preserves holds in all states of a run. -/
theorem invariant_of_steps {count : Nat} {search next : Search} (initially : Invariant search)
    (reached : subject.steps count search = .more next) : Invariant next := by
  induction count generalizing search with
  | zero =>
      cases reached
      exact initially
  | succ count ih =>
      rw [steps] at reached
      split at reached
      · cases reached
      · rename_i middle step
        exact ih (preserved search middle initially (move_of_advance step)) reached

/-- What every move preserves holds in the state that gives the answer. -/
theorem invariant_of_done {count : Nat} {search : Search} {answer : Option (List StackFrame)}
    (initially : Invariant search) (finished : subject.steps count search = .done answer) :
    ∃ final, Invariant final ∧ subject.advance final = .done answer := by
  induction count generalizing search with
  | zero => cases finished
  | succ count ih =>
      rw [steps] at finished
      split at finished
      · rename_i stop step
        cases finished
        exact ⟨search, initially, step⟩
      · rename_i middle step
        exact ih (preserved search middle initially (move_of_advance step)) finished

end Invariant

end Subject

/-! ## Two searches in lockstep -/

/-- The steps give the same answer or lead to related states. -/
inductive Search.Step.Rel (related : Search → Search → Prop) : Search.Step → Search.Step → Prop
  | done (answer : Option (List StackFrame)) : Rel related (.done answer) (.done answer)
  | more {search other : Search} (alike : related search other) :
      Rel related (.more search) (.more other)

namespace Subject

variable {left right : Subject} {related : Search → Search → Prop}
  (lockstep : ∀ search other, related search other →
    Search.Step.Rel related (left.advance search) (right.advance other))

include lockstep

/-- Two searches that stay related step by step give the same answer. -/
theorem run_eq_of_related {search other : Search} (alike : related search other)
    (halts : Acc left.Follows search) (other_halts : Acc right.Follows other) :
    right.run other other_halts = left.run search halts := by
  induction halts generalizing other with
  | intro search reached ih =>
      have steps := lockstep search other alike
      generalize right_step : right.advance other = step at steps
      cases left_step : left.advance search with
      | done answer =>
          rw [left_step] at steps
          cases steps
          rw [run_of_done _ left_step, run_of_done _ right_step]
      | more next =>
          rw [left_step] at steps
          cases steps with
          | more alike =>
              rw [run_of_more _ left_step, run_of_more _ right_step]
              exact ih next left_step alike _

/-- Two searches that begin with related frames, or with none, give the same answer. -/
theorem searchFrom_eq_of_related {lock other_lock : AccessPath} {call other_call : Call}
    (begins : Option.Rel (fun root other => related (.start root) (.start other))
      (left.enter lock call) (right.enter other_lock other_call)) :
    right.searchFrom other_lock other_call = left.searchFrom lock call := by
  generalize right_entered : right.enter other_lock other_call = frame at begins
  cases left_entered : left.enter lock call with
  | none =>
      rw [left_entered] at begins
      cases begins
      rw [searchFrom_of_enter_eq_none left_entered, searchFrom_of_enter_eq_none right_entered]
  | some root =>
      rw [left_entered] at begins
      cases begins with
      | some alike =>
          rw [searchFrom_of_enter_eq_some left_entered, searchFrom_of_enter_eq_some right_entered]
          exact run_eq_of_related lockstep alike _ _

end Subject

end Relock

import Relock.Proofs.Search.Steps
import Relock.Proofs.Tracking.Activations
import Relock.Proofs.Tracking.Findings

/-!
# Violations, call by call

The violations of a declaration are those that its calls make, each in the activation that interprets
it and in the state that it is met in. Whether a call makes one is found out by a search, so the
violations are known once every search has ended within a number of steps.
-/

namespace Relock

namespace Subject

variable (subject : Subject)

/-- The activations of a declaration, its own and those of the closures in it, each by its name and
its stream. -/
def activationStreams (decl : FuncDecl) : List (String × List Node) :=
  (subject.label decl, decl.stream) ::
    (subject.activations decl).2.map fun run => (run.1.name, run.1.literal.stream)

/-- The violation that a call makes in a state, if that is known after the given number of steps of a
search. -/
def violationWithin? (count : Nat) (function : String) (state : LockState) (call : Call) :
    Option (Option Violation) :=
  match state.heldLock with
  | none => some none
  | some lock =>
      if subject.repeats lock call then
        some (some ⟨.direct, function, subject.location call, lock.describeTarget, []⟩)
      else if subject.releases call then
        some none
      else
        (subject.answerWithin? count lock call).map fun answer => answer.map fun stack =>
          ⟨.nested, function, subject.location call, lock.describeTarget, stack⟩

/-- The violations of a declaration, as far as they are known after the given number of steps of each
search. -/
def violationsWithin (count : Nat) (decl : FuncDecl) : List Violation :=
  (subject.activationStreams decl).flatMap fun run =>
    (subject.encounters run.1 run.2).filterMap fun encounter =>
      (subject.violationWithin? count run.1 encounter.state encounter.call).join

/-- All violations of a declaration are known after the given number of steps of each search. -/
def settledWithin (count : Nat) (decl : FuncDecl) : Bool :=
  (subject.activationStreams decl).all fun run =>
    (subject.encounters run.1 run.2).all fun encounter =>
      (subject.violationWithin? count run.1 encounter.state encounter.call).isSome

variable {subject}

theorem violationsIn_eq_flatMap (decl : FuncDecl) :
    subject.violationsIn decl =
      (subject.activationStreams decl).flatMap fun run =>
        (subject.encounters run.1 run.2).filterMap fun encounter =>
          subject.violation? run.1 encounter.state encounter.call := by
  have tracked (function : String) (nodes : List Node) :
      (subject.track function nodes).violations =
        (subject.encounters function nodes).filterMap fun encounter =>
          subject.violation? function encounter.state encounter.call := by
    rw [← map_violation_findings, findings, List.map_filterMap]
    congr 1
    funext encounter
    rw [finding?, Option.map_map]
    exact Option.map_id'
  simp only [violationsIn, activationStreams, List.flatMap_cons, List.flatMap_map, ← tracked]
  refine congrArg _ (List.flatMap_congr fun run member => ?_)
  rw [report_of_mem_trackClosures member]

theorem mem_violationsIn {decl : FuncDecl} {violation : Violation} :
    violation ∈ subject.violationsIn decl ↔
      ∃ run ∈ subject.activationStreams decl, ∃ encounter ∈ subject.encounters run.1 run.2,
        subject.violation? run.1 encounter.state encounter.call = some violation := by
  simp only [violationsIn_eq_flatMap, List.mem_flatMap, List.mem_filterMap]

theorem violation?_of_violationWithin? {count : Nat} {function : String} {state : LockState}
    {call : Call} {answer : Option Violation}
    (known : subject.violationWithin? count function state call = some answer) :
    subject.violation? function state call = answer := by
  unfold violationWithin? at known
  unfold violation?
  cases held : state.heldLock with
  | none =>
      simp only [held] at known
      exact Option.some.inj known
  | some lock =>
      simp only [held] at known ⊢
      by_cases again : subject.repeats lock call = true
      · rw [if_pos again] at known ⊢
        exact Option.some.inj known
      · rw [if_neg again] at known ⊢
        by_cases released : subject.releases call = true
        · rw [if_pos released] at known ⊢
          exact Option.some.inj known
        · rw [if_neg released] at known ⊢
          obtain ⟨found, answered, rfl⟩ := Option.map_eq_some_iff.mp known
          rw [searchFrom_of_answerWithin? answered]

/-- When every search has ended, all violations are known. -/
theorem violationsIn_of_settled {count : Nat} {decl : FuncDecl} {violations : List Violation}
    (known : subject.settledWithin count decl = true ∧
      subject.violationsWithin count decl = violations) :
    subject.violationsIn decl = violations := by
  obtain ⟨settled, rfl⟩ := known
  rw [violationsIn_eq_flatMap, violationsWithin]
  refine List.flatMap_congr fun run run_mem => List.filterMap_congr fun encounter member => ?_
  have known := List.all_eq_true.mp (List.all_eq_true.mp settled run run_mem) encounter member
  obtain ⟨answer, known⟩ := Option.isSome_iff_exists.mp known
  rw [violation?_of_violationWithin? known, known, Option.join_some]

theorem length_violations_of_settled {count : Nat}
    (settled : ∀ decl ∈ subject.program.functions, subject.settledWithin count decl = true) :
    subject.violations.length =
      (subject.program.functions.flatMap (subject.violationsWithin count)).length := by
  rw [violations, List.length_mergeSort]
  exact congrArg List.length (List.flatMap_congr fun decl declared =>
    violationsIn_of_settled ⟨settled decl declared, rfl⟩)

end Subject

end Relock

import Mathlib.Data.List.Flatten
import Relock.Proofs.Sample
import Relock.Proofs.Search.Chain
import Relock.Proofs.Tracking.Encounters

/-!
# Wider searches

A configuration says how a lock may be followed into callees. One that follows more finds every
chain that one that follows less finds, since a path that is carried into a callee is carried there
in the same way, as long as the rules that are added come after those that there are. What an
activation counts does not depend on the search at all. So a wider search reports whatever a
narrower one does, though the calls on the way may be others.
-/

namespace Relock

/-- The configuration follows whatever another one does, and no argument before a lock of a package
that the other one follows. -/
structure SearchConfig.Widens (wide narrow : SearchConfig) : Prop where
  arguments : narrow.followArguments = true → wide.followArguments = true
  packages : narrow.followPackageLocks = true → wide.followPackageLocks = true
  order : narrow.followPackageLocks = false ∨ narrow.followArguments = wide.followArguments

/-- What a violation says, apart from the calls on the way to the second acquisition. -/
def Violation.summary (violation : Violation) :
    ViolationKind × String × SourceLocation × String :=
  (violation.kind, violation.function, violation.location, violation.lockDescription)

namespace Subject

/-- The subject with another search. -/
def withSearch (subject : Subject) (search : SearchConfig) : Subject := { subject with search }

/-- The rules by which paths are carried into callees; the search takes those it follows. -/
theorem carry_withSearch (subject : Subject) (search : SearchConfig) (lock : AccessPath)
    (call : Call) (decl : FuncDecl) :
    (subject.withSearch search).carry lock call decl =
      ((subject.carryReceiver lock call decl).or
        (if search.followArguments then subject.carryArgument lock call decl else none)).or
        (if search.followPackageLocks then subject.carryPackage lock else none) := rfl

theorem closureOf?_withSearch (subject : Subject) (search : SearchConfig) (renames : Nat)
    (expr : Expr) :
    (subject.withSearch search).closureOf? renames expr = subject.closureOf? renames expr := by
  induction renames generalizing expr with
  | zero =>
      unfold closureOf?
      cases expr.unparen <;> rfl
  | succ renames ih =>
      unfold closureOf?
      cases expr.unparen with
      | ident ident => exact congrArg ((subject.boundValue? ident).bind ·) (funext ih)
      | _ => rfl

/-- What a call runs does not depend on the search. -/
theorem closure?_withSearch (subject : Subject) (search : SearchConfig) (call : Call) :
    (subject.withSearch search).closure? call = subject.closure? call :=
  closureOf?_withSearch subject search maxRenames call.callee

variable {subject : Subject} {narrow wide : SearchConfig} (widens : wide.Widens narrow)
  {lock : AccessPath} {call : Call} {frame : Frame}

include widens

/-! ## Chains -/

/-- What is carried into a callee is carried there by a wider search as well, in the same way. -/
theorem carry_widen {path : AccessPath} {decl : FuncDecl}
    (carried : (subject.withSearch narrow).carry lock call decl = some path) :
    (subject.withSearch wide).carry lock call decl = some path := by
  obtain ⟨arguments, packages, order⟩ := widens
  rw [carry_withSearch] at carried ⊢
  rcases order with unfollowed | same
  · -- Nothing comes after receivers and arguments in the narrow search.
    rw [unfollowed, if_neg Bool.false_ne_true, Option.or_none] at carried
    refine Option.or_eq_some_iff.mpr (.inl ?_)
    rcases Option.or_eq_some_iff.mp carried with received | ⟨unreceived, passed⟩
    · exact Option.or_eq_some_iff.mpr (.inl received)
    · refine Option.or_eq_some_iff.mpr (.inr ⟨unreceived, ?_⟩)
      split at passed
      · rename_i follows
        rw [if_pos (arguments follows), passed]
      · cases passed
  · -- The searches differ at most in the rule that comes last.
    rw [same] at carried
    rcases Option.or_eq_some_iff.mp carried with earlier | ⟨refused, global⟩
    · exact Option.or_eq_some_iff.mpr (.inl earlier)
    · refine Option.or_eq_some_iff.mpr (.inr ⟨refused, ?_⟩)
      split at global
      · rename_i follows
        rw [if_pos (packages follows), global]
      · cases global

theorem enter_widen (entered : (subject.withSearch narrow).enter lock call = some frame) :
    (subject.withSearch wide).enter lock call = some frame := by
  rw [enter, closure?_withSearch] at entered ⊢
  cases closure : subject.closure? call with
  | some literal =>
      rw [closure] at entered
      exact entered
  | none =>
      rw [closure] at entered
      simp only [enterDeclaration, Option.bind_eq_bind, Option.bind_eq_some_iff] at entered ⊢
      obtain ⟨callee, callee_eq, decl, found, body, body_eq, path, carried, frame_eq⟩ := entered
      exact ⟨callee, callee_eq, decl, found, body, body_eq, path, carry_widen widens carried,
        frame_eq⟩

/-- A chain of the narrow search is one of the wide search. -/
theorem Chain.widen {positions : List Nat} {frames : List Frame} {last : Call}
    (chain : (subject.withSearch narrow).Chain frame positions frames last) :
    (subject.withSearch wide).Chain frame positions frames last := by
  induction chain with
  | here at_position acquires => exact .here at_position acquires
  | through at_position keeps entered _ ih =>
      exact .through at_position keeps (enter_widen widens entered) ih

theorem searchFrom_widen {stack : List StackFrame}
    (found : (subject.withSearch narrow).searchFrom lock call = some stack) :
    ∃ other, (subject.withSearch wide).searchFrom lock call = some other := by
  cases entered : (subject.withSearch narrow).enter lock call with
  | none => rw [searchFrom_of_enter_eq_none entered] at found; cases found
  | some root =>
      rcases searchFrom_of_enter entered with ⟨nothing, -⟩ | ⟨positions, frames, last, findable, -⟩
      · rw [nothing] at found
        cases found
      · rcases searchFrom_of_enter (enter_widen widens entered) with
          ⟨-, none_left⟩ | ⟨_, _, _, -, -, answered⟩
        · exact absurd ⟨findable.chain.widen widens, findable.distinct⟩
            (none_left positions frames last)
        · exact ⟨_, answered⟩

/-! ## Activations -/

/-- A call that makes a violation makes one that says the same under a wider search. -/
theorem violation?_widen {function : String} {state : LockState} {violation : Violation}
    (made : (subject.withSearch narrow).violation? function state call = some violation) :
    ∃ other, (subject.withSearch wide).violation? function state call = some other ∧
      other.summary = violation.summary := by
  unfold violation? at made ⊢
  cases held : state.heldLock with
  | none => simp [held] at made
  | some lock =>
      simp only [held] at made ⊢
      split at made
      · rename_i again
        cases made
        exact ⟨_, if_pos again, rfl⟩
      · rename_i different
        split at made
        · cases made
        · rename_i keeps
          obtain ⟨stack, found, rfl⟩ := Option.map_eq_some_iff.mp made
          obtain ⟨other, other_found⟩ := searchFrom_widen widens found
          refine ⟨⟨.nested, function, subject.location call, lock.describeTarget, other⟩,
            (if_neg different).trans ((if_neg keeps).trans ?_), rfl⟩
          rw [other_found]
          rfl

end Subject

/-- The second activation has come to the same state and closures as the first, and has reported
whatever the first has. -/
structure Activation.Exceeds (second first : Activation) : Prop where
  state : second.state = first.state
  closures : second.closures = first.closures
  violations : (first.violations.map Violation.summary).Sublist
    (second.violations.map Violation.summary)

namespace Subject

theorem enterDefer_withSearch (subject : Subject) (search : SearchConfig) (state : LockState)
    (call : Call) (span : Span) :
    (subject.withSearch search).enterDefer state call span =
      subject.enterDefer state call span := by
  have closure : (subject.withSearch search).closureReleasesLock state call =
      subject.closureReleasesLock state call := by
    unfold closureReleasesLock
    rw [closure?_withSearch]
    rfl
  unfold enterDefer
  rw [closure]
  rfl

variable {subject : Subject} {narrow wide : SearchConfig} (widens : wide.Widens narrow)
  {function stem : String}

include widens

theorem exceeds_interpret {first second : Activation} (exceeds : second.Exceeds first)
    (node : Node) :
    Activation.Exceeds ((subject.withSearch wide).interpret function stem second node)
      ((subject.withSearch narrow).interpret function stem first node) := by
  obtain ⟨state, closures, violations⟩ := exceeds
  cases node with
  | func decl => exact ⟨state, closures, violations⟩
  | closure literal =>
      exact ⟨by simp [interpret, noteClosure, state], by simp [interpret, noteClosure, closures],
        violations⟩
  | call call =>
      refine ⟨congrArg (subject.stateAfter · call) state, closures, ?_⟩
      simp only [interpret, List.map_append, state]
      refine violations.append ?_
      cases made : (subject.withSearch narrow).violation? function first.state call with
      | none => exact List.nil_sublist _
      | some violation =>
          obtain ⟨other, other_made, same⟩ := violation?_widen widens made
          simp [other_made, same]
  | defer call span =>
      refine ⟨?_, closures, violations⟩
      simp only [interpret, enterDefer_withSearch, state]
  | «return» span =>
      exact ⟨congrArg (LockState.enterReturn · span) state, closures, violations⟩

theorem exceeds_visit {first second : Activation} (exceeds : second.Exceeds first) (node : Node) :
    Activation.Exceeds ((subject.withSearch wide).visit function stem second node)
      ((subject.withSearch narrow).visit function stem first node) := by
  obtain ⟨state, closures, violations⟩ := exceeds
  cases outside : LockState.inside first.state.around.closure node.span with
  | true =>
      rw [visit_of_within outside, visit_of_within (state ▸ outside)]
      exact ⟨state, closures, violations⟩
  | false =>
      cases past : LockState.inside first.state.around.defer node.span with
      | true =>
          rw [visit_of_deferred outside past, visit_of_deferred (state ▸ outside) (state ▸ past)]
          cases node with
          | closure literal =>
              exact ⟨by simp [noteClosure, state], by simp [noteClosure, closures], violations⟩
          | _ => exact ⟨by simp [state], closures, violations⟩
      | false =>
          have arrived : Activation.Exceeds
              { second with state := first.state.arrive node.span }
              { first with state := first.state.arrive node.span } := ⟨rfl, closures, violations⟩
          rw [visit_of_past outside past, visit_of_past (state ▸ outside) (state ▸ past), state]
          exact exceeds_interpret widens arrived node

theorem exceeds_foldl {first second : Activation} (exceeds : second.Exceeds first)
    (nodes : List Node) :
    Activation.Exceeds (nodes.foldl ((subject.withSearch wide).visit function stem) second)
      (nodes.foldl ((subject.withSearch narrow).visit function stem) first) := by
  induction nodes generalizing first second with
  | nil => exact exceeds
  | cons node nodes ih => exact ih (exceeds_visit widens exceeds node)

/-- An activation under a wider search finds the same closures and reports no less. -/
theorem track_widen (function : String) (nodes : List Node) :
    ((subject.withSearch wide).track function nodes).closures =
        ((subject.withSearch narrow).track function nodes).closures ∧
      (((subject.withSearch narrow).track function nodes).violations.map Violation.summary).Sublist
        (((subject.withSearch wide).track function nodes).violations.map Violation.summary) := by
  cases nodes with
  | nil => exact ⟨rfl, .slnil⟩
  | cons first nodes =>
      have start : Activation.Exceeds { state := .enter first.span }
          { state := .enter first.span } := ⟨rfl, rfl, .slnil⟩
      have exceeds := @exceeds_foldl subject narrow wide widens function
        (closureStem function first) _ _ start nodes
      exact ⟨exceeds.closures, exceeds.violations⟩

/-! ## Declarations -/

theorem trackClosures_widen (depth : Nat) (closures : List PendingClosure) :
    (((subject.withSearch narrow).trackClosures depth closures).flatMap fun entry =>
        entry.2.violations.map Violation.summary).Sublist
      (((subject.withSearch wide).trackClosures depth closures).flatMap fun entry =>
        entry.2.violations.map Violation.summary) := by
  induction depth generalizing closures with
  | zero => exact .slnil
  | succ depth ih =>
      have tracked : ∀ closure : PendingClosure,
          ((subject.withSearch wide).trackClosure closure).closures =
              ((subject.withSearch narrow).trackClosure closure).closures ∧
            (((subject.withSearch narrow).trackClosure closure).violations.map
              Violation.summary).Sublist
              (((subject.withSearch wide).trackClosure closure).violations.map
                Violation.summary) :=
        fun closure => track_widen widens closure.name closure.literal.stream
      have found := funext fun closure => (tracked closure).1
      rw [trackClosures_succ, trackClosures_succ, List.flatMap_append, List.flatMap_append,
        List.flatMap_map, List.flatMap_map, found]
      refine List.Sublist.append (List.Sublist.flatMap_right closures ?_) (ih _)
      exact fun closure _ => (tracked closure).2

/-- A declaration has under a wider search whatever violations it has under a narrower one. -/
theorem violationsIn_widen (decl : FuncDecl) :
    (((subject.withSearch narrow).violationsIn decl).map Violation.summary).Sublist
      (((subject.withSearch wide).violationsIn decl).map Violation.summary) := by
  obtain ⟨closures, violations⟩ :=
    @track_widen subject narrow wide widens (subject.label decl) decl.stream
  have inner := @trackClosures_widen subject narrow wide widens decl.stream.length
    ((subject.withSearch narrow).track (subject.label decl) decl.stream).closures
  simp only [violationsIn, activations, List.map_append, List.map_flatMap]
  refine violations.append ?_
  change List.Sublist _ (((subject.withSearch wide).trackClosures decl.stream.length
    ((subject.withSearch wide).track (subject.label decl) decl.stream).closures).flatMap _)
  rw [closures]
  exact inner

omit widens

theorem mem_violations {violation : Violation} :
    violation ∈ subject.violations ↔
      ∃ decl ∈ subject.program.functions, violation ∈ subject.violationsIn decl := by
  rw [violations, (List.mergeSort_perm _ _).mem_iff, List.mem_flatMap]

/-- A search that follows more reports no less: whatever a declaration is reported for under one
configuration it is reported for, in the same order, under one that widens it. In particular, the
balanced preset reports whatever the conservative one does. -/
theorem violations_grow_with_search :
    (∀ (subject : Subject) (narrow wide : SearchConfig), wide.Widens narrow →
      ∀ decl : FuncDecl,
        (((subject.withSearch narrow).violationsIn decl).map Violation.summary).Sublist
          (((subject.withSearch wide).violationsIn decl).map Violation.summary)) ∧
    ∀ (subject : Subject), ∀ violation ∈
        (subject.withSearch Preset.conservative.search).violations,
      ∃ other ∈ (subject.withSearch Preset.balanced.search).violations,
        other.summary = violation.summary := by
  refine ⟨fun subject narrow wide widens decl => violationsIn_widen widens decl, ?_⟩
  intro subject violation reported
  have widens : Preset.balanced.search.Widens Preset.conservative.search :=
    ⟨fun _ => rfl, fun _ => rfl, .inl rfl⟩
  obtain ⟨decl, declared, made⟩ := mem_violations.mp reported
  have kept := (violationsIn_widen widens decl).subset (List.mem_map_of_mem made)
  obtain ⟨other, other_made, same⟩ := List.mem_map.mp kept
  exact ⟨other, mem_violations.mpr ⟨decl, declared, other_made⟩, same⟩

/-- A function that acquires a lock, calls a method of its holder, hands the holder to another
function, and acquires the lock again. -/
def sharingDecl : FuncDecl :=
  Sample.function 2 "F" ["a"]
    [Sample.lockCall 10 "a" "RLock", Sample.memberCall 20 "a" "P", Sample.plainCall 25 "G" ["a"],
      Sample.lockCall 30 "a" "RLock"]

/-- The program of that function, the other one and the method, which both acquire the lock. -/
def sharing : Subject :=
  .ofProgram (Sample.program
    [sharingDecl, Sample.function 40 "G" ["c"] [Sample.lockCall 50 "c" "RLock"],
      { Sample.function 60 "P" [] [Sample.lockCall 70 "r" "RLock"] with
        receiver := some ⟨some (Sample.name 62 "r"), .pointer (.name "S")⟩, params := [] }]) {}

/-- The conservative search follows the lock into the method and not into the other function. What
it reports, through the method and directly, the balanced search reports too. -/
theorem sharing_reported_by_balanced :
    let nested := (ViolationKind.nested, "F", SourceLocation.mk "p.go" 20 1, "a.mu")
    let direct := (ViolationKind.direct, "F", SourceLocation.mk "p.go" 30 1, "a.mu")
    Preset.balanced.search.Widens Preset.conservative.search ∧
    ((sharing.withSearch Preset.conservative.search).violationsIn sharingDecl).map
      Violation.summary = [nested, direct] ∧
    [nested, direct].Sublist
      (((sharing.withSearch Preset.balanced.search).violationsIn sharingDecl).map
        Violation.summary) := by
  intro nested direct
  have widens : Preset.balanced.search.Widens Preset.conservative.search := by
    constructor <;> decide
  have reported : ((sharing.withSearch Preset.conservative.search).violationsIn sharingDecl).map
      Violation.summary = [nested, direct] := by
    rw [@violationsIn_of_settled _ 4 sharingDecl _ ⟨by decide +kernel, rfl⟩]
    decide +kernel
  refine ⟨widens, reported, ?_⟩
  rw [← reported]
  exact violations_grow_with_search.1 sharing _ _ widens sharingDecl

end Subject

end Relock

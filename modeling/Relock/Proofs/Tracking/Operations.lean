import Relock.Proofs.Path.Symbols
import Relock.Proofs.Program.Parts
import Relock.Proofs.Resolution.Selection
import Relock.Proofs.Tracking.Counting

/-!
# Operations by path and by name

A second acquisition is noticed by its path, and acquisitions are counted by the name of the callee.
The two agree: the path of a call ends in the entity by which its callee is found, and the held path
is that of a call whose callee acquires. So a call is reported as a direct violation exactly if it
raises a positive count.
-/

namespace Relock

namespace AccessPath

theorem last_snoc (path : AccessPath) (node : PathNode) : (path.snoc node).last = node := by
  simp [last, snoc]

end AccessPath

namespace Program

variable {program : Program}

/-- The callee of an expression that spells a path is the entity the path ends in. -/
theorem ofExpr?_of_path (unique : program.UniqueIds) {expr : Expr} {path : AccessPath}
    (marked : expr.marks ⊆ program.marks)
    (path_eq : AccessPath.ofExpr? program.resolve expr = some path) :
    Callee.ofExpr? program.resolve expr =
      Callee.ofSymbolId? program.resolve path.last.symbol := by
  induction expr using Expr.unparen.induct with
  | case1 inner span ih =>
      rw [AccessPath.ofExpr?] at path_eq
      rw [Expr.marks] at marked
      simpa [Callee.ofExpr?, Expr.unparen] using ih marked path_eq
  | case2 expr other =>
      rw [Callee.ofExpr?, Expr.unparen.eq_2 _ other]
      cases expr with
      | ident ident =>
          obtain ⟨symbol, found, rfl⟩ := Option.map_eq_some_iff.mp path_eq
          simp [found, AccessPath.last, PathNode.ofIdent]
      | selector id base member span =>
          have agree : program.resolve.selection id = program.resolve.objectOf member := by
            apply selection_eq_objectOf unique <;> exact marked (by simp [Expr.marks])
          rw [AccessPath.ofExpr?, ← agree, Option.or_self] at path_eq
          cases found : program.resolve.selection id with
          | none => simp [found] at path_eq
          | some symbol =>
              simp only [found] at path_eq
              obtain ⟨front, -, rfl⟩ := Option.map_eq_some_iff.mp path_eq
              simp [found, AccessPath.last_snoc, PathNode.ofIdent]
      | paren inner span => exact absurd rfl (other inner span)
      | _ => cases path_eq

end Program

namespace Subject

variable {program : Program} {config : Config}

/-- Calls of the same path have the same callee. -/
theorem callee?_eq_of_repeats (unique : program.UniqueIds) {origin call : Call} {lock : AccessPath}
    (origin_mem : .call origin ∈ program.nodes) (call_mem : .call call ∈ program.nodes)
    (lock_eq : (ofProgram program config).path? origin = some lock)
    (again : (ofProgram program config).repeats lock call = true) :
    (ofProgram program config).callee? call = (ofProgram program config).callee? origin := by
  obtain ⟨path, path_eq, same⟩ := (Option.any_eq_true _ _).mp again
  have call_callee := Program.ofExpr?_of_path unique (program.marks_of_call call_mem) path_eq
  have origin_callee := Program.ofExpr?_of_path unique (program.marks_of_call origin_mem) lock_eq
  rw [AccessPath.last_symbol_of_equal same] at call_callee
  exact call_callee.trans origin_callee.symm

end Subject

namespace Subject

variable {subject : Subject} {function stem : String} {calls : List Call}

/-- An operation that acquires does not release, as they have different names. -/
theorem releases_eq_false (differ : subject.lock.acquire ≠ subject.lock.release) {call : Call}
    (acquires : subject.acquires call = true) : subject.releases call = false := by
  obtain ⟨callee, callee_eq, acquire⟩ := (Option.any_eq_true _ _).mp acquires
  rw [isAcquire, Bool.and_eq_true, beq_iff_eq] at acquire
  rw [releases, callee_eq, Option.any_some, isRelease, acquire.2, beq_eq_false_iff_ne.mpr differ,
    Bool.and_false]

/-- A call raises a positive count exactly if it acquires the held lock again and is one that
acquires. -/
theorem held_acquireBy_iff {state : LockState} {call : Call} :
    (0 < state.held ∧ (subject.acquireBy state call).held = state.held + 1) ↔
      subject.reacquires state call = true ∧ subject.acquires call = true := by
  constructor
  · rintro ⟨positive, raised⟩
    unfold acquireBy at raised
    split at raised
    · split at raised
      · rename_i acquires
        rw [if_neg (by omega)] at raised
        split at raised
        · rename_i again
          exact ⟨again, acquires⟩
        · omega
      · omega
    · omega
  · rintro ⟨again, acquires⟩
    obtain ⟨lock, held, repeats⟩ := (Option.any_eq_true _ _).mp again
    obtain ⟨path, path_eq, -⟩ := (Option.any_eq_true _ _).mp repeats
    have positive := LockState.held_of_heldLock held
    refine ⟨positive, ?_⟩
    rw [acquireBy, path_eq]
    simp [acquires, again, Nat.ne_of_gt positive]

/-- What is reported as direct are the second acquisitions of the held lock. -/
theorem countP_direct_eq (function : String) (encounters : List Encounter) :
    (encounters.filterMap fun encounter =>
        subject.violation? function encounter.state encounter.call).countP
        (fun violation => violation.kind == .direct) =
      encounters.countP fun encounter =>
        subject.reacquires encounter.state encounter.call := by
  rw [List.countP_filterMap]
  refine List.countP_congr fun encounter _ => ?_
  constructor
  · intro direct
    cases made : subject.violation? function encounter.state encounter.call with
    | none => simp [made] at direct
    | some violation => exact reacquires_of_direct made (by simpa [made] using direct)
  · intro again
    obtain ⟨violation, made, direct⟩ :=
      @exists_direct_of_reacquires subject function encounter.state encounter.call again
    simp [made, direct]

end Subject

namespace Subject

variable {program : Program} {config : Config}

/-- Every call of the program that repeats the held path, where that was acquired by a call of the
program, acquires and does not release. -/
theorem acquires_of_reacquires (unique : program.UniqueIds)
    (differ : config.lock.acquire ≠ config.lock.release) {calls : List Call} {state : LockState}
    (backed : (ofProgram program config).Backed calls state)
    (within : ∀ call ∈ calls, .call call ∈ program.nodes) {call : Call}
    (call_mem : .call call ∈ program.nodes)
    (again : (ofProgram program config).reacquires state call = true) :
    (ofProgram program config).acquires call = true ∧
      (ofProgram program config).releases call = false := by
  obtain ⟨lock, locked, repeats⟩ := lock_of_reacquires again
  obtain ⟨origin, origin_mem, acquired, lock_eq⟩ := backed.origin lock locked
  have same := callee?_eq_of_repeats unique (within origin origin_mem) call_mem lock_eq repeats
  have acquires : (ofProgram program config).acquires call = true := by
    rw [Subject.acquires, same]
    exact acquired
  exact ⟨acquires, releases_eq_false differ acquires⟩

/-- The test by path and the test by name agree. Wherever an activation over nodes of a program with
unique numbers finds that a call has the path of the held lock, the callee of the call acquires and
does not release. So every direct violation raises the count by one, and there are as many of them
as calls that raise a positive count. -/
theorem direct_iff_raises_count (program : Program) (config : Config) (unique : program.UniqueIds)
    (differ : config.lock.acquire ≠ config.lock.release) (function : String) (first : Node)
    (nodes : List Node) (within : nodes ⊆ program.nodes) :
    let subject := ofProgram program config
    let encounters := subject.encounters function (first :: nodes)
    (∀ encounter ∈ encounters, subject.reacquires encounter.state encounter.call = true →
      subject.acquires encounter.call = true ∧ subject.releases encounter.call = false) ∧
    (∀ encounter ∈ encounters, ∀ violation,
      subject.violation? function encounter.state encounter.call = some violation →
      violation.kind = .direct →
      (subject.stateAfter encounter.state encounter.call).held = encounter.state.held + 1) ∧
    (subject.track function (first :: nodes)).violations.countP
        (fun violation => violation.kind == .direct) =
      encounters.countP fun encounter => 0 < encounter.state.held ∧
        (subject.acquireBy encounter.state encounter.call).held = encounter.state.held + 1 := by
  intro subject encounters
  have sites (call : Call) (member : call ∈ encounters.map Encounter.call) :
      .call call ∈ program.nodes :=
    within (Node.mem_sites.mp ((map_call_encountersFrom_sublist _ nodes).subset member))
  have agree (encounter : Encounter) (met : encounter ∈ encounters)
      (again : subject.reacquires encounter.state encounter.call = true) :
      subject.acquires encounter.call = true ∧ subject.releases encounter.call = false := by
    obtain ⟨earlier, sub, backed⟩ := (backed_enter first.span).of_mem_encountersFrom met
    refine acquires_of_reacquires unique differ backed (fun call member => ?_)
      (sites _ (List.mem_map_of_mem met)) again
    rw [List.nil_append] at sub
    exact sites call (sub member)
  refine ⟨agree, ?_, ?_⟩
  · intro encounter met violation made direct
    have again := reacquires_of_direct made direct
    obtain ⟨acquires, releases⟩ := agree encounter met again
    have raised := (held_acquireBy_iff.mpr ⟨again, acquires⟩).2
    simpa [stateAfter, releaseBy, releasesLock, releases] using raised
  · have tracked := @violations_foldl subject function (closureStem function first)
      { state := .enter first.span } nodes
    rw [track, tracked, List.nil_append, countP_direct_eq]
    refine List.countP_congr fun encounter met => ?_
    rw [decide_eq_true_iff, held_acquireBy_iff]
    exact ⟨fun again => ⟨again, (agree encounter met again).1⟩, And.left⟩

/-- Acquisitions of `a.mu` with one of `b.mu` between them. -/
def repeating : List Call :=
  [Sample.lockCall 10 "a" "RLock", Sample.lockCall 20 "a" "RLock", Sample.lockCall 30 "b" "RLock",
    Sample.lockCall 40 "a" "RLock"]

/-- Of these, the second and the third of `a.mu` are direct violations, and the one of `b.mu` is not
counted. -/
theorem repeating_direct :
    let program := Sample.program [lockingDecl repeating]
    let function := Node.func (lockingDecl repeating)
    let nodes := repeating.map Node.call
    program.UniqueIds ∧ ({} : Config).lock.acquire ≠ ({} : Config).lock.release ∧
    nodes ⊆ program.nodes ∧
    ((ofProgram program {}).track "F" (function :: nodes)).violations.countP
        (fun violation => violation.kind == .direct) = 2 := by
  intro program function nodes
  have unique : program.UniqueIds := by decide +kernel
  have differ : ({} : Config).lock.acquire ≠ ({} : Config).lock.release := by decide
  have within : nodes ⊆ program.nodes := List.subset_cons_self function nodes
  have counted := (direct_iff_raises_count program {} unique differ "F" function nodes within).2.2
  exact ⟨unique, differ, within, counted.trans (by decide +kernel)⟩

end Subject

end Relock

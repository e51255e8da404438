import Relock.Proofs.Renaming.Search
import Relock.Proofs.Tracking.Activations

/-!
# Tracking in lockstep

In subjects that correspond, tracking walks through corresponding streams with corresponding states:
the lock has other numbers, and all that is counted is the same. So the violations in corresponding
declarations are the same.
-/

namespace Relock

variable (moved : Renaming)

namespace LockState

/-- The state with new numbers in its lock. -/
def rename (state : LockState) : LockState :=
  { state with lock := state.lock.map (AccessPath.rename moved) }

variable (state : LockState)

theorem heldLock_rename :
    (state.rename moved).heldLock = state.heldLock.map (AccessPath.rename moved) := by
  rw [heldLock, heldLock, apply_ite (Option.map (AccessPath.rename moved))]
  rfl

theorem concerns_rename (path : Option AccessPath) :
    (state.rename moved).concerns (path.map (AccessPath.rename moved)) = state.concerns path := by
  obtain ⟨held, lock⟩ := state
  cases lock with
  | none => rfl
  | some lock =>
      cases path with
      | none => rfl
      | some path => exact lock.equal_rename moved path 1

theorem passReturn_rename (span : Span) :
    (state.rename moved).passReturn span = (state.passReturn span).rename moved := by
  rw [passReturn, passReturn, apply_ite (rename moved)]
  rfl

theorem enterReturn_rename (span : Span) :
    (state.rename moved).enterReturn span = (state.enterReturn span).rename moved := by
  rw [enterReturn, enterReturn, apply_ite (rename moved)]
  rfl

end LockState

/-- The closure in the renumbered file. -/
def PendingClosure.rename (closure : PendingClosure) : PendingClosure :=
  { closure with literal := closure.literal.renumber moved.file }

/-- The activation with new numbers. -/
def Activation.rename (activation : Activation) : Activation where
  state := activation.state.rename moved
  violations := activation.violations
  closures := activation.closures.map (PendingClosure.rename moved)

/-- The report with new numbers. -/
def ActivationReport.rename (report : ActivationReport) : ActivationReport :=
  { report with closures := report.closures.map (PendingClosure.rename moved) }

namespace Subject

variable {moved}

/-! ## Closures of a stream -/

section Closures

variable {subject : Subject} {function stem : String} {activation : Activation}
  {closure : PendingClosure} {nodes : List Node}

theorem noted_of_noteClosure {literal : Closure}
    (noted : closure ∈ (noteClosure stem activation literal).closures) :
    closure ∈ activation.closures ∨ Node.closure literal = .closure closure.literal := by
  rcases List.mem_append.mp noted with old | new
  · exact .inl old
  · cases List.mem_singleton.mp new
    exact .inr rfl

theorem noted_of_visit {node : Node}
    (noted : closure ∈ (subject.visit function stem activation node).closures) :
    closure ∈ activation.closures ∨ node = .closure closure.literal := by
  rw [visit] at noted
  dsimp only at noted
  split_ifs at noted
  · exact .inl noted
  · cases node with
    | closure literal => exact noted_of_noteClosure noted
    | _ => exact .inl noted
  · cases node with
    | closure literal => exact noted_of_noteClosure noted
    | _ => exact .inl noted

theorem noted_of_foldl
    (noted : closure ∈ (nodes.foldl (subject.visit function stem) activation).closures) :
    closure ∈ activation.closures ∨ .closure closure.literal ∈ nodes := by
  induction nodes generalizing activation with
  | nil => exact .inl noted
  | cons node nodes ih =>
      rcases ih noted with earlier | later
      · rcases noted_of_visit earlier with old | rfl
        · exact .inl old
        · exact .inr List.mem_cons_self
      · exact .inr (List.mem_cons_of_mem node later)

/-- The closures that tracking notes stand in the stream. -/
theorem noted_of_track (noted : closure ∈ (subject.track function nodes).closures) :
    .closure closure.literal ∈ nodes := by
  cases nodes with
  | nil => cases noted
  | cons first nodes =>
      rcases noted_of_foldl noted with old | listed
      · cases old
      · exact List.mem_cons_of_mem first listed

end Closures

namespace Corresponds

variable {view : View} {left right : Subject} (same : left.Corresponds moved view right)
include same

/-! ## Calls -/

section Calls

variable {call : Call} (site : .call call ∈ left.program.nodes) (state : LockState)
include site

theorem releasesLock_eq :
    right.releasesLock (state.rename moved) (call.renumber moved.file) =
      left.releasesLock state call := by
  rw [releasesLock, releasesLock, same.releases_eq site, same.path?_eq site,
    LockState.concerns_rename]

theorem closureReleasesLock_eq :
    right.closureReleasesLock (state.rename moved) (call.renumber moved.file) =
      left.closureReleasesLock state call := by
  rw [closureReleasesLock, closureReleasesLock, same.closure?_eq site]
  cases closure : left.closure? call with
  | none => rfl
  | some literal =>
      have known := closure_mem_of_closure? site closure
      have calls : (literal.renumber moved.file).body.calls =
          literal.body.calls.map (Call.renumber moved.file) :=
        literal.body.calls_renumber moved.file
      have each (inner : Call) (member : inner ∈ literal.body.calls) :
          right.releasesLock (state.rename moved) (inner.renumber moved.file) =
            left.releasesLock state inner :=
        same.releasesLock_eq (left.program.closed_nodes.closure literal known
          (Node.mem_of_callsFrom member)) state
      simp only [Option.map_some, calls, List.any_map]
      rw [Bool.eq_iff_iff, List.any_eq_true, List.any_eq_true]
      exact exists_congr fun inner => and_congr_right fun member => by
        rw [Function.comp_apply, each inner member]

theorem reacquires_eq :
    right.reacquires (state.rename moved) (call.renumber moved.file) =
      left.reacquires state call := by
  rw [reacquires, reacquires, LockState.heldLock_rename]
  cases state.heldLock with
  | none => rfl
  | some lock => exact same.repeats_eq site lock

theorem violation?_eq (function : String) :
    right.violation? function (state.rename moved) (call.renumber moved.file) =
      left.violation? function state call := by
  rw [violation?, violation?, LockState.heldLock_rename]
  cases state.heldLock with
  | none => rfl
  | some lock =>
      simp only [Option.map_some, same.repeats_eq site, same.releases_eq site,
        same.location_eq site, same.searchFrom_eq site, AccessPath.describeTarget_rename]

theorem acquireBy_eq :
    right.acquireBy (state.rename moved) (call.renumber moved.file) =
      (left.acquireBy state call).rename moved := by
  rw [acquireBy, acquireBy, same.path?_eq site]
  cases left.path? call with
  | none => rfl
  | some path =>
      have held : (state.rename moved).held = state.held := rfl
      simp only [Option.map_some, same.acquires_eq site, same.reacquires_eq site, held]
      split
      · split
        · rfl
        · split <;> rfl
      · rfl

theorem releaseBy_eq :
    right.releaseBy (state.rename moved) (call.renumber moved.file) =
      (left.releaseBy state call).rename moved := by
  rw [releaseBy, releaseBy, same.releasesLock_eq site, apply_ite (LockState.rename moved)]
  rfl

theorem stateAfter_eq :
    right.stateAfter (state.rename moved) (call.renumber moved.file) =
      (left.stateAfter state call).rename moved := by
  rw [stateAfter, stateAfter, same.acquireBy_eq site, same.releaseBy_eq site]

theorem enterDefer_eq (span : Span) :
    right.enterDefer (state.rename moved) (call.renumber moved.file) span =
      (left.enterDefer state call span).rename moved := by
  rw [enterDefer, enterDefer, same.releasesLock_eq site, same.closureReleasesLock_eq site]
  rfl

end Calls

/-! ## Nodes -/

omit same in
theorem noteClosure_eq (stem : String) (activation : Activation) (literal : Closure) :
    noteClosure stem (activation.rename moved) (literal.renumber moved.file) =
      (noteClosure stem activation literal).rename moved := by
  simp [noteClosure, Activation.rename, PendingClosure.rename, LockState.rename, Closure.renumber]

section Nodes

variable {node : Node} (known : node ∈ left.program.nodes) (function stem : String)
  (activation : Activation)
include known

theorem interpret_eq :
    right.interpret function stem (activation.rename moved) (node.renumber moved.file) =
      (left.interpret function stem activation node).rename moved := by
  cases node with
  | func decl => rfl
  | closure literal => exact noteClosure_eq stem activation literal
  | call call =>
      have violation := same.violation?_eq known activation.state function
      have state := same.stateAfter_eq known activation.state
      simp only [interpret, Node.renumber, Activation.rename, violation, state]
  | defer call span =>
      have state := same.enterDefer_eq (Program.call_of_defer known) activation.state span
      simp only [interpret, Node.renumber, Activation.rename, state]
  | «return» span =>
      have state := activation.state.enterReturn_rename moved span
      simp only [interpret, Node.renumber, Activation.rename, state]

theorem visit_eq :
    right.visit function stem (activation.rename moved) (node.renumber moved.file) =
      (left.visit function stem activation node).rename moved := by
  have closure : (activation.rename moved).state.closureExtent = activation.state.closureExtent :=
    rfl
  have defer : (activation.rename moved).state.deferExtent = activation.state.deferExtent := rfl
  simp only [visit, Node.span_renumber, closure, defer]
  split
  · rfl
  · split
    · cases node with
      | closure literal =>
          exact noteClosure_eq stem { activation with
            state := { activation.state with closureExtent := none } } literal
      | _ => rfl
    · rw [← same.interpret_eq known]
      congr 1
      simp only [Activation.rename, ← LockState.passReturn_rename]
      rfl

end Nodes

/-! ## Activations -/

theorem foldl_visit_eq {nodes : List Node} (known : nodes ⊆ left.program.nodes)
    (function stem : String) (activation : Activation) :
    (nodes.map (Node.renumber moved.file)).foldl (right.visit function stem)
        (activation.rename moved) =
      (nodes.foldl (left.visit function stem) activation).rename moved := by
  induction nodes generalizing activation with
  | nil => rfl
  | cons node nodes ih =>
      rw [List.cons_subset] at known
      rw [List.map_cons, List.foldl_cons, List.foldl_cons, same.visit_eq known.1, ih known.2]

theorem track_eq {nodes : List Node} (known : nodes ⊆ left.program.nodes) (function : String) :
    right.track function (nodes.map (Node.renumber moved.file)) =
      (left.track function nodes).rename moved := by
  cases nodes with
  | nil => rfl
  | cons first nodes =>
      have stem : closureStem function (first.renumber moved.file) = closureStem function first := by
        cases first <;> rfl
      have walked := same.foldl_visit_eq (List.cons_subset.mp known).2 function
        (closureStem function first) { state := .enter first.span }
      rw [List.map_cons, track, track, stem, Node.span_renumber]
      exact congrArg (fun activation : Activation =>
        (⟨activation.violations, activation.closures⟩ : ActivationReport)) walked

theorem trackClosure_eq {closure : PendingClosure}
    (known : .closure closure.literal ∈ left.program.nodes) :
    right.trackClosure (closure.rename moved) = (left.trackClosure closure).rename moved := by
  have stream : closure.literal.stream ⊆ left.program.nodes :=
    List.cons_subset.mpr ⟨known, left.program.closed_nodes.closure _ known⟩
  have tracked := same.track_eq stream closure.name
  rwa [← Closure.stream_renumber] at tracked

theorem trackClosures_eq (depth : Nat) {closures : List PendingClosure}
    (known : ∀ closure ∈ closures, .closure closure.literal ∈ left.program.nodes) :
    (right.trackClosures depth (closures.map (PendingClosure.rename moved))).flatMap
        (fun entry => entry.2.violations) =
      (left.trackClosures depth closures).flatMap fun entry => entry.2.violations := by
  induction depth generalizing closures with
  | zero => rfl
  | succ depth ih =>
      have each (closure : PendingClosure) (listed : closure ∈ closures) :=
        same.trackClosure_eq (known closure listed)
      have inner : (closures.map (PendingClosure.rename moved)).flatMap
          (fun closure => (right.trackClosure closure).closures) =
            (closures.flatMap fun closure => (left.trackClosure closure).closures).map
              (PendingClosure.rename moved) := by
        rw [List.flatMap_map, List.map_flatMap]
        exact List.flatMap_congr fun closure listed => by rw [each closure listed]; rfl
      rw [trackClosures_succ, trackClosures_succ, List.flatMap_append, List.flatMap_append, inner,
        ih]
      · congr 1
        simp only [List.flatMap_map]
        exact List.flatMap_congr fun closure listed => by rw [each closure listed]; rfl
      intro closure noted
      obtain ⟨outer, outer_mem, noted⟩ := List.mem_flatMap.mp noted
      rcases List.mem_cons.mp (noted_of_track noted) with same_literal | listed
      · rw [same_literal]
        exact known outer outer_mem
      · exact left.program.closed_nodes.closure _ (known outer outer_mem) listed

/-! ## Declarations -/

section Declarations

variable {decl : FuncDecl} (declared : decl ∈ left.program.functions)
include declared

theorem ofDecl?_eq : Callee.ofDecl? right.tables (decl.renumber moved.file) =
    (Callee.ofDecl? left.tables decl).map (Callee.rename moved) :=
  same.tables.ofDecl?_eq same.typed fun mark marked =>
    same.seen mark (left.program.marks_of_function declared marked)

theorem label_eq : right.label (decl.renumber moved.file) = left.label decl := by
  rw [label, label, same.ofDecl?_eq declared]
  cases Callee.ofDecl? left.tables decl with
  | none => rfl
  | some callee => exact callee.display_rename moved

/-- The violations in corresponding declarations are the same. -/
theorem violationsIn_eq :
    right.violationsIn (decl.renumber moved.file) = left.violationsIn decl := by
  have stream : decl.stream ⊆ left.program.nodes := left.program.stream_subset_nodes declared
  have tracked := same.track_eq stream (left.label decl)
  rw [violationsIn, violationsIn, activations, activations, same.label_eq declared,
    decl.stream_renumber, List.length_map, tracked]
  refine congrArg _ (same.trackClosures_eq _ fun closure noted => ?_)
  exact stream (noted_of_track noted)

end Declarations

end Corresponds

end Subject

end Relock

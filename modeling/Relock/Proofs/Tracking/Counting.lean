import Mathlib.Algebra.Group.Nat.Defs
import Relock.Proofs.Program.Stream
import Relock.Proofs.Sample
import Relock.Proofs.Tracking.Ownership
import Relock.Proofs.Tracking.TwoLocks

/-!
# What an activation counts

Whatever nodes an activation walks through, in whatever order and with whatever ranges, what it
counts as held or as released at a return is backed by acquisitions that it has interpreted. So
there is a lock wherever something is counted, and counters of 32 bits are wide enough for every
stream that is shorter than their range.
-/

namespace Relock

namespace Subject

variable {activation : Activation}

/-- What a state counts is backed by calls: each count by an acquisition of its own, and the lock by
an acquisition with its path. -/
structure Backed (subject : Subject) (calls : List Call) (state : LockState) : Prop where
  locked : 0 < state.held + state.releasedAtReturn → state.lock.isSome = true
  origin : ∀ path, state.lock = some path →
    ∃ call ∈ calls, subject.acquires call = true ∧ subject.path? call = some path
  released : state.releasedAtReturn ≤ 1
  returning : state.returnExtent = none → state.releasedAtReturn = 0
  count : state.held + state.releasedAtReturn ≤ calls.countP subject.acquires

variable {subject : Subject} {function stem : String} {calls : List Call} {state : LockState}
  {call : Call} {node : Node} {encounter : Encounter}

/-! ## What each change of a state keeps -/

theorem backed_enter (span : Span) : subject.Backed [] (.enter span) where
  locked := by simp [LockState.enter]
  origin := by simp [LockState.enter]
  released := by simp [LockState.enter]
  returning := by simp [LockState.enter]
  count := by simp [LockState.enter]

section Backed

variable (backed : subject.Backed calls state)
include backed

/-- Closures and deferred calls have no part in what is counted. -/
theorem Backed.setAside (closure defer : Option Span) (deferred : Bool) :
    subject.Backed calls
      { state with closureExtent := closure, deferExtent := defer, deferredRelease := deferred } :=
  ⟨backed.locked, backed.origin, backed.released, backed.returning, backed.count⟩

theorem Backed.append (more : List Call) :
    subject.Backed (calls ++ more) state where
  locked := backed.locked
  origin path path_eq := by
    obtain ⟨call, member, acquired⟩ := backed.origin path path_eq
    exact ⟨call, List.mem_append_left more member, acquired⟩
  released := backed.released
  returning := backed.returning
  count := by
    have count := backed.count
    rw [List.countP_append]
    omega

/-- Past a return, what it released is held again. -/
theorem Backed.passReturn (span : Span) : subject.Backed calls (state.passReturn span) := by
  unfold LockState.passReturn
  split
  · exact ⟨backed.locked, backed.origin, Nat.zero_le 1, fun _ => rfl, backed.count⟩
  · exact backed

theorem Backed.arrive (span : Span) : subject.Backed calls (state.arrive span) :=
  (backed.setAside none none state.deferredRelease).passReturn span

/-- A return moves at most one count from what is held to what is released. Nothing is released
already, since no other return is open. -/
theorem Backed.enterReturn (span : Span) : subject.Backed calls (state.enterReturn span) := by
  unfold LockState.enterReturn
  split
  · rename_i opened
    have closed : state.returnExtent = none := by simp_all
    have nothing := backed.returning closed
    have moved := state.held_release_add_releasable
    have count := backed.count
    constructor
    · intro positive
      apply backed.locked
      simp only [LockState.release, LockState.releasable] at positive moved
      omega
    · exact backed.origin
    · exact Nat.min_le_right _ _
    · intro open_extent
      cases open_extent
    · simp only [LockState.release, LockState.releasable] at moved ⊢
      omega
  · exact backed

/-- A release takes away from the count. -/
theorem Backed.releaseBy (call : Call) : subject.Backed calls (subject.releaseBy state call) := by
  unfold Subject.releaseBy
  split
  · have count := backed.count
    constructor
    · intro positive
      apply backed.locked
      simp only [LockState.release] at positive
      omega
    · exact backed.origin
    · exact backed.released
    · exact backed.returning
    · simp only [LockState.release]
      omega
  · exact backed

/-- One more count is backed by the acquisition that makes it, and so is the lock if it is new. -/
theorem Backed.acquire {lock : AccessPath} (acquires : subject.acquires call = true)
    (origin : state.lock = some lock ∨ subject.path? call = some lock) :
    subject.Backed (calls ++ [call]) { state with lock := some lock }.acquire where
  locked _ := rfl
  origin path path_eq := by
    cases path_eq
    rcases origin with earlier | now
    · exact (backed.append [call]).origin lock earlier
    · exact ⟨call, by simp, acquires, now⟩
  released := backed.released
  returning := backed.returning
  count := by
    have count := backed.count
    simp only [LockState.acquire, List.countP_append, List.countP_singleton, acquires, if_true]
    omega

end Backed

theorem lock_of_reacquires (again : subject.reacquires state call = true) :
    ∃ lock, state.lock = some lock ∧ subject.repeats lock call = true := by
  obtain ⟨lock, held, again⟩ := (Option.any_eq_true _ _).mp again
  refine ⟨lock, ?_, again⟩
  simpa [LockState.heldLock_of_held (LockState.held_of_heldLock held)] using held

theorem Backed.acquireBy (backed : subject.Backed calls state) (call : Call) :
    subject.Backed (calls ++ [call]) (subject.acquireBy state call) := by
  unfold Subject.acquireBy
  split
  · rename_i path path_eq
    split
    · rename_i acquires
      split
      · exact backed.acquire acquires (.inr path_eq)
      · split
        · rename_i again
          obtain ⟨lock, locked, -⟩ := lock_of_reacquires again
          have counted := backed.acquire acquires (.inl locked)
          rwa [← locked] at counted
        · exact backed.append [call]
    · exact backed.append [call]
  · exact backed.append [call]

theorem Backed.stateAfter (backed : subject.Backed calls state) (call : Call) :
    subject.Backed (calls ++ [call]) (subject.stateAfter state call) :=
  (backed.acquireBy call).releaseBy call

/-! ## What a walk keeps -/

theorem Backed.interpret (backed : subject.Backed calls activation.state) (node : Node) :
    subject.Backed (calls ++ Node.sites [node])
      (subject.interpret function stem activation node).state := by
  cases node with
  | func decl => exact backed.append _
  | closure literal => exact (backed.setAside _ _ _).append _
  | call call => exact backed.stateAfter call
  | defer call span => exact (backed.setAside _ _ _).append _
  | «return» span => exact (backed.enterReturn span).append _

/-- A visit interprets the call at its node, if there is one outside of closures and deferred
calls. -/
theorem map_call_encounter?_of_past
    (outside : LockState.inside activation.state.around.closure node.span = false)
    (past : LockState.inside activation.state.around.defer node.span = false) :
    (activation.encounter? node).toList.map Encounter.call = Node.sites [node] := by
  have met := map_call_encounter? outside
  rw [past] at met
  rw [← Option.toList_map, met]
  cases node <;> rfl

theorem Backed.visit (backed : subject.Backed calls activation.state) (node : Node) :
    subject.Backed (calls ++ (activation.encounter? node).toList.map Encounter.call)
      (subject.visit function stem activation node).state := by
  cases outside : LockState.inside activation.state.around.closure node.span with
  | true =>
      rw [visit_of_within outside]
      exact backed.append _
  | false =>
      cases past : LockState.inside activation.state.around.defer node.span with
      | true =>
          rw [visit_of_deferred outside past]
          cases node <;> exact (backed.setAside _ _ _).append _
      | false =>
          rw [visit_of_past outside past, map_call_encounter?_of_past outside past]
          exact Backed.interpret (backed.arrive node.span) node

theorem Backed.foldl (backed : subject.Backed calls activation.state) (nodes : List Node) :
    subject.Backed
      (calls ++ (subject.encountersFrom function stem activation nodes).map Encounter.call)
      (nodes.foldl (subject.visit function stem) activation).state := by
  induction nodes generalizing activation calls with
  | nil => simpa [encountersFrom] using backed
  | cons node nodes ih =>
      rw [List.foldl_cons, encountersFrom, List.map_append, ← List.append_assoc]
      exact ih (backed.visit node)

theorem eq_of_encounter? (met : activation.encounter? node = some encounter) :
    node = .call encounter.call ∧
      encounter.state = activation.state.arrive encounter.call.span := by
  unfold Activation.encounter? at met
  split at met
  · cases met
  · split at met
    · cases met
    · cases node with
      | call call =>
          cases met
          exact ⟨rfl, rfl⟩
      | _ => cases met

/-- The state in which a call is met is backed by the calls met before it. -/
theorem Backed.of_mem_encountersFrom {nodes : List Node}
    (backed : subject.Backed calls activation.state)
    (met : encounter ∈ subject.encountersFrom function stem activation nodes) :
    ∃ earlier, earlier ⊆
        calls ++ (subject.encountersFrom function stem activation nodes).map Encounter.call ∧
      subject.Backed earlier encounter.state := by
  induction nodes generalizing activation calls with
  | nil => simp [encountersFrom] at met
  | cons node nodes ih =>
      rw [encountersFrom, List.mem_append] at met
      rcases met with first | later
      · have state_eq := (eq_of_encounter? (Option.mem_toList.mp first)).2
        refine ⟨calls, List.subset_append_left calls _, ?_⟩
        rw [state_eq]
        exact backed.arrive _
      · obtain ⟨earlier, sub, backed⟩ := ih (backed.visit node) later
        rw [List.append_assoc, ← List.map_append] at sub
        exact ⟨earlier, sub, backed⟩

/-- The calls that an activation interprets are calls of its stream, in the same order. -/
theorem map_call_encountersFrom_sublist (activation : Activation) (nodes : List Node) :
    ((subject.encountersFrom function stem activation nodes).map Encounter.call).Sublist
      (Node.sites nodes) := by
  induction nodes generalizing activation with
  | nil => exact .slnil
  | cons node nodes ih =>
      have met : ((activation.encounter? node).toList.map Encounter.call).Sublist
          (Node.sites [node]) := by
        cases encounter_eq : activation.encounter? node with
        | none => exact List.nil_sublist _
        | some encounter =>
            rw [(eq_of_encounter? encounter_eq).1]
            exact List.Sublist.refl [encounter.call]
      rw [encountersFrom, List.map_append, ← List.singleton_append, Node.sites_append]
      exact met.append (ih _)

end Subject

/-! ## Counters of 32 bits -/

/-- The state with counters of 32 bits. -/
def LockState.narrow (state : LockState) : LockState :=
  { state with
    held := state.held.toUInt32.toNat
    releasedAtReturn := state.releasedAtReturn.toUInt32.toNat }

theorem LockState.narrow_of_lt {state : LockState} (held : state.held < 2 ^ 32)
    (released : state.releasedAtReturn < 2 ^ 32) : state.narrow = state := by
  have held_eq : state.held.toUInt32.toNat = state.held := by
    simpa using Nat.mod_eq_of_lt held
  have released_eq : state.releasedAtReturn.toUInt32.toNat = state.releasedAtReturn := by
    simpa using Nat.mod_eq_of_lt released
  rw [narrow, held_eq, released_eq]

namespace Subject

variable (subject : Subject) (function stem : String) {activation : Activation} {node : Node}

/-- Interpret a node where an acquisition is counted in 32 bits. -/
def interpretNarrow (activation : Activation) : Node → Activation
  | .call call =>
      { subject.interpret function stem activation (.call call) with
        state := subject.releaseBy (subject.acquireBy activation.state call).narrow call }
  | node => subject.interpret function stem activation node

/-- Visit a node with counters of 32 bits. They grow in two places: past a return, and at an
acquisition. -/
def visitNarrow (activation : Activation) (node : Node) : Activation :=
  if LockState.inside activation.state.closureExtent node.span ||
      LockState.inside activation.state.deferExtent node.span then
    subject.visit function stem activation node
  else
    subject.interpretNarrow function stem
      { activation with state := (activation.state.arrive node.span).narrow } node

variable {subject function stem} {calls : List Call} {state : LockState}

/-- A state that is backed by fewer than 2 ^ 32 calls fits into narrow counters. -/
theorem Backed.narrow_eq (backed : subject.Backed calls state) (few : calls.length < 2 ^ 32) :
    state.narrow = state := by
  have count := backed.count
  have bound := calls.countP_le_length (p := subject.acquires)
  exact LockState.narrow_of_lt (by omega) (by omega)

section Backed

variable (backed : subject.Backed calls activation.state)
include backed

theorem Backed.interpretNarrow_eq (few : calls.length + 1 < 2 ^ 32) :
    subject.interpretNarrow function stem activation node =
      subject.interpret function stem activation node := by
  cases node with
  | call call =>
      have fits : (subject.acquireBy activation.state call).narrow =
          subject.acquireBy activation.state call :=
        (backed.acquireBy call).narrow_eq (by simpa using few)
      rw [interpretNarrow, fits]
      rfl
  | _ => rfl

theorem Backed.visitNarrow_eq (few : calls.length + 1 < 2 ^ 32) :
    subject.visitNarrow function stem activation node =
      subject.visit function stem activation node := by
  unfold visitNarrow
  split
  · rfl
  · rename_i elsewhere
    obtain ⟨outside, past⟩ := Bool.or_eq_false_iff.mp (Bool.eq_false_iff.mpr elsewhere)
    have arrived := backed.arrive node.span
    rw [visit_of_past outside past, arrived.narrow_eq (by omega)]
    exact Backed.interpretNarrow_eq arrived few

/-- Narrow counters make no difference to a walk over fewer than 2 ^ 32 nodes. -/
theorem Backed.foldl_visitNarrow {nodes : List Node} (few : calls.length + nodes.length < 2 ^ 32) :
    nodes.foldl (subject.visitNarrow function stem) activation =
      nodes.foldl (subject.visit function stem) activation := by
  induction nodes generalizing activation calls with
  | nil => rfl
  | cons node nodes ih =>
      rw [List.length_cons] at few
      rw [List.foldl_cons, List.foldl_cons, backed.visitNarrow_eq (by omega)]
      refine ih (backed.visit node) ?_
      have met : (activation.encounter? node).toList.length ≤ 1 := by
        cases activation.encounter? node <;> simp
      rw [List.length_append, List.length_map]
      omega

end Backed

/-- After any nodes whatsoever, an activation holds a lock if it counts anything, and the lock is
the path of an acquisition that it has interpreted. It has given up at most one count to a return,
and none when no return is open. All its counts together are no more than the acquisitions it has
interpreted, so that counters of 32 bits never overflow within 2 ^ 32 nodes. -/
theorem track_counts_backed (subject : Subject) (function : String) (first : Node)
    (nodes : List Node) :
    let stem := closureStem function first
    let start : Activation := { state := .enter first.span }
    let state := (nodes.foldl (subject.visit function stem) start).state
    let acquisitions :=
      ((subject.encounters function (first :: nodes)).map Encounter.call).filter subject.acquires
    (0 < state.held → ∃ path, state.lock = some path) ∧
    (∀ path, state.lock = some path →
      ∃ call ∈ acquisitions, subject.path? call = some path) ∧
    state.releasedAtReturn ≤ 1 ∧
    (state.returnExtent = none → state.releasedAtReturn = 0) ∧
    state.held + state.releasedAtReturn ≤ acquisitions.length ∧
    acquisitions.Sublist ((Node.sites nodes).filter subject.acquires) ∧
    ((first :: nodes).length < 2 ^ 32 →
      nodes.foldl (subject.visitNarrow function stem) start =
        nodes.foldl (subject.visit function stem) start) := by
  intro stem start state acquisitions
  have initial : subject.Backed [] start.state := backed_enter first.span
  have backed : subject.Backed _ state := Backed.foldl initial nodes
  refine ⟨?_, ?_, backed.released, backed.returning, ?_, ?_, ?_⟩
  · intro positive
    exact Option.isSome_iff_exists.mp (backed.locked (by omega))
  · intro path path_eq
    obtain ⟨call, member, acquires, call_path⟩ := backed.origin path path_eq
    exact ⟨call, List.mem_filter.mpr ⟨member, acquires⟩, call_path⟩
  · rw [← List.countP_eq_length_filter]
    exact backed.count
  · exact (map_call_encountersFrom_sublist start nodes).filter subject.acquires
  · intro few
    rw [List.length_cons] at few
    exact initial.foldl_visitNarrow (by rw [List.length_nil]; omega)

/-- An acquisition, its deferred release, and a return in which the lock is acquired once more. -/
def returning : List Node :=
  [.call (Sample.lockCall 10 "a" "RLock"),
    .defer (Sample.lockCall 20 "a" "RUnlock") (Sample.spanAt 20),
    .call (Sample.lockCall 20 "a" "RUnlock"), .return (Sample.spanAt 40),
    .call (Sample.lockCall 41 "a" "RLock")]

-- The bound is reached inside the return, where one acquisition is held and one is given up.
example :
    let subject := locking (Node.sites returning)
    let function := Node.func (lockingDecl (Node.sites returning))
    let start : Activation := { state := .enter function.span }
    let state := (returning.foldl (subject.visit "F" "F.func") start).state
    let calls := (subject.encounters "F" (function :: returning)).map Encounter.call
    (state.held, state.releasedAtReturn, state.returnExtent) = (1, 1, some (Sample.spanAt 40)) ∧
      calls.countP subject.acquires = 2 := by
  decide +kernel

end Subject

end Relock

import Mathlib.Tactic.ByContra
import Relock.Proofs.Sample
import Relock.Proofs.Search.Spelling
import Relock.Proofs.Tracking.Findings
import Relock.Proofs.Tracking.Tree

/-!
# Two locks in one activation

An activation counts one lock at a time, the one that was acquired when none was held. Until that
lock is released, calls on another one change nothing and make no direct violation. So a lock is
judged by the calls on it that are made while no other lock is held, and by these as if they were
alone. Beside another lock, second acquisitions of a lock can be missed, but none is made up.
-/

namespace Relock

namespace LockState

/-- No lock but the given one is held. -/
def freeFor (state : LockState) (lock : AccessPath) : Bool :=
  state.heldLock.all fun held => held.equal lock 1

theorem heldLock_of_held {state : LockState} (held : 0 < state.held) :
    state.heldLock = state.lock := if_pos held

theorem heldLock_of_idle {state : LockState} (idle : state.held = 0) : state.heldLock = none := by
  rw [heldLock, idle, if_neg (Nat.lt_irrefl 0)]

theorem held_of_heldLock {state : LockState} {lock : AccessPath}
    (locked : state.heldLock = some lock) : 0 < state.held := by
  refine Nat.pos_of_ne_zero fun idle => ?_
  rw [heldLock_of_idle idle] at locked
  cases locked

end LockState

namespace Subject

variable (subject : Subject)

variable {alone : LockState}

/-- The call operates on the lock to which a path leads. -/
def operatesOn (lock : AccessPath) (call : Call) : Bool :=
  (subject.path? call).any fun path => path.equal lock 1

/-- The call acquires a lock by the operation of its path, or releases it. -/
def handles (lock : AccessPath) (call : Call) : Bool :=
  subject.acquires call && subject.repeats lock call ||
    subject.releases call && subject.operatesOn lock call

/-- The calls on a lock that are made while no other lock is held. -/
def callsInTurn (lock : AccessPath) (encounters : List Encounter) : List Call :=
  (encounters.filter fun encounter =>
    subject.operatesOn lock encounter.call && encounter.state.freeFor lock).map Encounter.call

/-- The direct violations among findings that calls on a lock make. -/
def directAt (lock : AccessPath) (findings : List Finding) : List Finding :=
  findings.filter fun finding =>
    finding.violation.kind == .direct && subject.operatesOn lock finding.call

/-- The encounters of calls, one after the other, with nothing else in the stream. -/
def encountersOfCalls : LockState → List Call → List Encounter
  | _, [] => []
  | state, call :: calls => ⟨call, state⟩ :: encountersOfCalls (subject.stateAfter state call) calls

variable {subject} {function stem : String} {lock other : AccessPath} {state : LockState}
  {call : Call}

/-! ## Streams of calls -/

/-- The walk is outside of every closure, deferred call and return. -/
structure Outside (state : LockState) : Prop where
  closure : state.closureExtent = none
  defer : state.deferExtent = none
  returning : state.returnExtent = none

theorem Outside.stateAfter (outside : Outside state) (call : Call) :
    Outside (subject.stateAfter state call) := by
  have after : subject.stateAfter state call = _ := stateAfter_frame state state call
  rw [after]
  exact ⟨outside.closure, outside.defer, outside.returning⟩

theorem Outside.arrive (outside : Outside state) (span : Span) : state.arrive span = state := by
  obtain ⟨closure, defer, returning⟩ := outside
  cases state
  simp_all [LockState.arrive, LockState.passReturn]

theorem encountersFrom_calls {activation : Activation} (outside : Outside activation.state)
    (calls : List Call) :
    subject.encountersFrom function stem activation (calls.map Node.call) =
      subject.encountersOfCalls activation.state calls := by
  induction calls generalizing activation with
  | nil => rfl
  | cons call calls ih =>
      have met : activation.encounter? (.call call) = some ⟨call, activation.state⟩ := by
        simp [Activation.encounter?, LockState.inside, outside.closure, outside.defer,
          outside.arrive]
      have visited := @visit_of_encounter? subject function stem activation _ _ met
      rw [List.map_cons, encountersFrom, met, visited, ih (outside.stateAfter call)]
      rfl

theorem encounters_calls (first : Node) (calls : List Call) :
    subject.encounters function (first :: calls.map Node.call) =
      subject.encountersOfCalls (.enter first.span) calls :=
  encountersFrom_calls ⟨rfl, rfl, rfl⟩ calls

/-! ## What a call does to the count -/

theorem operatesOn_of_repeats (again : subject.repeats lock call = true) :
    subject.operatesOn lock call = true := by
  obtain ⟨path, path_eq, same⟩ := (Option.any_eq_true _ _).mp again
  rw [operatesOn, path_eq, Option.any_some]
  exact AccessPath.equal_of_equal_zero 1 same

theorem operatesOn_congr (same : lock.equal other 1 = true) (call : Call) :
    subject.operatesOn lock call = subject.operatesOn other call := by
  unfold operatesOn
  congr 1
  funext path
  rw [AccessPath.equal_comm, AccessPath.equal_congr same, AccessPath.equal_comm]

/-- A call is on one lock at most. -/
theorem operatesOn_eq_false (apart : lock.equal other 1 = false)
    (operates : subject.operatesOn lock call = true) : subject.operatesOn other call = false := by
  obtain ⟨path, path_eq, same⟩ := (Option.any_eq_true _ _).mp operates
  rw [operatesOn, path_eq, Option.any_some, AccessPath.equal_congr same, apart]

theorem releasesLock_iff (locked : state.lock = some lock) :
    subject.releasesLock state call = (subject.releases call && subject.operatesOn lock call) := by
  unfold releasesLock LockState.concerns operatesOn
  rw [locked]
  cases subject.path? call with
  | none => rfl
  | some path => rw [Option.any_some, AccessPath.equal_comm]

/-- A call on another lock than the held one changes nothing. -/
theorem stateAfter_of_other (held : state.heldLock = some lock)
    (elsewhere : subject.operatesOn lock call = false) : subject.stateAfter state call = state := by
  have positive := LockState.held_of_heldLock held
  have locked : state.lock = some lock := (LockState.heldLock_of_held positive).symm.trans held
  have different : subject.reacquires state call = false := by
    rw [reacquires, held, Option.any_some, Bool.eq_false_iff]
    intro again
    rw [operatesOn_of_repeats again] at elsewhere
    cases elsewhere
  have unchanged : subject.acquireBy state call = state := by
    unfold acquireBy
    cases subject.path? call with
    | none => rfl
    | some path => simp [different, Nat.ne_of_gt positive]
  rw [Subject.stateAfter, unchanged, releaseBy, releasesLock_iff locked, elsewhere]
  simp

/-- While a lock is held, it stays the one that is counted. -/
theorem lock_stateAfter (held : 0 < state.held) :
    (subject.stateAfter state call).lock = state.lock := by
  have kept : (subject.acquireBy state call).lock = state.lock := by
    unfold acquireBy
    cases subject.path? call with
    | none => rfl
    | some path =>
        simp only [if_neg (Nat.ne_of_gt held)]
        cases subject.acquires call <;> cases subject.reacquires state call <;> rfl
  unfold Subject.stateAfter releaseBy
  split
  · exact kept
  · exact kept

/-- A state in which a path is counted holds it or is idle. -/
theorem heldLock_or_idle {path : AccessPath} (locked : state.lock = some path) :
    state.heldLock = some path ∨ state.held = 0 := by
  rcases Nat.eq_zero_or_pos state.held with idle | held
  · exact .inr idle
  · exact .inl ((LockState.heldLock_of_held held).trans locked)

/-- After a call the held lock is still held, or none is. -/
theorem heldLock_stateAfter (held : state.heldLock = some lock) :
    (subject.stateAfter state call).heldLock = some lock ∨
      (subject.stateAfter state call).held = 0 := by
  have positive := LockState.held_of_heldLock held
  refine heldLock_or_idle ?_
  rw [lock_stateAfter positive, ← LockState.heldLock_of_held positive, held]

/-- With nothing held, a call has the same effect whatever was counted before: it leaves the count
at zero, or makes its own path the one that is counted. -/
theorem stateAfter_of_idle {left right : LockState} (left_idle : left.held = 0)
    (right_idle : right.held = 0) :
    ((subject.stateAfter left call).held = 0 ∧ (subject.stateAfter right call).held = 0) ∨
      ∃ path, subject.path? call = some path ∧
        subject.acquires call = true ∧
        (subject.stateAfter left call).lock = some path ∧
        (subject.stateAfter right call).lock = some path ∧
        (subject.stateAfter left call).held = (subject.stateAfter right call).held := by
  have released : ∀ state : LockState, state.held = 0 →
      (subject.releaseBy state call).held = 0 := by
    intro state idle
    unfold releaseBy
    split
    · simp [LockState.release, idle]
    · exact idle
  unfold Subject.stateAfter acquireBy
  cases path_eq : subject.path? call with
  | none => exact .inl ⟨released left left_idle, released right right_idle⟩
  | some path =>
      cases acquires : subject.acquires call with
      | false => exact .inl ⟨released left left_idle, released right right_idle⟩
      | true =>
          refine .inr ⟨path, rfl, rfl, ?_, ?_, ?_⟩
          all_goals
            simp only [left_idle, right_idle, if_true, releaseBy, releasesLock, LockState.concerns,
              LockState.acquire, path_eq]
            split <;> rfl

/-- With nothing held, a call that is not on a lock leads to no count of this lock. -/
theorem heldLock_of_idle_of_other (idle : state.held = 0)
    (elsewhere : subject.operatesOn lock call = false) :
    (subject.stateAfter state call).held = 0 ∨
      ∃ path, (subject.stateAfter state call).heldLock = some path ∧ path.equal lock 1 = false := by
  rcases @stateAfter_of_idle subject call state state idle idle with
    ⟨idle, -⟩ | ⟨path, path_eq, -, locked, -, -⟩
  · exact .inl idle
  · rw [operatesOn, path_eq, Option.any_some] at elsewhere
    rcases heldLock_or_idle locked with held | idle
    · exact .inr ⟨path, held, elsewhere⟩
    · exact .inl idle

/-! ## A lock beside others and alone -/

/-- How an activation that meets calls on other locks as well stands to one that meets only the
calls that are made in turn. -/
inductive Mirrors (lock : AccessPath) : LockState → LockState → Prop
  | idle {state alone : LockState} (idle : state.held = 0) (alone_idle : alone.held = 0) :
      Mirrors lock state alone
  | own {state alone : LockState} {path : AccessPath} (held : state.heldLock = some path)
      (same : path.equal lock 1 = true) (count : alone.held = state.held)
      (counted : alone.lock = state.lock) : Mirrors lock state alone
  | other {state alone : LockState} {path : AccessPath} (held : state.heldLock = some path)
      (apart : path.equal lock 1 = false) (alone_idle : alone.held = 0) :
      Mirrors lock state alone

/-- A call in turn has the same effect in both activations. -/
theorem Mirrors.step_in_turn (mirrors : Mirrors lock state alone)
    (operates : subject.operatesOn lock call = true) (free : state.freeFor lock = true) :
    Mirrors lock (subject.stateAfter state call) (subject.stateAfter alone call) := by
  cases mirrors with
  | idle idle alone_idle =>
      rcases @stateAfter_of_idle subject call state alone idle alone_idle with
        ⟨idle, alone_idle⟩ | ⟨path, path_eq, -, locked, alone_locked, count⟩
      · exact .idle idle alone_idle
      · rw [operatesOn, path_eq, Option.any_some] at operates
        rcases heldLock_or_idle locked with held | idle
        · exact .own held operates count.symm (alone_locked.trans locked.symm)
        · exact .idle idle (count.symm.trans idle)
  | @own path held same count counted =>
      have frame := @stateAfter_frame subject state alone call
      rw [← count, ← counted] at frame
      have alone_after : subject.stateAfter alone call = _ := frame
      rcases heldLock_stateAfter held with held | idle
      · exact .own held same (by rw [alone_after]) (by rw [alone_after])
      · exact .idle idle (by rw [alone_after]; exact idle)
  | other held apart =>
      rw [LockState.freeFor, held, Option.all_some, apart] at free
      cases free

/-- A call that is on another lock, or not in turn, does nothing that the activation without it
would miss. -/
theorem Mirrors.step_out_of_turn (mirrors : Mirrors lock state alone)
    (skipped : (subject.operatesOn lock call && state.freeFor lock) = false) :
    Mirrors lock (subject.stateAfter state call) alone := by
  cases mirrors with
  | idle idle alone_idle =>
      have elsewhere : subject.operatesOn lock call = false := by
        rw [LockState.freeFor, LockState.heldLock_of_idle idle, Option.all_none,
          Bool.and_true] at skipped
        exact skipped
      rcases heldLock_of_idle_of_other idle elsewhere with idle | ⟨path, held, apart⟩
      · exact .idle idle alone_idle
      · exact .other held apart alone_idle
  | @own path held same count counted =>
      have elsewhere : subject.operatesOn path call = false := by
        rw [LockState.freeFor, held, Option.all_some, same, Bool.and_true] at skipped
        rw [operatesOn_congr same, skipped]
      rw [stateAfter_of_other held elsewhere]
      exact .own held same count counted
  | other held apart alone_idle =>
      rcases heldLock_stateAfter held with held | idle
      · exact .other held apart alone_idle
      · exact .idle idle alone_idle

/-! ## Direct violations -/

theorem violation?_congr {left right : LockState} (same : left.heldLock = right.heldLock)
    (call : Call) :
    subject.violation? function left call = subject.violation? function right call := by
  unfold violation?
  rw [same]

theorem reacquires_of_direct {violation : Violation}
    (made : subject.violation? function state call = some violation)
    (direct : violation.kind = .direct) : subject.reacquires state call = true := by
  unfold violation? at made
  unfold reacquires
  cases held : state.heldLock with
  | none => simp [held] at made
  | some path =>
      rw [held] at made
      rw [Option.any_some]
      by_contra different
      simp only [different, if_false] at made
      split at made
      · cases made
      · obtain ⟨stack, -, rfl⟩ := Option.map_eq_some_iff.mp made
        cases direct

/-- A second acquisition of the held lock is a direct violation. -/
theorem exists_direct_of_reacquires (again : subject.reacquires state call = true) :
    ∃ violation, subject.violation? function state call = some violation ∧
      violation.kind = .direct := by
  obtain ⟨path, held, again⟩ := (Option.any_eq_true _ _).mp again
  refine ⟨⟨.direct, function, subject.location call, path.describeTarget, []⟩, ?_, rfl⟩
  unfold violation?
  rw [held]
  exact if_pos again

/-- A call makes a direct violation on a lock only as a second acquisition of the held lock. -/
theorem directAt_finding? (lock : AccessPath) (encounter : Encounter) :
    (subject.directAt lock (subject.finding? function encounter).toList).map Finding.call =
      if subject.operatesOn lock encounter.call &&
          subject.reacquires encounter.state encounter.call then
        [encounter.call]
      else
        [] := by
  unfold finding?
  cases made : subject.violation? function encounter.state encounter.call with
  | none =>
      have different : subject.reacquires encounter.state encounter.call = false := by
        rw [Bool.eq_false_iff]
        intro again
        obtain ⟨violation, other, -⟩ :=
          @exists_direct_of_reacquires subject function _ _ again
        cases made.symm.trans other
      simp [directAt, different]
  | some violation =>
      have direct : (violation.kind == .direct) =
          subject.reacquires encounter.state encounter.call := by
        rw [Bool.eq_iff_iff, beq_iff_eq]
        constructor
        · exact reacquires_of_direct made
        · intro again
          obtain ⟨other, other_made, direct⟩ :=
            @exists_direct_of_reacquires subject function _ _ again
          cases made.symm.trans other_made
          exact direct
      simp only [directAt, Option.map_some, Option.toList_some, List.filter_cons, List.filter_nil,
        direct, Bool.and_comm]
      split <;> rfl

theorem directAt_filterMap_cons (lock : AccessPath) (encounter : Encounter)
    (encounters : List Encounter) :
    subject.directAt lock ((encounter :: encounters).filterMap (subject.finding? function)) =
      subject.directAt lock (subject.finding? function encounter).toList ++
        subject.directAt lock (encounters.filterMap (subject.finding? function)) := by
  rw [List.filterMap_cons]
  cases subject.finding? function encounter with
  | none => rfl
  | some finding => exact List.filter_append [finding] _

/-- A call that is on another lock, or not in turn, makes no direct violation on the lock. -/
theorem directAt_out_of_turn
    (skipped : (subject.operatesOn lock call && state.freeFor lock) = false) :
    subject.directAt lock (subject.finding? function ⟨call, state⟩).toList = [] := by
  have calls := @directAt_finding? subject function lock ⟨call, state⟩
  rw [if_neg] at calls
  · exact List.map_eq_nil_iff.mp calls
  · intro both
    obtain ⟨operates, again⟩ := Bool.and_eq_true_iff.mp both
    obtain ⟨path, held, again⟩ := (Option.any_eq_true _ _).mp again
    rw [operates, Bool.true_and, LockState.freeFor, held, Option.all_some] at skipped
    have elsewhere := operatesOn_eq_false skipped (operatesOn_of_repeats again)
    rw [operates] at elsewhere
    cases elsewhere

/-- The direct violations on a lock are those that its calls in turn make alone. -/
theorem directAt_encountersOfCalls (mirrors : Mirrors lock state alone) (calls : List Call) :
    subject.directAt lock
        ((subject.encountersOfCalls state calls).filterMap (subject.finding? function)) =
      subject.directAt lock
        ((subject.encountersOfCalls alone
          (subject.callsInTurn lock (subject.encountersOfCalls state calls))).filterMap
            (subject.finding? function)) := by
  induction calls generalizing state alone with
  | nil => rfl
  | cons call calls ih =>
      rw [encountersOfCalls, directAt_filterMap_cons, callsInTurn, List.filter_cons]
      cases turn : subject.operatesOn lock call && state.freeFor lock with
      | false =>
          rw [if_neg Bool.false_ne_true, directAt_out_of_turn turn, List.nil_append,
            ih (mirrors.step_out_of_turn turn)]
          rfl
      | true =>
          obtain ⟨operates, free⟩ := Bool.and_eq_true_iff.mp turn
          have held_eq : state.heldLock = alone.heldLock := by
            cases mirrors with
            | idle idle alone_idle =>
                rw [LockState.heldLock_of_idle idle, LockState.heldLock_of_idle alone_idle]
            | own held same count counted =>
                rw [LockState.heldLock, LockState.heldLock, count, counted]
            | other held apart =>
                rw [LockState.freeFor, held, Option.all_some, apart] at free
                cases free
          have finding_eq : subject.finding? function ⟨call, state⟩ =
              subject.finding? function ⟨call, alone⟩ := by
            rw [finding?, finding?, violation?_congr held_eq]
          rw [if_pos rfl, List.map_cons, encountersOfCalls, directAt_filterMap_cons, finding_eq,
            ih (mirrors.step_in_turn operates free)]
          rfl

/-! ## Nothing is made up -/

theorem operatesOn_of_handles (handled : subject.handles lock call = true) :
    subject.operatesOn lock call = true := by
  rcases Bool.or_eq_true_iff.mp handled with acquired | released
  · exact operatesOn_of_repeats (Bool.and_eq_true_iff.mp acquired).2
  · exact (Bool.and_eq_true_iff.mp released).2

/-- The state counts nothing, or the operation of a path. -/
def CountsOnly (lock : AccessPath) (state : LockState) : Prop :=
  state.held = 0 ∨ ∃ path, state.lock = some path ∧ path.equal lock 0 = true

section Counts

variable (counts : CountsOnly lock state)
include counts

/-- A release of the lock lowers a count that is for this lock, or for none. -/
theorem releaseBy_of_operatesOn (operates : subject.operatesOn lock call = true) :
    (subject.releaseBy state call).held = state.held - (subject.releases call).toNat ∧
      CountsOnly lock (subject.releaseBy state call) := by
  rcases counts with idle | ⟨counted, locked, same⟩
  · have idle_after : (subject.releaseBy state call).held = 0 := by
      unfold releaseBy
      split <;> simp [LockState.release, idle]
    exact ⟨by rw [idle_after, idle, Nat.zero_sub], .inl idle_after⟩
  · have operates_counted : subject.operatesOn counted call = true := by
      rw [operatesOn_congr (AccessPath.equal_of_equal_zero 1 same), operates]
    unfold releaseBy
    rw [releasesLock_iff locked, operates_counted, Bool.and_true]
    cases subject.releases call with
    | false | true => exact ⟨rfl, .inr ⟨counted, locked, same⟩⟩

/-- An acquisition of the lock by its operation raises a count that is for this lock, or for
none. -/
theorem acquireBy_of_repeats (acquires : subject.acquires call = true)
    (again : subject.repeats lock call = true) :
    (subject.acquireBy state call).held = state.held + 1 ∧
      CountsOnly lock (subject.acquireBy state call) := by
  obtain ⟨path, path_eq, same⟩ := (Option.any_eq_true _ _).mp again
  unfold acquireBy
  simp only [path_eq, acquires, if_true]
  rcases Nat.eq_zero_or_pos state.held with idle | positive
  · rw [if_pos idle]
    exact ⟨rfl, .inr ⟨path, rfl, same⟩⟩
  · rcases counts with idle | ⟨counted, locked, counted_same⟩
    · exact absurd idle (Nat.ne_of_gt positive)
    · have reacquires : subject.reacquires state call = true := by
        rw [Subject.reacquires, LockState.heldLock_of_held positive, locked, Option.any_some,
          repeats, path_eq, Option.any_some]
        exact AccessPath.equal_trans same (AccessPath.equal_comm.trans counted_same)
      rw [if_neg (Nat.ne_of_gt positive), if_pos reacquires]
      exact ⟨rfl, .inr ⟨counted, locked, counted_same⟩⟩

/-- What acquires the lock by another operation, and releases it at once, does not raise the
count. -/
theorem stateAfter_of_not_repeats (operates : subject.operatesOn lock call = true)
    (releases : subject.releases call = true) (different : subject.repeats lock call = false) :
    (subject.stateAfter state call).held = state.held - 1 ∧
      CountsOnly lock (subject.stateAfter state call) := by
  obtain ⟨path, path_eq, same⟩ := (Option.any_eq_true _ _).mp operates
  rcases Nat.eq_zero_or_pos state.held with idle | positive
  · have idle_after : (subject.stateAfter state call).held = 0 := by
      rcases @stateAfter_of_idle subject call state state idle idle with
        ⟨idle_after, -⟩ | ⟨other, other_eq, acquires, -⟩
      · exact idle_after
      · have matched : path.equal path 1 = true := AccessPath.equal_iff.mpr ⟨rfl, rfl⟩
        simp [Subject.stateAfter, acquireBy, path_eq, acquires, idle, releaseBy, releasesLock,
          releases, LockState.concerns, LockState.acquire, LockState.release, matched]
    exact ⟨by rw [idle_after, idle], .inl idle_after⟩
  · rcases counts with idle | ⟨counted, locked, counted_same⟩
    · exact absurd idle (Nat.ne_of_gt positive)
    · have reacquires : subject.reacquires state call = false := by
        rw [repeats, path_eq, Option.any_some] at different
        rw [Subject.reacquires, LockState.heldLock_of_held positive, locked, Option.any_some,
          repeats, path_eq, Option.any_some, AccessPath.equal_comm,
            AccessPath.equal_congr counted_same,
          AccessPath.equal_comm, different]
      have unchanged : subject.acquireBy state call = state := by
        simp [acquireBy, path_eq, Nat.ne_of_gt positive, reacquires]
      rw [Subject.stateAfter, unchanged]
      have released := releaseBy_of_operatesOn (.inr ⟨counted, locked, counted_same⟩) operates
      rwa [releases] at released

/-- A call on a lock raises and lowers a count that is for this lock, or for none, by what the call
is. -/
theorem stateAfter_of_handles (handled : subject.handles lock call = true) :
    (subject.stateAfter state call).held =
        state.held + (subject.acquires call && subject.repeats lock call).toNat -
          (subject.releases call).toNat ∧
      CountsOnly lock (subject.stateAfter state call) := by
  have operates := operatesOn_of_handles handled
  cases acquired : subject.acquires call && subject.repeats lock call with
  | true =>
      obtain ⟨acquires, again⟩ := Bool.and_eq_true_iff.mp acquired
      obtain ⟨count, counts⟩ := acquireBy_of_repeats counts acquires again
      obtain ⟨released, counts⟩ := releaseBy_of_operatesOn counts operates
      exact ⟨by rw [Subject.stateAfter, released, count]; rfl, counts⟩
  | false =>
      have releases : subject.releases call = true := by
        rw [handles, acquired, Bool.false_or] at handled
        exact (Bool.and_eq_true_iff.mp handled).1
      rw [releases, Bool.toNat_false, Bool.toNat_true, Nat.add_zero]
      cases again : subject.repeats lock call with
      | false => exact stateAfter_of_not_repeats counts operates releases again
      | true =>
          have unacquired : subject.acquires call = false := by
            rw [again, Bool.and_true] at acquired
            exact acquired
          have unchanged : subject.acquireBy state call = state := by
            unfold acquireBy
            rw [unacquired]
            split <;> rfl
          have released := releaseBy_of_operatesOn counts operates
          rw [releases] at released
          rw [Subject.stateAfter, unchanged]
          exact released

end Counts

/-- How an activation that meets calls on another lock as well stands to one that meets the calls on
the lock alone: the lock is not counted as often there, or the other one is counted instead. -/
inductive Covers (lock : AccessPath) : LockState → LockState → Prop
  | counted {state alone : LockState} (counts : CountsOnly lock state)
      (alone_counts : CountsOnly lock alone) (count : state.held ≤ alone.held) :
      Covers lock state alone
  | other {state alone : LockState} {path : AccessPath} (held : state.heldLock = some path)
      (apart : path.equal lock 1 = false) (alone_counts : CountsOnly lock alone) :
      Covers lock state alone

section Covers

variable (covers : Covers lock state alone)
include covers

theorem Covers.alone_counts : CountsOnly lock alone := by
  cases covers with
  | counted _ counts _ => exact counts
  | other _ _ counts => exact counts

theorem Covers.step_own (handled : subject.handles lock call = true) :
    Covers lock (subject.stateAfter state call) (subject.stateAfter alone call) := by
  obtain ⟨alone_held, alone_counts⟩ := stateAfter_of_handles covers.alone_counts handled
  cases covers with
  | counted counts _ count =>
      obtain ⟨held, counts⟩ := stateAfter_of_handles counts handled
      refine .counted counts alone_counts ?_
      rw [held, alone_held]
      exact Nat.sub_le_sub_right (Nat.add_le_add_right count _) _
  | other held apart =>
      have elsewhere :=
        operatesOn_eq_false (AccessPath.equal_comm.trans apart) (operatesOn_of_handles handled)
      rw [stateAfter_of_other held elsewhere]
      exact .other held apart alone_counts

theorem Covers.step_other (elsewhere : subject.operatesOn lock call = false) :
    Covers lock (subject.stateAfter state call) alone := by
  have alone_counts := covers.alone_counts
  have unheld : ∀ {after : LockState}, after.held = 0 → Covers lock after alone := by
    intro after idle
    exact .counted (.inl idle) alone_counts (idle ▸ Nat.zero_le _)
  cases covers with
  | counted counts _ count =>
      rcases Nat.eq_zero_or_pos state.held with idle | positive
      · rcases heldLock_of_idle_of_other idle elsewhere with idle | ⟨path, held, apart⟩
        · exact unheld idle
        · exact .other held apart alone_counts
      · obtain ⟨path, locked, same⟩ := counts.resolve_left (Nat.ne_of_gt positive)
        have held := (LockState.heldLock_of_held positive).trans locked
        rw [← operatesOn_congr (AccessPath.equal_of_equal_zero 1 same)] at elsewhere
        rw [stateAfter_of_other held elsewhere]
        exact .counted counts alone_counts count
  | other held apart =>
      rcases heldLock_stateAfter held with held | idle
      · exact .other held apart alone_counts
      · exact unheld idle

/-- What is a second acquisition of the lock beside another one is one without it too. -/
theorem Covers.reacquires (operates : subject.operatesOn lock call = true)
    (again : subject.reacquires state call = true) : subject.reacquires alone call = true := by
  obtain ⟨path, held, again⟩ := (Option.any_eq_true _ _).mp again
  have positive := LockState.held_of_heldLock held
  cases covers with
  | counted counts alone_counts count =>
      have alone_positive := Nat.lt_of_lt_of_le positive count
      obtain ⟨counted, locked, same⟩ := counts.resolve_left (Nat.ne_of_gt positive)
      obtain ⟨own, own_locked, own_same⟩ :=
        alone_counts.resolve_left (Nat.ne_of_gt alone_positive)
      have path_eq : path = counted :=
        Option.some.inj (held.symm.trans ((LockState.heldLock_of_held positive).trans locked))
      rw [Subject.reacquires, LockState.heldLock_of_held alone_positive, own_locked,
        Option.any_some, repeats_congr own_same, ← repeats_congr same, ← path_eq, again]
  | other other_held apart =>
      cases held.symm.trans other_held
      have elsewhere := operatesOn_eq_false apart (operatesOn_of_repeats again)
      rw [operates] at elsewhere
      cases elsewhere

/-- The direct violations on a lock beside another one are at calls where there are direct
violations without the calls on the other one. -/
theorem directAt_sublist {calls : List Call}
    (made : ∀ call ∈ calls, subject.operatesOn lock call = true →
      subject.handles lock call = true) :
    List.Sublist
      ((subject.directAt lock
        ((subject.encountersOfCalls state calls).filterMap
          (subject.finding? function))).map Finding.call)
      ((subject.directAt lock
        ((subject.encountersOfCalls alone (calls.filter (subject.operatesOn lock))).filterMap
          (subject.finding? function))).map Finding.call) := by
  induction calls generalizing state alone with
  | nil => exact List.Sublist.slnil
  | cons call calls ih =>
      obtain ⟨made_here, made⟩ := List.forall_mem_cons.mp made
      rw [encountersOfCalls, directAt_filterMap_cons, List.map_append, directAt_finding?,
        List.filter_cons]
      cases operates : subject.operatesOn lock call with
      | false => exact ih (covers.step_other operates) made
      | true =>
          rw [if_pos rfl, encountersOfCalls, directAt_filterMap_cons, List.map_append,
            directAt_finding?]
          refine List.Sublist.append ?_ (ih (covers.step_own (made_here operates)) made)
          simp only [operates, Bool.true_and]
          cases again : subject.reacquires state call with
          | false => exact List.nil_sublist _
          | true =>
              have again_alone := covers.reacquires operates again
              simp [again_alone]

end Covers

theorem map_call_encountersOfCalls (state : LockState) (calls : List Call) :
    (subject.encountersOfCalls state calls).map Encounter.call = calls := by
  induction calls generalizing state with
  | nil => rfl
  | cons call calls ih => rw [encountersOfCalls, List.map_cons, ih]

/-- In an activation that consists of acquisitions and releases of two locks, the direct violations
on one lock are those of its calls that are made while the other lock is not held. They are among
those that there are without the calls on the other lock, and are all of them if no call on the lock
is made while the other is held. -/
theorem directAt_beside_other (subject : Subject) (function : String) (first : Node)
    {calls : List Call} {lock other : AccessPath} (apart : lock.equal other 1 = false)
    (made : ∀ call ∈ calls, subject.handles lock call = true ∨ subject.handles other call = true) :
    let stream := fun calls : List Call => first :: calls.map Node.call
    let directOf := fun calls => subject.directAt lock (subject.findings function (stream calls))
    let alone := calls.filter fun call => !subject.operatesOn other call
    let encounters := subject.encounters function (stream calls)
    (∀ nodes, (subject.findings function nodes).map Finding.violation =
      (subject.track function nodes).violations) ∧
    directOf calls = directOf (subject.callsInTurn lock encounters) ∧
    ((directOf calls).map Finding.call).Sublist ((directOf alone).map Finding.call) ∧
    ((∀ encounter ∈ encounters, subject.operatesOn lock encounter.call = true →
        encounter.state.freeFor lock = true) →
      directOf calls = directOf alone) := by
  intro stream directOf alone encounters
  have own_eq : alone = calls.filter (subject.operatesOn lock) := by
    refine List.filter_congr fun call member => ?_
    rcases made call member with handled | handled
    · have operates := operatesOn_of_handles handled
      rw [operates, operatesOn_eq_false apart operates, Bool.not_false]
    · have operates := operatesOn_of_handles handled
      rw [operates, operatesOn_eq_false (AccessPath.equal_comm.trans apart) operates,
        Bool.not_true]
  have encounters_eq : encounters = subject.encountersOfCalls (.enter first.span) calls :=
    encounters_calls first calls
  have direct_eq : ∀ calls, directOf calls = subject.directAt lock
      ((subject.encountersOfCalls (.enter first.span) calls).filterMap
        (subject.finding? function)) := by
    intro calls
    rw [← @encounters_calls subject function first calls]
    rfl
  have in_turn : directOf calls = directOf (subject.callsInTurn lock encounters) := by
    rw [direct_eq, direct_eq, encounters_eq]
    exact directAt_encountersOfCalls (.idle rfl rfl) calls
  refine ⟨map_violation_findings, in_turn, ?_, fun free => ?_⟩
  · rw [own_eq, direct_eq, direct_eq]
    refine directAt_sublist (.counted (.inl rfl) (.inl rfl) (Nat.le_refl _)) ?_
    intro call member operates
    refine (made call member).resolve_right fun handled => ?_
    have elsewhere := operatesOn_eq_false apart operates
    rw [operatesOn_of_handles handled] at elsewhere
    cases elsewhere
  · have turn_eq : subject.callsInTurn lock encounters = alone := by
      have turns : ∀ encounter ∈ encounters,
          (subject.operatesOn lock encounter.call && encounter.state.freeFor lock) =
            subject.operatesOn lock encounter.call := by
        intro encounter member
        cases operates : subject.operatesOn lock encounter.call with
        | false => rfl
        | true => exact free encounter member operates
      calc
        subject.callsInTurn lock encounters
        _ = (encounters.filter fun encounter =>
            subject.operatesOn lock encounter.call).map Encounter.call := by
          rw [callsInTurn, List.filter_congr turns]
        _ = (encounters.map Encounter.call).filter (subject.operatesOn lock) := by
          rw [List.filter_map]
          rfl
        _ = alone := by rw [encounters_eq, map_call_encountersOfCalls, own_eq]
    rw [in_turn, turn_eq]

section Interleaving

/-- A function of two holders of a lock that makes the given calls. -/
def lockingDecl (calls : List Call) : FuncDecl := Sample.function 2 "F" ["a", "b"] calls

/-- The program of that function. -/
def locking (calls : List Call) : Subject := .ofProgram (Sample.program [lockingDecl calls]) {}

/-- The path `holder.mu.RLock` in that program. -/
def acquisition (holder : String) (symbol : SymbolId) : AccessPath :=
  ⟨⟨holder, symbol, .zero⟩, [⟨"mu", 68, .zero⟩, ⟨"RLock", 54, .zero⟩]⟩

/-- With `b.mu` held, the second of two acquisitions of `a.mu` is not found, though it is without
the call on `b.mu`. -/
theorem direct_missed_beside_other :
    let own := [Sample.lockCall 20 "a" "RLock", Sample.lockCall 30 "a" "RLock"]
    let calls := Sample.lockCall 10 "b" "RLock" :: own
    let subject := locking calls
    let function := Node.func (lockingDecl calls)
    (acquisition "a" 69).equal (acquisition "b" 70) 1 = false ∧
    (∀ call ∈ own, subject.handles (acquisition "a" 69) call = true) ∧
    subject.handles (acquisition "b" 70) (Sample.lockCall 10 "b" "RLock") = true ∧
    (subject.track "F" (function :: calls.map Node.call)).violations = [] ∧
    (subject.track "F" (function :: own.map Node.call)).violations =
      [⟨.direct, "F", ⟨"p.go", 30, 1⟩, "a.mu", []⟩] := by
  decide +kernel

/-- Two acquisitions of `a.mu` while `b.mu` is held, and two after its release. -/
def interleaved : List Call :=
  [Sample.lockCall 10 "b" "RLock", Sample.lockCall 20 "a" "RLock", Sample.lockCall 30 "a" "RLock",
    Sample.lockCall 40 "b" "RUnlock", Sample.lockCall 50 "a" "RLock",
    Sample.lockCall 60 "a" "RLock"]

/-- Only the last two acquisitions are made in turn, and one of them is a violation. Without the
calls on `b.mu` there are three. -/
theorem interleaved_direct :
    let subject := locking interleaved
    let first := Node.func (lockingDecl interleaved)
    let directOf := fun calls : List Call =>
      subject.directAt (acquisition "a" 69) (subject.findings "F" (first :: calls.map Node.call))
    let alone := interleaved.filter fun call => !subject.operatesOn (acquisition "b" 70) call
    (acquisition "a" 69).equal (acquisition "b" 70) 1 = false ∧
    (∀ call ∈ interleaved, subject.handles (acquisition "a" 69) call = true ∨
      subject.handles (acquisition "b" 70) call = true) ∧
    (subject.callsInTurn (acquisition "a" 69)
        (subject.encounters "F" (first :: interleaved.map Node.call))).map (fun call => call.id) =
      [⟨0, 50⟩, ⟨0, 60⟩] ∧
    directOf interleaved =
      directOf (subject.callsInTurn (acquisition "a" 69)
        (subject.encounters "F" (first :: interleaved.map Node.call))) ∧
    (directOf interleaved).map (fun finding => finding.call.id) = [⟨0, 60⟩] ∧
    (directOf alone).map (fun finding => finding.call.id) = [⟨0, 30⟩, ⟨0, 50⟩, ⟨0, 60⟩] := by
  intro subject first directOf alone
  have apart : (acquisition "a" 69).equal (acquisition "b" 70) 1 = false := by decide
  have made : ∀ call ∈ interleaved, subject.handles (acquisition "a" 69) call = true ∨
      subject.handles (acquisition "b" 70) call = true := by decide +kernel
  have beside := directAt_beside_other subject "F" first apart made
  exact ⟨apart, made, by decide +kernel, beside.2.1, by decide +kernel, by decide +kernel⟩

end Interleaving

end Subject

end Relock

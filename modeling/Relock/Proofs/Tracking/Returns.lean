import Relock.Proofs.Sample
import Relock.Proofs.Tracking.Ownership
import Relock.Proofs.Tracking.TwoLocks

/-!
# What a return gives back

At a return a deferred release takes effect: the count goes down by what there is to release, at most
one. At the first node past the return the same amount is added again. What the calls in the results
of the return acquire and release in between stays counted, and as long as they take no other lock,
the lock that is followed is the one before the return.
-/

namespace Relock

namespace Subject

variable (subject : Subject)

/-- The call is counted as an acquisition. -/
def raises (encounter : Encounter) : Bool :=
  encounter.state.held < (subject.acquireBy encounter.state encounter.call).held

/-- The call is counted as a release. -/
def lowers (encounter : Encounter) : Bool :=
  (subject.stateAfter encounter.state encounter.call).held <
    (subject.acquireBy encounter.state encounter.call).held

/-- The lock that is followed from the call on, when the call acquires one while nothing is held. -/
def takenLock? (encounter : Encounter) : Option AccessPath :=
  if encounter.state.held = 0 ∧ subject.acquires encounter.call = true then
    subject.path? encounter.call
  else
    none

/-- Calls lead from one count and lock to another: each acquisition and each release that is counted
counts once, and the lock is the last one taken, or else stays. -/
structure Balances (met : List Encounter) (before after : LockState) : Prop where
  count : after.held + met.countP subject.lowers = before.held + met.countP subject.raises
  lock : after.lock = (met.filterMap subject.takenLock?).getLast?.or before.lock

variable {subject} {function stem : String}

namespace Balances

theorem refl {before after : LockState} (held : after.held = before.held)
    (lock : after.lock = before.lock) : subject.Balances [] before after := by
  constructor <;> simp [held, lock]

theorem trans {first second : List Encounter} {before between after : LockState}
    (left : subject.Balances first before between) (right : subject.Balances second between after) :
    subject.Balances (first ++ second) before after where
  count := by
    have left_count := left.count
    have right_count := right.count
    rw [List.countP_append, List.countP_append]
    omega
  lock := by
    rw [right.lock, left.lock, List.filterMap_append, List.getLast?_append, Option.or_assoc]

/-- Calls that neither acquire nor release change nothing. -/
theorem unchanged {met : List Encounter} {before after : LockState}
    (balances : subject.Balances met before after)
    (quiet : ∀ encounter ∈ met, subject.acquires encounter.call = false ∧
      subject.releases encounter.call = false) :
    after.held = before.held ∧ after.lock = before.lock := by
  have acquired : ∀ encounter ∈ met,
      subject.acquireBy encounter.state encounter.call = encounter.state := by
    intro encounter member
    simp only [acquireBy, quiet encounter member]
    split <;> rfl
  have none_raises : met.countP subject.raises = 0 := by
    refine List.countP_eq_zero.mpr fun encounter member => ?_
    simp [raises, acquired encounter member]
  have none_lowers : met.countP subject.lowers = 0 := by
    refine List.countP_eq_zero.mpr fun encounter member => ?_
    simp [lowers, stateAfter, releaseBy, releasesLock, quiet encounter member]
  have none_taken : met.filterMap subject.takenLock? = [] := by
    refine List.filterMap_eq_nil_iff.mpr fun encounter member => ?_
    simp [takenLock?, quiet encounter member]
  have count := balances.count
  have lock := balances.lock
  rw [none_raises, none_lowers] at count
  rw [none_taken] at lock
  exact ⟨count, lock⟩

/-- Calls that take no other lock leave the lock as it is. -/
theorem keeps_lock {met : List Encounter} {before after : LockState} {lock : AccessPath}
    {offset : Nat} (balances : subject.Balances met before after)
    (followed : before.lock = some lock)
    (only : ∀ path ∈ met.filterMap subject.takenLock?, path.equal lock offset = true) :
    ∃ path, after.lock = some path ∧ path.equal lock offset = true := by
  rw [balances.lock, followed]
  cases last : (met.filterMap subject.takenLock?).getLast? with
  | none =>
      have same : lock.equal lock 0 = true := AccessPath.equal_zero_iff.mpr rfl
      exact ⟨lock, rfl, AccessPath.equal_of_equal_zero offset same⟩
  | some path => exact ⟨path, rfl, only path (List.mem_of_getLast? last)⟩

end Balances

/-! ## Calls -/

theorem held_acquireBy (encounter : Encounter) :
    (subject.acquireBy encounter.state encounter.call).held =
      encounter.state.held + if subject.raises encounter then 1 else 0 := by
  have bound : (subject.acquireBy encounter.state encounter.call).held = encounter.state.held ∨
      (subject.acquireBy encounter.state encounter.call).held = encounter.state.held + 1 := by
    unfold acquireBy
    split
    · split
      · split
        · exact .inr rfl
        · split
          · exact .inr rfl
          · exact .inl rfl
      · exact .inl rfl
    · exact .inl rfl
  unfold raises
  rcases bound with same | more
  · simp [same]
  · simp [more]

theorem held_stateAfter (encounter : Encounter) :
    (subject.stateAfter encounter.state encounter.call).held +
        (if subject.lowers encounter then 1 else 0) =
      (subject.acquireBy encounter.state encounter.call).held := by
  have bound : (subject.stateAfter encounter.state encounter.call).held =
        (subject.acquireBy encounter.state encounter.call).held ∨
      (subject.stateAfter encounter.state encounter.call).held + 1 =
        (subject.acquireBy encounter.state encounter.call).held := by
    simp only [stateAfter, releaseBy]
    split
    · simp only [LockState.release]
      omega
    · exact .inl rfl
  unfold lowers
  rcases bound with same | less
  · simp [same]
  · simp [← less]

theorem lock_after_call (encounter : Encounter) :
    (subject.stateAfter encounter.state encounter.call).lock =
      (subject.takenLock? encounter).or encounter.state.lock := by
  have kept : (subject.stateAfter encounter.state encounter.call).lock =
      (subject.acquireBy encounter.state encounter.call).lock := by
    simp only [stateAfter, releaseBy]
    split <;> rfl
  rw [kept, takenLock?, acquireBy]
  cases subject.path? encounter.call with
  | none => simp
  | some path =>
      simp only
      by_cases acquires : subject.acquires encounter.call = true
      · by_cases free : encounter.state.held = 0
        · simp [acquires, free, LockState.acquire]
        · simp only [acquires, free, if_true, if_false, false_and, Option.none_or]
          split <;> rfl
      · simp [acquires]

theorem balances_stateAfter (encounter : Encounter) :
    subject.Balances [encounter] encounter.state
      (subject.stateAfter encounter.state encounter.call) where
  count := by
    have raised := @held_acquireBy subject encounter
    have lowered := @held_stateAfter subject encounter
    rw [List.countP_singleton, List.countP_singleton]
    omega
  lock := by
    rw [lock_after_call]
    cases taken : subject.takenLock? encounter <;> simp [taken]

/-! ## Inside a return -/

section Inside

variable {span : Span} {activation : Activation} {around : Around} {node : Node} {nodes : List Node}

/-- What is done to the state inside a return: what the return released is kept apart, and only calls
change the count and the lock. -/
structure Inside (subject : Subject) (span : Span) (met : List Encounter)
    (before after : LockState) : Prop where
  balances : subject.Balances met before after
  returning : after.returnExtent = some span
  released : after.releasedAtReturn = before.releasedAtReturn

theorem interpret_inside (returning : activation.state.returnExtent = some span) (node : Node) :
    subject.Inside span
      (match node with
        | .call call => [⟨call, activation.state⟩]
        | _ => [])
      activation.state (subject.interpret function stem activation node).state := by
  cases node with
  | call call =>
      have frame : subject.stateAfter activation.state call = _ :=
        stateAfter_frame activation.state activation.state call
      refine ⟨balances_stateAfter ⟨call, activation.state⟩, ?_, ?_⟩
      · simp only [interpret]
        rw [frame, returning]
      · simp only [interpret]
        rw [frame]
  | «return» other =>
      have open_return : activation.state.enterReturn other = activation.state := by
        simp [LockState.enterReturn, returning]
      simp only [interpret, open_return]
      exact ⟨.refl rfl rfl, returning, rfl⟩
  | _ => exact ⟨.refl rfl rfl, returning, rfl⟩

theorem visit_inside {node : Node} (returning : activation.state.returnExtent = some span)
    (keeps : LockState.inside activation.state.around.closure node.span = true ∨
      LockState.inside activation.state.around.defer node.span = true ∨
      node.span.startsWithin span = true) :
    subject.Inside span (activation.encounter? node).toList activation.state
      (subject.visit function stem activation node).state := by
  cases outside : LockState.inside activation.state.around.closure node.span with
  | true =>
      have unmet : activation.encounter? node = none := if_pos outside
      rw [unmet, visit_of_within outside]
      exact ⟨.refl rfl rfl, returning, rfl⟩
  | false =>
      cases past : LockState.inside activation.state.around.defer node.span with
      | true =>
          have unmet : activation.encounter? node = none :=
            (if_neg (Bool.eq_false_iff.mp outside)).trans (if_pos past)
          rw [unmet, visit_of_deferred outside past]
          cases node <;> exact ⟨.refl rfl rfl, returning, rfl⟩
      | false =>
          have within : node.span.startsWithin span = true := by simpa [outside, past] using keeps
          have arrived : activation.state.arrive node.span =
              { activation.state with closureExtent := none, deferExtent := none } :=
            passReturn_of_within fun extent open_extent => by
              cases returning.symm.trans open_extent
              exact within
          have met : (activation.encounter? node).toList =
              match node with
              | .call call => [⟨call, activation.state.arrive node.span⟩]
              | _ => [] := by
            cases node <;> exact congrArg Option.toList ((if_neg (Bool.eq_false_iff.mp outside)).trans
              (if_neg (Bool.eq_false_iff.mp past)))
          have inside := @interpret_inside subject function stem span
            { activation with state := activation.state.arrive node.span }
            (by rw [arrived]; exact returning) node
          rw [visit_of_past outside past, met]
          refine ⟨⟨?_, ?_⟩, inside.returning, inside.released.trans (by rw [arrived])⟩
          · exact inside.balances.count.trans (by rw [arrived])
          · exact inside.balances.lock.trans (by rw [arrived])

/-- None of the nodes that the walk interprets lies past the return. -/
def StaysIn (span : Span) (around : Around) (nodes : List Node) : Prop :=
  ∀ item ∈ around.scan nodes, item.deferred = true ∨ item.node.span.startsWithin span = true

instance (around : Around) (nodes : List Node) : Decidable (StaysIn span around nodes) :=
  inferInstanceAs (Decidable (∀ item ∈ around.scan nodes, _))

theorem StaysIn.head (stays : StaysIn span around (node :: nodes)) :
    LockState.inside around.closure node.span = true ∨
      LockState.inside around.defer node.span = true ∨ node.span.startsWithin span = true := by
  cases outside : LockState.inside around.closure node.span with
  | true => exact .inl rfl
  | false =>
      rw [StaysIn, Around.scan_cons_of_outside outside] at stays
      exact .inr (stays _ List.mem_cons_self)

theorem StaysIn.tail (stays : StaysIn span around (node :: nodes)) :
    StaysIn span (around.next node) nodes := by
  cases outside : LockState.inside around.closure node.span with
  | true =>
      rw [StaysIn, Around.scan_cons_of_within outside] at stays
      rwa [Around.next_of_within outside]
  | false =>
      rw [StaysIn, Around.scan_cons_of_outside outside] at stays
      exact fun item member => stays item (List.mem_cons_of_mem _ member)

theorem foldl_inside (returning : activation.state.returnExtent = some span)
    (stays : StaysIn span activation.state.around nodes) :
    subject.Inside span (subject.encountersFrom function stem activation nodes) activation.state
      (nodes.foldl (subject.visit function stem) activation).state := by
  induction nodes generalizing activation with
  | nil => exact ⟨.refl rfl rfl, returning, rfl⟩
  | cons node nodes ih =>
      have first := @visit_inside subject function stem span activation node returning stays.head
      have rest := ih first.returning (by rw [around_visit]; exact stays.tail)
      exact ⟨first.balances.trans rest.balances, rest.returning, rest.released.trans first.released⟩

end Inside

/-! ## Past a return -/

/-- A walk comes to a return at which a deferred release is pending: the return is part of no closure
literal, deferred call or other return. -/
structure Fires (state : LockState) (span : Span) : Prop where
  outside : LockState.inside state.around.closure span = false
  past : LockState.inside state.around.defer span = false
  pending : state.deferredRelease = true
  alone : (state.arrive span).returnExtent = none

instance (state : LockState) (span : Span) : Decidable (Fires state span) :=
  decidable_of_iff
    (LockState.inside state.around.closure span = false ∧
      LockState.inside state.around.defer span = false ∧ state.deferredRelease = true ∧
      (state.arrive span).returnExtent = none)
    ⟨fun ⟨outside, past, pending, alone⟩ => ⟨outside, past, pending, alone⟩,
      fun fires => ⟨fires.outside, fires.past, fires.pending, fires.alone⟩⟩

/-- A walk comes to the first node past a return. -/
structure Passes (state : LockState) (span : Span) (node : Node) : Prop where
  outside : LockState.inside state.around.closure node.span = false
  past : LockState.inside state.around.defer node.span = false
  later : node.span.startsWithin span = false

instance (state : LockState) (span : Span) (node : Node) : Decidable (Passes state span node) :=
  decidable_of_iff
    (LockState.inside state.around.closure node.span = false ∧
      LockState.inside state.around.defer node.span = false ∧ node.span.startsWithin span = false)
    ⟨fun ⟨outside, past, later⟩ => ⟨outside, past, later⟩,
      fun passes => ⟨passes.outside, passes.past, passes.later⟩⟩

theorem state_visit_of_fires {activation : Activation} {span : Span}
    (fires : Fires activation.state span) :
    (subject.visit function stem activation (.return span)).state =
      { (activation.state.arrive span).release with
        returnExtent := some span
        releasedAtReturn := (activation.state.arrive span).releasable } := by
  have pending : (activation.state.arrive span).deferredRelease = true := by
    rw [← fires.pending]
    unfold LockState.arrive LockState.passReturn
    split <;> rfl
  rw [visit_of_past fires.outside fires.past]
  simp [interpret, LockState.enterReturn, Node.span, fires.alone, pending]

/-- At the first node past a return at which a deferred release has taken effect, the amount that it
released is held again: the count is the one just before the return, with each acquisition and each
release counted that the calls in the results made in between. Only a lock that they take while
nothing is held comes in place of the lock just before the return; if they take that one alone, it
stays. If they neither acquire nor release, both are as before. -/
theorem return_gives_back (subject : Subject) (function : String) (first : Node)
    (before inside : List Node) (span : Span) (next : Node) :
    let stem := closureStem function first
    let walk := List.foldl (subject.visit function stem) { state := .enter first.span }
    let opened := walk (before ++ [.return span])
    let closing := walk (before ++ .return span :: inside)
    let entry := (walk before).state.arrive span
    let exit := closing.state.arrive next.span
    let met := subject.encountersFrom function stem opened inside
    Fires (walk before).state span →
    StaysIn span opened.state.around inside →
    Passes closing.state span next →
    exit.held + met.countP subject.lowers = entry.held + met.countP subject.raises ∧
    exit.lock = (met.filterMap subject.takenLock?).getLast?.or entry.lock ∧
    exit.returnExtent = none ∧ exit.releasedAtReturn = 0 ∧
    ((∀ encounter ∈ met, subject.acquires encounter.call = false ∧
      subject.releases encounter.call = false) →
      exit.held = entry.held ∧ exit.lock = entry.lock) ∧
    ∀ lock offset, entry.lock = some lock →
      (∀ path ∈ met.filterMap subject.takenLock?, path.equal lock offset = true) →
      ∃ path, exit.lock = some path ∧ path.equal lock offset = true := by
  intro stem walk opened closing entry exit met fires stays passes
  have opened_state : opened.state = { entry.release with
      returnExtent := some span, releasedAtReturn := entry.releasable } := by
    simp only [opened, walk, List.foldl_append, List.foldl_cons, List.foldl_nil]
    exact state_visit_of_fires fires
  have closing_eq : closing = inside.foldl (subject.visit function stem) opened := by
    simp only [closing, opened, walk, List.foldl_append, List.foldl_cons, List.foldl_nil]
  have results : subject.Inside span met opened.state closing.state := by
    rw [closing_eq]
    exact foldl_inside (by rw [opened_state]) stays
  have exit_eq : exit = { closing.state with
      closureExtent := none
      deferExtent := none
      returnExtent := none
      held := closing.state.held + closing.state.releasedAtReturn
      releasedAtReturn := 0 } := by
    simp only [exit, LockState.arrive, LockState.passReturn, results.returning, LockState.inside,
      Option.isSome_some, Option.any_some, passes.later, Bool.not_false, Bool.and_self, if_true]
  have balances : subject.Balances met entry exit := by
    have given_back := entry.held_release_add_releasable
    have released := results.released
    have count := results.balances.count
    have lock := results.balances.lock
    rw [opened_state] at released count lock
    rw [exit_eq]
    refine ⟨?_, lock⟩
    simp only at released count ⊢
    omega
  exact ⟨balances.count, balances.lock, by rw [exit_eq], by rw [exit_eq], balances.unchanged,
    fun _ _ => balances.keeps_lock⟩

/-- The beginning of a function: `a.mu` is acquired, and its release is deferred. -/
def guarding : List Node :=
  [.call (Sample.lockCall 10 "a" "RLock"),
    .defer (Sample.lockCall 20 "a" "RUnlock") (Sample.spanAt 20),
    .call (Sample.lockCall 20 "a" "RUnlock")]

/-- What comes after the first return of the function: `a.mu` is acquired again. -/
def acquiringAgain : Node := .call (Sample.lockCall 60 "a" "RLock")

/-- The calls of the function, when its first return has the given ones in its results. -/
def leavingCalls (results : List Call) : List Call :=
  Node.sites guarding ++ results ++ Node.sites [acquiringAgain]

/-- With `a.mu` acquired in the results, the acquisition stays counted past the return: `a.mu`
counts once before the return, and twice past it. -/
theorem acquisition_kept_past_return :
    let results := [Sample.lockCall 41 "a" "RLock"]
    let subject := locking (leavingCalls results)
    let first := Node.func (lockingDecl (leavingCalls results))
    let span := Sample.spanAt 40
    let stream := guarding ++ .return span :: results.map Node.call
    let walk := List.foldl (subject.visit "F" "F.func") { state := .enter first.span }
    let entry := (walk guarding).state.arrive span
    let exit := (walk stream).state.arrive acquiringAgain.span
    Fires (walk guarding).state span ∧
    StaysIn span (walk (guarding ++ [.return span])).state.around (results.map Node.call) ∧
    Passes (walk stream).state span acquiringAgain ∧
    (entry.held, entry.lock) = (1, some (acquisition "a" 69)) ∧
    (exit.held, exit.lock) = (2, some (acquisition "a" 69)) := by
  decide +kernel

/-- With `a.mu` acquired and released in the results, the count and the lock past the return are those
before it, and the second acquisition of `a.mu` is found. -/
theorem own_lock_kept_past_return :
    let results := [Sample.lockCall 41 "a" "RLock", Sample.lockCall 47 "a" "RUnlock"]
    let subject := locking (leavingCalls results)
    let first := Node.func (lockingDecl (leavingCalls results))
    let span := Sample.spanAt 40
    let stream := guarding ++ .return span :: results.map Node.call
    let walk := List.foldl (subject.visit "F" "F.func") { state := .enter first.span }
    let entry := (walk guarding).state.arrive span
    let exit := (walk stream).state.arrive acquiringAgain.span
    Fires (walk guarding).state span ∧
    StaysIn span (walk (guarding ++ [.return span])).state.around (results.map Node.call) ∧
    Passes (walk stream).state span acquiringAgain ∧
    exit.held = entry.held ∧
    (∃ path, exit.lock = some path ∧ path.equal (acquisition "a" 69) 0 = true) ∧
    (subject.track "F" (first :: stream ++ [acquiringAgain])).violations =
      [⟨.direct, "F", ⟨"p.go", 60, 1⟩, "a.mu", []⟩] := by
  intro results subject first span stream walk entry exit
  let met := subject.encountersFrom "F" "F.func" (walk (guarding ++ [.return span]))
    (results.map Node.call)
  obtain ⟨fires, stays, passes, raised, lowered, followed, only, found⟩ :
      Fires (walk guarding).state span ∧
      StaysIn span (walk (guarding ++ [.return span])).state.around (results.map Node.call) ∧
      Passes (walk stream).state span acquiringAgain ∧
      met.countP subject.raises = 1 ∧ met.countP subject.lowers = 1 ∧
      entry.lock = some (acquisition "a" 69) ∧
      (∀ path ∈ met.filterMap subject.takenLock?, path.equal (acquisition "a" 69) 0 = true) ∧
      (subject.track "F" (first :: stream ++ [acquiringAgain])).violations =
        [⟨.direct, "F", ⟨"p.go", 60, 1⟩, "a.mu", []⟩] := by decide +kernel
  obtain ⟨count, -, -, -, -, kept⟩ := return_gives_back subject "F" first guarding
    (results.map Node.call) span acquiringAgain fires stays passes
  change exit.held + met.countP subject.lowers = entry.held + met.countP subject.raises at count
  rw [raised, lowered] at count
  exact ⟨fires, stays, passes, Nat.add_right_cancel count, kept _ 0 followed only, found⟩

end Subject

end Relock

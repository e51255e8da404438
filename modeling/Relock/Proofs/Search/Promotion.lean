import Relock.Proofs.Sample
import Relock.Proofs.Search.Handover
import Relock.Proofs.Search.Recursion

/-!
# Locks behind embedded fields

A method that is promoted runs with an embedded object as its receiver, but a search spells the path
to the lock from the receiver as if it were the object that the method was called on. So a search
can take two locks for one.

What decides is how the lock is reached: where it is held, and where it is acquired again, through
the objects that every call on the way hands to its callee. If these are the same fields from the
same variable, the two locks are one in every heap. If not, there is a heap in which they are two.
-/

namespace Relock

namespace Subject

/-- Whenever a chain runs, the lock that it acquires again is the one that was held. -/
def SameLock (subject : Subject) (lock : AccessPath) (call : Call) (root : Frame)
    (positions : List Nat) (path : AccessPath) : Prop :=
  ∀ (Object : Type) (heap : Heap Object) (caller callee final : Environment Object),
    subject.Conveys heap caller callee call → subject.Course heap callee root positions final →
      path.target subject.tables heap final = lock.target subject.tables heap caller

end Subject

section Tracing

/-- An object that is told by how it was reached: from a variable, through fields. -/
abbrev Trace := SymbolId × List SymbolId

/-- The heap in which every field of every object holds an object of its own. -/
def tracing : Heap Trace := fun object field => some (object.1, object.2 ++ [field])

/-- The environment in which every variable holds an object of its own. -/
def origin : Environment Trace := fun symbol => some (symbol, [])

theorem follow_tracing (fields : List SymbolId) (object : Trace) :
    Heap.follow tracing fields object = some (object.1, object.2 ++ fields) := by
  induction fields generalizing object with
  | nil => simp
  | cons field fields ih =>
      have step : Heap.follow tracing (field :: fields) object =
          Heap.follow tracing fields (object.1, object.2 ++ [field]) := rfl
      rw [step, ih, List.append_assoc, List.singleton_append]

end Tracing

namespace Subject

variable {subject : Subject} {root : Frame} {positions : List Nat} {frames : List Frame}
  {last : Call}

section Chains

variable {lock path : AccessPath} {call last : Call} {root : Frame} {positions : List Nat}
  {frames : List Frame} (entered : subject.enter lock call = some root)
  (chain : subject.Chain root positions frames last) (spelled : subject.path? last = some path)

include entered chain spelled

/-- The lock that is acquired again, as the caller that holds the lock would reach it. -/
theorem target_of_conveys {Object : Type} {heap : Heap Object}
    {caller callee final : Environment Object} (conveys : subject.Conveys heap caller callee call)
    (course : subject.Course heap callee root positions final) :
    path.target subject.tables heap final =
      (caller lock.root.symbol).bind
        (Heap.follow heap (subject.handedFields lock call ++ subject.way root positions)) := by
  rw [target_of_course chain course spelled, (carrying_of_enter entered).root conveys,
    Heap.bind_follow_append]

theorem sameLock_of_way_eq
    (same : subject.handedFields lock call ++ subject.way root positions =
      subject.tables.fieldsBefore lock.symbols) :
    subject.SameLock lock call root positions path := by
  intro Object heap caller callee final conveys course
  rw [target_of_conveys entered chain spelled conveys course, same]
  rfl

/-- Where the ways differ, objects do as well in the heap that tells how each was reached. -/
theorem way_eq_of_sameLock (apart : subject.VariablesApart)
    (same : subject.SameLock lock call root positions path) :
    subject.handedFields lock call ++ subject.way root positions =
      subject.tables.fieldsBefore lock.symbols := by
  obtain ⟨callee, conveys⟩ := exists_conveys apart tracing origin call
  obtain ⟨final, course⟩ := exists_course apart tracing callee chain
  have targets := same Trace tracing origin callee final conveys course
  rw [target_of_conveys entered chain spelled conveys course] at targets
  simpa [AccessPath.target, origin, follow_tracing] using targets

end Chains

/-! ## Without embedded fields -/

theorem Carrying.fields_of_flat {lock path : AccessPath} {call : Call} {fields : List SymbolId}
    (flat : Tables.Flat subject.tables.named)
    (carrying : subject.Carrying lock call path fields) :
    fields ++ subject.tables.fieldsBefore path.symbols =
      subject.tables.fieldsBefore lock.symbols := by
  have written := Tables.fieldsBefore_of_flat flat
  cases carrying with
  | closure runs => rfl
  | package plain shared => rfl
  | receiver plain declared named object spelled stripped =>
      rw [written, written, written, AccessPath.symbols_withRoot, List.tail_cons,
        AccessPath.tail_symbols_of_stripFront stripped, List.map_dropLast, ← List.tail_dropLast]
      rfl
  | argument plain declared member object spelled stripped =>
      rw [written, written, Tables.fieldsTo_of_flat flat, AccessPath.symbols_withRoot,
        List.tail_cons, AccessPath.tail_symbols_of_stripFront stripped]
      rfl

theorem Chain.way_of_flat (flat : Tables.Flat subject.tables.named)
    (chain : subject.Chain root positions frames last) :
    subject.way root positions = subject.tables.fieldsBefore root.path.symbols := by
  induction chain with
  | here _ _ => exact way_singleton _ _
  | through at_position keeps entered rest ih =>
      rw [way_of_through at_position entered rest, ih,
        (carrying_of_enter entered).fields_of_flat flat]

theorem Chain.exists_path (chain : subject.Chain root positions frames last) :
    ∃ path, subject.path? last = some path := by
  induction chain with
  | here _ acquires =>
      obtain ⟨path, spelled, -⟩ := (Option.any_eq_true _ _).mp acquires
      exact ⟨path, spelled⟩
  | through _ _ _ _ ih => exact ih

/-- The lock that a search finds to be acquired again is the one that is held, in every heap, if it
is reached in both places through the same fields, embedded ones on the way to promoted members
included; and only then, if the variables of every declaration are apart. Without embedded fields,
this is always so. -/
theorem searchFrom_same_lock_iff (subject : Subject) (lock : AccessPath) (call : Call)
    (stack : List StackFrame) (found : subject.searchFrom lock call = some stack) :
    (∀ type name, (subject.tables.route? type name).map Prod.snd =
      subject.tables.member? type name) ∧
    ∃ root positions frames last path, subject.enter lock call = some root ∧
      subject.Chain root positions frames last ∧
      stack = (root :: frames).map Frame.site ++ [subject.acquisitionFrame last] ∧
      subject.path? last = some path ∧
      (subject.handedFields lock call ++ subject.way root positions =
          subject.tables.fieldsBefore lock.symbols →
        subject.SameLock lock call root positions path) ∧
      (subject.VariablesApart → subject.SameLock lock call root positions path →
        subject.handedFields lock call ++ subject.way root positions =
          subject.tables.fieldsBefore lock.symbols) ∧
      (Tables.Flat subject.tables.named →
        subject.SameLock lock call root positions path) := by
  refine ⟨subject.tables.map_snd_route?, ?_⟩
  cases entered : subject.enter lock call with
  | none => simp [searchFrom_of_enter_eq_none entered] at found
  | some root =>
      rcases searchFrom_of_enter entered with
        ⟨nothing, -⟩ | ⟨positions, frames, last, ⟨chain, -⟩, -, answer⟩
      · simp [nothing] at found
      · obtain ⟨path, spelled⟩ := chain.exists_path
        have stack_eq := Option.some.inj (found.symm.trans answer)
        refine ⟨root, positions, frames, last, path, rfl, chain, stack_eq, spelled,
          sameLock_of_way_eq entered chain spelled, way_eq_of_sameLock entered chain spelled, ?_⟩
        intro flat
        refine sameLock_of_way_eq entered chain spelled ?_
        rw [chain.way_of_flat flat, (carrying_of_enter entered).fields_of_flat flat]

section Embedding

/-- A lock is embedded in `Inner`, which has a method `Get` that acquires it. A function calls `Get`
on an `Outer`, in which the given types are embedded, while it holds the lock of the `Outer`. -/
def embedding (embedded : List TypeExpr) : Subject :=
  .ofProgram
    ⟨[⟨0, "p.go", "p", ".", [⟨none, "sync"⟩],
      [.type ⟨Sample.name 0 "Inner", .struct [⟨[], .qualified "sync" "RWMutex"⟩], .zero⟩,
      .type ⟨Sample.name 1 "Outer", .struct (embedded.map fun type => ⟨[], type⟩), .zero⟩,
      .func ⟨⟨0, 10⟩, Sample.name 11 "Get",
        some ⟨some (Sample.name 12 "i"), .pointer (.name "Inner")⟩, [], none,
        some ⟨[Sample.statement (Sample.memberCall 20 "i" "RLock")], .zero⟩, .zero⟩,
      .func ⟨⟨0, 30⟩, Sample.name 31 "F", none,
        [⟨[Sample.name 32 "o"], .pointer (.name "Outer"), false⟩], none,
        some ⟨[Sample.statement (Sample.memberCall 40 "o" "RLock"),
          Sample.statement (Sample.memberCall 50 "o" "Get")], .zero⟩, .zero⟩]⟩]⟩ {}

/-- The call `o.Get()`. -/
def getCall : Call := Sample.memberCall 50 "o" "Get"

/-- The stack of the acquisition in `Get`. -/
def getStack : List StackFrame :=
  [⟨"Inner.Get", ⟨"p.go", 50, 1⟩⟩, ⟨"RWMutex.RLock", ⟨"p.go", 20, 1⟩⟩]

/-- The `Outer` has a lock and an `Inner`. -/
def doubled : Subject := embedding [.qualified "sync" "RWMutex", .name "Inner"]

/-- The path `o.RLock` to the first lock of the `Outer`. -/
def doubledLock : AccessPath := ⟨⟨"o", 74, .zero⟩, [⟨"RLock", 54, .zero⟩]⟩

/-- The path `i.RLock`. -/
def innerLock : AccessPath := ⟨⟨"i", 73, .zero⟩, [⟨"RLock", 54, .zero⟩]⟩

/-- An `Outer` holds its own lock, in its field 70, when `Get` acquires the lock of its `Inner`, in
the field 69 of its field 71. A search takes the two for one. -/
theorem promoted_method_other_lock :
    doubled.path? (Sample.memberCall 40 "o" "RLock") = some doubledLock ∧
    doubled.path? (Sample.memberCall 20 "i" "RLock") = some innerLock ∧
    doubled.searchFrom doubledLock getCall = some getStack ∧
    ∃ callee, doubled.Conveys tracing origin callee getCall ∧
      doubledLock.target doubled.tables tracing origin = some (74, [70]) ∧
      innerLock.target doubled.tables tracing callee = some (74, [71, 69]) := by
  have apart : doubled.VariablesApart := by
    unfold VariablesApart
    decide +kernel
  have answered : doubled.answerWithin? 5 doubledLock getCall = some (some getStack) := by
    decide +kernel
  have followed : (doubled.enter doubledLock getCall).any (fun root =>
      (doubled.follow root [0]).any (fun found => doubled.path? found.2 = some innerLock) &&
        doubled.handedFields doubledLock getCall ++ doubled.way root [0] = [71, 69]) = true := by
    decide +kernel
  obtain ⟨root, entered, followed⟩ := (Option.any_eq_true _ _).mp followed
  obtain ⟨followed, way_eq⟩ := Bool.and_eq_true_iff.mp followed
  obtain ⟨⟨frames, last⟩, followed, spelled⟩ := (Option.any_eq_true _ _).mp followed
  obtain ⟨callee, conveys⟩ := exists_conveys apart tracing origin getCall
  refine ⟨by decide +kernel, by decide +kernel, searchFrom_of_answerWithin? answered, callee,
    conveys, by decide +kernel, ?_⟩
  rw [target_of_conveys entered (chain_of_follow followed) (of_decide_eq_true spelled) conveys
    .here, of_decide_eq_true way_eq]
  rfl

/-- The `Outer` has an `Inner` only. -/
def single : Subject := embedding [.name "Inner"]

/-- The path `o.RLock` to the lock of the `Inner`. -/
def singleLock : AccessPath := ⟨⟨"o", 73, .zero⟩, [⟨"RLock", 54, .zero⟩]⟩

/-- The lock of an `Outer` is that of its `Inner`, which `Get` acquires again. -/
theorem promoted_method_same_lock :
    single.path? (Sample.memberCall 40 "o" "RLock") = some singleLock ∧
    single.searchFrom singleLock getCall = some getStack ∧
    ∃ root positions frames last path, single.enter singleLock getCall = some root ∧
      single.Chain root positions frames last ∧
      getStack = (root :: frames).map Frame.site ++ [single.acquisitionFrame last] ∧
      single.path? last = some path ∧ single.SameLock singleLock getCall root positions path := by
  have answered : single.answerWithin? 5 singleLock getCall = some (some getStack) := by
    decide +kernel
  have found := searchFrom_of_answerWithin? answered
  have fields : (single.enter singleLock getCall).all (fun root =>
      single.handedFields singleLock getCall ++ single.tables.fieldsBefore root.path.symbols =
        single.tables.fieldsBefore singleLock.symbols) = true := by decide +kernel
  obtain ⟨-, root, positions, frames, last, path, entered, chain, stack_eq, spelled, sufficient,
    -⟩ := searchFrom_same_lock_iff single singleLock getCall getStack found
  refine ⟨by decide +kernel, found, root, positions, frames, last, path, entered, chain, stack_eq,
    spelled, sufficient ?_⟩
  -- A stack of two frames is that of an acquisition in the first callee.
  have no_frames : frames = [] := by
    have length_eq := congrArg List.length stack_eq
    simpa [getStack] using length_eq
  subst no_frames
  cases chain
  rw [entered, Option.all_some] at fields
  rw [way_singleton, of_decide_eq_true fields]

end Embedding

end Subject

end Relock

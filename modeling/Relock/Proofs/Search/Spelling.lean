import Mathlib.Data.List.Forall2
import Relock.Proofs.Path.Symbols
import Relock.Proofs.Sample
import Relock.Proofs.Search.Chain

/-!
# Spellings of a path

The steps of a path have names and places besides the entities they refer to. A search looks at the
entities alone: from frames that reach the lock through the same entities, and make the same calls,
the same chains lead on, and searches for two spellings of a path take the same steps.
-/

namespace Relock

/-- Frames of one callee that make the same calls, and from which the lock is reached by paths to
the same entities. -/
structure Frame.Alike (left right : Frame) : Prop where
  key : left.key = right.key
  path : left.path.equal right.path 0 = true
  calls : left.calls = right.calls

theorem Frame.Alike.refl (frame : Frame) : frame.Alike frame :=
  ⟨rfl, AccessPath.equal_zero_iff.mpr rfl, rfl⟩

theorem Frame.Alike.symm {left right : Frame} (alike : left.Alike right) : right.Alike left :=
  ⟨alike.key.symm, AccessPath.equal_comm.trans alike.path, alike.calls.symm⟩

theorem Frame.Alike.trans {left middle right : Frame} (first : left.Alike middle)
    (second : middle.Alike right) : left.Alike right :=
  ⟨first.key.trans second.key, AccessPath.equal_trans first.path second.path,
    first.calls.trans second.calls⟩

namespace Frame

variable {frames others : List Frame}

theorem map_key_of_alike (alike : List.Forall₂ Alike frames others) :
    frames.map key = others.map key := by
  induction alike with
  | nil => rfl
  | cons first _ ih => rw [List.map_cons, List.map_cons, first.key, ih]

theorem exists_alike_of_mem (alike : List.Forall₂ Alike frames others) {other : Frame}
    (member : other ∈ others) : ∃ frame ∈ frames, frame.Alike other := by
  induction alike with
  | nil => cases member
  | cons first _ ih =>
      rcases List.mem_cons.mp member with rfl | member
      · exact ⟨_, List.mem_cons_self, first⟩
      · obtain ⟨frame, frame_mem, frame_alike⟩ := ih member
        exact ⟨frame, List.mem_cons_of_mem _ frame_mem, frame_alike⟩

end Frame

namespace Subject

variable {subject : Subject} {left right : AccessPath}

theorem repeats_congr (same : left.equal right 0 = true) (call : Call) :
    subject.repeats left call = subject.repeats right call := by
  unfold repeats
  congr 1
  funext path
  rw [AccessPath.equal_comm, AccessPath.equal_congr same, AccessPath.equal_comm]

/-- From the same variable of a callee, paths to the same entities stay so. -/
theorem map_symbols_bind_reroot {left right : Option AccessPath}
    (same : left.map AccessPath.symbols = right.map AccessPath.symbols) (ident : Ident) :
    (left.bind fun path => subject.reroot path ident).map AccessPath.symbols =
      (right.bind fun path => subject.reroot path ident).map AccessPath.symbols := by
  have rerooted : ∀ path : AccessPath, (subject.reroot path ident).map AccessPath.symbols =
      (subject.tables.objectOf ident).map fun symbol => symbol :: path.symbols.tail := by
    intro path
    rw [reroot, Option.map_map]
    rfl
  cases left with
  | none =>
      cases right with
      | none => rfl
      | some path => cases same
  | some path =>
      cases right with
      | none => cases same
      | some other =>
          have symbols : path.symbols = other.symbols := Option.some.inj same
          rw [Option.bind_some, Option.bind_some, rerooted, rerooted, symbols]

theorem map_symbols_carryReceiver (same : left.symbols = right.symbols) (call : Call)
    (decl : FuncDecl) :
    (subject.carryReceiver left call decl).map AccessPath.symbols =
      (subject.carryReceiver right call decl).map AccessPath.symbols := by
  unfold carryReceiver
  cases decl.receiver.bind Receiver.name with
  | none => rfl
  | some name =>
      cases subject.path? call with
      | none => rfl
      | some callPath =>
          refine map_symbols_bind_reroot ?_ name
          rw [AccessPath.map_symbols_suffix, AccessPath.map_symbols_suffix, same]

theorem map_symbols_carryArgument (same : left.symbols = right.symbols) (call : Call)
    (decl : FuncDecl) :
    (subject.carryArgument left call decl).map AccessPath.symbols =
      (subject.carryArgument right call decl).map AccessPath.symbols := by
  unfold carryArgument
  rw [List.map_findSome?, List.map_findSome?]
  congr 1
  funext ⟨arg, param⟩
  cases param with
  | none => rfl
  | some name =>
      simp only [Function.comp_apply]
      cases AccessPath.ofExpr? subject.tables arg.stripAddress with
      | none => rfl
      | some argPath =>
          refine map_symbols_bind_reroot ?_ name
          rw [AccessPath.map_symbols_stripFront, AccessPath.map_symbols_stripFront, same]

theorem map_symbols_carryPackage (same : left.symbols = right.symbols) :
    (subject.carryPackage left).map AccessPath.symbols =
      (subject.carryPackage right).map AccessPath.symbols := by
  have root : left.root.symbol = right.root.symbol := (List.cons.inj same).1
  unfold carryPackage
  rw [root]
  split
  · exact congrArg some same
  · rfl

/-- Where the entities of a path are found in a callee depends on the entities alone. -/
theorem map_symbols_carry (same : left.symbols = right.symbols) (call : Call) (decl : FuncDecl) :
    (subject.carry left call decl).map AccessPath.symbols =
      (subject.carry right call decl).map AccessPath.symbols := by
  unfold carry
  rw [Option.map_or, Option.map_or, Option.map_or, Option.map_or,
    map_symbols_carryReceiver same]
  congr 1
  · congr 1
    split
    · exact map_symbols_carryArgument same call decl
    · rfl
  · split
    · exact map_symbols_carryPackage same
    · rfl

/-- With every spelling of a path a call enters the same callee, or none. -/
theorem enter_alike (same : left.equal right 0 = true) (call : Call) :
    Option.Rel (fun frame other => frame.Alike other ∧ frame.site = other.site)
      (subject.enter left call) (subject.enter right call) := by
  unfold enter
  cases subject.closure? call with
  | some literal => exact .some ⟨⟨rfl, same, rfl⟩, rfl⟩
  | none =>
      simp only [enterDeclaration, Option.bind_eq_bind]
      cases subject.callee? call with
      | none => exact .none
      | some callee =>
          simp only [Option.bind_some]
          cases subject.declaration? callee with
          | none => exact .none
          | some decl =>
              simp only [Option.bind_some]
              cases decl.body with
              | none => exact .none
              | some body =>
                  have symbols := @map_symbols_carry subject left right
                    (AccessPath.equal_zero_iff.mp same) call decl
                  simp only [Option.bind_some]
                  cases own : subject.carry left call decl with
                  | none =>
                      rw [own, Option.map_none, eq_comm, Option.map_eq_none_iff] at symbols
                      rw [symbols]
                      exact .none
                  | some path =>
                      rw [own, Option.map_some, eq_comm, Option.map_eq_some_iff] at symbols
                      obtain ⟨other, carried, other_symbols⟩ := symbols
                      rw [carried]
                      exact .some
                        ⟨⟨rfl, AccessPath.equal_zero_iff.mpr other_symbols.symm, rfl⟩, rfl⟩

/-- A call that is entered with one spelling of a path is entered with every other. -/
theorem enter_congr (same : left.equal right 0 = true) {call : Call} {frame : Frame}
    (entered : subject.enter left call = some frame) :
    ∃ other, subject.enter right call = some other ∧ frame.Alike other := by
  have alike := @enter_alike subject left right same call
  rw [entered] at alike
  generalize subject.enter right call = theirs at alike ⊢
  cases alike with
  | some both => exact ⟨_, rfl, both.1⟩

/-- From frames that are alike the same chains lead on. -/
theorem Chain.congr {frame other : Frame} {positions : List Nat} {frames : List Frame}
    {last : Call} (chain : subject.Chain frame positions frames last) (alike : frame.Alike other) :
    ∃ others, subject.Chain other positions others last ∧
      List.Forall₂ Frame.Alike frames others := by
  induction chain generalizing other with
  | here at_position acquires =>
      rw [alike.calls] at at_position
      rw [repeats_congr alike.path] at acquires
      exact ⟨[], .here at_position acquires, .nil⟩
  | through at_position keeps entered rest ih =>
      rw [alike.calls] at at_position
      obtain ⟨inner, other_entered, inner_alike⟩ := enter_congr alike.path entered
      obtain ⟨others, other_rest, others_alike⟩ := ih inner_alike
      exact ⟨inner :: others, .through at_position keeps other_entered other_rest,
        .cons inner_alike others_alike⟩

end Subject

/-! ## Runs -/

/-- The frames are alike, were entered from the same site, and have come to the same call. -/
structure Visit.Alike (visit other : Visit) : Prop
    extends Frame.Alike visit.toFrame other.toFrame where
  site : visit.site = other.site
  next : visit.next = other.next

/-- The searches have entered frames that are alike, and are not to enter the same callees. -/
structure Search.Alike (search other : Search) : Prop where
  stack : List.Forall₂ Visit.Alike search.stack other.stack
  history : search.history = other.history

theorem Visit.map_site_of_alike {visits others : List Visit}
    (alike : List.Forall₂ Visit.Alike visits others) :
    (visits.map fun visit => visit.site) = others.map fun visit => visit.site := by
  induction alike with
  | nil => rfl
  | cons first _ ih => rw [List.map_cons, List.map_cons, first.site, ih]

theorem Visit.isEmpty_of_alike {visits others : List Visit}
    (alike : List.Forall₂ Visit.Alike visits others) : visits.isEmpty = others.isEmpty := by
  cases alike <;> rfl

namespace Subject

variable {subject : Subject}

theorem entry?_alike {left right : AccessPath} (same : left.equal right 0 = true)
    (history : Std.TreeSet String) (call : Call) :
    Option.Rel (fun frame other => frame.Alike other ∧ frame.site = other.site)
      (subject.entry? history left call) (subject.entry? history right call) := by
  unfold entry?
  split
  · exact .none
  · have entered := @enter_alike subject left right same call
    generalize subject.enter left call = own at entered ⊢
    generalize subject.enter right call = theirs at entered ⊢
    cases entered with
    | none => exact .none
    | @some frame other both =>
        rw [Option.filter_some, Option.filter_some, both.1.key]
        split
        · exact .some both
        · exact .none

/-- Searches that are alike take the same step. -/
theorem advance_alike {search other : Search} (alike : search.Alike other) :
    Search.Step.Rel Search.Alike (subject.advance search) (subject.advance other) := by
  obtain ⟨stack, history⟩ := search
  obtain ⟨copies, others⟩ := other
  obtain ⟨visits, rfl⟩ := alike
  cases visits with
  | nil => exact .done none
  | @cons top copy below rest first lower =>
      rw [advance, advance]
      simp only [← first.calls, ← first.next]
      cases top.calls[top.next]? with
      | none =>
          rw [Visit.isEmpty_of_alike lower, first.key]
          exact .more ⟨lower, rfl⟩
      | some call =>
          have passed : Visit.Alike { top with next := top.next + 1 }
              { copy with next := top.next + 1 } := ⟨first.toAlike, first.site, rfl⟩
          simp only [repeats_congr first.path call]
          split
          · rw [Visit.map_site_of_alike (.cons passed lower)]
            exact .done _
          · have entry := @entry?_alike subject _ _ first.path history call
            generalize subject.entry? history top.path call = own at entry ⊢
            generalize subject.entry? history copy.path call = theirs at entry ⊢
            cases entry with
            | none => exact .more ⟨.cons passed lower, rfl⟩
            | some both =>
                exact .more ⟨.cons ⟨both.1, both.2, rfl⟩ (.cons passed lower),
                  congrArg history.insert both.1.key⟩

/-- A search sees the entities of a path and nothing else: paths to the same entities, whatever the
names and places of their steps, give the same stack. -/
theorem searchFrom_sees_entities (subject : Subject) (call : Call) {left right : AccessPath}
    (same : left.symbols = right.symbols) :
    subject.searchFrom left call = subject.searchFrom right call := by
  refine (searchFrom_eq_of_related (fun _ _ => advance_alike) ?_).symm
  have entered := @enter_alike subject _ _ (AccessPath.equal_zero_iff.mpr same) call
  generalize subject.enter left call = own at entered ⊢
  generalize subject.enter right call = theirs at entered ⊢
  cases entered with
  | none => exact .none
  | some both => exact .some ⟨.cons ⟨both.1, both.2, rfl⟩ .nil, rfl⟩

/-- The call `G(a)`, made while `a.mu` is held. -/
def relayCall : Call := Sample.plainCall 60 "G" ["a"]

/-- A function that holds a lock hands it to a second one, which hands it to a third one, which
acquires it. -/
def relaying : Subject :=
  .ofProgram
    (Sample.program
      [Sample.function 10 "H" ["c"] [Sample.lockCall 20 "c" "RLock"],
      Sample.function 30 "G" ["b"] [Sample.plainCall 35 "H" ["b"]],
      Sample.function 40 "F" ["a"] [Sample.lockCall 50 "a" "RLock", relayCall]]) {}

/-- The path `a.mu.RLock`. -/
def relayedLock : AccessPath := ⟨⟨"a", 73, .zero⟩, [⟨"mu", 70, .zero⟩, ⟨"RLock", 54, .zero⟩]⟩

/-- The calls from `G(a)` to the second acquisition. -/
def relayStack : List StackFrame :=
  [⟨"G", ⟨"p.go", 60, 1⟩⟩, ⟨"H", ⟨"p.go", 35, 1⟩⟩, ⟨"RWMutex.RLock", ⟨"p.go", 20, 1⟩⟩]

theorem searchFrom_relaying : relaying.searchFrom relayedLock relayCall = some relayStack :=
  @searchFrom_of_answerWithin? relaying 3 _ _ _ (by decide +kernel)

/-- Steps with other names, at other places, lead to the same stack. -/
theorem relaying_respelled :
    let respelled : AccessPath := ⟨⟨"x", 73, Sample.spanAt 1⟩,
      [⟨"y", 70, Sample.spanAt 2⟩, ⟨"z", 54, Sample.spanAt 3⟩]⟩
    relaying.path? (Sample.lockCall 50 "a" "RLock") = some relayedLock ∧
    respelled ≠ relayedLock ∧ respelled.symbols = relayedLock.symbols ∧
    relaying.searchFrom respelled relayCall = some relayStack := by
  intro respelled
  have same : respelled.symbols = relayedLock.symbols := rfl
  refine ⟨by decide +kernel, by decide, same, ?_⟩
  rw [searchFrom_sees_entities relaying relayCall same]
  exact searchFrom_relaying

end Subject

end Relock

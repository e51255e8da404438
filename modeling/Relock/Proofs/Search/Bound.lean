import Mathlib.Data.List.Dedup
import Relock.Proofs.Search.Steps

/-!
# Bounds on a search

A search ends, and at no time has it entered more frames than there are callees to enter, with one
more for the frame that it begins with: the keys of the other frames are the history, and no key is
in it twice.
-/

namespace Relock

namespace Subject

variable {subject : Subject}

/-- A consistent search has at most one frame more than there are different keys. -/
theorem Consistent.length_stack_le_dedup {nodes : List Node} {search : Search}
    (consistent : subject.Consistent nodes search) :
    search.stack.length ≤ 1 + (subject.keysAmong nodes).dedup.length := by
  have known : search.keys ⊆ (subject.keysAmong nodes).dedup :=
    fun key member => List.mem_dedup.mpr (consistent.known member)
  have keys_le := consistent.distinct.length_le_of_subset known
  have stack_le := search.length_stack_le
  omega

/-- All states of a search are consistent with closed nodes that hold the program and the parts of
the call that the search begins with. -/
theorem consistent_of_steps {nodes : List Node} (closed : Node.Closed nodes)
    (program : subject.program.nodes ⊆ nodes) {lock : AccessPath} {call : Call}
    (parts : call.parts ⊆ nodes) {root : Frame} (entered : subject.enter lock call = some root)
    {count : Nat} {search : Search} (reached : subject.steps count (.start root) = .more search) :
    subject.Consistent nodes search := by
  have initially : subject.Consistent nodes (.start root) :=
    consistent_start (mem_of_enter closed program parts entered).2
  exact invariant_of_steps (fun _ _ consistent move => consistent.move closed program move)
    initially reached

/-- A search ends with its answer. In all its states the history holds exactly the keys of the
frames above the outermost one, which are different, so there is at most one frame more than there
are different keys of declarations and closure literals, in the program and the call or, if the call
is one of the program, in the program alone. -/
theorem searchFrom_ends_within_keys (subject : Subject) (lock : AccessPath) (call : Call) :
    (subject.enter lock call = none → subject.searchFrom lock call = none) ∧
    ∀ root, subject.enter lock call = some root →
      (∃ count, subject.steps count (.start root) = .done (subject.searchFrom lock call)) ∧
      ∀ count search, subject.steps count (.start root) = .more search →
        (∀ key, key ∈ search.history ↔ key ∈ search.keys) ∧
        search.keys.Nodup ∧
        search.stack.length ≤ 1 + (subject.keysAmong (subject.sources call)).dedup.length ∧
        (.call call ∈ subject.program.nodes →
          search.stack.length ≤ 1 + subject.programKeys.dedup.length) := by
  refine ⟨searchFrom_of_enter_eq_none, ?_⟩
  intro root entered
  refine ⟨exists_steps_eq_searchFrom entered, ?_⟩
  intro count search reached
  have consistent : subject.Consistent (subject.sources call) search :=
    consistent_of_steps (subject.closed_sources call) (List.subset_append_left _ _)
      (List.subset_append_right _ _) entered reached
  refine ⟨consistent.history, consistent.distinct, consistent.length_stack_le_dedup, ?_⟩
  intro inside
  have closed := subject.program.closed_nodes
  have in_program : subject.Consistent subject.program.nodes search :=
    consistent_of_steps closed (List.Subset.refl _) (closed.call call inside) entered reached
  exact in_program.length_stack_le_dedup

/-- The call of a function in its own body. -/
def selfCall : Call := ⟨⟨0, 2⟩, .ident ⟨⟨0, 3⟩, "F", .zero⟩, [], .zero⟩

/-- A program whose only function calls itself. -/
def selfCalling : Subject :=
  .ofTables
    ⟨[⟨0, "f.go", "main", ".", [],
      [.func ⟨⟨0, 0⟩, ⟨⟨0, 1⟩, "F", .zero⟩, none, [], none,
        some ⟨[.expr (.call ⟨0, 2⟩ (.ident ⟨⟨0, 3⟩, "F", .zero⟩) [] .zero)], .zero⟩, .zero⟩]⟩]⟩
    ((Tables.mk #[]
      #[⟨"F", .func, 0, .func, none⟩, ⟨"mu", .var .package, 0, .unknown, none⟩] ∅ ∅ ∅ ∅
      |>.recordUse ⟨0, 1⟩ 0).recordUse ⟨0, 3⟩ 0)
    {}

/-- The frame in which the function has been called by itself. -/
def selfFrame : Frame :=
  ⟨"0::F", ⟨⟨"mu", 1, .zero⟩, [⟨"RLock", 2, .zero⟩]⟩, [selfCall], ⟨"F", ⟨"f.go", 0, 1⟩⟩⟩

/-- The function that calls itself is entered once more from within itself, and not again: this
search has two frames, one more than there are keys. -/
theorem selfCalling_two_frames :
    selfCalling.enter selfFrame.path selfCall = some selfFrame ∧
    .call selfCall ∈ selfCalling.program.nodes ∧
    selfCalling.steps 1 (.start selfFrame) =
      .more ⟨[{ toFrame := selfFrame }, { toFrame := selfFrame, next := 1 }],
        (∅ : Std.TreeSet String).insert "0::F"⟩ ∧
    ∀ count search, selfCalling.steps count (.start selfFrame) = .more search →
      search.stack.length ≤ 2 := by
  have entered : selfCalling.enter selfFrame.path selfCall = some selfFrame := rfl
  have inside : .call selfCall ∈ selfCalling.program.nodes := .tail _ (.head _)
  have keys : selfCalling.programKeys.dedup.length = 1 := by decide +kernel
  refine ⟨entered, inside, rfl, ?_⟩
  intro count search reached
  have bounds := ((searchFrom_ends_within_keys selfCalling selfFrame.path selfCall).2 selfFrame
    entered).2 count search reached
  have bound := bounds.2.2.2 inside
  rwa [keys] at bound

end Subject

end Relock

import Relock.Proofs.Callee.Key
import Relock.Proofs.Program.Stream
import Relock.Proofs.Sample
import Relock.Proofs.Search.Spelling

/-!
# Recursion

A search does not enter a callee from within itself. Where a chain comes back to a callee with the
same path to the lock, it runs through a loop that can be left out: what leads on from the second
entry leads on from the first as well. So nothing is missed by not entering a callee twice, unless
the second entry has another path to the lock.
-/

namespace Relock

/-- Whenever frames are of one callee, they reach the lock by the same path and make the same
calls. -/
def Frame.Steady (frames : List Frame) : Prop :=
  ∀ left ∈ frames, ∀ right ∈ frames, left.key = right.key →
    left.path.equal right.path 0 = true ∧ left.calls = right.calls

theorem Frame.steady_of_nodup {frames : List Frame} (distinct : (frames.map Frame.key).Nodup) :
    Frame.Steady frames := by
  intro left left_mem right right_mem key_eq
  have same : left = right := List.inj_on_of_nodup_map distinct left_mem right_mem key_eq
  rw [same]
  exact ⟨AccessPath.equal_zero_iff.mpr rfl, rfl⟩

theorem Frame.Steady.mono {frames more : List Frame} (steady : Frame.Steady more)
    (subset : frames ⊆ more) : Frame.Steady frames :=
  fun left left_mem right right_mem => steady left (subset left_mem) right (subset right_mem)

namespace Subject

variable {subject : Subject} {frame : Frame} {positions : List Nat} {frames : List Frame}
  {last : Call}

/-- The frames of the chain with the given positions, and the call it ends with. -/
def follow (subject : Subject) : Frame → List Nat → Option (List Frame × Call)
  | _, [] => none
  | frame, [position] =>
      (frame.calls[position]?.filter (subject.repeats frame.path)).map fun last => ([], last)
  | frame, position :: second :: positions =>
      (frame.calls[position]?.filter fun call => !subject.releases call).bind fun call =>
        (subject.enter frame.path call).bind fun inner =>
          (follow subject inner (second :: positions)).map fun (frames, last) =>
            (inner :: frames, last)

theorem chain_of_follow (followed : subject.follow frame positions = some (frames, last)) :
    subject.Chain frame positions frames last := by
  fun_induction follow subject frame positions generalizing frames last with
  | case1 => cases followed
  | case2 frame position =>
      obtain ⟨call, call_eq, same⟩ := Option.map_eq_some_iff.mp followed
      cases same
      obtain ⟨at_position, acquires⟩ := Option.filter_eq_some_iff.mp call_eq
      exact .here at_position acquires
  | case3 frame position second positions ih =>
      obtain ⟨call, call_eq, followed⟩ := Option.bind_eq_some_iff.mp followed
      obtain ⟨inner, entered, followed⟩ := Option.bind_eq_some_iff.mp followed
      obtain ⟨⟨rest, final⟩, followed, same⟩ := Option.map_eq_some_iff.mp followed
      cases same
      obtain ⟨at_position, keeps⟩ := Option.filter_eq_some_iff.mp call_eq
      exact .through at_position (by simpa using keeps) entered (ih inner followed)

/-! ## Loops -/

/-- A chain goes on from each of its frames. -/
theorem Chain.exists_from {inner : Frame} {front later : List Frame}
    (chain : subject.Chain frame positions (front ++ inner :: later) last) :
    ∃ rest, subject.Chain inner rest later last := by
  induction front generalizing frame positions with
  | nil =>
      cases chain with
      | through _ _ _ rest => exact ⟨_, rest⟩
  | cons first front ih =>
      cases chain with
      | through _ _ _ rest => exact ih rest

/-- Without its loops a steady chain is one that a search can find. -/
theorem Chain.exists_findable (chain : subject.Chain frame positions frames last)
    (steady : Frame.Steady frames) :
    ∃ others rest, subject.Findable frame rest others last ∧
      ∀ other ∈ others, ∃ original ∈ frames, original.Alike other := by
  induction chain with
  | here at_position acquires =>
      exact ⟨[], _, ⟨.here at_position acquires, List.nodup_nil⟩, by simp⟩
  | @through frame inner position call last positions frames at_position keeps entered _ ih =>
      obtain ⟨others, rest, ⟨chain, distinct⟩, originals⟩ :=
        ih (steady.mono (List.subset_cons_self inner frames))
      by_cases back : inner.key ∈ others.map Frame.key
      · -- The chain comes back to the callee, and what follows then can follow at once.
        obtain ⟨again, again_mem, again_key⟩ := List.mem_map.mp back
        obtain ⟨front, later, rfl⟩ := List.append_of_mem again_mem
        obtain ⟨original, original_mem, original_alike⟩ := originals again again_mem
        have entered_alike : original.Alike inner := by
          have key_eq : original.key = inner.key := original_alike.key.trans again_key
          obtain ⟨path, calls⟩ := steady original (List.mem_cons_of_mem inner original_mem) inner
            List.mem_cons_self key_eq
          exact ⟨key_eq, path, calls⟩
        obtain ⟨rest, continued⟩ := chain.exists_from
        obtain ⟨laters, onward, laters_alike⟩ :=
          continued.congr (original_alike.symm.trans entered_alike)
        refine ⟨inner :: laters, position :: rest,
          ⟨.through at_position keeps entered onward, ?_⟩, ?_⟩
        · have keys_eq : (inner :: laters).map Frame.key = (again :: later).map Frame.key := by
            rw [List.map_cons, List.map_cons, again_key, Frame.map_key_of_alike laters_alike]
          rw [keys_eq]
          rw [List.map_append] at distinct
          exact (List.nodup_append.mp distinct).2.1
        · intro other member
          rcases List.mem_cons.mp member with rfl | member
          · exact ⟨other, List.mem_cons_self, .refl other⟩
          · obtain ⟨middle, middle_mem, middle_alike⟩ :=
              Frame.exists_alike_of_mem laters_alike member
            obtain ⟨original, original_mem, alike⟩ :=
              originals middle (List.mem_append_right _ (List.mem_cons_of_mem _ middle_mem))
            exact ⟨original, List.mem_cons_of_mem _ original_mem, alike.trans middle_alike⟩
      · refine ⟨inner :: others, position :: rest,
          ⟨.through at_position keeps entered chain, List.nodup_cons.mpr ⟨back, distinct⟩⟩, ?_⟩
        intro other member
        rcases List.mem_cons.mp member with rfl | member
        · exact ⟨other, List.mem_cons_self, .refl other⟩
        · obtain ⟨original, original_mem, alike⟩ := originals other member
          exact ⟨original, List.mem_cons_of_mem _ original_mem, alike⟩

end Subject

/-! ## What a key stands for -/

namespace Subject

/-- A frame is entered by a call among the nodes. -/
def Entered (subject : Subject) (nodes : List Node) (frame : Frame) : Prop :=
  ∃ path call, .call call ∈ nodes ∧ subject.enter path call = some frame

variable {subject : Subject} {nodes : List Node} {frame : Frame} {positions : List Nat}
  {frames : List Frame}

/-- What is entered is a literal among the nodes, or the body of the declaration that has the
key. -/
theorem Entered.cases (closed : Node.Closed nodes) (program : subject.program.nodes ⊆ nodes)
    (entered : subject.Entered nodes frame) :
    (∃ literal, .closure literal ∈ nodes ∧ frame.key = (Callee.ofClosure literal).key ∧
      frame.calls = literal.body.calls) ∨
    ∃ (callee : Callee) (decl : FuncDecl) (body : Block), callee.isDeclared = true ∧
      frame.key = callee.key ∧ subject.index.declarations[callee.key]? = some decl ∧
      decl.body = some body ∧ frame.calls = body.calls := by
  obtain ⟨path, call, call_mem, entered⟩ := entered
  unfold enter at entered
  split at entered
  · rename_i literal closure
    cases entered
    refine .inl ⟨literal, ?_, rfl, rfl⟩
    rcases List.mem_append.mp (closure_mem_of_closureOf? closure) with member | member
    · exact program member
    · exact closed.call call call_mem (List.mem_append_left _ member)
  · simp only [enterDeclaration, Option.bind_eq_bind, Option.bind_eq_some_iff] at entered
    obtain ⟨callee, -, decl, found, body, body_eq, path, -, frame_eq⟩ := entered
    cases frame_eq
    unfold declaration? at found
    split at found
    · rename_i declared
      exact .inr ⟨callee, decl, body, declared, rfl, found, body_eq, rfl⟩
    · cases found

/-- What is entered under one key makes the same calls every time, if the literals among the nodes
can be told apart. -/
theorem Entered.calls_eq (closed : Node.Closed nodes) (program : subject.program.nodes ⊆ nodes)
    (apart : Node.LiteralsApart nodes) {left right : Frame}
    (left_entered : subject.Entered nodes left) (right_entered : subject.Entered nodes right)
    (same : left.key = right.key) : left.calls = right.calls := by
  rcases left_entered.cases closed program with
    ⟨literal, member, key, calls⟩ | ⟨callee, decl, body, declared, key, found, body_eq, calls⟩
  · rcases right_entered.cases closed program with
      ⟨other, other_mem, other_key, other_calls⟩ | ⟨callee, _, _, declared, other_key, _, _, _⟩
    · have keys : (Callee.ofClosure literal).key = (Callee.ofClosure other).key := by
        rw [← key, ← other_key, same]
      obtain ⟨file, offset⟩ := Callee.key_literal_inj keys
      rw [calls, other_calls, apart literal other member other_mem file offset]
    · exact absurd (other_key.symm.trans (same.symm.trans key))
        (Callee.key_ne_literal declared _ _ _)
  · rcases right_entered.cases closed program with
      ⟨other, _, other_key, _⟩ | ⟨other, other_decl, other_body, _, other_key, other_found,
        other_body_eq, other_calls⟩
    · exact absurd (key.symm.trans (same.trans other_key))
        (Callee.key_ne_literal declared _ _ _)
    · have keys : callee.key = other.key := by rw [← key, ← other_key, same]
      rw [keys, other_found] at found
      cases found
      rw [body_eq] at other_body_eq
      cases other_body_eq
      rw [calls, other_calls]

/-- All frames of a chain are entered by calls among the nodes, if its first frame makes such
calls. -/
theorem Chain.entered (closed : Node.Closed nodes) (program : subject.program.nodes ⊆ nodes)
    {last : Call} (chain : subject.Chain frame positions frames last)
    (calls : ∀ call ∈ frame.calls, .call call ∈ nodes) :
    ∀ inner ∈ frames, subject.Entered nodes inner := by
  induction chain with
  | here => simp
  | @through frame inner position call last positions frames at_position _ entered _ ih =>
      have call_mem := calls call (List.mem_of_getElem? at_position)
      have inner_calls := (mem_of_enter closed program (closed.call call call_mem) entered).2
      intro other member
      rcases List.mem_cons.mp member with rfl | member
      · exact ⟨_, call, call_mem, entered⟩
      · exact ih inner_calls other member

/-- A chain is steady if it comes back to a callee only with the same path to the lock. -/
theorem Chain.steady_iff {lock : AccessPath} {call last : Call} {root : Frame}
    (apart : Node.LiteralsApart (subject.sources call))
    (entered : subject.enter lock call = some root)
    (chain : subject.Chain root positions frames last) :
    Frame.Steady frames ↔ ∀ left ∈ frames, ∀ right ∈ frames, left.key = right.key →
      left.path.equal right.path 0 = true := by
  have closed := subject.closed_sources call
  have program : subject.program.nodes ⊆ subject.sources call := List.subset_append_left _ _
  have calls := (mem_of_enter closed program (List.subset_append_right _ _) entered).2
  have all_entered := chain.entered closed program calls
  constructor
  · intro steady left left_mem right right_mem same
    exact (steady left left_mem right right_mem same).1
  · intro paths left left_mem right right_mem same
    exact ⟨paths left left_mem right right_mem same,
      (all_entered left left_mem).calls_eq closed program apart (all_entered right right_mem) same⟩

/-- A search finds a stack exactly when there is a chain, with loops or without, that comes back to
a callee only with the same path to the lock and the same calls to be made. The calls are the same
for every callee with a declaration, and for the others if no two literals begin at the same
place. -/
theorem searchFrom_isSome_iff_steady_chain (subject : Subject) (lock : AccessPath) (call : Call) :
    ((subject.searchFrom lock call).isSome = true ↔
      ∃ root positions frames last, subject.enter lock call = some root ∧
        subject.Chain root positions frames last ∧ Frame.Steady frames) ∧
    (Node.LiteralsApart (subject.sources call) →
      ((subject.searchFrom lock call).isSome = true ↔
        ∃ root positions frames last, subject.enter lock call = some root ∧
          subject.Chain root positions frames last ∧
          ∀ left ∈ frames, ∀ right ∈ frames, left.key = right.key →
            left.path.equal right.path 0 = true)) := by
  have found_iff : (subject.searchFrom lock call).isSome = true ↔
      ∃ root positions frames last, subject.enter lock call = some root ∧
        subject.Chain root positions frames last ∧ Frame.Steady frames := by
    constructor
    · intro found
      cases entered : subject.enter lock call with
      | none => simp [searchFrom_of_enter_eq_none entered] at found
      | some root =>
          rcases searchFrom_of_enter entered with
            ⟨nothing, -⟩ | ⟨positions, frames, last, ⟨chain, distinct⟩, -, -⟩
          · simp [nothing] at found
          · exact ⟨root, positions, frames, last, rfl, chain, Frame.steady_of_nodup distinct⟩
    · rintro ⟨root, positions, frames, last, entered, chain, steady⟩
      obtain ⟨others, rest, findable, -⟩ := chain.exists_findable steady
      rcases searchFrom_of_enter entered with ⟨-, none_left⟩ | ⟨_, _, _, -, -, found⟩
      · exact absurd findable (none_left rest others last)
      · rw [found]
        rfl
  refine ⟨found_iff, fun apart => ?_⟩
  rw [found_iff]
  constructor
  · rintro ⟨root, positions, frames, last, entered, chain, steady⟩
    exact ⟨root, positions, frames, last, entered, chain,
      (chain.steady_iff apart entered).mp steady⟩
  · rintro ⟨root, positions, frames, last, entered, chain, paths⟩
    exact ⟨root, positions, frames, last, entered, chain,
      (chain.steady_iff apart entered).mpr paths⟩

section Turning

/-- The call `turn(x, y, z)`. -/
def turnCall : Call := Sample.plainCall 60 "turn" ["x", "y", "z"]

/-- A function `turn` of `a`, `b` and `c` acquires `a.mu` and calls itself with `b`, `c` and `a`. It
is called with `x`, `y` and `z`, while `z.mu` is held. -/
def turning : Subject :=
  .ofProgram
    (Sample.program
      [Sample.function 10 "turn" ["a", "b", "c"]
        [Sample.lockCall 20 "a" "RLock", Sample.plainCall 30 "turn" ["b", "c", "a"]],
      Sample.function 40 "F" ["x", "y", "z"] [Sample.lockCall 50 "z" "RLock", turnCall]]) {}

/-- The path `z.mu.RLock`. -/
def turnedLock : AccessPath := ⟨⟨"z", 75, .zero⟩, [⟨"mu", 69, .zero⟩, ⟨"RLock", 54, .zero⟩]⟩

/-- The lock comes to be `a.mu` when `turn` is entered for the third time. A search does not enter
it that often, and misses the acquisition. -/
theorem turning_chain_missed :
    turning.path? (Sample.lockCall 50 "z" "RLock") = some turnedLock ∧
    (∃ root frames last, turning.enter turnedLock turnCall = some root ∧
      turning.Chain root [1, 1, 0] frames last) ∧
    turning.searchFrom turnedLock turnCall = none := by
  have followed : ((turning.enter turnedLock turnCall).bind fun root =>
      turning.follow root [1, 1, 0]).isSome = true := by decide +kernel
  obtain ⟨⟨frames, last⟩, followed⟩ := Option.isSome_iff_exists.mp followed
  obtain ⟨root, entered, followed⟩ := Option.bind_eq_some_iff.mp followed
  have answered : turning.answerWithin? 20 turnedLock turnCall = some none := by decide +kernel
  exact ⟨by decide +kernel, ⟨root, frames, last, entered, chain_of_follow followed⟩,
    searchFrom_of_answerWithin? answered⟩

end Turning

section Walking

/-- The call `walk(x, y)`. -/
def walkCall : Call := Sample.plainCall 80 "walk" ["x", "y"]

/-- A function `walk` of `a` and `b` runs a literal that calls `step` with `b` and `a`, which calls
`walk` with `a` and `b` again. Then it acquires `a.mu`. -/
def walking : Subject :=
  .ofProgram
    (Sample.program
      [Sample.function 10 "walk" ["a", "b"]
        [⟨⟨0, 20⟩,
          .literal ⟨0, 21⟩ [] none [Sample.statement (Sample.plainCall 24 "step" ["b", "a"])]
            (Sample.spanAt 23) (Sample.spanAt 21), [], .zero⟩,
        Sample.lockCall 40 "a" "RLock"],
      Sample.function 50 "step" ["a", "b"] [Sample.plainCall 55 "walk" ["b", "a"]],
      Sample.function 60 "F" ["x", "y"] [Sample.lockCall 70 "x" "RLock", walkCall]]) {}

/-- The path `x.mu.RLock`. -/
def walkedLock : AccessPath := ⟨⟨"x", 75, .zero⟩, [⟨"mu", 70, .zero⟩, ⟨"RLock", 54, .zero⟩]⟩

/-- A chain that goes around twice comes back to each callee with the same path, so a search finds
the acquisition. It does so without going around. -/
theorem walking_chain_found :
    Node.LiteralsApart (walking.sources walkCall) ∧
    (∃ root frames last, walking.enter walkedLock walkCall = some root ∧
      walking.Chain root [0, 0, 0, 0, 0, 0, 1] frames last ∧
      frames.map Frame.key =
        ["literal#0:21", "2::step", "2::walk", "literal#0:21", "2::step", "2::walk"]) ∧
    (walking.searchFrom walkedLock walkCall).isSome = true := by
  have apart : Node.LiteralsApart (walking.sources walkCall) :=
    Node.literalsApart_of_nodup (by decide +kernel)
  have followed : ((walking.enter walkedLock walkCall).bind fun root =>
      walking.follow root [0, 0, 0, 0, 0, 0, 1]).any (fun found =>
        decide (found.1.map Frame.key =
          ["literal#0:21", "2::step", "2::walk", "literal#0:21", "2::step", "2::walk"]) &&
        found.1.all fun left => found.1.all fun right =>
          left.key != right.key || left.path.equal right.path 0) = true := by decide +kernel
  obtain ⟨⟨frames, last⟩, followed, checked⟩ := (Option.any_eq_true _ _).mp followed
  obtain ⟨root, entered, followed⟩ := Option.bind_eq_some_iff.mp followed
  obtain ⟨keys, checked⟩ := Bool.and_eq_true_iff.mp checked
  have chain := chain_of_follow followed
  have paths : ∀ left ∈ frames, ∀ right ∈ frames, left.key = right.key →
      left.path.equal right.path 0 = true := by
    intro left left_mem right right_mem same
    have both := List.all_eq_true.mp (List.all_eq_true.mp checked left left_mem) right right_mem
    simpa [same] using both
  have found := ((searchFrom_isSome_iff_steady_chain walking walkedLock walkCall).2 apart).mpr
    ⟨root, _, frames, last, entered, chain, paths⟩
  exact ⟨apart, ⟨root, frames, last, entered, chain, of_decide_eq_true keys⟩, found⟩

end Walking

end Subject

end Relock

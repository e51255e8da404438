import Relock.Proofs.Search.Identity
import Relock.Proofs.Search.Spelling

/-!
# The operation at the end of a path

A path ends in the operation on the lock. Entering a callee takes away first steps and replaces the
root, but there is always a step left after the root, so the operation stays the same step through
all frames of a chain. The call that acquires the lock again has the path of the innermost frame.
-/

namespace Relock

namespace AccessPath

theorem last_of_rest_ne_nil {path : AccessPath} (more : path.rest ≠ []) :
    path.rest.getLast? = some path.last := by
  rw [last, List.getLastD_eq_getLast?]
  cases ended : path.rest.getLast? with
  | none => exact absurd (List.getLast?_eq_none_iff.mp ended) more
  | some node => rfl

/-- When first steps are taken away and the rest is spelled from another root, the operation is still
there. -/
theorem last_withRoot_of_stripFront {path rest : AccessPath} {front : List PathNode}
    (stripped : path.stripFront front = some rest) (root : PathNode) :
    (rest.withRoot root).last = path.last := by
  obtain ⟨-, shorter, -, rest_eq⟩ := stripFront_eq_some stripped
  have stays : path.nodes.drop front.length ≠ [] := by
    rw [ne_eq, List.drop_eq_nil_iff]
    omega
  have kept : (rest.withRoot root).rest = path.nodes.drop front.length := rest_eq
  have own := last_of_rest_ne_nil (kept ▸ stays)
  have all : path.nodes.getLast? = some path.last := by
    rw [nodes, List.getLast?_cons, last, List.getLastD_eq_getLast?]
  rw [kept, List.getLast?_drop, if_neg (by omega), all] at own
  exact (Option.some.inj own).symm

end AccessPath

namespace Subject

variable {subject : Subject} {lock : AccessPath} {call : Call} {frame root : Frame}
  {positions : List Nat} {frames : List Frame} {last : Call}

/-- A callee is entered with the operation unchanged. -/
theorem last_of_enter (entered : subject.enter lock call = some frame) :
    frame.path.last = lock.last := by
  have spelled := subject.map_path_passage? lock call
  rw [entered, Option.map_some, Option.map_eq_some_iff] at spelled
  obtain ⟨passage, passes, path_eq⟩ := spelled
  have fits := fits_of_passage? passes
  rw [← path_eq]
  cases passage with
  | closure => rfl
  | rerooted front rest root => exact AccessPath.last_withRoot_of_stripFront fits root
  | package => rfl

theorem location_of_enter (entered : subject.enter lock call = some frame) :
    frame.site.location = subject.location call := by
  unfold enter at entered
  split at entered
  · cases entered
    rfl
  · simp only [enterDeclaration, Option.bind_eq_bind, Option.bind_eq_some_iff] at entered
    obtain ⟨_, _, _, _, _, _, _, _, frame_eq⟩ := entered
    cases frame_eq
    rfl

/-- The operation is the same in all frames of a chain, however long. -/
theorem Chain.last_eq (chain : subject.Chain root positions frames last) :
    ∀ frame ∈ root :: frames, frame.path.last = root.path.last := by
  induction chain with
  | here => simp
  | @through frame inner _ _ _ _ frames _ _ entered _ ih =>
      intro other member
      rcases List.mem_cons.mp member with rfl | member
      · rfl
      · exact (ih other member).trans (last_of_enter entered)

/-- The last call of a chain is one of the innermost frame, and has its path. -/
theorem Chain.innermost (chain : subject.Chain root positions frames last) :
    ∃ outer inner, root :: frames = outer ++ [inner] ∧ last ∈ inner.calls ∧
      subject.repeats inner.path last = true := by
  induction chain with
  | @here frame _ _ at_position acquires =>
      exact ⟨[], frame, rfl, List.mem_of_getElem? at_position, acquires⟩
  | @through frame _ _ _ _ _ _ _ _ _ _ ih =>
      obtain ⟨outer, inner, split, rest⟩ := ih
      exact ⟨frame :: outer, inner, by rw [split, List.cons_append], rest⟩

/-- A stack that a search finds has at least two frames. The first is where the search began, and the
last is where a call of the innermost frame acquires the lock: its path is as long as the one with
which that frame was entered, and ends in the operation of the lock. The operation is the same step
in all frames on the way. -/
theorem searchFrom_keeps_operation (subject : Subject) (lock : AccessPath) (call : Call)
    (stack : List StackFrame) (found : subject.searchFrom lock call = some stack) :
    2 ≤ stack.length ∧
    stack.head?.map StackFrame.location = some (subject.location call) ∧
    ∃ root positions frames last outer inner path,
      subject.enter lock call = some root ∧ subject.Chain root positions frames last ∧
      stack = (root :: frames).map Frame.site ++ [subject.acquisitionFrame last] ∧
      root :: frames = outer ++ [inner] ∧ last ∈ inner.calls ∧
      stack.getLast?.map StackFrame.location = some (subject.location last) ∧
      subject.path? last = some path ∧ path.length = inner.path.length ∧
      path.last.symbol = lock.last.symbol ∧
      ∀ frame ∈ root :: frames, frame.path.last = lock.last := by
  cases entered : subject.enter lock call with
  | none =>
      rw [searchFrom_of_enter_eq_none entered] at found
      cases found
  | some root =>
      rcases searchFrom_of_enter entered with
        ⟨nothing, -⟩ | ⟨positions, frames, last, findable, -, answered⟩
      · rw [nothing] at found
        cases found
      · cases answered.symm.trans found
        obtain ⟨outer, inner, split, last_mem, acquires⟩ := findable.chain.innermost
        obtain ⟨path, path_eq, same⟩ := (Option.any_eq_true _ _).mp acquires
        have operation : ∀ frame ∈ root :: frames, frame.path.last = lock.last :=
          fun frame member =>
            (findable.chain.last_eq frame member).trans (last_of_enter entered)
        refine ⟨by simp, by simp [location_of_enter entered], root, positions, frames, last, outer,
          inner, path, rfl, findable.chain, rfl, split, last_mem, ?_, path_eq,
          (AccessPath.equal_iff.mp same).1, ?_, operation⟩
        · rw [List.getLast?_concat]
          rfl
        · rw [AccessPath.last_symbol_of_equal same, operation inner (by simp [split])]

/-- The search through three functions ends at the acquisition of the lock that it was begun
with. -/
theorem relaying_keeps_operation :
    relaying.searchFrom relayedLock relayCall = some relayStack ∧
    2 ≤ relayStack.length ∧
    ∃ last path, relayStack.getLast?.map StackFrame.location = some (relaying.location last) ∧
      relaying.path? last = some path ∧ path.last.symbol = relayedLock.last.symbol := by
  obtain ⟨long, -, _, _, _, last, _, _, path, -, -, -, -, -, located, path_eq, -, operation, -⟩ :=
    searchFrom_keeps_operation relaying relayedLock relayCall relayStack searchFrom_relaying
  exact ⟨searchFrom_relaying, long, last, path, located, path_eq, operation⟩

end Subject

end Relock

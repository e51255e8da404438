import Relock.Lock.Search.Reach

/-!
# Runs of a search

A search runs step by step until it has an answer. It always gets there: the frames above the
outermost one have different keys, of which there are finitely many, so it cannot go deeper and
deeper, and within a frame it looks at one call after the other.
-/

namespace Relock

namespace Search

theorem keys_cons (top : Visit) (below : List Visit) (history : Std.TreeSet String) :
    (Search.mk (top :: below) history).keys =
      if below.isEmpty then [] else top.key :: (Search.mk below history).keys := by
  cases below <;> rfl

theorem keys_cons_cons (top second : Visit) (below : List Visit) (history : Std.TreeSet String) :
    (Search.mk (top :: second :: below) history).keys =
      top.key :: (Search.mk (second :: below) history).keys := rfl

theorem length_stack_le (search : Search) : search.stack.length ≤ search.keys.length + 1 := by
  simp only [keys, List.length_map, List.length_dropLast]
  omega

end Search

namespace Subject

/-- How a search goes on from one state to the next. -/
inductive Move (subject : Subject) : Search → Search → Prop
  /-- All calls of the innermost frame have been looked at. -/
  | leave {top : Visit} {below : List Visit} {history : Std.TreeSet String}
      (exhausted : top.calls[top.next]? = none) :
      Move subject ⟨top :: below, history⟩
        ⟨below, if below.isEmpty then history else history.erase top.key⟩
  /-- The call leads nowhere. -/
  | pass {top : Visit} {below : List Visit} {history : Std.TreeSet String} {call : Call}
      (next : top.calls[top.next]? = some call) (other : subject.repeats top.path call = false)
      (blocked : subject.entry? history top.path call = none) :
      Move subject ⟨top :: below, history⟩
        ⟨{ top with next := top.next + 1 } :: below, history⟩
  /-- The callee of the call is entered. -/
  | descend {top : Visit} {below : List Visit} {history : Std.TreeSet String} {call : Call}
      {frame : Frame} (next : top.calls[top.next]? = some call)
      (other : subject.repeats top.path call = false)
      (entry : subject.entry? history top.path call = some frame) :
      Move subject ⟨top :: below, history⟩
        ⟨{ toFrame := frame } :: { top with next := top.next + 1 } :: below,
          history.insert frame.key⟩

variable {subject : Subject} {history : Std.TreeSet String} {call : Call} {search next : Search}
  {nodes : List Node} {root : Frame} {lock : AccessPath}

theorem entry?_eq_some_iff {path : AccessPath} {frame : Frame} :
    subject.entry? history path call = some frame ↔
      subject.releases call = false ∧ subject.enter path call = some frame ∧
        frame.key ∉ history := by
  unfold entry?
  rw [← Std.TreeSet.contains_iff_mem]
  cases subject.releases call <;> simp [Option.filter_eq_some_iff, -Std.TreeSet.contains_iff_mem]

theorem move_of_advance (step : subject.advance search = .more next) :
    subject.Move search next := by
  obtain ⟨stack, history⟩ := search
  unfold advance at step
  split at step
  · cases step
  · rename_i top below stack_eq
    cases stack_eq
    split at step
    · rename_i exhausted
      cases step
      exact .leave exhausted
    · rename_i call call_eq
      simp only at step
      split at step
      · cases step
      · rename_i different
        have other : subject.repeats top.path call = false := by simpa using different
        split at step
        · rename_i blocked
          cases step
          exact .pass call_eq other blocked
        · rename_i frame entry
          cases step
          exact .descend call_eq other entry

/-- What holds of the state of a search all the time: the history is what it should be, the frames
above the outermost one have different keys, and everything stems from the given nodes. -/
structure Consistent (subject : Subject) (nodes : List Node) (search : Search) : Prop where
  history : ∀ key, key ∈ search.history ↔ key ∈ search.keys
  distinct : search.keys.Nodup
  known : search.keys ⊆ subject.keysAmong nodes
  calls : ∀ visit ∈ search.stack, ∀ call ∈ visit.calls, .call call ∈ nodes

theorem Consistent.length_stack_le (consistent : subject.Consistent nodes search) :
    search.stack.length ≤ (subject.keysAmong nodes).length + 1 := by
  have bound := consistent.distinct.length_le_of_subset consistent.known
  have stack_bound := search.length_stack_le
  omega

theorem consistent_start (calls : ∀ call ∈ root.calls, .call call ∈ nodes) :
    subject.Consistent nodes (.start root) where
  history key := by simp [Search.start, Search.keys]
  distinct := by simp [Search.start, Search.keys]
  known := by simp [Search.start, Search.keys]
  calls := by simpa [Search.start] using calls

theorem Consistent.move (closed : Node.Closed nodes) (program : subject.program.nodes ⊆ nodes)
    (consistent : subject.Consistent nodes search) (move : subject.Move search next) :
    subject.Consistent nodes next := by
  obtain ⟨history, distinct, known, calls⟩ := consistent
  cases move with
  | @leave top below old exhausted =>
      have calls_below : ∀ visit ∈ below, ∀ call ∈ visit.calls, .call call ∈ nodes :=
        fun visit member => calls visit (List.mem_cons_of_mem top member)
      cases below with
      | nil =>
          -- The outermost frame has no key in the history, and none is erased for it.
          exact ⟨history, distinct, known, calls_below⟩
      | cons second rest =>
          rw [Search.keys_cons_cons] at history distinct known
          obtain ⟨fresh, distinct⟩ := List.nodup_cons.mp distinct
          refine ⟨?_, distinct, List.subset_of_cons_subset known, calls_below⟩
          intro key
          have history_key : key ∈ old ↔ key = top.key ∨ key ∈ (Search.mk (second :: rest) old).keys :=
            (history key).trans List.mem_cons
          change key ∈ old.erase top.key ↔ key ∈ (Search.mk (second :: rest) old).keys
          rw [Std.TreeSet.mem_erase, Std.compare_ne_eq_iff_ne, history_key]
          constructor
          · rintro ⟨different, same | member⟩
            · exact absurd same.symm different
            · exact member
          · intro member
            exact ⟨fun same => fresh (same ▸ member), .inr member⟩
  | @pass top below old call call_eq other blocked =>
      have keys_eq : (Search.mk ({ top with next := top.next + 1 } :: below) old).keys =
          (Search.mk (top :: below) old).keys := by
        rw [Search.keys_cons, Search.keys_cons]
      rw [← keys_eq] at distinct known
      refine ⟨fun key => keys_eq ▸ history key, distinct, known, ?_⟩
      intro visit member
      rcases List.mem_cons.mp member with rfl | member
      · exact calls top List.mem_cons_self
      · exact calls visit (List.mem_cons_of_mem top member)
  | @descend top below old call frame call_eq other entry =>
      obtain ⟨-, entered, fresh⟩ := entry?_eq_some_iff.mp entry
      have call_mem : .call call ∈ nodes :=
        calls top List.mem_cons_self call (List.mem_of_getElem? call_eq)
      obtain ⟨key_known, frame_calls⟩ :=
        mem_of_enter closed program (closed.call call call_mem) entered
      have keys_eq : (Search.mk ({ toFrame := frame } :: { top with next := top.next + 1 } :: below)
          (old.insert frame.key)).keys = frame.key :: (Search.mk (top :: below) old).keys := by
        rw [Search.keys_cons_cons, Search.keys_cons, Search.keys_cons]
        rfl
      refine ⟨?_, ?_, ?_, ?_⟩
      · intro key
        rw [keys_eq, Std.TreeSet.mem_insert, Std.compare_eq_iff_eq, List.mem_cons, ← history key,
          eq_comm]
      · rw [keys_eq]
        exact List.nodup_cons.mpr ⟨fun member => fresh ((history _).mpr member), distinct⟩
      · rw [keys_eq]
        exact List.cons_subset.mpr ⟨key_known, known⟩
      · intro visit member
        rcases List.mem_cons.mp member with rfl | member
        · exact frame_calls
        · rcases List.mem_cons.mp member with rfl | member
          · exact calls top List.mem_cons_self
          · exact calls visit (List.mem_cons_of_mem top member)

/-- The next state follows the given one. -/
def Follows (subject : Subject) (next search : Search) : Prop := subject.advance search = .more next

section Halting

variable {nodes : List Node} (closed : Node.Closed nodes) (program : subject.program.nodes ⊆ nodes)
  {below : List Visit}
  (halts_below : ∀ history, subject.Consistent nodes ⟨below, history⟩ →
    Acc subject.Follows ⟨below, history⟩)
  {top : Visit} {history : Std.TreeSet String}

include closed program halts_below

/-- A search comes to the end of its innermost frame, provided it comes to the end of the frames
that it enters from there. The induction is on the number of calls that are left. -/
theorem acc_of_deeper
    (deeper : ∀ inner top history, subject.Consistent nodes ⟨inner :: top :: below, history⟩ →
      (∀ history, subject.Consistent nodes ⟨top :: below, history⟩ →
        Acc subject.Follows ⟨top :: below, history⟩) →
      Acc subject.Follows ⟨inner :: top :: below, history⟩)
    (consistent : subject.Consistent nodes ⟨top :: below, history⟩) :
    Acc subject.Follows ⟨top :: below, history⟩ := by
  induction left : top.calls.length - top.next generalizing top history with
  | zero =>
      refine Acc.intro _ fun next step => ?_
      have exhausted : top.calls[top.next]? = none := List.getElem?_eq_none (by omega)
      have move := move_of_advance step
      have consistent_next := consistent.move closed program move
      cases move with
      | leave => exact halts_below _ consistent_next
      | pass call_eq | descend call_eq => simp [exhausted] at call_eq
  | succ left ih =>
      have later : ∀ history,
          subject.Consistent nodes ⟨{ top with next := top.next + 1 } :: below, history⟩ →
          Acc subject.Follows ⟨{ top with next := top.next + 1 } :: below, history⟩ :=
        fun history consistent => ih consistent (by simp only; omega)
      refine Acc.intro _ fun next step => ?_
      have move := move_of_advance step
      have consistent_next := consistent.move closed program move
      cases move with
      | leave => exact halts_below _ consistent_next
      | pass => exact later _ consistent_next
      | descend => exact deeper _ _ _ consistent_next later

/-- A search comes to the end of its innermost frame. The induction is on the room for further
frames, which the number of keys bounds. -/
theorem acc_of_below {room : Nat} (enough : (subject.keysAmong nodes).length ≤ below.length + room)
    (consistent : subject.Consistent nodes ⟨top :: below, history⟩) :
    Acc subject.Follows ⟨top :: below, history⟩ := by
  induction room generalizing top below history with
  | zero =>
      refine acc_of_deeper closed program halts_below ?_ consistent
      intro inner outer deep consistent_deep
      have bound := consistent_deep.length_stack_le
      simp only [List.length_cons] at bound
      omega
  | succ room ih =>
      refine acc_of_deeper closed program halts_below ?_ consistent
      intro inner outer deep consistent_deep halts_outer
      refine ih halts_outer ?_ consistent_deep
      simp only [List.length_cons]
      omega

end Halting

/-- A search does not go on forever from a consistent state. -/
theorem Consistent.acc (closed : Node.Closed nodes) (program : subject.program.nodes ⊆ nodes)
    {stack : List Visit} (consistent : subject.Consistent nodes ⟨stack, history⟩) :
    Acc subject.Follows ⟨stack, history⟩ := by
  induction stack generalizing history with
  | nil => exact Acc.intro _ fun next step => nomatch move_of_advance step
  | cons top below ih =>
      exact acc_of_below closed program (fun _ consistent_below => ih consistent_below)
        (Nat.le_add_left _ _) consistent

/-- A search that begins with a call is consistent with the nodes of the program and of the call. -/
theorem consistent_of_enter (entered : subject.enter lock call = some root) :
    subject.Consistent (subject.sources call) (.start root) :=
  consistent_start (mem_of_enter (subject.closed_sources call) (List.subset_append_left _ _)
    (List.subset_append_right _ _) entered).2

theorem acc_start (entered : subject.enter lock call = some root) :
    Acc subject.Follows (.start root) :=
  (consistent_of_enter entered).acc (subject.closed_sources call) (List.subset_append_left _ _)

/-- Run a search until it has an answer. -/
def run (subject : Subject) (search : Search) (halts : Acc subject.Follows search) :
    Option (List StackFrame) :=
  match step : subject.advance search with
  | .done answer => answer
  | .more next => subject.run next (halts.inv step)
termination_by (⟨search, halts⟩ : { search // Acc subject.Follows search })
decreasing_by exact step

theorem run_of_done (halts : Acc subject.Follows search) {answer : Option (List StackFrame)}
    (step : subject.advance search = .done answer) : subject.run search halts = answer := by
  unfold run
  split <;> simp_all

theorem run_of_more (halts : Acc subject.Follows search)
    (step : subject.advance search = .more next) :
    subject.run search halts = subject.run next (halts.inv step) := by
  rw [run]
  split
  · simp_all
  · rename_i other other_step
    cases step.symm.trans other_step
    rfl

/-- The stack of calls by which a call, made while the lock is held, acquires it again. -/
def searchFrom (subject : Subject) (lock : AccessPath) (call : Call) : Option (List StackFrame) :=
  match entered : subject.enter lock call with
  | none => none
  | some root => subject.run (.start root) (acc_start entered)

theorem searchFrom_of_enter_eq_none (refused : subject.enter lock call = none) :
    subject.searchFrom lock call = none := by
  unfold searchFrom
  split <;> simp_all

theorem searchFrom_of_enter_eq_some (entered : subject.enter lock call = some root) :
    subject.searchFrom lock call = subject.run (.start root) (acc_start entered) := by
  unfold searchFrom
  split
  · simp_all
  · rename_i other other_entered
    cases entered.symm.trans other_entered
    rfl

end Subject

end Relock

import Mathlib.Data.List.Lex
import Mathlib.Data.List.Nodup
import Relock.Proofs.Search.Steps

/-!
# Chains of calls

A chain leads from a frame to a second acquisition of the lock, through calls each of which is
entered from the one before. It is told by the positions of its calls, and chains are compared by
these positions in lexicographic order, in which a chain comes before all that prolong it. A search
finds the first chain in this order.

At every moment of a search the positions of its frames, with the position of the call that comes
next, are a cursor into the chains: no chain lies before it.
-/

namespace Relock

/-- Lists of positions in lexicographic order; a list precedes those that prolong it. -/
abbrev Precedes (left right : List Nat) : Prop := List.Lex (· < ·) left right

/-- A list that lies between two lists that end in adjacent numbers continues the first one. -/
theorem exists_eq_append_of_between {front other : List Nat} {position : Nat}
    (lower : ¬Precedes other (front ++ [position])) (upper : Precedes other (front ++ [position + 1])) :
    ∃ rest, other = front ++ position :: rest := by
  induction front generalizing other with
  | nil =>
      cases upper with
      | nil => exact absurd .nil lower
      | @rel first rest _ _ first_lt =>
          have first_ge : ¬first < position := fun less => lower (.rel less)
          have first_eq : first = position := by omega
          exact ⟨rest, by rw [first_eq, List.nil_append]⟩
      | cons impossible => cases impossible
  | cons head front ih =>
      cases upper with
      | nil => exact absurd .nil lower
      | rel first_lt => exact absurd (.rel first_lt) lower
      | cons upper =>
          obtain ⟨rest, rfl⟩ := ih (fun less => lower (.cons less)) upper
          exact ⟨rest, rfl⟩

theorem precedes_append_iff {front left right : List Nat} :
    Precedes (front ++ left) (front ++ right) ↔ Precedes left right := by
  induction front with
  | nil => rfl
  | cons head front ih => exact List.lex_cons_iff.trans ih

namespace Subject

/-- A chain from a frame: the positions of the calls that it takes, one in each frame, the frames
that it enters, and the call that acquires the lock again. -/
inductive Chain (subject : Subject) : Frame → List Nat → List Frame → Call → Prop
  /-- A call of the frame acquires the lock. -/
  | here {frame : Frame} {position : Nat} {call : Call}
      (at_position : frame.calls[position]? = some call)
      (acquires : subject.repeats frame.path call = true) :
      Chain subject frame [position] [] call
  /-- A call of the frame, which is not a release, is entered. -/
  | through {frame inner : Frame} {position : Nat} {call last : Call} {positions : List Nat}
      {frames : List Frame} (at_position : frame.calls[position]? = some call)
      (keeps : subject.releases call = false)
      (entered : subject.enter frame.path call = some inner)
      (rest : Chain subject inner positions frames last) :
      Chain subject frame (position :: positions) (inner :: frames) last

/-- A chain that a search can find: the frames after the first have different keys. -/
structure Findable (subject : Subject) (root : Frame) (positions : List Nat) (frames : List Frame)
    (last : Call) : Prop where
  chain : subject.Chain root positions frames last
  distinct : (frames.map Frame.key).Nodup

/-- The way from the outermost frame down to the innermost one, by the positions of the calls that
were entered. -/
inductive Trail (subject : Subject) (root : Frame) : List Nat → Visit → List Visit → Prop
  | root (next : Nat) : Trail subject root [] { toFrame := root, next } []
  | deeper {positions : List Nat} {top : Visit} {below : List Visit} {call : Call} {inner : Frame}
      {position : Nat} (next : Nat) (trail : Trail subject root positions top below)
      (cursor : top.next = position + 1) (at_position : top.calls[position]? = some call)
      (keeps : subject.releases call = false)
      (entered : subject.enter top.path call = some inner) :
      Trail subject root (positions ++ [position]) { toFrame := inner, next } (top :: below)

end Subject

namespace Search

/-- The frames above the outermost one, the outermost first. -/
def above (stack : List Visit) : List Frame := (stack.dropLast.map Visit.toFrame).reverse

theorem above_cons_cons (top second : Visit) (below : List Visit) :
    above (top :: second :: below) = above (second :: below) ++ [top.toFrame] := by
  simp [above]

theorem map_key_above (stack : List Visit) (history : Std.TreeSet String) :
    (above stack).map Frame.key = (Search.mk stack history).keys.reverse := by
  simp only [above, keys, List.map_reverse, List.map_map]
  rfl

end Search

namespace Subject

variable {subject : Subject} {root : Frame} {positions : List Nat} {top : Visit}
  {below : List Visit}

variable {frames : List Frame} {last : Call} {rest : List Nat} {history : Std.TreeSet String}
  {search : Search} {answer : Option (List StackFrame)}

theorem Chain.positions_ne_nil
    (chain : subject.Chain root positions frames last) : positions ≠ [] := by
  cases chain <;> exact List.cons_ne_nil _ _

section Trail

variable (trail : subject.Trail root positions top below)
include trail

theorem Trail.setNext (next : Nat) : subject.Trail root positions { top with next } below := by
  cases trail with
  | root => exact .root next
  | deeper _ trail cursor at_position keeps entered =>
      exact .deeper next trail cursor at_position keeps entered

/-- A chain that begins with the positions of a trail goes through its frames. -/
theorem Trail.split (more : rest ≠ [])
    (chain : subject.Chain root (positions ++ rest) frames last) :
    ∃ later, frames = Search.above (top :: below) ++ later ∧
      subject.Chain top.toFrame rest later last := by
  induction trail generalizing rest with
  | root next => exact ⟨frames, rfl, chain⟩
  | @deeper positions top below call inner position next trail cursor at_position keeps entered ih =>
      rw [List.append_assoc] at chain
      obtain ⟨later, rfl, continued⟩ := ih (List.cons_ne_nil position rest) chain
      cases continued with
      | here => exact absurd rfl more
      | @through _ _ _ _ _ _ later other_at _ other_entered continued =>
          cases at_position.symm.trans other_at
          cases entered.symm.trans other_entered
          refine ⟨later, ?_, continued⟩
          rw [Search.above_cons_cons, List.append_assoc, List.singleton_append]

/-- A chain from the innermost frame of a trail prolongs the trail to a chain. -/
theorem Trail.join {later : List Frame} (chain : subject.Chain top.toFrame rest later last) :
    subject.Chain root (positions ++ rest) (Search.above (top :: below) ++ later) last := by
  induction trail generalizing rest later with
  | root next => exact chain
  | deeper next trail cursor at_position keeps entered ih =>
      have prolonged := ih (.through at_position keeps entered chain)
      rwa [Search.above_cons_cons, List.append_assoc, List.append_assoc, List.singleton_append]

/-- The search has not passed over any chain: its frames are a trail, and no chain lies before the
cursor that their positions and the next position are. -/
def Thorough (subject : Subject) (root : Frame) (search : Search) : Prop :=
  match search.stack with
  | [] => ∀ positions frames last, ¬subject.Findable root positions frames last
  | top :: below =>
      ∃ positions, subject.Trail root positions top below ∧
        ∀ other frames last, subject.Findable root other frames last →
          ¬Precedes other (positions ++ [top.next])

/-- A chain that goes on in the innermost frame takes a call that is there, and which acquires the
lock or can be entered. -/
theorem Trail.next_of_findable {position : Nat}
    (history_keys : ∀ key, key ∈ history ↔ key ∈ (Search.mk (top :: below) history).keys)
    (findable : subject.Findable root (positions ++ position :: rest) frames last) :
    ∃ call, top.calls[position]? = some call ∧
      ((rest = [] ∧ subject.repeats top.path call = true) ∨
        (rest ≠ [] ∧ ∃ inner, subject.entry? history top.path call = some inner)) := by
  obtain ⟨later, rfl, chain⟩ := trail.split (List.cons_ne_nil position rest) findable.chain
  cases chain with
  | here at_position acquires => exact ⟨_, at_position, .inl ⟨rfl, acquires⟩⟩
  | @through _ inner _ call _ _ frames at_position keeps entered chain =>
      refine ⟨call, at_position, .inr ⟨chain.positions_ne_nil, inner,
        entry?_eq_some_iff.mpr ⟨keeps, entered, ?_⟩⟩⟩
      -- The history holds the keys of the frames that the chain has gone through already.
      have distinct := findable.distinct
      rw [List.map_append, Search.map_key_above _ history] at distinct
      have disjoint := (List.nodup_append.mp distinct).2.2
      intro member
      exact disjoint inner.key (List.mem_reverse.mpr ((history_keys _).mp member)) inner.key
        List.mem_cons_self rfl

/-- No chain goes on in the innermost frame at or after a position where there is no call. -/
theorem Trail.not_findable_of_exhausted
    (history_keys : ∀ key, key ∈ history ↔ key ∈ (Search.mk (top :: below) history).keys)
    (exhausted : top.calls[top.next]? = none) (later : ¬Precedes rest [top.next]) :
    ¬subject.Findable root (positions ++ rest) frames last := by
  intro findable
  cases rest with
  | nil => exact later .nil
  | cons position rest =>
      have position_ge : ¬position < top.next := fun less => later (.rel less)
      obtain ⟨call, at_position, -⟩ := trail.next_of_findable history_keys findable
      have length_le : top.calls.length ≤ top.next := List.getElem?_eq_none_iff.mp exhausted
      have position_lt : position < top.calls.length := (List.getElem?_eq_some_iff.mp at_position).1
      omega

end Trail

theorem thorough_start : subject.Thorough root (.start root) := by
  refine ⟨[], .root 0, ?_⟩
  intro other frames last findable earlier
  have other_nil : other = [] := by
    cases earlier with
    | nil => rfl
    | rel less => exact absurd less (Nat.not_lt_zero _)
    | cons impossible => cases impossible
  exact findable.chain.positions_ne_nil other_nil

/-- No move passes over a chain: one that lies before the new cursor, and not before the old one,
begins with the positions of the frames and would have been noticed by the move. -/
theorem Thorough.move {next : Search} (thorough : subject.Thorough root search)
    (history_keys : ∀ key, key ∈ search.history ↔ key ∈ search.keys)
    (move : subject.Move search next) : subject.Thorough root next := by
  cases move with
  | @leave top below history exhausted =>
      obtain ⟨positions, trail, cursor⟩ := thorough
      cases trail with
      | root next =>
          intro other frames last findable
          exact (Trail.root next).not_findable_of_exhausted history_keys exhausted (cursor _ _ _ findable)
            findable
      | @deeper front second rest call inner position next trail second_next at_position keeps
          entered =>
          -- The cursor goes from a position of the frame that is left to the next one below it.
          refine ⟨front, trail, ?_⟩
          intro other frames last findable
          rw [second_next]
          intro before
          have after := cursor other frames last findable
          have after_front : ¬Precedes other (front ++ [position]) :=
            fun earlier => after (earlier.append_right _ _)
          obtain ⟨tail, rfl⟩ := exists_eq_append_of_between after_front before
          rw [show front ++ position :: tail = (front ++ [position]) ++ tail by simp]
            at after findable
          exact (trail.deeper next second_next at_position keeps entered).not_findable_of_exhausted
            history_keys exhausted (fun earlier => after (precedes_append_iff.mpr earlier)) findable
  | @pass top below history call at_next different blocked =>
      obtain ⟨positions, trail, cursor⟩ := thorough
      refine ⟨positions, trail.setNext _, ?_⟩
      intro other frames last findable before
      obtain ⟨rest, rfl⟩ := exists_eq_append_of_between (cursor other frames last findable) before
      obtain ⟨found, at_found, ⟨-, acquires⟩ | ⟨-, inner, entry⟩⟩ :=
        trail.next_of_findable history_keys findable
      · cases at_next.symm.trans at_found
        simp [different] at acquires
      · cases at_next.symm.trans at_found
        simp [blocked] at entry
  | @descend top below history call inner at_next different entry =>
      obtain ⟨positions, trail, cursor⟩ := thorough
      obtain ⟨keeps, entered, -⟩ := entry?_eq_some_iff.mp entry
      refine ⟨positions ++ [top.next],
        .deeper 0 (trail.setNext _) rfl at_next keeps entered, ?_⟩
      intro other frames last findable before
      -- Only a chain that ends at the call itself lies between the old cursor and the new one.
      have upper : Precedes other (positions ++ [top.next + 1]) := by
        refine List.lex_trans Nat.lt_trans before ?_
        rw [List.append_assoc]
        exact precedes_append_iff.mpr (.rel (Nat.lt_succ_self top.next))
      obtain ⟨rest, rfl⟩ := exists_eq_append_of_between (cursor other frames last findable) upper
      have rest_nil : rest = [] := by
        rw [List.append_assoc] at before
        cases precedes_append_iff.mp before with
        | rel less => exact absurd less (Nat.lt_irrefl top.next)
        | cons earlier =>
            cases earlier with
            | nil => rfl
            | rel less => exact absurd less (Nat.not_lt_zero _)
            | cons impossible => cases impossible
      obtain ⟨found, at_found, ⟨-, acquires⟩ | ⟨more, -⟩⟩ :=
        trail.next_of_findable history_keys findable
      · cases at_next.symm.trans at_found
        simp [different] at acquires
      · exact more rest_nil

/-- A search gives an answer when it has left all frames, or when the next call of the innermost
frame acquires the lock. -/
theorem answer_of_advance (step : subject.advance search = .done answer) :
    (search.stack = [] ∧ answer = none) ∨
      ∃ top below call, search.stack = top :: below ∧ top.calls[top.next]? = some call ∧
        subject.repeats top.path call = true ∧
        answer = some (((top :: below).map fun visit => visit.site).reverse ++
          [subject.acquisitionFrame call]) := by
  unfold advance at step
  split at step
  · rename_i stack_eq
    cases step
    exact .inl ⟨stack_eq, rfl⟩
  · rename_i top below stack_eq
    split at step
    · cases step
    · rename_i call call_eq
      simp only at step
      split at step
      · rename_i acquires
        cases step
        exact .inr ⟨top, below, call, stack_eq, call_eq, acquires, rfl⟩
      · split at step <;> cases step

theorem Trail.sites (trail : subject.Trail root positions top below) :
    ((top :: below).map fun visit => visit.site).reverse =
      (root :: Search.above (top :: below)).map Frame.site := by
  induction trail with
  | root next => rfl
  | @deeper positions top below call inner position next trail cursor at_position keeps entered ih =>
      rw [List.map_cons, List.reverse_cons, ih, Search.above_cons_cons]
      simp

/-- In the state that gives the answer, either no chain is left, or the cursor is the first chain
and the answer its stack. -/
theorem answer_of_thorough (distinct : search.keys.Nodup) (thorough : subject.Thorough root search)
    (step : subject.advance search = .done answer) :
    (answer = none ∧ ∀ positions frames last, ¬subject.Findable root positions frames last) ∨
      ∃ positions frames last, subject.Findable root positions frames last ∧
        (∀ other others final, subject.Findable root other others final →
          ¬Precedes other positions) ∧
        answer = some ((root :: frames).map Frame.site ++ [subject.acquisitionFrame last]) := by
  obtain ⟨stack, history⟩ := search
  rcases answer_of_advance step with ⟨rfl, answer_eq⟩ | ⟨top, below, call, rfl, at_next, acquires, rfl⟩
  · exact .inl ⟨answer_eq, thorough⟩
  · obtain ⟨positions, trail, cursor⟩ := thorough
    refine .inr ⟨positions ++ [top.next], Search.above (top :: below), call, ⟨?_, ?_⟩, cursor, ?_⟩
    · simpa using trail.join (.here at_next acquires)
    · rw [Search.map_key_above _ history]
      exact List.nodup_reverse.mpr distinct
    · rw [trail.sites]

/-- A search that enters its call gives the stack of the first chain, or nothing if there is
none. -/
theorem searchFrom_of_enter {lock : AccessPath} {call : Call}
    (entered : subject.enter lock call = some root) :
    (subject.searchFrom lock call = none ∧
        ∀ positions frames last, ¬subject.Findable root positions frames last) ∨
      ∃ positions frames last, subject.Findable root positions frames last ∧
        (∀ other others final, subject.Findable root other others final →
          ¬Precedes other positions) ∧
        subject.searchFrom lock call =
          some ((root :: frames).map Frame.site ++ [subject.acquisitionFrame last]) := by
  obtain ⟨count, finished⟩ := exists_steps_eq_searchFrom entered
  have preserved : ∀ search next,
      subject.Consistent (subject.sources call) search ∧ subject.Thorough root search →
      subject.Move search next →
      subject.Consistent (subject.sources call) next ∧ subject.Thorough root next := by
    rintro search next ⟨consistent, thorough⟩ move
    exact ⟨consistent.move (subject.closed_sources call) (List.subset_append_left _ _) move,
      thorough.move consistent.history move⟩
  obtain ⟨final, ⟨consistent, thorough⟩, step⟩ :=
    invariant_of_done preserved ⟨consistent_of_enter entered, thorough_start⟩ finished
  exact answer_of_thorough consistent.distinct thorough step

/-- A search finds a stack exactly when there is a chain whose frames after the first have different
keys, and what it finds is the stack of the first such chain. -/
theorem searchFrom_finds_first_chain (subject : Subject) (lock : AccessPath) (call : Call) :
    ((subject.searchFrom lock call).isSome = true ↔
      ∃ root positions frames last, subject.enter lock call = some root ∧
        subject.Chain root positions frames last ∧ (frames.map Frame.key).Nodup) ∧
    ∀ stack, subject.searchFrom lock call = some stack →
      ∃ root positions frames last, subject.enter lock call = some root ∧
        subject.Chain root positions frames last ∧ (frames.map Frame.key).Nodup ∧
        (∀ other others final, subject.Chain root other others final →
          (others.map Frame.key).Nodup → other = positions ∨ Precedes positions other) ∧
        stack = (root :: frames).map Frame.site ++ [subject.acquisitionFrame last] := by
  cases entered : subject.enter lock call with
  | none => simp [searchFrom_of_enter_eq_none entered]
  | some root =>
      rcases searchFrom_of_enter entered with
        ⟨nothing, none_left⟩ | ⟨positions, frames, last, findable, first, found⟩
      · refine ⟨?_, by simp [nothing]⟩
        rw [nothing]
        constructor
        · intro some
          simp at some
        · rintro ⟨other, positions, frames, last, same, chain, distinct⟩
          cases same
          exact absurd ⟨chain, distinct⟩ (none_left positions frames last)
      · constructor
        · rw [found]
          exact ⟨fun _ => ⟨root, positions, frames, last, rfl, findable.chain, findable.distinct⟩,
            fun _ => rfl⟩
        · intro stack same
          cases found.symm.trans same
          refine ⟨root, positions, frames, last, rfl, findable.chain, findable.distinct, ?_, rfl⟩
          intro other others final chain distinct
          have not_earlier := first other others final ⟨chain, distinct⟩
          by_contra neither
          rw [not_or] at neither
          exact neither.1 (Std.Trichotomous.trichotomous other positions not_earlier neither.2)

end Subject

end Relock

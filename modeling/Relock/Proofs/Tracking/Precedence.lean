import Relock.Proofs.Tracking.Encounters
import Relock.Proofs.Tracking.Widening

/-!
# Arguments before locks of packages

A lock of a package can be followed into every callee. When arguments are followed as well, one that
hands the lock to the callee comes first: from there on the lock is looked for under the name of the
parameter, and an acquisition by the name of the variable is not found. So a search that follows
arguments too may lose violations, but only those to which every chain of calls that a search can
take (`Findable`) leads through a call that hands the lock over.
-/

namespace Relock

namespace Subject

variable (subject : Subject) {search : SearchConfig} {lock : AccessPath} {call last : Call}
  {positions : List Nat} {frames : List Frame}

/-- The call hands the lock to a parameter of its callee, which does not have it from its receiver. -/
def HandsOver (lock : AccessPath) (call : Call) : Prop :=
  subject.closure? call = none ∧
    ∃ callee decl, subject.callee? call = some callee ∧ subject.declaration? callee = some decl ∧
      subject.carryReceiver lock call decl = none ∧
      (subject.carryArgument lock call decl).isSome = true

/-- None of the calls that a chain takes hands the lock over. -/
def Unhanded : Frame → List Nat → List Frame → Prop
  | frame, position :: positions, inner :: frames =>
      (∀ call, frame.calls[position]? = some call → ¬subject.HandsOver frame.path call) ∧
        Unhanded inner positions frames
  | _, _, _ => True

variable {subject}

/-! ## What does not depend on the search -/

theorem widens_conservative (search : SearchConfig) :
    search.Widens Preset.conservative.search where
  arguments := nofun
  packages := nofun
  order := .inl rfl

theorem encountersFrom_of_exceeds {function stem : String} {first second : Activation}
    (exceeds : second.Exceeds first) (nodes : List Node) :
    (subject.withSearch search).encountersFrom function stem second nodes =
      (subject.withSearch Preset.conservative.search).encountersFrom function stem first nodes := by
  induction nodes generalizing first second with
  | nil => rfl
  | cons node nodes ih =>
      have met : second.encounter? node = first.encounter? node := by
        unfold Activation.encounter?
        rw [exceeds.state]
      rw [encountersFrom, encountersFrom, met,
        ih (exceeds_visit (widens_conservative search) exceeds node)]

/-- What an activation interprets, and in which states, does not depend on the search. -/
theorem encounters_withSearch (search : SearchConfig) (function : String) (nodes : List Node) :
    (subject.withSearch search).encounters function nodes = subject.encounters function nodes := by
  have any (search : SearchConfig) : (subject.withSearch search).encounters function nodes =
      (subject.withSearch Preset.conservative.search).encounters function nodes := by
    cases nodes with
    | nil => rfl
    | cons first nodes =>
        have start : Activation.Exceeds { state := .enter first.span }
            { state := .enter first.span } := ⟨rfl, rfl, .slnil⟩
        exact encountersFrom_of_exceeds start nodes
  exact (any search).trans (any subject.search).symm

theorem closures_withSearch (search : SearchConfig) (function : String) (nodes : List Node) :
    ((subject.withSearch search).track function nodes).closures =
      (subject.track function nodes).closures := by
  have any (search : SearchConfig) := (@track_widen subject _ _ (widens_conservative search)
    function nodes).1
  exact (any search).trans (any subject.search).symm

theorem map_fst_trackClosures_withSearch (search : SearchConfig) (depth : Nat)
    (pending : List PendingClosure) :
    ((subject.withSearch search).trackClosures depth pending).map Prod.fst =
      (subject.trackClosures depth pending).map Prod.fst := by
  induction depth generalizing pending with
  | zero => rfl
  | succ depth ih =>
      have noted : (fun closure => ((subject.withSearch search).trackClosure closure).closures) =
          fun closure => (subject.trackClosure closure).closures :=
        funext fun closure => closures_withSearch search closure.name closure.literal.stream
      rw [trackClosures_succ, trackClosures_succ, List.map_append, List.map_append, noted, ih,
        List.map_map, List.map_map]
      rfl

theorem activationStreams_withSearch (search : SearchConfig) (decl : FuncDecl) :
    (subject.withSearch search).activationStreams decl = subject.activationStreams decl := by
  have closures := @closures_withSearch subject search (subject.label decl) decl.stream
  have runs := @map_fst_trackClosures_withSearch subject search decl.stream.length
    (subject.track (subject.label decl) decl.stream).closures
  have streams := congrArg
    (List.map fun closure : PendingClosure => (closure.name, closure.literal.stream)) runs
  rw [List.map_map, List.map_map] at streams
  refine congrArg ((subject.label decl, decl.stream) :: ·) ?_
  change ((subject.withSearch search).trackClosures decl.stream.length
    ((subject.withSearch search).track (subject.label decl) decl.stream).closures).map _ = _
  rw [closures]
  exact streams

theorem mem_violationsIn_withSearch {decl : FuncDecl} {violation : Violation} :
    violation ∈ (subject.withSearch search).violationsIn decl ↔
      ∃ run ∈ subject.activationStreams decl, ∃ encounter ∈ subject.encounters run.1 run.2,
        (subject.withSearch search).violation? run.1 encounter.state encounter.call =
          some violation := by
  rw [mem_violationsIn, activationStreams_withSearch]
  simp only [encounters_withSearch]

/-! ## Chains -/

/-- Where the lock is not handed over, following arguments makes no difference. -/
theorem enter_of_not_handsOver (kept : ¬subject.HandsOver lock call) :
    (subject.withSearch ⟨true, true⟩).enter lock call =
      (subject.withSearch ⟨false, true⟩).enter lock call := by
  rw [enter, enter, closure?_withSearch, closure?_withSearch]
  cases closure : subject.closure? call with
  | some literal => rfl
  | none =>
      simp only [enterDeclaration, Option.bind_eq_bind]
      change (subject.callee? call).bind _ = (subject.callee? call).bind _
      refine Option.bind_congr fun callee callee_eq => ?_
      change (subject.declaration? callee).bind _ = (subject.declaration? callee).bind _
      refine Option.bind_congr fun decl found => ?_
      have carried : (subject.withSearch ⟨true, true⟩).carry lock call decl =
          (subject.withSearch ⟨false, true⟩).carry lock call decl := by
        rw [carry_withSearch, carry_withSearch]
        cases received : subject.carryReceiver lock call decl with
        | some path => rfl
        | none =>
            have unpassed : subject.carryArgument lock call decl = none := by
              by_contra passed
              exact kept ⟨closure, callee, decl, callee_eq, found, received,
                Option.isSome_iff_ne_none.mpr passed⟩
            simp [unpassed]
      rw [carried]
      rfl

theorem Chain.follow_arguments {frame : Frame}
    (chain : (subject.withSearch ⟨false, true⟩).Chain frame positions frames last)
    (unhanded : subject.Unhanded frame positions frames) :
    (subject.withSearch ⟨true, true⟩).Chain frame positions frames last := by
  induction chain with
  | here at_position acquires => exact .here at_position acquires
  | through at_position keeps entered _ ih =>
      obtain ⟨kept, rest⟩ := unhanded
      exact .through at_position keeps
        ((enter_of_not_handsOver (kept _ at_position)).trans entered) (ih rest)

/-- A call from which the lock is acquired again is still one when arguments are followed, if it is
so along a chain whose calls do not hand the lock over. -/
theorem searchFrom_follow_arguments {root : Frame} (kept : ¬subject.HandsOver lock call)
    (entered : (subject.withSearch ⟨false, true⟩).enter lock call = some root)
    (findable : (subject.withSearch ⟨false, true⟩).Findable root positions frames last)
    (unhanded : subject.Unhanded root positions frames) :
    (subject.withSearch ⟨true, true⟩).searchFrom lock call ≠ none := by
  intro nothing
  rcases searchFrom_of_enter ((enter_of_not_handsOver kept).trans entered) with
    ⟨-, none_left⟩ | ⟨_, _, _, -, -, answered⟩
  · exact none_left positions frames last
      ⟨findable.chain.follow_arguments unhanded, findable.distinct⟩
  · rw [nothing] at answered
    cases answered

/-- Every chain that a search can take from a call to a second acquisition of the lock leads through
a call that hands the lock over. A chain that enters a callee twice after the first one is not among
them. -/
def HandedOnAllChains (subject : Subject) (lock : AccessPath) (call : Call) : Prop :=
  subject.HandsOver lock call ∨
    ∀ root positions frames last,
      (subject.withSearch ⟨false, true⟩).enter lock call = some root →
      (subject.withSearch ⟨false, true⟩).Findable root positions frames last →
      ¬subject.Unhanded root positions frames

theorem handedOnAllChains_of_lost
    (lost : (subject.withSearch ⟨true, true⟩).searchFrom lock call = none) :
    subject.HandedOnAllChains lock call := by
  by_cases handed : subject.HandsOver lock call
  · exact .inl handed
  · refine .inr fun root positions frames last entered findable unhanded => ?_
    exact searchFrom_follow_arguments handed entered findable unhanded lost

/-! ## Violations -/

/-- What a search reports that follows locks of packages is reported, too, when it follows arguments
as well. Only a violation through calls can be lost, and only if every chain that a search can take
to the second acquisition leads through a call that hands the lock to a parameter of its callee. -/
theorem violations_kept_unless_handed (subject : Subject) (decl : FuncDecl) (violation : Violation)
    (reported : violation ∈ (subject.withSearch ⟨false, true⟩).violationsIn decl) :
    (∃ other ∈ (subject.withSearch ⟨true, true⟩).violationsIn decl,
      other.summary = violation.summary) ∨
    violation.kind = .nested ∧
      ∃ run ∈ subject.activationStreams decl, ∃ encounter ∈ subject.encounters run.1 run.2,
        ∃ lock, encounter.state.heldLock = some lock ∧
          (subject.withSearch ⟨false, true⟩).violation? run.1 encounter.state encounter.call =
            some violation ∧
          (subject.withSearch ⟨true, true⟩).searchFrom lock encounter.call = none ∧
          subject.HandedOnAllChains lock encounter.call := by
  obtain ⟨run, run_mem, encounter, met, made⟩ := mem_violationsIn_withSearch.mp reported
  have kept (other : Violation)
      (other_made : (subject.withSearch ⟨true, true⟩).violation? run.1 encounter.state
        encounter.call = some other) (same : other.summary = violation.summary) :
      ∃ other ∈ (subject.withSearch ⟨true, true⟩).violationsIn decl,
        other.summary = violation.summary :=
    ⟨other, mem_violationsIn_withSearch.mpr ⟨run, run_mem, encounter, met, other_made⟩, same⟩
  have made_again := made
  unfold violation? at made
  cases held : encounter.state.heldLock with
  | none => simp [held] at made
  | some lock =>
      simp only [held] at made
      split at made
      · rename_i again
        cases made
        refine .inl (kept ⟨.direct, _, _, _, []⟩ ?_ rfl)
        simp only [violation?, held]
        exact if_pos again
      · rename_i different
        split at made
        · cases made
        · rename_i keeps
          obtain ⟨stack, -, rfl⟩ := Option.map_eq_some_iff.mp made
          cases searched : (subject.withSearch ⟨true, true⟩).searchFrom lock encounter.call with
          | some other =>
              refine .inl (kept ⟨.nested, _, _, _, other⟩ ?_ rfl)
              simp only [violation?, held, searched]
              exact (if_neg different).trans (if_neg keeps)
          | none =>
              exact .inr ⟨rfl, run, run_mem, encounter, met, lock, held, made_again, searched,
                handedOnAllChains_of_lost searched⟩

/-! ## A variable of a package -/

/-- A function that acquires the lock of a variable of the package and calls another function. -/
def publishingDecl (arguments : List String) : FuncDecl :=
  Sample.function 10 "F" []
    [Sample.lockCall 20 "shared" "RLock", Sample.plainCall 30 "G" arguments]

/-- The program of that function, of the variable, and of the other function, which acquires the lock
of the variable by its name. -/
def publishing (arguments : List String) : Subject :=
  .ofProgram
    ⟨[⟨0, "p.go", "p", ".", [⟨none, "sync"⟩],
      [.type ⟨Sample.name 0 "S", .struct [⟨[Sample.name 1 "mu"], .qualified "sync" "RWMutex"⟩],
        .zero⟩,
      .var ⟨⟨0, 2⟩, [Sample.name 3 "shared"], some (.pointer (.name "S")), [], .zero⟩,
      .func (publishingDecl arguments),
      .func (Sample.function 40 "G" ["s"] [Sample.lockCall 50 "shared" "RLock"])]⟩]⟩ {}

/-- The violation through `G`. -/
def publishedAgain : Violation :=
  ⟨.nested, "F", ⟨"p.go", 30, 1⟩, "shared.mu",
    [⟨"G", ⟨"p.go", 30, 1⟩⟩, ⟨"RWMutex.RLock", ⟨"p.go", 50, 1⟩⟩]⟩

/-- When the variable is handed to `G`, the violation is lost as soon as arguments are followed. -/
theorem published_lost_by_arguments :
    ((publishing ["shared"]).withSearch ⟨false, true⟩).violationsIn (publishingDecl ["shared"]) =
      [publishedAgain] ∧
    ((publishing ["shared"]).withSearch ⟨true, true⟩).violationsIn (publishingDecl ["shared"]) =
      [] := by
  constructor
  · exact @violationsIn_of_settled _ 4 _ _ (by decide +kernel)
  · exact @violationsIn_of_settled _ 4 _ _ (by decide +kernel)

/-- When `G` is called without the variable, the violation is reported under both searches. -/
theorem published_kept_with_arguments :
    publishedAgain ∈ ((publishing []).withSearch ⟨false, true⟩).violationsIn (publishingDecl []) ∧
    ∃ other ∈ ((publishing []).withSearch ⟨true, true⟩).violationsIn (publishingDecl []),
      other.summary = publishedAgain.summary := by
  have alone : ((publishing []).withSearch ⟨false, true⟩).violationsIn (publishingDecl []) =
      [publishedAgain] := @violationsIn_of_settled _ 4 _ _ (by decide +kernel)
  have reported : publishedAgain ∈
      ((publishing []).withSearch ⟨false, true⟩).violationsIn (publishingDecl []) := by
    rw [alone]
    exact List.mem_singleton_self publishedAgain
  refine ⟨reported, ?_⟩
  rcases violations_kept_unless_handed (publishing []) (publishingDecl []) publishedAgain reported with
    kept | ⟨-, run, run_mem, encounter, met, lock, held, -, lost, -⟩
  · exact kept
  · -- Whatever lock is held at a call of the function, the call is found to acquire it again.
    have found : ∀ run ∈ (publishing []).activationStreams (publishingDecl []),
        ∀ encounter ∈ (publishing []).encounters run.1 run.2,
          encounter.state.heldLock.all (fun lock =>
            (((publishing []).withSearch ⟨true, true⟩).answerWithin? 4 lock encounter.call).any
              Option.isSome) = true := by decide +kernel
    have answered := found run run_mem encounter met
    rw [held, Option.all_some, Option.any_eq_true] at answered
    obtain ⟨answer, within, stack⟩ := answered
    rw [← searchFrom_of_answerWithin? within, lost] at stack
    cases stack

end Subject

end Relock

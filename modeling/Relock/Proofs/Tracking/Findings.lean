import Relock.Lock.Tracker

/-!
# Where violations come from

An activation interprets some of the calls in its stream, each in the state that the nodes before it
have led to. Every violation it reports is made by one of these calls, and a call makes at most one.
-/

namespace Relock

/-- A call that an activation interprets, with the state in which it does. -/
structure Encounter where
  call : Call
  state : LockState

/-- A violation with the call that makes it. -/
structure Finding where
  call : Call
  violation : Violation
deriving Inhabited

namespace LockState

/-- The state in which a node is interpreted that lies past all closures and deferred calls. -/
def arrive (state : LockState) (span : Span) : LockState :=
  { state with closureExtent := none, deferExtent := none }.passReturn span

end LockState

namespace Activation

/-- The encounter with a node that is a call outside of closures and deferred calls. -/
def encounter? (activation : Activation) (node : Node) : Option Encounter :=
  if LockState.inside activation.state.closureExtent node.span then
    none
  else if LockState.inside activation.state.deferExtent node.span then
    none
  else
    match node with
    | .call call => some ⟨call, activation.state.arrive call.span⟩
    | _ => none

end Activation

namespace Subject

variable (subject : Subject) (function stem : String)

/-- The calls that an activation interprets among the nodes that follow. -/
def encountersFrom : Activation → List Node → List Encounter
  | _, [] => []
  | activation, node :: nodes =>
      (activation.encounter? node).toList ++
        encountersFrom (subject.visit function stem activation node) nodes

/-- The calls that the activation with a name interprets; the first node opens it. -/
def encounters (function : String) : List Node → List Encounter
  | [] => []
  | first :: nodes =>
      subject.encountersFrom function (closureStem function first) { state := .enter first.span }
        nodes

/-- The violation that an encounter makes, if it makes one. -/
def finding? (encounter : Encounter) : Option Finding :=
  (subject.violation? function encounter.state encounter.call).map (Finding.mk encounter.call)

/-- The violations of an activation, with the calls that make them. -/
def findings (nodes : List Node) : List Finding :=
  (subject.encounters function nodes).filterMap (subject.finding? function)

variable {subject function stem}

/-- A call is interpreted exactly where it is met. -/
theorem visit_of_encounter? {activation : Activation} {node : Node} {encounter : Encounter}
    (met : activation.encounter? node = some encounter) :
    subject.visit function stem activation node =
      subject.interpret function stem { activation with state := encounter.state }
        (.call encounter.call) := by
  unfold Activation.encounter? at met
  split at met
  · cases met
  · rename_i outside
    split at met
    · cases met
    · rename_i past
      cases node with
      | call call =>
          cases met
          simp only [visit, outside, past, if_false, Bool.false_eq_true]
          rfl
      | _ => cases met

/-- A call that is not met changes nothing but the open closure. -/
theorem visit_of_encounter?_eq_none {activation : Activation} {call : Call}
    (skipped : activation.encounter? (.call call) = none) :
    ∃ extent, subject.visit function stem activation (.call call) =
      { activation with state := { activation.state with closureExtent := extent } } := by
  unfold Activation.encounter? at skipped
  split at skipped
  · rename_i within
    exact ⟨activation.state.closureExtent, by simp only [visit, within, if_true]⟩
  · rename_i outside
    split at skipped
    · rename_i within
      exact ⟨none, by simp only [visit, outside, within, if_false, if_true, Bool.false_eq_true]⟩
    · cases skipped

/-- The visit of a call interprets it in the state of the encounter, if there is one, and changes
nothing but the open closure if there is none. -/
def InterpretsMetCalls (subject : Subject) : Prop :=
  ∀ (function stem : String) (activation : Activation) (call : Call),
    (∀ encounter, activation.encounter? (.call call) = some encounter →
      subject.visit function stem activation (.call call) =
        subject.interpret function stem { activation with state := encounter.state }
          (.call encounter.call)) ∧
    (activation.encounter? (.call call) = none →
      ∃ extent, subject.visit function stem activation (.call call) =
        { activation with state := { activation.state with closureExtent := extent } })

theorem interpretsMetCalls (subject : Subject) : subject.InterpretsMetCalls :=
  fun _ _ _ _ => ⟨fun _ => visit_of_encounter?, visit_of_encounter?_eq_none⟩

theorem violations_visit (activation : Activation) (node : Node) :
    (subject.visit function stem activation node).violations =
      activation.violations ++
        ((activation.encounter? node).bind fun encounter =>
          subject.violation? function encounter.state encounter.call).toList := by
  cases node with
  | call call =>
      cases met : activation.encounter? (.call call) with
      | some encounter =>
          rw [visit_of_encounter? met]
          rfl
      | none =>
          obtain ⟨extent, visit_eq⟩ :=
            @visit_of_encounter?_eq_none subject function stem activation call met
          simp [visit_eq]
  | func decl | closure literal | defer call span | «return» span =>
      -- No other node is met, and none adds a violation.
      simp only [visit, Activation.encounter?, ite_self, Option.bind_none, Option.toList_none,
        List.append_nil]
      split
      · rfl
      · split <;> rfl

theorem violations_foldl (activation : Activation) (nodes : List Node) :
    (nodes.foldl (subject.visit function stem) activation).violations =
      activation.violations ++
        (subject.encountersFrom function stem activation nodes).filterMap fun encounter =>
          subject.violation? function encounter.state encounter.call := by
  induction nodes generalizing activation with
  | nil => simp [encountersFrom]
  | cons node nodes ih =>
      rw [List.foldl_cons, ih, violations_visit, encountersFrom, List.filterMap_append,
        List.append_assoc]
      cases activation.encounter? node with
      | none => rfl
      | some encounter =>
          rw [Option.bind_some, Option.toList_some, List.filterMap_cons, List.filterMap_nil]
          cases subject.violation? function encounter.state encounter.call <;> rfl

/-- The findings of an activation are its violations, in the same order. -/
theorem map_violation_findings (nodes : List Node) :
    (subject.findings function nodes).map Finding.violation =
      (subject.track function nodes).violations := by
  cases nodes with
  | nil => rfl
  | cons first nodes =>
      have tracked := @violations_foldl subject function (closureStem function first)
        { state := .enter first.span } nodes
      have found : ∀ encounter, (subject.finding? function encounter).map Finding.violation =
          subject.violation? function encounter.state encounter.call := by
        intro encounter
        rw [finding?, Option.map_map]
        exact Option.map_id'
      rw [findings, List.map_filterMap, encounters, track, tracked, List.nil_append, funext found]

/-- A call makes at most one violation each time it is met. -/
theorem map_call_findings_sublist (nodes : List Node) :
    ((subject.findings function nodes).map Finding.call).Sublist
      ((subject.encounters function nodes).map Encounter.call) := by
  unfold findings
  induction subject.encounters function nodes with
  | nil => exact .slnil
  | cons encounter encounters ih =>
      rw [List.filterMap_cons, List.map_cons]
      cases made : subject.finding? function encounter with
      | none => exact ih.cons _
      | some finding =>
          obtain ⟨violation, -, rfl⟩ := Option.map_eq_some_iff.mp made
          exact ih.cons_cons encounter.call

/-- A violation is located at the call that makes it. -/
theorem location_of_mem_findings {nodes : List Node} {finding : Finding}
    (member : finding ∈ subject.findings function nodes) :
    finding.violation.location = subject.location finding.call := by
  obtain ⟨encounter, -, found⟩ := List.mem_filterMap.mp member
  obtain ⟨violation, made, rfl⟩ := Option.map_eq_some_iff.mp found
  unfold violation? at made
  split at made
  · cases made
  · split at made
    · cases made
      rfl
    · split at made
      · cases made
      · obtain ⟨stack, -, rfl⟩ := Option.map_eq_some_iff.mp made
        rfl

end Subject

end Relock

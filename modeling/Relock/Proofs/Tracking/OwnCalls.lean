import Relock.Proofs.Search.Chain
import Relock.Proofs.Tracking.Activations

/-!
# The calls of a body

The calls of a body are listed by a pass over its stream that knows where the last closure literal
ends. Tracking passes over the same stream with extents for closure literals and deferred calls.
Both find the same calls, and where ranges are well nested these are the calls that stand in no
closure literal. In a program all of whose bodies are well nested, then, what a search goes through
and what decides about a deferred release does not depend on offsets either.
-/

namespace Relock

namespace Item

/-- The call of an item, and whether it is part of a deferred call. -/
def site? (item : Item) : Option (Call × Bool) :=
  match item.node with
  | .call call => some (call, item.deferred)
  | _ => none

theorem filter_site? (items : List Item) :
    ((items.filterMap site?).filter fun site => !site.2).map Prod.fst = items.filterMap call? := by
  induction items with
  | nil => rfl
  | cons item items ih =>
      obtain ⟨node, deferred⟩ := item
      cases node with
      | call call =>
          cases deferred with
          | true => exact ih
          | false => exact congrArg (call :: ·) ih
      | _ => exact ih

end Item

/-! ## What stands in no closure literal -/

namespace Part

/-- The call of a part that stands in no closure literal. -/
def own? (part : Part) : Option (Call × Bool) :=
  if part.owner.isSome then none else part.site?

end Part

/-- What stands in a closure literal has one around it. The induction is on the length: a literal is
longer than those that stand in it. -/
theorem Closure.owner_of_mem_parts {literal : Closure} {part : Part}
    (member : part ∈ literal.parts) : part.owner.isSome = true := by
  induction length : literal.stream.length using Nat.strongRecOn generalizing literal with
  | ind count ih =>
      rw [parts, stmtParts_eq, List.mem_flatMap] at member
      obtain ⟨item, item_mem, member⟩ := member
      rcases List.mem_cons.mp member with rfl | member
      · rfl
      · cases node : item.node with
        | closure inner =>
            rw [node] at member
            have inner_mem : inner ∈ Item.literals (stmtItems literal.body.body) :=
              Node.mem_literals.mpr (List.mem_map.mpr ⟨item, item_mem, node⟩)
            have shorter : inner.stream.length < literal.stream.length :=
              Nat.lt_succ_of_le (length_stream_le_of_mem inner_mem)
            exact ih _ (length ▸ shorter) member rfl
        | _ => simp [node] at member

theorem filterMap_own?_stmtParts (stmts : List Stmt) :
    (stmtParts none stmts).filterMap Part.own? = (stmtItems stmts).filterMap Item.site? := by
  have each (item : Item) : (item.parts none).filterMap Part.own? = item.site?.toList := by
    have inside : ∀ part ∈ (item.parts none).tail, part.own? = none := by
      intro part member
      cases node : item.node with
      | closure literal =>
          simp only [Item.parts, node, List.tail_cons] at member
          exact if_pos (Closure.owner_of_mem_parts member)
      | _ => simp [Item.parts, node] at member
    have own : item.parts none = ⟨item, none⟩ :: (item.parts none).tail := rfl
    have first : Part.own? ⟨item, none⟩ = item.site? := rfl
    rw [own, List.filterMap_cons, first, List.filterMap_eq_nil_iff.mpr inside]
    cases item.site? <;> rfl
  rw [stmtParts_eq, List.filterMap_flatMap, List.filterMap_eq_flatMap_toList]
  exact List.flatMap_congr fun item _ => each item

/-! ## Both passes -/

theorem Around.closure_next {around : Around} {node : Node} :
    LockState.inside around.closure node.span = false →
    (around.next node).closure = match node with
      | .closure literal => some literal.span
      | _ => none := by
  intro outside
  rw [next_of_outside outside]
  cases deferred : LockState.inside around.defer node.span <;>
    · unfold next
      rw [deferred]
      cases node <;> rfl

/-- The calls that a pass with a limit lists are those of the items that extents tell. -/
theorem Node.callsFrom_eq_scan (around : Around) (nodes : List Node) :
    callsFrom (around.closure.elim 0 Span.endByte) nodes =
      ((around.scan nodes).filterMap Item.site?).map Prod.fst := by
  induction nodes generalizing around with
  | nil => rfl
  | cons node nodes ih =>
      have limit : node.span.startByte < around.closure.elim 0 Span.endByte ↔
          LockState.inside around.closure node.span = true := by
        cases around.closure <;> simp [LockState.inside, Span.startsWithin]
      unfold callsFrom
      cases outside : LockState.inside around.closure node.span with
      | true => rw [if_pos (limit.mpr outside), Around.scan_cons_of_within outside, ih]
      | false =>
          have later := ih (around.next node)
          rw [Around.closure_next outside] at later
          rw [if_neg (by simp [limit, outside]), Around.scan_cons_of_outside outside]
          cases node with
          | call call => exact congrArg (call :: ·) later
          | _ => exact later

namespace Block

/-- The calls of a body that stand in no closure literal, along the tree. -/
def ownCalls (block : Block) : List Call :=
  ((stmtItems block.body).filterMap Item.site?).map Prod.fst

theorem calls_eq_ownCalls {block : Block} (nested : block.nested = true) :
    block.calls = block.ownCalls := by
  have listed : block.calls = _ := Node.callsFrom_eq_scan {} block.nodes
  rw [listed, scan_nodes nested, ownCalls]

end Block

namespace Activation

/-- The call that a visit does not pass over as part of a closure literal, and whether it passes
over it as part of a deferred call. -/
def attended? (activation : Activation) (node : Node) : Option (Call × Bool) :=
  if LockState.inside activation.state.closureExtent node.span then
    none
  else
    Item.site? ⟨node, LockState.inside activation.state.deferExtent node.span⟩

end Activation

namespace Subject

variable (subject : Subject) (function stem : String)

/-- The calls that are left to an activation among the nodes that follow. -/
def attendedFrom : Activation → List Node → List (Call × Bool)
  | _, [] => []
  | activation, node :: nodes =>
      (activation.attended? node).toList ++
        attendedFrom (subject.visit function stem activation node) nodes

/-- The calls that are left to the activation with a name; the first node opens it. -/
def attended (function : String) : List Node → List (Call × Bool)
  | [] => []
  | first :: nodes =>
      subject.attendedFrom function (closureStem function first)
        { state := .enter first.span } nodes

variable {subject function stem}

theorem attendedFrom_eq_scan (activation : Activation) (nodes : List Node) :
    subject.attendedFrom function stem activation nodes =
      (activation.state.around.scan nodes).filterMap Item.site? := by
  induction nodes generalizing activation with
  | nil => rfl
  | cons node nodes ih =>
      rw [attendedFrom, ih, around_visit]
      cases outside : LockState.inside activation.state.around.closure node.span with
      | true =>
          have passed : activation.attended? node = none := if_pos outside
          rw [passed, Around.scan_cons_of_within outside, Around.next_of_within outside]
          rfl
      | false =>
          have met : activation.attended? node = Item.site? _ :=
            if_neg (Bool.eq_false_iff.mp outside)
          rw [met, Around.scan_cons_of_outside outside, List.filterMap_cons]
          cases node <;> rfl

/-- The calls of a well nested body are those that stand in no closure literal, each once and in the
order of the stream. In the body of a declaration they are those that tracking leaves to its own
activation; of these it interprets all but the parts of deferred calls, by the visits that meet
them. -/
theorem calls_are_left_to_activation {block : Block} (nested : block.nested = true) :
    (stmtParts none block.body).map (fun part => part.node) = block.nodes ∧
    block.calls = ((stmtParts none block.body).filterMap Part.own?).map Prod.fst ∧
    ∀ (subject : Subject) (function : String) (decl : FuncDecl), decl.body = some block →
      subject.attended function decl.stream = (stmtParts none block.body).filterMap Part.own? ∧
      (subject.encounters function decl.stream).map Encounter.call =
        ((subject.attended function decl.stream).filter fun site => !site.2).map Prod.fst ∧
      subject.InterpretsMetCalls := by
  have scanned := Block.scan_nodes nested
  rw [filterMap_own?_stmtParts]
  refine ⟨map_node_stmtParts block.body none, Block.calls_eq_ownCalls nested,
    fun subject function decl body => ?_⟩
  have stream_eq : decl.stream = .func decl :: block.nodes := by rw [FuncDecl.stream, body]
  have attended : subject.attended function decl.stream =
      (stmtItems block.body).filterMap Item.site? := by
    rw [stream_eq, attended, attendedFrom_eq_scan]
    exact congrArg _ scanned
  refine ⟨attended, ?_, subject.interpretsMetCalls⟩
  rw [attended, Item.filter_site?, stream_eq, map_call_encounters, scanned]

/-- Of the seven calls three stand in no literal: the deferred one, its argument, and the one after
it, which alone is interpreted. -/
theorem layered_attended :
    ∃ block, layered.body = some block ∧ block.nested = true ∧
      block.calls.map (fun call => call.id.index) = [100, 310, 410] ∧
      layering.attended "F" layered.stream = (stmtParts none block.body).filterMap Part.own? ∧
      (layering.attended "F" layered.stream).map (fun site => (site.1.id.index, site.2)) =
        [(100, true), (310, true), (410, false)] := by
  refine ⟨_, rfl, by decide +kernel, by decide +kernel, ?_, by decide +kernel⟩
  exact ((calls_are_left_to_activation (by decide +kernel)).2.2 layering "F" layered rfl).1

end Subject

/-! ## Programs whose bodies are well nested -/

/-- The bodies of all functions and closure literals of the program are well nested. -/
def Program.nested (program : Program) : Bool :=
  program.functions.all FuncDecl.nested &&
    (Node.literals program.nodes).all fun literal => literal.body.nested

namespace Subject

/-- The body of the code that a call runs. -/
def code? (subject : Subject) (call : Call) : Option Block :=
  match subject.closure? call with
  | some literal => some literal.body
  | none => ((subject.callee? call).bind subject.declaration?).bind FuncDecl.body

variable {subject : Subject} {call : Call} {lock : AccessPath} {frame : Frame} {block : Block}

theorem code?_of_enter (entered : subject.enter lock call = some frame) :
    ∃ block, subject.code? call = some block ∧ frame.calls = block.calls := by
  unfold enter at entered
  unfold code?
  cases closure : subject.closure? call with
  | some literal =>
      simp only [closure] at entered
      cases entered
      exact ⟨literal.body, rfl, rfl⟩
  | none =>
      simp only [closure, enterDeclaration, Option.bind_eq_bind, Option.bind_eq_some_iff] at entered
      obtain ⟨callee, callee_eq, decl, found, body, body_eq, path, -, frame_eq⟩ := entered
      cases frame_eq
      exact ⟨body, by simp [callee_eq, found, body_eq], rfl⟩

/-- The calls of a program run code of the program. -/
theorem nested_of_code? (nested : subject.program.nested = true)
    (listed : .call call ∈ subject.program.nodes) (code : subject.code? call = some block) :
    block.nested = true := by
  rw [Program.nested, Bool.and_eq_true, List.all_eq_true, List.all_eq_true] at nested
  unfold code? at code
  cases closure : subject.closure? call with
  | some literal =>
      simp only [closure, Option.some.injEq] at code
      subst code
      refine nested.2 literal (Node.mem_literals.mpr ?_)
      rcases List.mem_append.mp (closure_mem_of_closureOf? closure) with member | member
      · exact member
      · exact subject.program.closed_nodes.call call listed (List.mem_append_left _ member)
  | none =>
      simp only [closure, Option.bind_eq_some_iff] at code
      obtain ⟨decl, ⟨callee, -, found⟩, body_eq⟩ := code
      have bodies := nested.1 decl (declaration?_spec found).1
      rwa [FuncDecl.nested, body_eq] at bodies

/-- The frame is of code that a call of the program runs. Its calls are those of the code along the
tree, and calls of the program again. -/
structure AlongTree (subject : Subject) (frame : Frame) : Prop where
  code : ∃ call block, .call call ∈ subject.program.nodes ∧ subject.code? call = some block ∧
    frame.calls = block.ownCalls
  calls : ∀ call ∈ frame.calls, .call call ∈ subject.program.nodes

theorem alongTree_of_enter (nested : subject.program.nested = true)
    (listed : .call call ∈ subject.program.nodes) (entered : subject.enter lock call = some frame) :
    subject.AlongTree frame := by
  obtain ⟨block, code, calls⟩ := code?_of_enter entered
  rw [Block.calls_eq_ownCalls (nested_of_code? nested listed code)] at calls
  have closed := subject.program.closed_nodes
  exact ⟨⟨call, block, listed, code, calls⟩,
    (mem_of_enter closed (List.Subset.refl _) (closed.call call listed) entered).2⟩

theorem Trail.alongTree {root : Frame} {positions : List Nat} {top : Visit} {below : List Visit}
    (nested : subject.program.nested = true) (outermost : subject.AlongTree root)
    (trail : subject.Trail root positions top below) :
    ∀ visit ∈ top :: below, subject.AlongTree visit.toFrame := by
  induction trail with
  | root next =>
      intro visit member
      cases List.mem_singleton.mp member
      exact outermost
  | @deeper _ top _ _ _ _ next _ _ at_position _ entered ih =>
      have listed := (ih top List.mem_cons_self).calls _ (List.mem_of_getElem? at_position)
      intro visit member
      rcases List.mem_cons.mp member with rfl | member
      · exact alongTree_of_enter nested listed entered
      · exact ih visit member

/-- Where all bodies of a program are well nested, what its calls run is looked at along the tree:
in the decision whether a deferred call releases a lock, and in every frame of a search. -/
theorem code_along_tree (nested : subject.program.nested = true)
    (listed : .call call ∈ subject.program.nodes) :
    (∀ state, subject.closureReleasesLock state call =
      (subject.closure? call).any fun literal =>
        literal.body.ownCalls.any (subject.releasesLock state)) ∧
    ∀ lock root positions top below, subject.enter lock call = some root →
      subject.Trail root positions top below →
      ∀ visit ∈ top :: below, subject.AlongTree visit.toFrame := by
  constructor
  · intro state
    unfold closureReleasesLock
    cases closure : subject.closure? call with
    | none => rfl
    | some literal =>
        have code : subject.code? call = some literal.body := by rw [code?, closure]
        rw [Option.any_some, ← Block.calls_eq_ownCalls (nested_of_code? nested listed code)]
  · intro lock root positions top below entered trail
    exact trail.alongTree nested (alongTree_of_enter nested listed entered)

example : layering.program.nested = true := by decide +kernel

end Subject

end Relock

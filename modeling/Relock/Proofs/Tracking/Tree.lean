import Relock.Lock.Tracker

/-!
# Tracking along the syntax tree

Tracking reads a flat stream and tells by byte offsets what lies inside a closure literal, a
deferred call or a return. This file gives the same account by recursion on the syntax tree, which
tells it without offsets, and shows that both agree wherever the ranges in the stream are well
nested. The calls of the code that a call runs are listed as for tracking.

The proof goes through the stream from left to right. What a construct opened stays open until the
next node past it comes, so a state with open extents is compared by what it makes of the nodes that
follow, and there it makes no difference whether an extent is closed at once or by the next node.
-/

namespace Relock

/-! ## Well nested ranges -/

/-- Of the nodes of a stream, those inside a construct begin before its end, and those after it do
not. -/
def Span.encloses (span : Span) (inside later : List Node) : Bool :=
  inside.all (fun node => node.span.startsWithin span) &&
    later.all fun node => !node.span.startsWithin span

mutual

/-- Every closure literal in an expression encloses its parts, among the nodes of the expression and
those that follow. -/
def Expr.nested (later : List Node) : Expr → Bool
  | .ident _ => true
  | .selector _ base _ _ => base.nested later
  | .call _ callee args _ => callee.nested (exprNodes args ++ later) && exprsNested later args
  | .literal _ _ _ body _ span => span.encloses (stmtNodes body) later && stmtsNested later body
  | .paren inner _ => inner.nested later
  | .unary _ operand _ => operand.nested later
  | .composite _ elements _ => exprsNested later elements
  | .other _ parts _ => exprsNested later parts

/-- Every closure literal in expressions encloses its parts. -/
def exprsNested (later : List Node) : List Expr → Bool
  | [] => true
  | expr :: exprs => expr.nested (exprNodes exprs ++ later) && exprsNested later exprs

/-- Every closure literal, deferred call and return in a statement encloses its parts. -/
def Stmt.nested (later : List Node) : Stmt → Bool
  | .expr expr => expr.nested later
  | .defer id callee args callSpan span =>
      span.encloses (.call ⟨id, callee, args, callSpan⟩ :: (callee.nodes ++ exprNodes args)) later &&
        (callee.nested (exprNodes args ++ later) && exprsNested later args)
  | .go _ callee args _ _ => callee.nested (exprNodes args ++ later) && exprsNested later args
  | .return results span => span.encloses (exprNodes results) later && exprsNested later results
  | .assign _ targets values _ _ =>
      exprsNested (exprNodes values ++ later) targets && exprsNested later values
  | .var _ _ _ values _ => exprsNested later values
  | .block body _ => stmtsNested later body
  | .compound _ parts _ => stmtsNested later parts

/-- Every closure literal, deferred call and return in statements encloses its parts. -/
def stmtsNested (later : List Node) : List Stmt → Bool
  | [] => true
  | stmt :: stmts => stmt.nested (stmtNodes stmts ++ later) && stmtsNested later stmts

end

/-- The ranges in the stream of a body are well nested. -/
def Block.nested (block : Block) : Bool := stmtsNested [] block.body

/-- The ranges in the stream of a declaration are well nested. -/
def FuncDecl.nested (decl : FuncDecl) : Bool := decl.body.all Block.nested

/-! ## The account along the tree -/

/-- What the account along the tree knows in the middle of an activation. -/
structure Tally where
  held : Nat := 0
  lock : Option AccessPath := none
  deferredRelease : Bool := false
  violations : List Violation := []
  closures : List PendingClosure := []

namespace Tally

/-- The lock state of a tally. -/
def state (tally : Tally) : LockState :=
  { held := tally.held, lock := tally.lock, deferredRelease := tally.deferredRelease }

/-- Note a closure literal, under the next name. -/
def queue (stem : String) (tally : Tally) (literal : Closure) : Tally :=
  { tally with
    closures := tally.closures ++ [⟨stem ++ toString (tally.closures.length + 1), literal⟩] }

/-- What the tally has found. -/
def report (tally : Tally) : ActivationReport := ⟨tally.violations, tally.closures⟩

end Tally

mutual

/-- Go through an expression: react to each call before its parts, and note each closure literal
without going into it. -/
def Expr.walk (stem : String) (react : Tally → Call → Tally) : Expr → Tally → Tally
  | .ident _, tally => tally
  | .selector _ base _ _, tally => base.walk stem react tally
  | .call id callee args span, tally =>
      walkExprs stem react args (callee.walk stem react (react tally ⟨id, callee, args, span⟩))
  | .literal id params result body bodySpan span, tally =>
      tally.queue stem ⟨id, params, result, ⟨body, bodySpan⟩, span⟩
  | .paren inner _, tally => inner.walk stem react tally
  | .unary _ operand _, tally => operand.walk stem react tally
  | .composite _ elements _, tally => walkExprs stem react elements tally
  | .other _ parts _, tally => walkExprs stem react parts tally

/-- Go through expressions, one after the other. -/
def walkExprs (stem : String) (react : Tally → Call → Tally) : List Expr → Tally → Tally
  | [], tally => tally
  | expr :: exprs, tally => walkExprs stem react exprs (expr.walk stem react tally)

end

namespace Subject

variable (subject : Subject) (function stem : String)

/-- Interpret a call. -/
def tallyCall (tally : Tally) (call : Call) : Tally :=
  { tally with
    held := (subject.stateAfter tally.state call).held
    lock := (subject.stateAfter tally.state call).lock
    violations := tally.violations ++ (subject.violation? function tally.state call).toList }

/-- Decide whether a deferred call releases the lock. -/
def tallyDefer (tally : Tally) (call : Call) : Tally :=
  { tally with
    deferredRelease := tally.deferredRelease || subject.releasesLock tally.state call ||
      subject.closureReleasesLock tally.state call }

/-- What a deferred release takes away at a return. -/
def releasedBy (tally : Tally) : Nat := if tally.deferredRelease then min tally.held 1 else 0

mutual

/-- Go through a statement. The parts of a deferred call are not interpreted, and the results of a
return are seen with what a deferred release leaves. -/
def walkStmt : Stmt → Tally → Tally
  | .expr expr, tally => expr.walk stem (subject.tallyCall function) tally
  | .defer id callee args callSpan _, tally =>
      let tally := subject.tallyDefer tally ⟨id, callee, args, callSpan⟩
      walkExprs stem (fun tally _ => tally) args (callee.walk stem (fun tally _ => tally) tally)
  | .go id callee args callSpan _, tally =>
      let tally := subject.tallyCall function tally ⟨id, callee, args, callSpan⟩
      walkExprs stem (subject.tallyCall function) args
        (callee.walk stem (subject.tallyCall function) tally)
  | .return results _, tally =>
      let released := releasedBy tally
      let tally := walkExprs stem (subject.tallyCall function) results
        { tally with held := tally.held - released }
      { tally with held := tally.held + released }
  | .assign _ targets values _ _, tally =>
      walkExprs stem (subject.tallyCall function) values
        (walkExprs stem (subject.tallyCall function) targets tally)
  | .var _ _ _ values _, tally => walkExprs stem (subject.tallyCall function) values tally
  | .block body _, tally => walkStmts body tally
  | .compound _ parts _, tally => walkStmts parts tally

/-- Go through statements, one after the other. -/
def walkStmts : List Stmt → Tally → Tally
  | [], tally => tally
  | stmt :: stmts, tally => walkStmts stmts (walkStmt stmt tally)

end

/-- The account of a declaration along its tree. -/
def walkDecl (function : String) (decl : FuncDecl) : ActivationReport :=
  match decl.body with
  | some block => (subject.walkStmts function (function ++ ".func") block.body {}).report
  | none => {}

/-- The account of a closure literal along its tree. -/
def walkClosure (function : String) (literal : Closure) : ActivationReport :=
  (subject.walkStmts function (function ++ ".") literal.body.body {}).report

end Subject

/-! ## Both accounts agree -/

/-- What is open in the middle of a stream. -/
structure Extents where
  function : Option Span := none
  closure : Option Span := none
  defer : Option Span := none
  returning : Option Span := none
  /-- What the open return has released. -/
  released : Nat := 0

namespace Tally

/-- The state of tracking with a tally and open extents. -/
def activation (tally : Tally) (extents : Extents) : Activation where
  state :=
    { held := tally.held
      lock := tally.lock
      deferredRelease := tally.deferredRelease
      functionExtent := extents.function
      deferExtent := extents.defer
      returnExtent := extents.returning
      closureExtent := extents.closure
      releasedAtReturn := extents.released }
  violations := tally.violations
  closures := tally.closures

end Tally

namespace Subject

variable {subject : Subject} {function stem : String}

variable {later : List Node} {span : Span} {tally : Tally} {extent : Option Span} {released : Nat}
  {inside : List Node} {returning : Option Span} {call : Call} {literal : Closure}

/-- What tracking finds in the nodes that follow. -/
def finish (subject : Subject) (function stem : String) (activation : Activation)
    (later : List Node) : ActivationReport :=
  let final := later.foldl (subject.visit function stem) activation
  ⟨final.violations, final.closures⟩

theorem finish_cons (activation : Activation) (node : Node) (later : List Node) :
    subject.finish function stem activation (node :: later) =
      subject.finish function stem (subject.visit function stem activation node) later := rfl

/-- Activations that have found the same and make the same of the next node find the same. -/
theorem finish_congr {left right : Activation} (violations : left.violations = right.violations)
    (closures : left.closures = right.closures) (next : ∀ node ∈ later,
      subject.visit function stem left node = subject.visit function stem right node) :
    subject.finish function stem left later = subject.finish function stem right later := by
  cases later with
  | nil => simp [finish, violations, closures]
  | cons node later => rw [finish_cons, finish_cons, next node List.mem_cons_self]

/-- Nodes inside the open closure literal are skipped. -/
theorem finish_skip {activation : Activation} (closure : activation.state.closureExtent = some span)
    (within : ∀ node ∈ inside, node.span.startsWithin span = true) (later : List Node) :
    subject.finish function stem activation (inside ++ later) =
      subject.finish function stem activation later := by
  induction inside with
  | nil => rfl
  | cons node inside ih =>
      have skipped : subject.visit function stem activation node = activation := by
        simp [visit, closure, LockState.inside, within node List.mem_cons_self]
      rw [List.cons_append, finish_cons, skipped]
      exact ih fun other member => within other (List.mem_cons_of_mem node member)

/-! ### What is open is closed by the next node -/

section Past

variable (past : ∀ node ∈ later, node.span.startsWithin span = false)
include past

theorem finish_close_closure {extents : Extents} :
    subject.finish function stem (tally.activation { extents with closure := some span }) later =
      subject.finish function stem (tally.activation { extents with closure := none }) later := by
  refine finish_congr rfl rfl ?_
  intro node member
  simp only [visit, Tally.activation, LockState.inside, Option.any_some, Option.any_none,
    past node member, Bool.false_eq_true, if_false]
  rfl

theorem finish_close_defer :
    subject.finish function stem
        (tally.activation { function := extent, defer := some span }) later =
      subject.finish function stem (tally.activation { function := extent }) later := by
  refine finish_congr rfl rfl ?_
  intro node member
  simp [visit, Tally.activation, LockState.inside, past node member]

theorem finish_close_return :
    subject.finish function stem
        (tally.activation { function := extent, returning := some span, released }) later =
      subject.finish function stem
        (({ tally with held := tally.held + released } : Tally).activation { function := extent })
        later := by
  refine finish_congr rfl rfl ?_
  intro node member
  simp [visit, Tally.activation, LockState.inside, LockState.passReturn, past node member]

end Past

/-! ### What a node does -/

theorem acquireBy_frame (state frame : LockState) (call : Call) :
    subject.acquireBy { frame with held := state.held, lock := state.lock } call =
      { frame with
        held := (subject.acquireBy state call).held
        lock := (subject.acquireBy state call).lock } := by
  have again_eq : subject.reacquires { frame with held := state.held, lock := state.lock } call =
      subject.reacquires state call := rfl
  unfold acquireBy
  rw [again_eq]
  cases subject.path? call with
  | none => rfl
  | some path =>
      by_cases acquires : subject.acquires call = true
      · by_cases zero : state.held = 0
        · simp [acquires, zero, LockState.acquire]
        · by_cases again : subject.reacquires state call = true <;>
            simp [acquires, zero, again, LockState.acquire]
      · simp [acquires]

theorem releaseBy_frame (state frame : LockState) (call : Call) :
    subject.releaseBy { frame with held := state.held, lock := state.lock } call =
      { frame with
        held := (subject.releaseBy state call).held
        lock := (subject.releaseBy state call).lock } := by
  have releases_eq : subject.releasesLock { frame with held := state.held, lock := state.lock } call =
      subject.releasesLock state call := rfl
  unfold releaseBy
  rw [releases_eq]
  split <;> rfl

/-- A call changes the count and the lock, by what they are, and nothing else. -/
theorem stateAfter_frame (state frame : LockState) (call : Call) :
    subject.stateAfter { frame with held := state.held, lock := state.lock } call =
      { frame with
        held := (subject.stateAfter state call).held
        lock := (subject.stateAfter state call).lock } := by
  simp only [stateAfter]
  rw [acquireBy_frame, releaseBy_frame]

/-- Inside a return nothing is given back. -/
theorem passReturn_of_within {state : LockState}
    (within : ∀ extent ∈ state.returnExtent, span.startsWithin extent = true) :
    state.passReturn span = state := by
  unfold LockState.passReturn
  cases returning : state.returnExtent with
  | none => rfl
  | some extent => simp [LockState.inside, within extent returning]

/-- Outside of closure literals and deferred calls, and inside the return if there is one, nodes are
interpreted. -/
theorem visit_eq_interpret {node : Node}
    (within : ∀ span ∈ returning, node.span.startsWithin span = true) :
    subject.visit function stem
        (tally.activation { function := extent, returning, released }) node =
      subject.interpret function stem
        (tally.activation { function := extent, returning, released }) node := by
  have stays : (tally.activation { function := extent, returning, released }).state.passReturn
      node.span = (tally.activation { function := extent, returning, released }).state :=
    passReturn_of_within within
  calc subject.visit function stem
        (tally.activation { function := extent, returning, released }) node
      = subject.interpret function stem
          { tally.activation { function := extent, returning, released } with
            state := (tally.activation { function := extent, returning, released }).state.passReturn
              node.span } node := rfl
    _ = _ := by rw [stays]

theorem visit_call (within : ∀ span ∈ returning, call.span.startsWithin span = true) :
    subject.visit function stem
        (tally.activation { function := extent, returning, released }) (.call call) =
      (subject.tallyCall function tally call).activation
        { function := extent, returning, released } := by
  have after : subject.stateAfter
      (tally.activation { function := extent, returning, released }).state call = _ :=
    stateAfter_frame tally.state
      (tally.activation { function := extent, returning, released }).state call
  rw [visit_eq_interpret within, interpret, after]
  rfl

theorem visit_closure (within : ∀ span ∈ returning, literal.span.startsWithin span = true) :
    subject.visit function stem
        (tally.activation { function := extent, returning, released }) (.closure literal) =
      (tally.queue stem literal).activation
        { function := extent, closure := some literal.span, returning, released } := by
  rw [visit_eq_interpret within]
  rfl

theorem visit_deferred_call (within : call.span.startsWithin span = true) :
    subject.visit function stem
        (tally.activation { function := extent, defer := some span }) (.call call) =
      tally.activation { function := extent, defer := some span } := by
  simp [visit, Tally.activation, LockState.inside, Node.span, within]

theorem visit_deferred_closure (within : literal.span.startsWithin span = true) :
    subject.visit function stem
        (tally.activation { function := extent, defer := some span }) (.closure literal) =
      (tally.queue stem literal).activation
        { function := extent, closure := some literal.span, defer := some span } := by
  simp [visit, Tally.activation, Tally.queue, noteClosure, LockState.inside, Node.span, within]

theorem visit_defer :
    subject.visit function stem (tally.activation { function := extent }) (.defer call span) =
      (subject.tallyDefer tally call).activation { function := extent, defer := some span } := by
  rfl

theorem visit_return_of_deferredRelease (deferred : tally.deferredRelease = true) :
    subject.visit function stem (tally.activation { function := extent }) (.return span) =
      ({ tally with held := tally.held - releasedBy tally } : Tally).activation
        { function := extent, returning := some span, released := releasedBy tally } := by
  have taken : tally.held - min tally.held 1 = tally.held - 1 := by omega
  simp [visit, Tally.activation, LockState.inside, LockState.passReturn, interpret,
    LockState.enterReturn, LockState.release, LockState.releasable, releasedBy, deferred, taken]

theorem visit_return_of_not_deferredRelease (kept : tally.deferredRelease = false) :
    subject.visit function stem (tally.activation { function := extent }) (.return span) =
      tally.activation { function := extent } := by
  simp [visit, Tally.activation, LockState.inside, LockState.passReturn, interpret,
    LockState.enterReturn, kept]

/-! ### What constructs do -/

theorem within_of_encloses (encloses : span.encloses inside later = true) :
    ∀ node ∈ inside, node.span.startsWithin span = true := by
  simp only [Span.encloses, Bool.and_eq_true, List.all_eq_true] at encloses
  exact encloses.1

theorem past_of_encloses (encloses : span.encloses inside later = true) :
    ∀ node ∈ later, node.span.startsWithin span = false := by
  simp only [Span.encloses, Bool.and_eq_true, List.all_eq_true, Bool.not_eq_true'] at encloses
  exact encloses.2

/-- With the given extents open, tracking reacts to the calls among covered nodes as told, and notes
the closure literals among them. -/
structure Reacts (subject : Subject) (function stem : String) (react : Tally → Call → Tally)
    (extents : Extents) (covered : Node → Prop) : Prop where
  outside : extents.closure = none
  call : ∀ (tally : Tally) (call : Call), covered (.call call) →
    subject.visit function stem (tally.activation extents) (.call call) =
      (react tally call).activation extents
  literal : ∀ (tally : Tally) (literal : Closure), covered (.closure literal) →
    subject.visit function stem (tally.activation extents) (.closure literal) =
      (tally.queue stem literal).activation { extents with closure := some literal.span }

variable {react : Tally → Call → Tally} {extents : Extents} {covered : Node → Prop}

/-- A closure literal is noted, its parts are skipped, and it is closed by what follows. -/
theorem Reacts.finish_literal (reacts : subject.Reacts function stem react extents covered)
    (covers : covered (.closure literal))
    (encloses : literal.span.encloses literal.body.nodes later = true) :
    subject.finish function stem (tally.activation extents)
        (.closure literal :: literal.body.nodes ++ later) =
      subject.finish function stem ((tally.queue stem literal).activation extents) later := by
  have closed : { extents with closure := none } = extents := by
    rw [← reacts.outside]
  -- The literal stays open over its parts and is closed only by the first node past it.
  rw [List.cons_append, finish_cons, reacts.literal tally literal covers,
    finish_skip rfl (within_of_encloses encloses),
    finish_close_closure (past_of_encloses encloses), closed]

mutual

theorem Reacts.finish_expr (reacts : subject.Reacts function stem react extents covered) :
    ∀ (expr : Expr) (tally : Tally) (later : List Node), (∀ node ∈ expr.nodes, covered node) →
      expr.nested later = true →
      subject.finish function stem (tally.activation extents) (expr.nodes ++ later) =
        subject.finish function stem ((expr.walk stem react tally).activation extents) later
  | .ident _, _, _, _, _ => rfl
  | .selector _ base _ _, tally, later, covers, nested =>
      reacts.finish_expr base tally later covers nested
  | .call id callee args span, tally, later, covers, nested => by
      simp only [Expr.nested, Bool.and_eq_true] at nested
      simp only [Expr.nodes, List.mem_cons, List.mem_append] at covers
      rw [Expr.nodes, List.cons_append, finish_cons, reacts.call tally _ (covers _ (.inl rfl)),
        List.append_assoc,
        reacts.finish_expr callee _ _ (fun node member => covers node (.inr (.inl member))) nested.1,
        reacts.finish_exprs args _ _ (fun node member => covers node (.inr (.inr member))) nested.2]
      rfl
  | .literal id params result body bodySpan span, tally, later, covers, nested => by
      simp only [Expr.nested, Bool.and_eq_true] at nested
      exact reacts.finish_literal (covers _ List.mem_cons_self) nested.1
  | .paren inner _, tally, later, covers, nested =>
      reacts.finish_expr inner tally later covers nested
  | .unary _ operand _, tally, later, covers, nested =>
      reacts.finish_expr operand tally later covers nested
  | .composite _ elements _, tally, later, covers, nested =>
      reacts.finish_exprs elements tally later covers nested
  | .other _ parts _, tally, later, covers, nested =>
      reacts.finish_exprs parts tally later covers nested

theorem Reacts.finish_exprs (reacts : subject.Reacts function stem react extents covered) :
    ∀ (exprs : List Expr) (tally : Tally) (later : List Node),
      (∀ node ∈ exprNodes exprs, covered node) → exprsNested later exprs = true →
      subject.finish function stem (tally.activation extents) (exprNodes exprs ++ later) =
        subject.finish function stem ((walkExprs stem react exprs tally).activation extents) later
  | [], _, _, _, _ => rfl
  | expr :: exprs, tally, later, covers, nested => by
      simp only [exprsNested, Bool.and_eq_true] at nested
      simp only [exprNodes, List.mem_append] at covers
      rw [exprNodes, List.append_assoc,
        reacts.finish_expr expr _ _ (fun node member => covers node (.inl member)) nested.1,
        reacts.finish_exprs exprs _ _ (fun node member => covers node (.inr member)) nested.2]
      rfl

end

variable {extent : Option Span}

/-- Calls are interpreted outside of every construct, and inside a return. -/
theorem reacts_tallyCall (extent returning : Option Span) (released : Nat) :
    subject.Reacts function stem (subject.tallyCall function)
      { function := extent, returning, released }
      (fun node => ∀ span ∈ returning, node.span.startsWithin span = true) where
  outside := rfl
  call _ _ within := visit_call within
  literal _ _ within := visit_closure within

/-- Calls inside a deferred call are left alone. -/
theorem reacts_deferred (extent : Option Span) (span : Span) :
    subject.Reacts function stem (fun tally _ => tally)
      { function := extent, defer := some span }
      (fun node => node.span.startsWithin span = true) where
  outside := rfl
  call _ _ within := visit_deferred_call within
  literal _ _ within := visit_deferred_closure within

theorem finish_exprs_outside {exprs : List Expr} (nested : exprsNested later exprs = true) :
    subject.finish function stem (tally.activation { function := extent })
        (exprNodes exprs ++ later) =
      subject.finish function stem ((walkExprs stem (subject.tallyCall function) exprs tally).activation
        { function := extent }) later :=
  (reacts_tallyCall extent none 0).finish_exprs exprs tally later
    (fun _ _ _ absent => absurd absent (Option.not_mem_none _)) nested

theorem finish_defer {call : Call} {span : Span} {tally : Tally} {later : List Node}
    (encloses : span.encloses (.call call :: call.parts) later = true)
    (callee : call.callee.nested (exprNodes call.args ++ later) = true)
    (args : exprsNested later call.args = true) :
    subject.finish function stem (tally.activation { function := extent })
        (.defer call span :: .call call :: call.parts ++ later) =
      subject.finish function stem
        ((walkExprs stem (fun tally _ => tally) call.args
          (call.callee.walk stem (fun tally _ => tally) (subject.tallyDefer tally call))).activation
            { function := extent }) later := by
  have within := within_of_encloses encloses
  simp only [List.mem_cons, Call.parts, List.mem_append] at within
  have reacts : subject.Reacts function stem _ _ _ := reacts_deferred extent span
  -- The deferred call is itself the first node inside its statement.
  rw [List.cons_append, List.cons_append, finish_cons, visit_defer, finish_cons,
    visit_deferred_call (within _ (.inl rfl)), Call.parts, List.append_assoc,
    reacts.finish_expr _ _ _ (fun node member => within node (.inr (.inl member))) callee,
    reacts.finish_exprs _ _ _ (fun node member => within node (.inr (.inr member))) args]
  exact finish_close_defer (past_of_encloses encloses)

theorem finish_return {results : List Expr}
    (encloses : span.encloses (exprNodes results) later = true)
    (nested : exprsNested later results = true) :
    subject.finish function stem (tally.activation { function := extent })
        (.return span :: exprNodes results ++ later) =
      subject.finish function stem
        ((subject.walkStmt function stem (.return results span) tally).activation
          { function := extent }) later := by
  rw [List.cons_append, finish_cons]
  cases deferred : tally.deferredRelease with
  | false =>
      -- Without a deferred release the return is not opened at all.
      have kept : releasedBy tally = 0 := by simp [releasedBy, deferred]
      rw [visit_return_of_not_deferredRelease deferred, finish_exprs_outside nested, walkStmt, kept]
      rfl
  | true =>
      have within := within_of_encloses encloses
      rw [visit_return_of_deferredRelease deferred,
        (reacts_tallyCall extent (some span) (releasedBy tally)).finish_exprs results _ _
          (by simpa using within) nested,
        finish_close_return (past_of_encloses encloses), walkStmt]

mutual

theorem finish_stmt :
    ∀ (stmt : Stmt) (tally : Tally) (later : List Node), stmt.nested later = true →
      subject.finish function stem (tally.activation { function := extent }) (stmt.nodes ++ later) =
        subject.finish function stem ((subject.walkStmt function stem stmt tally).activation
          { function := extent }) later
  | .expr expr, tally, later, nested => by
      rw [Stmt.nested] at nested
      exact (reacts_tallyCall extent none 0).finish_expr expr tally later (by simp) nested
  | .defer id callee args callSpan span, tally, later, nested => by
      simp only [Stmt.nested, Bool.and_eq_true] at nested
      exact @finish_defer subject function stem extent ⟨id, callee, args, callSpan⟩ _ _ _
        nested.1 nested.2.1 nested.2.2
  | .go id callee args callSpan span, tally, later, nested =>
      (reacts_tallyCall extent none 0).finish_expr (.call id callee args callSpan) tally later
        (by simp) nested
  | .return results span, tally, later, nested => by
      simp only [Stmt.nested, Bool.and_eq_true] at nested
      exact finish_return nested.1 nested.2
  | .assign _ targets values _ _, tally, later, nested => by
      simp only [Stmt.nested, Bool.and_eq_true] at nested
      rw [Stmt.nodes, List.append_assoc, finish_exprs_outside nested.1,
        finish_exprs_outside nested.2, walkStmt]
  | .var _ _ _ values _, tally, later, nested => by
      rw [Stmt.nested] at nested
      rw [Stmt.nodes, finish_exprs_outside nested, walkStmt]
  | .block body _, tally, later, nested => by
      rw [Stmt.nested] at nested
      rw [Stmt.nodes, finish_stmts body tally later nested, walkStmt]
  | .compound _ parts _, tally, later, nested => by
      rw [Stmt.nested] at nested
      rw [Stmt.nodes, finish_stmts parts tally later nested, walkStmt]

theorem finish_stmts :
    ∀ (stmts : List Stmt) (tally : Tally) (later : List Node), stmtsNested later stmts = true →
      subject.finish function stem (tally.activation { function := extent })
          (stmtNodes stmts ++ later) =
        subject.finish function stem ((subject.walkStmts function stem stmts tally).activation
          { function := extent }) later
  | [], tally, later, _ => by
      rw [stmtNodes, List.nil_append, walkStmts]
  | stmt :: stmts, tally, later, nested => by
      simp only [stmtsNested, Bool.and_eq_true] at nested
      rw [stmtNodes, List.append_assoc, finish_stmt stmt tally _ nested.1,
        finish_stmts stmts _ later nested.2, walkStmts]

end

/-- What tracking finds in a well nested body is what the account along its tree finds. -/
theorem finish_block {block : Block} (nested : block.nested = true) :
    subject.finish function stem (({} : Tally).activation { function := extent }) block.nodes =
      (subject.walkStmts function stem block.body {}).report := by
  have body := @finish_stmts subject function stem extent block.body {} [] nested
  rw [List.append_nil] at body
  rw [Block.nodes, body]
  rfl

/-- On every declaration and every closure literal whose stream is well nested, tracking by offsets
finds the violations and the closures that the account along the tree finds, in the same order. -/
theorem track_eq_walk (subject : Subject) (function : String) :
    (∀ decl : FuncDecl, decl.nested = true →
      subject.track function decl.stream = subject.walkDecl function decl) ∧
    ∀ literal : Closure, literal.body.nested = true →
      subject.track function literal.stream = subject.walkClosure function literal := by
  refine ⟨fun decl nested => ?_, fun literal nested => finish_block nested⟩
  unfold FuncDecl.nested at nested
  unfold FuncDecl.stream walkDecl
  cases body : decl.body with
  | none => rfl
  | some block =>
      rw [body] at nested
      exact finish_block nested

section Relocking

/-- The range from one offset up to another, on the line of the same number as the first. -/
def between (first last : Nat) : Span := ⟨first, last, first, 0, first, 0⟩

/-- The expression `mu.RLock` or `mu.RUnlock`, at the node of the given number. -/
def muSelector (index : Nat) (operation : String) : Expr :=
  .selector ⟨0, index⟩ (.ident ⟨⟨0, 0⟩, "mu", .zero⟩) ⟨⟨0, index⟩, operation, .zero⟩ .zero

/-- A function that acquires `mu`, defers a closure that releases it, returns the result of an
acquisition together with a closure, and acquires `mu` after the return. -/
def relocking : FuncDecl :=
  ⟨⟨0, 3⟩, ⟨⟨0, 4⟩, "F", .zero⟩, none, [], none,
    some ⟨[.expr (.call ⟨0, 5⟩ (muSelector 1 "RLock") [] (between 10 20)),
      .defer ⟨0, 6⟩
        (.literal ⟨0, 7⟩ [] none
          [.expr (.call ⟨0, 8⟩ (muSelector 2 "RUnlock") [] (between 40 50))]
          (between 38 52) (between 36 52)) [] (between 36 54) (between 30 54),
      .return [.call ⟨0, 9⟩ (muSelector 1 "RLock") [] (between 60 70),
        .literal ⟨0, 10⟩ [] none [] (between 74 76) (between 72 76)] (between 56 76),
      .expr (.call ⟨0, 11⟩ (muSelector 1 "RLock") [] (between 80 90))], between 5 95⟩,
    between 0 95⟩

/-- The program of that function. -/
def relockingSubject : Subject :=
  .ofTables ⟨[⟨0, "f.go", "main", ".", [], [.func relocking]⟩]⟩
    { symbols := #[⟨"mu", .var .package, 0, .unknown, none⟩,
        ⟨"RLock", .method .unknown, 1, .func, none⟩, ⟨"RUnlock", .method .unknown, 1, .func, none⟩]
      uses := Std.TreeMap.ofList [((⟨0, 0⟩ : NodeId), (0 : SymbolId)), (⟨0, 1⟩, 1), (⟨0, 2⟩, 2)]
      selections := Std.TreeMap.ofList [((⟨0, 1⟩ : NodeId), (1 : SymbolId)), (⟨0, 2⟩, 2)] }
    {}

/-- The deferred release lets the return acquire the lock, and the acquisition after the return is a
violation again. Both closures are noted, the one in the deferred call and the one in the return, and
tracked in their turn. -/
theorem relocking_tracked :
    relocking.nested = true ∧
    relockingSubject.track "F" relocking.stream = relockingSubject.walkDecl "F" relocking ∧
    (relockingSubject.walkDecl "F" relocking).violations =
      [⟨.direct, "F", ⟨"f.go", 80, 1⟩, "mu", []⟩] ∧
    (relockingSubject.walkDecl "F" relocking).closures.map (fun closure => closure.name) =
      ["F.func1", "F.func2"] ∧
    ∀ closure ∈ (relockingSubject.walkDecl "F" relocking).closures,
      relockingSubject.track closure.name closure.literal.stream =
        relockingSubject.walkClosure closure.name closure.literal := by
  have nested : relocking.nested = true := by decide +kernel
  have closures_nested : ∀ closure ∈ (relockingSubject.walkDecl "F" relocking).closures,
      closure.literal.body.nested = true := by decide +kernel
  refine ⟨nested, (track_eq_walk relockingSubject "F").1 relocking nested, by decide +kernel,
    by decide +kernel, ?_⟩
  intro closure member
  exact (track_eq_walk relockingSubject closure.name).2 closure.literal
    (closures_nested closure member)

end Relocking

end Subject

end Relock

import Relock.Lock.Search.Run
import Relock.Lock.State

/-!
# Tracking of an activation

An activation is one run of a function or closure. Tracking walks through its stream of nodes and
counts acquisitions and releases of a lock. The stream holds closures, deferred calls and returns
together with their parts; the extents of the state say which of these the walk is inside of.

* The parts of a closure belong to an activation of their own.
* The parts of a deferred call are not interpreted, but closures in them are noted.
* In a return the lock counts as released if a deferred call releases it.
-/

namespace Relock

/-- A closure literal that waits for an activation of its own. -/
structure PendingClosure where
  name : String
  literal : Closure
deriving Inhabited

/-- What tracking knows in the middle of an activation. -/
structure Activation where
  state : LockState
  violations : List Violation := []
  closures : List PendingClosure := []
deriving Inhabited

/-- What tracking finds in an activation. -/
structure ActivationReport where
  violations : List Violation := []
  closures : List PendingClosure := []
deriving Inhabited

namespace LockState

/-- The walk is still inside an extent at a node of the given range. -/
def inside (extent : Option Span) (span : Span) : Bool := extent.any span.startsWithin

/-- The walk has come to a node of the given range. When that is past a return, what the return
released is given back. -/
def passReturn (state : LockState) (span : Span) : LockState :=
  if state.returnExtent.isSome && !inside state.returnExtent span then
    { state with
      returnExtent := none
      held := state.held + state.releasedAtReturn
      releasedAtReturn := 0 }
  else
    state

/-- The walk enters a return, at which a deferred release takes effect. -/
def enterReturn (state : LockState) (span : Span) : LockState :=
  if state.deferredRelease && state.returnExtent.isNone then
    { state.release with returnExtent := some span, releasedAtReturn := state.releasable }
  else
    state

end LockState

namespace Subject

variable (subject : Subject)

/-- The call releases the lock of the state. -/
def releasesLock (state : LockState) (call : Call) : Bool :=
  subject.releases call && state.concerns (subject.path? call)

/-- The call runs a closure that itself releases the lock of the state. -/
def closureReleasesLock (state : LockState) (call : Call) : Bool :=
  match subject.closure? call with
  | some literal => literal.body.calls.any (subject.releasesLock state)
  | none => false

/-- The call acquires the lock that is held, in the same way as before. -/
def reacquires (state : LockState) (call : Call) : Bool :=
  state.heldLock.any fun lock => subject.repeats lock call

/-- The violation that a call makes in a state, if it makes one. -/
def violation? (function : String) (state : LockState) (call : Call) : Option Violation :=
  match state.heldLock with
  | none => none
  | some lock =>
      if subject.repeats lock call then
        some ⟨.direct, function, subject.location call, lock.describeTarget, []⟩
      else if subject.releases call then
        none
      else
        (subject.searchFrom lock call).map fun stack =>
          ⟨.nested, function, subject.location call, lock.describeTarget, stack⟩

/-- The state after the acquisition that a call may be. A lock other than the held one is not
counted. -/
def acquireBy (state : LockState) (call : Call) : LockState :=
  match subject.path? call with
  | some path =>
      if subject.acquires call then
        if state.held = 0 then
          { state with lock := some path }.acquire
        else if subject.reacquires state call then
          state.acquire
        else
          state
      else
        state
  | none => state

/-- The state after the release that a call may be. -/
def releaseBy (state : LockState) (call : Call) : LockState :=
  if subject.releasesLock state call then state.release else state

/-- The state after a call. -/
def stateAfter (state : LockState) (call : Call) : LockState :=
  subject.releaseBy (subject.acquireBy state call) call

/-- The state after a deferred call has been met. -/
def enterDefer (state : LockState) (call : Call) (span : Span) : LockState :=
  { state with
    deferExtent := some span
    deferredRelease := state.deferredRelease || subject.releasesLock state call ||
      subject.closureReleasesLock state call }

/-- Note a closure literal, under the next name. Its parts are skipped. -/
def noteClosure (stem : String) (activation : Activation) (literal : Closure) : Activation :=
  { activation with
    state :=
      { activation.state with
        closureExtent := activation.state.closureExtent.or (some literal.span) }
    closures := activation.closures ++
      [⟨stem ++ toString (activation.closures.length + 1), literal⟩] }

/-- Interpret a node that belongs to the activation. -/
def interpret (function stem : String) (activation : Activation) : Node → Activation
  | .func _ => activation
  | .closure literal => noteClosure stem activation literal
  | .call call =>
      { activation with
        state := subject.stateAfter activation.state call
        violations := activation.violations ++
          (subject.violation? function activation.state call).toList }
  | .defer call span =>
      { activation with state := subject.enterDefer activation.state call span }
  | .return span => { activation with state := activation.state.enterReturn span }

/-- Visit a node: skip it inside a closure, note only closures inside a deferred call, and interpret
it otherwise. -/
def visit (function stem : String) (activation : Activation) (node : Node) : Activation :=
  let state := activation.state
  if LockState.inside state.closureExtent node.span then
    activation
  else
    let state := { state with closureExtent := none }
    if LockState.inside state.deferExtent node.span then
      let activation := { activation with state }
      match node with
      | .closure literal => noteClosure stem activation literal
      | _ => activation
    else
      let state := { state with deferExtent := none }.passReturn node.span
      subject.interpret function stem { activation with state } node

/-- What the names of the closures in an activation begin with. -/
def closureStem (function : String) : Node → String
  | .closure _ => function ++ "."
  | _ => function ++ ".func"

/-- Track the activation with a name; the first node opens it. -/
def track (function : String) : List Node → ActivationReport
  | [] => {}
  | first :: nodes =>
      let stem := closureStem function first
      let activation := nodes.foldl (subject.visit function stem) { state := .enter first.span }
      ⟨activation.violations, activation.closures⟩

end Subject

end Relock

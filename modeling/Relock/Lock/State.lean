import Relock.Lock.Path

/-!
# Lock states

What tracking knows of the lock while it walks through an activation, that is, through the body of a
function or closure.
-/

namespace Relock

/-- The state of an activation. An extent is the range of a construct that the walk is inside of. -/
structure LockState where
  /-- How often the lock has been acquired and not yet released. -/
  held : Nat := 0
  /-- The lock that is counted, with the operation that acquired it. -/
  lock : Option AccessPath := none
  /-- A deferred call will release the lock. -/
  deferredRelease : Bool := false
  functionExtent : Option Span := none
  deferExtent : Option Span := none
  returnExtent : Option Span := none
  closureExtent : Option Span := none
  /-- What the current return has released and gives back at its end. -/
  releasedAtReturn : Nat := 0
deriving DecidableEq, Repr, Inhabited

namespace LockState

/-- The state at the beginning of an activation. -/
def enter (extent : Span) : LockState := { functionExtent := some extent }

/-- The lock, while it is held. -/
def heldLock (state : LockState) : Option AccessPath :=
  if 0 < state.held then state.lock else none

/-- Count one more acquisition. -/
def acquire (state : LockState) : LockState := { state with held := state.held + 1 }

/-- Count one acquisition less, unless there is none. -/
def release (state : LockState) : LockState := { state with held := state.held - 1 }

/-- How many acquisitions a release takes away. -/
def releasable (state : LockState) : Nat := min state.held 1

/-- An operation on the path is one on the lock. -/
def concerns (state : LockState) (path : Option AccessPath) : Bool :=
  match state.lock, path with
  | some lock, some path => lock.equal path 1
  | _, _ => false

@[simp]
theorem held_acquire (state : LockState) : state.acquire.held = state.held + 1 := rfl

theorem held_release_add_releasable (state : LockState) :
    state.release.held + state.releasable = state.held := by
  simp only [release, releasable]
  omega

end LockState

end Relock

import Winkyou.Spec.Session.Binding

/-!
# The path that takes over (`transport/multipath/transport.go`)
-/

namespace Winkyou.Session

/-- `pathState`, with what the choice of a standby reads. -/
structure ChildState extends Path where
  healthy : Bool

/-- `isProtectedDirectPath` of the multipath transport. -/
def Path.isProtectedDirectPath (path : Path) : Bool :=
  Session.isProtectedDirectPath
    { path.summary with role := if path.summary.role = .unset then path.role else path.summary.role }

/-- What the loop does with the best path so far and another one. -/
def prefer (best state : ChildState) : ChildState :=
  if state.isProtectedDirectPath && !best.isProtectedDirectPath then state
  else if state.role = best.role ∧ state.priority > best.priority then state
  else best

/-- One pass of the loop that `selectStandby` and `bestStandbyLocked` both have. -/
def considerStandby (excludeIDs : List String) (best : Option ChildState) (state : ChildState) :
    Option ChildState :=
  if state.id ∈ excludeIDs ∨ state.healthy = false then best
  else some (best.elim state (prefer · state))

def selectStandby (paths : List ChildState) (excludeIDs : List String) : Option ChildState :=
  paths.foldl (considerStandby excludeIDs) none

def bestStandbyLocked (paths : List ChildState) (excludeIDs : List String) : Option ChildState :=
  paths.foldl (considerStandby excludeIDs) none

end Winkyou.Session

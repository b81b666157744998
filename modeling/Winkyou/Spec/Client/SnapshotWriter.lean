import Mathlib.Data.Nat.Notation

/-!
# The runtime snapshot writer (`pkg/client/runtime_snapshot_writer.go`)

A section under `mu`, an operation on a channel and the start and end of `write` and `remove` are
one step each.
-/

namespace Winkyou.SnapshotWriter

/-- The next step of `run`; an error of `remove` is an `ε`. -/
inductive Point (ε : Type)
  | receive | choose | write | writing | discard | remove | removing
  | store (err : Option ε)
  | close | returned

/-- What has happened. -/
inductive Event (ε : Type)
  | requested (ok : Bool)
  | sealed | chosen | writeStarts | writeEnds | removeStarts
  | removeEnds (err : Option ε)
  /-- `none` is `ErrRuntimeSnapshotDrainPending`. -/
  | waited (result : Option (Option ε))

structure Writer (ε : Type) where
  closing : Bool := false
  err : Option ε := none
  /-- The notification in `wake`. -/
  wake : Bool := false
  done : Bool := false
  worker : Point ε := .receive
  /-- The last event first. -/
  log : List (Event ε) := []

inductive Action (ε : Type)
  | callRequest | callSeal
  | callWait (ctxDone : Bool)
  /-- The worker; `err` is the result of `remove`. -/
  | work (err : Option ε)

variable {ε : Type}

def Writer.run (w : Writer ε) (err : Option ε) : Option (Writer ε) :=
  match w.worker with
  | .receive => if w.wake then some { w with wake := false, worker := .choose } else none
  | .choose => some (if w.closing then { w with worker := .discard }
      else { w with worker := .write, log := .chosen :: w.log })
  | .write => some { w with worker := .writing, log := .writeStarts :: w.log }
  | .writing => some { w with worker := .receive, log := .writeEnds :: w.log }
  | .discard => some { w with wake := false, worker := .remove }
  | .remove => some { w with worker := .removing, log := .removeStarts :: w.log }
  | .removing => some { w with worker := .store err, log := .removeEnds err :: w.log }
  | .store err => some { w with err := err, worker := .close }
  | .close => some { w with done := true, worker := .returned }
  | .returned => none

def Writer.step (w : Writer ε) : Action ε → Option (Writer ε)
  | .callRequest => some (if w.closing then { w with log := .requested false :: w.log }
      else { w with wake := true, log := .requested true :: w.log })
  | .callSeal => some (if w.closing then w else { w with closing := true, wake := true, log := .sealed :: w.log })
  | .callWait ctxDone =>
    if w.done then some { w with log := .waited (some w.err) :: w.log }
    else if ctxDone then some { w with log := .waited none :: w.log } else none
  | .work err => w.run err

end Winkyou.SnapshotWriter

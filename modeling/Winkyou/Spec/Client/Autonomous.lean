import Winkyou.Spec.GoStd

/-!
# The lifecycle of the autonomous engine (`autonomous_engine.go`, `runtime.go`)

`Start` and `Stop` of an engine with a state file, one call at a time (`lifecycleMu`), and the loop
that writes the file. A mesh runtime is its number; what the runtime and the file system answer is
an input of each call.
-/

namespace Winkyou.Client.Autonomous

inductive EngineState
  | stopped
  | starting
  | connecting
  | connected
  | stopping
  deriving DecidableEq

/-- The state file holds no record, one with the instance id of the engine, or one of another
instance. -/
inductive StateFile
  | absent
  | own
  | foreign
  deriving DecidableEq

structure Engine where
  started : Bool := false
  state : EngineState := .stopped
  runtime : Option ℕ := none
  file : StateFile := .absent
  /-- the number of runtimes that were created -/
  created : ℕ := 0
  /-- the runtimes whose `Close` has returned nil -/
  closed : List ℕ := []
  /-- the runtimes that `closeAutonomousRuntime` was called for -/
  closeCalls : List ℕ := []

/-- Which steps of a call succeed; a write of the file that fails may have taken effect. -/
structure Answers where
  ownership : Bool := true
  create : Bool := true
  start : Bool := true
  persist : Bool := true
  wrote : Bool := true
  close : Bool := true
  remove : Bool := true

def Engine.persistState (e : Engine) (a : Answers) : Engine :=
  if a.persist || a.wrote then { e with file := .own } else e

/-- `closeAutonomousRuntime`; nothing without a runtime. -/
def Engine.closeRuntime (e : Engine) (a : Answers) : Engine :=
  match e.runtime with
  | none => e
  | some id => { e with closeCalls := e.closeCalls ++ [id], closed := if a.close then id :: e.closed else e.closed }

/-- Whether `RemoveRuntimeStateIfInstance` returns nil. -/
def Engine.removes (e : Engine) (a : Answers) : Bool := a.remove && e.file ≠ .foreign

def Engine.removeState (e : Engine) (a : Answers) : Engine :=
  if e.removes a then { e with file := .absent } else e

/-- The deferred clean-up of a `Start` that fails. -/
def Engine.cleanup (e : Engine) (a : Answers) : Engine :=
  { (e.closeRuntime a).removeState a with runtime := none, started := false, state := .stopped }

/-- `runtime.Start` and the first write of the state, for a runtime that was just created. -/
def Engine.startRuntime (e : Engine) (a : Answers) : Engine :=
  if a.start then
    let e := { e with state := .connected }.persistState a
    if a.persist then e else e.cleanup a
  else e.cleanup a

def Engine.start (e : Engine) (a : Answers) : Engine :=
  if e.started then e
  else if a.ownership && a.create then
    { e with started := true, state := .connecting, runtime := some e.created, created := e.created + 1 }.startRuntime a
  else { e with started := true, state := .starting }.cleanup a

def Engine.stop (e : Engine) (a : Answers) : Engine :=
  if e.started then
    let e := { e with state := .stopping }.closeRuntime a
    if e.runtime.isSome && !a.close then e.persistState a
    else if e.removes a then { e with file := .absent, started := false, state := .stopped, runtime := none }
    else e
  else e

/-- The calls, the writes of the state loop, the end of the runtime, and what other processes do to
the file. -/
inductive Action
  | start (a : Answers)
  | stop (a : Answers)
  | sync (a : Answers)
  | done
  | replaced (removed : Bool)

def Engine.step (e : Engine) : Action → Option Engine
  | .start a => some (e.start a)
  | .stop a => some (e.stop a)
  | .sync a => if e.state = .connected then some (e.persistState a) else none
  | .done => if e.state = .connected then some { e with state := .stopping } else none
  | .replaced removed => some { e with file := if removed then .absent else .foreign }

end Winkyou.Client.Autonomous

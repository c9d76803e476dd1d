import ResumeOnce.Reactor.Passing

/-!
# Owning

Operations in the world: their lifecycles with the hooks, and the handles by which
they are owned. A handle that goes away while its operation is still running is a
leak; a cancellable operation is then cancelled, an uncancellable one released.

* `cancelOperation`, `releaseOperation`, `finishOperation`: the three ends;
* `registerHook`: a hook waits for the cancellation, or runs at once;
* `dropHandle`: a holder of a handle goes away.
-/

namespace ResumeOnce.Reactor

variable (env : Env)

/-! ## Lifecycles -/

/-- A new lifecycle. -/
def newLifecycle : Act Nat := do
  let w ← get
  set { w with lifecycles := w.lifecycles.push .new }
  return w.lifecycles.size

/-- The lifecycle of a number. -/
def lifecycleAt (n : Nat) : Act (Lifecycle Hook) := return (← get).lifecycles.getD n default

/-- A lifecycle is changed. -/
def setLifecycle (n : Nat) (l : Lifecycle Hook) : Act Unit :=
  modify fun w => { w with lifecycles := w.lifecycles.setIfInBounds n l }

/-- Up to a bound, the hooks of a lifecycle are taken out and run. -/
def runHooks (n : Nat) : Nat → Act Unit
  | 0 => throw .exhausted
  | bound + 1 => do
    let (hook, l) := (← lifecycleAt n).takeHook
    match hook with
    | none => pure ()
    | some hook =>
      setLifecycle n l
      env.runHook hook
      runHooks n bound

/-- More hooks than this are not waited for. -/
def hookBound : Nat := 100000

/-- An operation is cancelled: whoever succeeds runs the hooks. -/
def cancelOperation (n : Nat) : Act (Except StatusFault Unit) := do
  match (← lifecycleAt n).move .cancelled with
  | .error f => return .error f
  | .ok l =>
    setLifecycle n l
    runHooks env n hookBound
    return .ok ()

/-- An operation is released. -/
def releaseOperation (n : Nat) : Act (Except StatusFault Unit) := do
  match (← lifecycleAt n).move .released with
  | .error f => return .error f
  | .ok l =>
    setLifecycle n l
    return .ok ()

/-- A hook waits for the cancellation of an operation, or runs at once if that has come. -/
def registerHook (n : Nat) (hook : Hook) : Act Unit := do
  setLifecycle n ((← lifecycleAt n).register hook)
  if (← lifecycleAt n).status = .cancelled then runHooks env n hookBound

/-- A hook that will not run is let go. -/
def dropHook : Hook → Act Unit
  | .closeChannel n => releaseChannel env n
  | .cancel _ => pure ()
  | .script _ _ => pure ()

/-- An operation has ended: unless it was cancelled, its hooks are let go. -/
def finishOperation (n : Nat) : Act Unit := do
  let (l, hooks) := (← lifecycleAt n).finish
  setLifecycle n l
  releaseAll (hooks.map (dropHook env))

/-- Whether an operation was cancelled, as its checkpoints tell. -/
def checkpoint (n : Nat) : Act (Outcome Unit) := do
  if (← lifecycleAt n).status = .cancelled then return .error Fault.cancelled else return .ok ()

/-! ## Handles -/

/-- A new handle with one holder. -/
def newHandle (sort : OperationSort) (lifecycle slot : Nat) (policy : LeakPolicy) : Act Nat := do
  let w ← get
  set { w with handles := w.handles.push ⟨sort, lifecycle, slot, policy, 1⟩ }
  return w.handles.size

/-- The handle of a number. -/
def handleAt (n : Nat) : Act Handle := return (← get).handles.getD n default

/-- A handle is changed. -/
def changeHandle (n : Nat) (f : Handle → Handle) : Act Unit :=
  modify fun w => { w with handles := w.handles.modify n f }

/-- One more holder of a handle. -/
def retainHandle (n : Nat) : Act Unit := changeHandle n fun h => { h with holders := h.holders + 1 }

/-- A handle of an operation that can be cancelled goes away. -/
def disownCancellable (h : Handle) : Act Unit := do
  if (← lifecycleAt h.lifecycle).status = .running then
    leak h.policy "Cancellable"
    let _ ← cancelOperation env h.lifecycle

/-- A handle of an operation that cannot be cancelled goes away. -/
def disownUncancellable (h : Handle) : Act Unit := do
  if (← lifecycleAt h.lifecycle).status = .running then
    leak h.policy "Uncancellable"
    let _ ← releaseOperation h.lifecycle

/-- A handle goes away, with what it holds. -/
def disown (h : Handle) : Act Unit :=
  match h.sort with
  | .cancellable => disownCancellable env h
  | .uncancellable => releaseAll [disownUncancellable h, disownCancellable env h]
  | .fold channel => releaseAll [releaseChannel env channel, disownCancellable env h]

/-- A holder of a handle goes away, and with the last one the handle. -/
def dropHandle (n : Nat) : Act Unit := do
  changeHandle n fun h => { h with holders := h.holders - 1 }
  let h ← handleAt n
  if h.holders = 0 then disown env h

end ResumeOnce.Reactor

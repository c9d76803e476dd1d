import ResumeOnce.Reactor.World

/-!
# Answering

How parties that wait are answered in the world: a slot is filled, whoever waits
at it is woken, and a right to answer that is dropped unused leaks. Whoever is
woken after the shutdown is abandoned on the spot; how that is done is left open
here.

* `Env`: what is left open;
* `resume`, `dropResumption`: the two ends of a right to answer;
* `dropCargo`: letting go of what a channel carries.
-/

namespace ResumeOnce.Reactor

/-- What actions rely on and what is defined on top of them: the abandoning of a task, and the
    running of a hook. -/
structure Env where
  abandon : Nat → Act Unit
  runHook : Hook → Act Unit

variable (env : Env)

/-! ## Waking -/

/-- A task that is in no queue is queued, or abandoned after the shutdown. -/
def schedule (t : Nat) : Act Unit := do
  let w ← get
  if w.circumstances.isShutdown then env.abandon t
  else set { w with board := w.board.queue w.circumstances.worker t }

/-- Somebody is woken. -/
def wake : Waker → Act Unit
  | .counter name => modify fun w => { w with woken := name :: w.woken }
  | .task t => do
    let (fresh, board) := (← get).board.notify t
    modify fun w => { w with board }
    if fresh then schedule env t
  | .thread => pure ()
  | .nobody => pure ()

/-- Somebody is woken, if there is anybody. -/
def wakeAny : Option Waker → Act Unit
  | none => pure ()
  | some waker => wake env waker

/-! ## Slots -/

/-- A new slot, whose waiting side is there. -/
def newSlot : Act Nat := do
  let w ← get
  set { w with slots := w.slots.push ⟨.new, true⟩ }
  return w.slots.size

/-- The slot of a number. -/
def slotAt (n : Nat) : Act SlotRecord := return (← get).slots.getD n default

/-- A slot is changed. -/
def setSlot (n : Nat) (slot : Slot Waker Parcel) : Act Unit :=
  modify fun w => { w with slots := w.slots.modify n fun r => { r with slot } }

/-- A slot is filled, and whoever waits at it is woken. -/
def completeSlot (n : Nat) (answer : Reply) : Act Unit := do
  let (slot, waker) := (← slotAt n).slot.complete answer
  setSlot n slot
  wakeAny env waker

/-- A slot is asked for its answer. -/
def pollSlot (n : Nat) (waker : Waker) : Act (Poll Reply) := do
  let (slot, woken, result) := (← slotAt n).slot.poll waker
  setSlot n slot
  wakeAny env woken
  return result

/-- What a slot still holds is taken out. -/
def emptySlot (n : Nat) : Act (Option Reply) := do
  let r ← slotAt n
  setSlot n { r.slot with result := none }
  return r.slot.result

/-! ## Resumptions -/

/-- A new right to answer, with its slot. -/
def newResumption (policy : LeakPolicy) : Act (Nat × Nat) := do
  let slot ← newSlot
  let w ← get
  set { w with resumptions := w.resumptions.push ⟨slot, false, policy⟩ }
  return (w.resumptions.size, slot)

/-- The right to answer of a number. -/
def resumptionAt (n : Nat) : Act Resumption := return (← get).resumptions.getD n default

/-- A right to answer is used, and its slot is told; none if it was used before. -/
def claim (n : Nat) : Act (Option Nat) := do
  match (← resumptionAt n).claim? with
  | none => return none
  | some r =>
    modify fun w => { w with resumptions := w.resumptions.setIfInBounds n r }
    return some r.slot

/-- A leak is counted, and its policy carried out. Nothing is left to do if it panics. -/
def leak (policy : LeakPolicy) (what : String) : Act Unit := do
  modify fun w => { w with leaks := w.leaks + 1 }
  match policy.effect ((← get).circumstances.unwinding != 0) with
  | .deliver => pure ()
  | .panic => panicWith (Leak.message what)
  | .abort => throw .aborted

/-- A right to answer is dropped; if it was not used, that is a leak. -/
def dropResumption (n : Nat) : Act Unit := do
  match ← claim n with
  | none => pure ()
  | some slot =>
    leak (← resumptionAt n).policy "Resumption"
    completeSlot env slot (.error Leak.fault)

/-- Rights to answer are dropped in order. -/
def dropResumptions (ns : List Nat) : Act Unit := releaseAll (ns.map (dropResumption env))

/-! ## Letting go -/

/-- What a channel carries is let go. -/
def dropCargo : Cargo → Act Unit
  | .datum _ => pure ()
  | .action a => dropResumptions env a.ack.toList
  | .paired a => dropResumption env a.sender
  | .merged a => dropResumption env a.sender

/-- What a slot delivers is let go. -/
def dropReply : Reply → Act Unit
  | .ok (.cargo c) => dropCargo env c
  | _ => pure ()

/-- The waiting side of a slot goes away, with what the slot may hold. -/
def dropWaiter (n : Nat) : Act Unit := do
  modify fun w => { w with slots := w.slots.modify n fun r => { r with heard := false } }
  match ← emptySlot n with
  | none => pure ()
  | some answer => dropReply env answer

/-- A right to answer is used for an answer; false if it was used before, in which case the
    answer is let go, as it is if nobody will hear it. -/
def resume (n : Nat) (answer : Reply) : Act Bool := do
  match ← claim n with
  | none =>
    dropReply env answer
    return false
  | some slot =>
    completeSlot env slot answer
    if !(← slotAt slot).heard then
      match ← emptySlot slot with
      | none => pure ()
      | some answer => dropReply env answer
    return true

/-- A right to answer is given up without an answer and without a leak. -/
def retire (n : Nat) : Act Unit := do
  let _ ← claim n

/-- Senders are answered in order. -/
def answerAll : Streams.Answers Nat → Act Unit
  | [] => pure ()
  | (n, demand) :: rest => do
    let _ ← resume env n (demand.map .demand)
    answerAll rest

end ResumeOnce.Reactor

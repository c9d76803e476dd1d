import ResumeOnce.Reactor.Performing

/-!
# Sessions with a channel

A session uses one channel, at once or by calls that are polled by name, with
wakers that count. A call does nothing before its first poll, but holds a handle of
the channel from the begin until it has its answer or is dropped.

* `ChannelSession.perform`: one command;
* `ChannelSession.run`: a session.
-/

namespace ResumeOnce.Reactor.ChannelSession

/-- A call on the channel that may wait. -/
inductive Call where
  | read (blocking : Bool)
  | write (value : Datum) (blocking : Bool)

/-- What can be done in a session. -/
inductive Command where
  | tryWrite (value : Datum)
  | tryRead
  | call (name : String) (call : Call)
  | poll (name waker : String)
  | wakes (waker : String)
  | dropCall (name : String)
  | close (c : Completion)
  | cancel (f : Fault)
  | completion
  | isClosed
  | isEmpty
  | buffering
  | describe
  | drop

/-- What a command answers. -/
inductive Reply where
  | nothing
  | done
  | pending
  /-- The call has had its answer, or was dropped. -/
  | gone
  | returned (r : Refusal Datum)
  | outcome (o : Outcome Datum)
  | count (n : Nat)
  | flag (b : Bool)
  | text (s : String)
  | values (values : List Datum)
  | completion (c : Option Completion)
  | panicked (text : String)

/-- What a command comes to: its answer, and the values and readers in the channel, or the
    number of leaks once the session has dropped its handle. -/
structure Seen where
  reply : Reply
  state : Nat × Nat ⊕ Nat

/-- How far a call is. -/
inductive Progress where
  | unstarted (call : Call)
  | waiting (slot : Nat)

/-- The channel, whether the session holds a handle of it, and the calls by name. -/
structure State where
  channel : Nat
  holds : Bool
  calls : List (String × Progress)

/-- The calls without one. -/
def State.without (s : State) (name : String) : State :=
  { s with calls := s.calls.filter (·.1 != name) }

/-- The calls with one more, or in place of the one of its name. -/
def State.assign (s : State) (name : String) (p : Progress) : State :=
  { s with calls := (name, p) :: (s.without name).calls }

/-- An answer of the channel as a session sees it. -/
def seen (o : Outcome Cargo) : Outcome Datum := o.map fun c => (Parcel.cargo c).toDatum

/-- A call begins: it has its answer, or waits at a slot. -/
def begin (n : Nat) : Call → Act (Outcome Datum ⊕ Nat)
  | .read false => return .inl (seen (← tryRead ambient n))
  | .write value false => do
    match ← tryWrite ambient n (.datum value) with
    | .refused refusal => return .inl (.error refusal.fault)
    | _ => return .inl (.ok .null)
  | .read true => do
    let (party, slot) ← newResumption (← policyOr none)
    match ← exchange ambient n (·.read (some party)) with
    | .settled answer =>
      retire party
      return .inl (seen answer)
    | .queued => return .inr slot
  | .write value true => do
    let (party, slot) ← newResumption (← policyOr none)
    match ← exchange ambient n (·.write (some party) (.datum value)) with
    | .handed =>
      retire party
      return .inl (.ok .null)
    | .refused refusal =>
      retire party
      return .inl (.error refusal.fault)
    | .queued => return .inr slot

/-- A call that waits is polled. -/
def pollWaiting (s : State) (name waker : String) (slot : Nat) : Act (State × Reply) := do
  match ← pollSlot ambient slot (.counter waker) with
  | .pending => return (s.assign name (.waiting slot), .pending)
  | .ready r =>
    releaseChannel ambient s.channel
    return (s.without name, .outcome (r.map Parcel.toDatum))

/-- A call is polled. -/
def poll (s : State) (name waker : String) : Act (State × Reply) := do
  match s.calls.lookup name with
  | none => return (s, .gone)
  | some (.waiting slot) => pollWaiting s name waker slot
  | some (.unstarted call) =>
    match ← begin s.channel call with
    | .inr slot => pollWaiting s name waker slot
    | .inl o =>
      releaseChannel ambient s.channel
      return (s.without name, .outcome o)

/-- A call is dropped, and with it its handle of the channel. -/
def dropCall (channel : Nat) : Progress → Act Unit
  | .unstarted _ => releaseChannel ambient channel
  | .waiting slot => releaseAll [dropWaiter ambient slot, releaseChannel ambient channel]

/-- The call of a name, if there is one, is dropped. -/
def dropNamed (channel : Nat) (old : Option Progress) : Act Unit :=
  releaseAll (old.toList.map (dropCall channel))

/-- The state behind a command, whether or not it panics. -/
def perform (s : State) : Command → State × Act (State × Reply)
  | .tryWrite value => (s, do
    match ← tryWrite ambient s.channel (.datum value) with
    | .refused refusal =>
      return (s, .returned ⟨refusal.fault, (Parcel.cargo refusal.value).toDatum⟩)
    | _ => return (s, .done))
  | .tryRead => (s, return (s, .outcome (seen (← tryRead ambient s.channel))))
  | .call name call =>
    let s' := s.assign name (.unstarted call)
    (s', do
      retainChannel s.channel
      dropNamed s.channel (s.calls.lookup name)
      return (s', .nothing))
  | .poll name waker => (s.without name, poll s name waker)
  | .wakes waker => (s, return (s, .count ((← get).woken.count waker)))
  | .dropCall name =>
    (s.without name, do
      dropNamed s.channel (s.calls.lookup name)
      return (s.without name, .nothing))
  | .close c => (s, return (s, .flag (← exchange ambient s.channel (·.close c))))
  | .cancel f => (s, do
    let values ← exchange ambient s.channel (·.cancel f)
    return (s, .values (values.map fun c => (Parcel.cargo c).toDatum)))
  | .completion => (s, return (s, .completion (← channelAt s.channel).completion))
  | .isClosed => (s, return (s, .flag (← channelAt s.channel).isClosed))
  | .isEmpty => (s, return (s, .flag ((← channelAt s.channel).size == 0)))
  | .buffering => (s, return (s, .text (← channelAt s.channel).buffering.describe))
  | .describe => (s, return (s, .text (← channelAt s.channel).describe))
  | .drop =>
    ({ s with holds := false }, do
      releaseChannel ambient s.channel
      return ({ s with holds := false }, .nothing))

/-- What is seen of the channel behind a command. -/
def look (s : State) (reply : Reply) : Act Seen := do
  let c ← channelAt s.channel
  if s.holds then return ⟨reply, .inl (c.size, c.waitingReaders)⟩
  else return ⟨reply, .inr (← get).leaks⟩

/-- Commands in order; the panic of one becomes its answer. -/
def performAll (s : State) : List Command → Act (List Seen)
  | [] => return []
  | command :: rest => do
    let (fallback, act) := perform s command
    let (s', reply) ← catchPanic act fun scream => return (fallback, .panicked scream.message)
    let one ← look s' reply
    return one :: (← performAll s' rest)

/-- A session with a new channel: what is seen, and the number of leaks. -/
def session (buffering : Buffering) (commands : List Command) : Act (List Seen) := do
  performAll ⟨← newChannel buffering, true, []⟩ commands

/-- A session under a leak policy: what is seen, and the number of leaks. -/
def run (policy : LeakPolicy) (buffering : Buffering) (commands : List Command) :
    Except Halt (List Seen × Nat) :=
  let (result, w) := (session buffering commands).run.run (World.new policy)
  result.map (·, w.leaks)

end ResumeOnce.Reactor.ChannelSession

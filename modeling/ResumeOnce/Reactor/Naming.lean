import ResumeOnce.Reactor.Owning
import ResumeOnce.Text.JsonString

/-!
# Naming

How a script finds the things of the world: by their names, each sort on its own.
A thing that gets the name of another takes its place, and the other is let go.

* `named`: the thing of a name;
* `nameGate`, `nameWaiter`, `nameChannel`, `nameTask`: a thing gets a name;
* `takeWaiter`: the party that waits under a name is taken away from it.
-/

namespace ResumeOnce.Reactor

/-! ## Finding -/

/-- What is said of a name that nothing has. -/
def missingText (name : String) : String := "no " ++ Text.jsonString name

/-- A name that nothing has is a panic. -/
def missing (name : String) : Act α := panicWith (missingText name)

/-- The thing of a name, given the names of its sort. -/
def named (names : Directory → Names) (name : String) : Act Nat := do
  match (names (← get).directory).lookup name with
  | none => missing name
  | some n => return n

/-- The right to answer of a gate. -/
def namedGate (name : String) : Act Nat := named Directory.gates name

/-- The slot of the party that waits under a name. -/
def namedWaiter (name : String) : Act Nat := named Directory.waiters name

/-- The channel of a name. -/
def namedChannel (name : String) : Act Nat := named Directory.channels name

/-- The handle of a name. -/
def namedTask (name : String) : Act Nat := named Directory.tasks name

/-- The lifecycle of the kept handle of a name. -/
def namedHandle (name : String) : Act Nat := named Directory.handles name

/-- The lifecycle of the token of a name. -/
def namedToken (name : String) : Act Nat := named Directory.tokens name

/-- The channel of the fold of a name. -/
def namedFold (name : String) : Act Nat := do
  match (← handleAt (← namedTask name)).sort with
  | .fold channel => return channel
  | _ => missing name

/-- Whether a program waits for the value of the task of a name. -/
def isAwaited (name : String) : Act Bool := return (← get).directory.awaited.contains name

/-! ## Giving and taking names -/

variable (env : Env)

/-- Whatever had a name before is let go. -/
def replacing (old : Option Nat) (release : Nat → Act Unit) : Act Unit :=
  releaseAll (old.toList.map release)

/-- A right to answer gets a name. -/
def nameGate (name : String) (n : Nat) : Act Unit := do
  let old := (← get).directory.gates.lookup name
  changeDirectory fun d => { d with gates := d.gates.assign name n }
  replacing old (dropResumption env)

/-- A party that waits gets a name. -/
def nameWaiter (name : String) (slot : Nat) : Act Unit := do
  let old := (← get).directory.waiters.lookup name
  changeDirectory fun d => { d with waiters := d.waiters.assign name slot }
  replacing old (dropWaiter env)

/-- A channel gets a name. -/
def nameChannel (name : String) (n : Nat) : Act Unit := do
  let old := (← get).directory.channels.lookup name
  changeDirectory fun d => { d with channels := d.channels.assign name n }
  replacing old (releaseChannel env)

/-- A handle gets a name. -/
def nameTask (name : String) (handle : Nat) : Act Unit := do
  let old := (← get).directory.tasks.lookup name
  changeDirectory fun d => { d with tasks := d.tasks.assign name handle }
  replacing old (dropHandle env)

/-- The party that waits under a name is taken away from it. -/
def takeWaiter (name : String) : Act Nat := do
  let slot ← namedWaiter name
  changeDirectory fun d => { d with waiters := d.waiters.without name }
  return slot

end ResumeOnce.Reactor

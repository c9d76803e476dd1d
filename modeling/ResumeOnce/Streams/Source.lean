import ResumeOnce.Streams.Event

/-!
# Sources

A source pushes the values of a supply one after another. Before each value it
looks whether it was cancelled; behind the last it pushes the regular completion.
It stops when the downstream answers that it is done, or with a fault.

* `Supply`: where values come from, perhaps without end;
* `Source`: what a source is about to do;
* `Source.next`: what it does behind an answer.
-/

namespace ResumeOnce.Streams

/-- Where values come from: a state, and how to draw the next value from it. -/
structure Supply (σ : Type u) (α : Type v) where
  state : σ
  draw : σ → Option (α × σ)

/-- The supply of the values of a list. -/
def Supply.ofList (values : List α) : Supply (List α) α :=
  ⟨values, fun
    | [] => none
    | a :: rest => some (a, rest)⟩

/-- What a source is about to do. -/
inductive Source (σ : Type u) (α : Type v) where
  /-- Look whether it was cancelled. -/
  | checkpoint (value : α) (rest : σ)
  /-- Push a value. -/
  | push (value : α) (rest : σ)
  /-- Push the completion. -/
  | complete
  /-- Nothing more. -/
  | settled (result : Outcome Demand)

namespace Source

/-- The source that goes on with the next value of a supply. -/
def draw (draw : σ → Option (α × σ)) (s : σ) : Source σ α :=
  match draw s with
  | some (a, rest) => checkpoint a rest
  | none => complete

/-- The source at its begin. -/
def start (supply : Supply σ α) : Source σ α := draw supply.draw supply.state

/-- What may be answered to a source. -/
def Answer : Source σ α → Type
  | checkpoint _ _ => Outcome Unit
  | push _ _ => Outcome Demand
  | complete => Outcome Demand
  | settled _ => Unit

/-- What a source does behind an answer. -/
def next (supply : σ → Option (α × σ)) : (s : Source σ α) → s.Answer → Source σ α
  | checkpoint a rest, .ok _ => push a rest
  | checkpoint _ _, .error f => settled (.error f)
  | push _ rest, .ok .more => draw supply rest
  | push _ _, .ok .done => settled (.ok .done)
  | push _ _, .error f => settled (.error f)
  | complete, answer => settled answer
  | settled r, _ => settled r

end Source

end ResumeOnce.Streams

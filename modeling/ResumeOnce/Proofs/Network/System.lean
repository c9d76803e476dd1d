import ResumeOnce.Proofs.Run
import ResumeOnce.Proofs.Streams.Combination

/-!
# Streams among others

A stream that has been subscribed to goes on by the steps of its tasks. Now and then it
calls its downstream with an event, and in the end it is over. Its downstream answers the
calls, and its owner may cancel it; both are told as steps as well, so that a run of a stream
is a run among all others that there could be.

* `System`: what a stream can do, and what can be done to it;
* `Standing`: what others know of a stream;
* `Exposed`, `Exposed.Step`: a stream, when others do to it what they like;
* `Reaches`, `Reaches.invariant`: the states that a stream comes to, and what holds at all of them;
* `Polite`, `Lively`: a stream calls when it may; and it is never stuck.
-/

namespace ResumeOnce.Network

open Streams

/-- What a stream does: something that nobody else notices, a call of its downstream, or its
    end. -/
inductive Move (α : Type) where
  | tacit
  | calls (event : Event α)
  | ends (result : Outcome Demand)

/-- A stream that has been subscribed to. Its tasks take the steps, each of them only when it is
    runnable. -/
structure System (α : Type) where
  State : Type
  start : State
  Step : State → Move α → State → Prop
  /-- The downstream answers the event that it was called with. -/
  answer : Outcome Demand → State → State
  /-- The owner cancels the stream. -/
  cancel : State → State
  /-- Whether some task of the stream is runnable. -/
  Runnable : State → Prop

/-- Whether an answer tells a stream to stop. -/
def dismisses : Outcome Demand → Bool
  | .ok .more => false
  | _ => true

/-- What others know of a stream. -/
structure Standing where
  /-- Its downstream has not yet answered. -/
  calling : Bool
  /-- It has called its downstream with its completion. -/
  ended : Bool
  /-- It was told to stop, or cancelled. -/
  dismissed : Bool
  /-- It is over. -/
  finished : Bool

/-- What is done by a stream, or to it. -/
inductive Act (α : Type) where
  | moved (m : Move α)
  | answered (answer : Outcome Demand)
  | cancelled

namespace Standing

/-- Nothing has been done yet. -/
def new : Standing := ⟨false, false, false, false⟩

/-- What others know of a stream behind an act. -/
def after (x : Standing) : Act α → Standing
  | .moved .tacit => x
  | .moved (.calls e) => { x with calling := true, ended := x.ended || isCompletion e }
  | .moved (.ends _) => { x with finished := true }
  | .answered o => { x with calling := false, dismissed := x.dismissed || dismisses o }
  | .cancelled => { x with dismissed := true }

end Standing

/-- A stream and what others know of it. -/
structure Exposed (S : System α) where
  standing : Standing
  state : S.State

namespace Exposed

/-- A stream that has just been subscribed to. -/
def new (S : System α) : Exposed S := ⟨.new, S.start⟩

/-- What can happen to a stream: it takes a step, its downstream answers a call, or somebody
    cancels it. -/
inductive Step {S : System α} : Exposed S → Act α → Exposed S → Prop
  | move {x : Standing} {s s' : S.State} {m : Move α} : S.Step s m s' →
      Step ⟨x, s⟩ (.moved m) ⟨x.after (.moved m), s'⟩
  | answer {x : Standing} {s : S.State} (o : Outcome Demand) : x.calling = true →
      Step ⟨x, s⟩ (.answered o) ⟨x.after (α := α) (.answered o), S.answer o s⟩
  | cancel {x : Standing} {s : S.State} :
      Step ⟨x, s⟩ .cancelled ⟨x.after (α := α) .cancelled, S.cancel s⟩

end Exposed

/-- Whether a stream comes to a state, with what others know of it then. -/
def Reaches (S : System α) (x : Standing) (s : S.State) : Prop :=
  ∃ t, Run Exposed.Step (.new S) t ⟨x, s⟩

namespace Reaches

variable {S : System α} {x : Standing} {s s' : S.State}

theorem start (S : System α) : Reaches S .new S.start := ⟨[], .nil⟩

theorem move (h : Reaches S x s) {m : Move α} (hs : S.Step s m s') :
    Reaches S (x.after (.moved m)) s' :=
  let ⟨_, hr⟩ := h
  ⟨_, hr.snoc (.move hs)⟩

theorem answer (h : Reaches S x s) (hx : x.calling = true) (o : Outcome Demand) :
    Reaches S (x.after (α := α) (.answered o)) (S.answer o s) :=
  let ⟨_, hr⟩ := h
  ⟨_, hr.snoc (.answer o hx)⟩

theorem cancel (h : Reaches S x s) : Reaches S (x.after (α := α) .cancelled) (S.cancel s) :=
  let ⟨_, hr⟩ := h
  ⟨_, hr.snoc .cancel⟩

/-- What holds at the begin and is kept by whatever is done holds at every state. -/
theorem invariant {P : Standing → S.State → Prop} (h₀ : P .new S.start)
    (hm : ∀ {x s m s'}, P x s → S.Step s m s' → P (x.after (.moved m)) s')
    (ha : ∀ {x s} o, P x s → x.calling = true → P (x.after (α := α) (.answered o)) (S.answer o s))
    (hc : ∀ {x s}, P x s → P (x.after (α := α) .cancelled) (S.cancel s))
    (h : Reaches S x s) : P x s := by
  obtain ⟨t, hr⟩ := h
  refine hr.invariant (P := fun _ e => P e.standing e.state) h₀ ?_
  intro t e a e' hp hs
  cases hs with
  | move hs => exact hm hp hs
  | answer o hx => exact ha o hp hx
  | cancel => exact hc hp

end Reaches

/-- A stream is over when it has come to its end. -/
theorem finished_iff {S : System α} {t : List (Act α)} {e e' : Exposed S}
    (h : Run Exposed.Step e t e') : e'.standing.finished = true ↔
      e.standing.finished = true ∨ ∃ r, .moved (.ends r) ∈ t := by
  refine h.invariant (P := fun t e' => e'.standing.finished = true ↔
    e.standing.finished = true ∨ ∃ r, .moved (.ends r) ∈ t) (by simp) fun ih hs => ?_
  cases hs with
  | @move x s s' m hs =>
    cases m with
    | tacit | calls => simpa [Standing.after] using ih
    | ends r => simp [Standing.after]
  | answer | cancel => simpa [Standing.after] using ih

/-- A stream calls its downstream with one event at a time, and with one completion. -/
def Polite (S : System α) : Prop :=
  ∀ ⦃x s e s'⦄, Reaches S x s → S.Step s (.calls e) s' →
    x.calling = false ∧ (isCompletion e = true → x.ended = false)

/-- A stream keeps to the rules, and is never stuck. -/
structure Lively (S : System α) : Prop where
  /-- Only a task that is runnable takes a step. -/
  runs : ∀ {s m s'}, S.Step s m s' → S.Runnable s
  /-- It calls its downstream with one event at a time, and with one completion. -/
  calls : ∀ {x s e s'}, Reaches S x s → S.Step s (.calls e) s' →
    x.calling = false ∧ x.finished = false ∧ (isCompletion e = true → x.ended = false)
  /-- It is over only when its downstream has its completion, or has told it to stop, or when it
      was cancelled. -/
  ends : ∀ {x s r s'}, Reaches S x s → S.Step s (.ends r) s' →
    x.calling = false ∧ x.finished = false ∧ (x.ended = true ∨ x.dismissed = true)
  /-- It is over, or its downstream has to answer, or some task can take a step. -/
  live : ∀ {x s}, Reaches S x s → x.finished = true ∨ x.calling = true ∨ ∃ m s', S.Step s m s'

theorem Lively.polite {S : System α} (h : Lively S) : Polite S := fun _ _ _ _ hr hs =>
  let ⟨hc, _, he⟩ := h.calls hr hs
  ⟨hc, he⟩

/-- A stream that is over has sent its completion, or has been dismissed. -/
theorem Lively.finished {S : System α} (h : Lively S) {x : Standing} {s : S.State}
    (hr : Reaches S x s) : x.finished = true → x.ended = true ∨ x.dismissed = true := by
  obtain ⟨t, hr⟩ := hr
  refine (hr.invariant (P := fun t e => Run Exposed.Step (.new S) t e ∧
    (e.standing.finished = true → e.standing.ended = true ∨ e.standing.dismissed = true))
    ⟨.nil, fun hx => nomatch hx⟩ ?_).2
  rintro t e a e' ⟨hr, hp⟩ hs
  refine ⟨hr.snoc hs, ?_⟩
  cases hs with
  | @move x s s' m hs =>
    cases m with
    | tacit => exact hp
    | calls e =>
      intro hx
      exact absurd hx (by simp [Standing.after, (h.calls ⟨t, hr⟩ hs).2.1])
    | ends r => exact fun _ => (h.ends ⟨t, hr⟩ hs).2.2
  | answer o hx => exact fun hx => (hp hx).imp_right fun hd => Bool.or_eq_true_iff.2 (.inl hd)
  | cancel => exact fun _ => .inr rfl

end ResumeOnce.Network

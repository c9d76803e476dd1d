import ResumeOnce.Proofs.Network.Node

/-!
# Streams that remember

A stream may remember what was done by it and to it. Nobody notices: it takes the same steps as
before, and so does a combination whose feeders remember. So what the feeders of a combination went
through can be told of every run of it.

* `Traced`, `System.traced`: a stream that remembers its acts;
* `run_traced`: what it remembers is how it came to its state;
* `Node.forget`: a combination, without what its feeders remember;
* `Node.run_remember`: it has the same runs as one whose feeders remember.
-/

namespace ResumeOnce.Network

open Streams

section Traced

variable {α : Type} {S : System α}

/-- A stream and what was done by it and to it. -/
structure Traced (S : System α) where
  state : S.State
  acts : List (Act α)

/-- A stream that remembers what was done by it and to it. -/
def System.traced (S : System α) : System α where
  State := Traced S
  start := ⟨S.start, []⟩
  Step s m s' := S.Step s.state m s'.state ∧ s'.acts = s.acts ++ [.moved m]
  answer o s := ⟨S.answer o s.state, s.acts ++ [.answered o]⟩
  cancel s := ⟨S.cancel s.state, s.acts ++ [.cancelled]⟩
  Runnable s := S.Runnable s.state

/-- What a stream remembers is how it came to its state. -/
theorem run_traced {x : Standing} {s : Traced S} (h : Reaches S.traced x s) :
    Run Exposed.Step (.new S) s.acts ⟨x, s.state⟩ := by
  refine h.invariant (P := fun x (s : Traced S) => Run Exposed.Step (.new S) s.acts ⟨x, s.state⟩)
    .nil ?_ ?_ ?_
  · rintro x s m s' hr ⟨hs, ha⟩
    exact ha ▸ hr.snoc (.move hs)
  · exact fun o hr hx => hr.snoc (.answer o hx)
  · exact fun hr => hr.snoc .cancel

theorem Polite.traced (h : Polite S) : Polite S.traced := fun _ _ _ _ hr hs =>
  h ⟨_, run_traced hr⟩ hs.1

end Traced

variable {C : Combiner} {S : (i : C.Feeder) → System (C.Input i)} {order : List C.Feeder}

/-- Streams that remember what was done by them and to them. -/
abbrev traced (S : (i : C.Feeder) → System (C.Input i)) (i : C.Feeder) : System (C.Input i) :=
  (S i).traced

/-- The states of some streams, without what they remember. -/
def states (feeder : (i : C.Feeder) → (traced S i).State) (i : C.Feeder) : (S i).State :=
  Traced.state (feeder i)

section States

variable {feeder : (i : C.Feeder) → (traced S i).State}

theorem states_heard (waiting : C.Feeder → Option C.Right) (as : Answers C.Right) :
    states (heard waiting as feeder) = heard waiting as (states feeder) := by
  funext i
  rw [states, heard, heard]
  split <;> rfl

theorem states_directed (waiting : C.Feeder → Option C.Right) (e : Seen C) :
    states (directed waiting e feeder) = directed waiting e (states feeder) := by
  rw [directed, directed]
  split
  · rw [← states_heard]
    rfl
  · exact states_heard waiting e.answers

theorem states_update (i : C.Feeder) (state : (traced S i).State) :
    states (Function.update feeder i state) =
      Function.update (states feeder) i (Traced.state state) := by
  funext j
  by_cases hj : j = i
  · subst hj
    rw [states, Function.update_self, Function.update_self]
  · rw [states, Function.update_of_ne hj, Function.update_of_ne hj, states]

end States

namespace Node

variable {s s' : Node C (traced S)} {s₀ : Node C S} {m : Move C.Output}

/-- A combination, without what its feeders remember. -/
def forget (s : Node C (traced S)) : Node C S where
  started := s.started
  cancelled := s.cancelled
  finished := s.finished
  awake := s.awake
  drive := s.drive
  fold := s.fold
  parked := s.parked
  final := s.final
  outlet := s.outlet
  feeder := states s.feeder
  result := s.result

theorem runs_forget {a : Agent} : s.forget.Runs a ↔ s.Runs a := by cases a <;> exact Iff.rfl

theorem forget_update (d : Drive) (i : C.Feeder) (state : (traced S i).State) :
    forget { s with
      feeder := Function.update s.feeder i state
      drive := d } =
    { s.forget with
      feeder := Function.update s.forget.feeder i (Traced.state state)
      drive := d } :=
  congrArg (fun feeder => { s.forget with
    feeder := feeder
    drive := d }) (states_update i state)

theorem forget_follow (e : Seen C) (f : Combination C) :
    (s.follow e f).forget = s.forget.follow e f :=
  congrArg (fun feeder => change f { s.forget with feeder := feeder }) (states_directed _ e)

theorem forget_cancelFold : s.cancelFold.forget = s.forget.cancelFold := by
  rw [cancelFold, cancelFold]
  exact apply_ite forget _ _ _

theorem forget_launch : s.launch.forget = s.forget.launch := by
  rw [launch, launch]
  exact (apply_ite forget _ _ _).trans (by rw [forget_cancelFold]; rfl)

theorem forget_cancel : s.cancel.forget = s.forget.cancel := by
  rw [cancel, cancel]
  refine (apply_ite forget _ _ _).trans (congrArg (ite _ _) ?_)
  exact (apply_ite forget _ _ _).trans (by rw [forget_cancelFold]; rfl)

theorem forget_answer (o : Outcome Demand) : (s.answer o).forget = s.forget.answer o := by
  show _ = Node.answer o _
  rw [answer, answer]
  rw [show s.forget.outlet = s.outlet from rfl]
  rcases s.outlet with _ | ⟨a, slot⟩ <;> rfl

theorem forget_receive (i : C.Feeder) (e : Event (C.Input i)) (state : (traced S i).State) :
    (s.receive i e state).forget = s.forget.receive i e (Traced.state state) :=
  congrArg (fun feeder => change _ { s.forget with feeder := feeder })
    ((states_heard _ _).trans (congrArg (heard _ _) (states_update i state)))

theorem forget_release (i : C.Feeder) (r : Outcome Demand) (state : (traced S i).State) :
    (s.release i r state).forget = s.forget.release i r (Traced.state state) :=
  congrArg (fun feeder => wake _ { s.forget with
    feeder := feeder
    result := Function.update s.result i ((s.result i).complete r).1 }) (states_update i state)

/-- A stream that takes a step remembers it. -/
theorem remembered {i : C.Feeder} {m : Move (C.Input i)} {state : (S i).State}
    (hf : (S i).Step (s.forget.feeder i) m state) :
    (traced S i).Step (s.feeder i) m ⟨state, Traced.acts (s.feeder i) ++ [.moved m]⟩ := ⟨hf, rfl⟩

/-- A combination whose feeders remember does what it would do otherwise. -/
theorem step_forget (hs : Step order s m s') : Step order s.forget m s'.forget := by
  cases hs with
  | launch ha hs => exact forget_launch ▸ .launch (runs_forget.2 ha) hs
  | fold ha hs he => exact forget_follow _ _ ▸ .fold (runs_forget.2 ha) hs he
  | park ha hp => exact .park (runs_forget.2 ha) hp
  | push ha ho hs => exact forget_follow (s := s.call .fold) _ _ ▸ .push (runs_forget.2 ha) ho hs
  | reply ha ho hp hs =>
    exact forget_follow (s := { s with outlet := none }) _ _ ▸ .reply (runs_forget.2 ha) ho hp hs
  | stop ha hc => exact .stop (runs_forget.2 ha) hc
  | wait ha hs ho hp => exact .wait (runs_forget.2 ha) hs ho hp
  | attend ha hs hd hp => exact .attend (runs_forget.2 ha) hs hd hp
  | learn ha hs hd hp => exact .learn (runs_forget.2 ha) hs hd hp
  | complete ha hs hd ho => exact .complete (runs_forget.2 ha) hs hd ho
  | completed ha hs hd ho hp => exact .completed (runs_forget.2 ha) hs hd ho hp
  | dismiss ha hs hd hi =>
    exact forget_update _ _ _ ▸ .dismiss (runs_forget.2 ha) hs hd hi
  | linger ha hs hd hi hp => exact .linger (runs_forget.2 ha) hs hd hi hp
  | leave ha hs hd hi hp => exact .leave (runs_forget.2 ha) hs hd hi hp
  | finish ha hs hd => exact .finish (runs_forget.2 ha) hs hd
  | feeder hs hf => exact forget_update _ _ _ ▸ .feeder hs hf.1
  | receive hs hf => exact forget_receive _ _ _ ▸ .receive hs hf.1
  | release hs hf => exact forget_release _ _ _ ▸ .release hs hf.1

/-- The feeders of a combination may remember what is done by them and to them. -/
theorem step_remember (hs : Step order s.forget m s₀) :
    ∃ s', Step order s m s' ∧ s'.forget = s₀ := by
  cases hs with
  | launch ha hs => exact ⟨_, .launch (runs_forget.1 ha) hs, forget_launch⟩
  | fold ha hs he => exact ⟨_, .fold (runs_forget.1 ha) hs he, forget_follow _ _⟩
  | park ha hp => exact ⟨_, .park (runs_forget.1 ha) hp, rfl⟩
  | push ha ho hs => exact ⟨_, .push (runs_forget.1 ha) ho hs, forget_follow _ _⟩
  | reply ha ho hp hs => exact ⟨_, .reply (runs_forget.1 ha) ho hp hs, forget_follow _ _⟩
  | stop ha hc => exact ⟨_, .stop (runs_forget.1 ha) hc, rfl⟩
  | wait ha hs ho hp => exact ⟨_, .wait (runs_forget.1 ha) hs ho hp, rfl⟩
  | attend ha hs hd hp => exact ⟨_, .attend (runs_forget.1 ha) hs hd hp, rfl⟩
  | learn ha hs hd hp => exact ⟨_, .learn (runs_forget.1 ha) hs hd hp, rfl⟩
  | complete ha hs hd ho => exact ⟨_, .complete (runs_forget.1 ha) hs hd ho, rfl⟩
  | completed ha hs hd ho hp => exact ⟨_, .completed (runs_forget.1 ha) hs hd ho hp, rfl⟩
  | dismiss ha hs hd hi => exact ⟨_, .dismiss (runs_forget.1 ha) hs hd hi, forget_update _ _ _⟩
  | linger ha hs hd hi hp => exact ⟨_, .linger (runs_forget.1 ha) hs hd hi hp, rfl⟩
  | leave ha hs hd hi hp => exact ⟨_, .leave (runs_forget.1 ha) hs hd hi hp, rfl⟩
  | finish ha hs hd => exact ⟨_, .finish (runs_forget.1 ha) hs hd, rfl⟩
  | feeder hs hf => exact ⟨_, .feeder hs (remembered hf), forget_update _ _ _⟩
  | receive hs hf => exact ⟨_, .receive hs (remembered hf), forget_receive _ _ _⟩
  | release hs hf => exact ⟨_, .release hs (remembered hf), forget_release _ _ _⟩

section Runs

variable {t : List (Act C.Output)} {x x' : Standing}

/-- In every run of a combination the feeders may remember what is done by them and to them. -/
theorem run_remember
    (h : Run (Exposed.Step (S := System.combine C S order)) ⟨x, s.forget⟩ t ⟨x', s₀⟩) :
    ∃ s' : Node C (traced S), s'.forget = s₀ ∧
      Run (Exposed.Step (S := System.combine C (traced S) order)) ⟨x, s⟩ t ⟨x', s'⟩ := by
  refine h.invariant (P := fun t (e : Exposed (System.combine C S order)) =>
    ∃ s' : Node C (traced S), s'.forget = e.state ∧
      Run (Exposed.Step (S := System.combine C (traced S) order)) ⟨x, s⟩ t ⟨e.standing, s'⟩)
    ⟨s, rfl, .nil⟩ ?_
  rintro t ⟨y, _⟩ a e ⟨s', rfl, hr⟩ hs
  cases hs with
  | move hs =>
    obtain ⟨s'', hs, hf⟩ := step_remember hs
    exact ⟨s'', hf, hr.snoc (.move hs)⟩
  | answer o hx => exact ⟨_, forget_answer o, hr.snoc (.answer o hx)⟩
  | cancel => exact ⟨_, forget_cancel, hr.snoc .cancel⟩

end Runs

end Node

end ResumeOnce.Network

import ResumeOnce.Proofs.Network.Call
import ResumeOnce.Streams.Source

/-!
# Sources among others

The task of a source pushes the values of its supply one by one, and then a completion. It
waits at a slot for the answer to each event, and is woken when the answer comes.

* `Sourcing`, `Sourcing.Step`: a source and its task;
* `System.source`: a source as a stream;
* `Sourcing.Kept`: what holds whatever is done to it;
* `lively_source`: it is never stuck.
-/

namespace ResumeOnce.Network

open Streams

variable {σ α : Type}

/-- A source that runs. -/
structure Sourcing (σ α : Type) where
  source : Source σ α
  /-- The slot at which it waits for the answer to its event. -/
  call : Option (Slot Unit Demand)
  awake : Bool
  cancelled : Bool
  finished : Bool

namespace Sourcing

/-- A source at its begin. -/
def new (supply : Supply σ α) : Sourcing σ α := ⟨Source.start supply, none, true, false, false⟩

/-- The event that a source is about to push, given its completion. -/
def event? (c : Completion) : Source σ α → Option (Event α)
  | .push a _ => some (.value a)
  | .complete => some (.completion c)
  | _ => none

/-- The source behind the answer to its event. -/
def told (draw : σ → Option (α × σ)) : Source σ α → Outcome Demand → Source σ α
  | .push a rest, o => Source.next draw (.push a rest) o
  | .complete, o => Source.next draw .complete o
  | s, _ => s

/-- What the checkpoint of a source tells. -/
def checkpoint (s : Sourcing σ α) : Outcome Unit :=
  if s.cancelled then .error Fault.cancelled else .ok ()

/-- Whether the task of a source is runnable. -/
def Runs (s : Sourcing σ α) : Prop := s.finished = false ∧ s.awake = true

/-- What the task of a source does when it is runnable. -/
inductive Step (draw : σ → Option (α × σ)) (c : Completion) :
    Sourcing σ α → Move α → Sourcing σ α → Prop
  | look {s : Sourcing σ α} {a : α} {rest : σ} : s.Runs → s.source = .checkpoint a rest →
      Step draw c s .tacit
        { s with source := Source.next draw (.checkpoint a rest) s.checkpoint }
  | call {s : Sourcing σ α} {e : Event α} : s.Runs → s.call = none →
      event? c s.source = some e → Step draw c s (.calls e) { s with call := some .new }
  | wait {s : Sourcing σ α} {slot slot' : Slot Unit Demand} {w : Option Unit} : s.Runs →
      s.call = some slot → slot.poll () = (slot', w, .pending) →
      Step draw c s .tacit { s with call := some slot', awake := false }
  | take {s : Sourcing σ α} {slot slot' : Slot Unit Demand} {w : Option Unit}
      {o : Outcome Demand} : s.Runs → s.call = some slot →
      slot.poll () = (slot', w, .ready o) →
      Step draw c s .tacit { s with call := none, source := told draw s.source o }
  | finish {s : Sourcing σ α} {r : Outcome Demand} : s.Runs → s.source = .settled r →
      Step draw c s (.ends r) { s with awake := false, finished := true }

/-- The event of a source is answered, and whoever waits at the slot is woken. -/
def answer (o : Outcome Demand) (s : Sourcing σ α) : Sourcing σ α :=
  match s.call with
  | none => s
  | some slot => { s with
      call := some (slot.complete o).1
      awake := s.awake || (slot.complete o).2.isSome }

/-- A source is cancelled, unless it is over. -/
def cancel (s : Sourcing σ α) : Sourcing σ α :=
  if s.finished then s else { s with cancelled := true }

@[simp]
theorem source_answer (s : Sourcing σ α) (o : Outcome Demand) : (s.answer o).source = s.source := by
  rw [answer]
  split <;> rfl

@[simp]
theorem source_cancel (s : Sourcing σ α) : s.cancel.source = s.source := by
  rw [cancel]
  split <;> rfl

end Sourcing

/-- The stream of the values of a supply, with a completion behind them. -/
def System.source (supply : Supply σ α) (c : Completion) : System α where
  State := Sourcing σ α
  start := .new supply
  Step := Sourcing.Step supply.draw c
  answer := Sourcing.answer
  cancel := Sourcing.cancel
  Runnable := Sourcing.Runs

namespace Sourcing

/-- What others know of a source, according to where it is and whether it has an event on its
    way. -/
def Place (x : Standing) (calls : Bool) : Source σ α → Prop
  | .checkpoint _ _ => calls = false ∧ x.ended = false
  | .push _ _ => x.ended = false
  | .complete => x.ended = calls
  | .settled _ => calls = false ∧ (x.ended = true ∨ x.dismissed = true)

/-- What holds whatever is done to a source. -/
structure Kept (x : Standing) (s : Sourcing σ α) : Prop where
  place : Place x s.call.isSome s.source
  called : Called x.calling x.dismissed s.call
  cancelled : s.cancelled = true → x.dismissed = true
  finished : x.finished = s.finished
  sleeps : s.awake = true ∨ s.finished = true ∨ ∃ slot, s.call = some slot ∧ slot.Guards ()

variable {draw : σ → Option (α × σ)} {c : Completion} {x : Standing} {s s' : Sourcing σ α}
  {m : Move α}

/-- A source that draws has not sent its completion. -/
theorem place_draw (draw : σ → Option (α × σ)) (rest : σ) (hx : x.ended = false) :
    Place x false (Source.draw draw rest) := by
  rw [Source.draw]
  rcases draw rest with _ | ⟨a, rest'⟩
  · exact hx
  · exact ⟨rfl, hx⟩

/-- A source that is answered goes on, unless it is told to stop or has nothing more. -/
theorem place_told (hp : Place x true s.source) {o : Outcome Demand}
    (ho : dismisses o = true → x.dismissed = true) : Place x false (told draw s.source o) := by
  rcases hs : s.source with ⟨a, rest⟩ | ⟨a, rest⟩ | _ | r <;> rw [hs] at hp
  · cases hp.1
  · rcases o with f | _ | _
    · exact ⟨rfl, .inr (ho rfl)⟩
    · exact place_draw draw rest hp
    · exact ⟨rfl, .inr (ho rfl)⟩
  · exact ⟨rfl, .inl hp⟩
  · cases hp.1

theorem Kept.step (h : Kept x s) (hs : Step draw c s m s') : Kept (x.after (.moved m)) s' := by
  have hp := h.place
  have hk := h.called
  cases hs with
  | @look a rest ha hsource =>
    rw [hsource] at hp
    refine ⟨?_, hk, h.cancelled, h.finished, .inl ha.2⟩
    rw [checkpoint]
    split
    · rename_i hx
      exact ⟨hp.1, .inr (h.cancelled hx)⟩
    · exact hp.2
  | @call e ha hc he =>
    rw [hc] at hp
    refine ⟨?_, .new, h.cancelled, h.finished, .inl ha.2⟩
    rcases hsource : s.source with _ | _ | _ | _ <;> rw [hsource] at he hp <;> cases he
    · simpa [Place, Standing.after, isCompletion] using hp
    · simp [Place, Standing.after, isCompletion]
  | @wait slot slot' w ha hc hpoll =>
    rw [hc] at hp hk
    obtain ⟨hk, hg⟩ := hk.wait hpoll
    exact ⟨hp, hk, h.cancelled, h.finished, .inr (.inr ⟨slot', rfl, hg⟩)⟩
  | @take slot slot' w o ha hc hpoll =>
    rw [hc] at hp hk
    obtain ⟨hx, ho⟩ := hk.take hpoll
    refine ⟨place_told hp ho, ?_, h.cancelled, h.finished, .inl ha.2⟩
    rw [Standing.after, hx]
    exact .empty
  | @finish r ha hsource => exact ⟨hp, hk, h.cancelled, rfl, .inr (.inl rfl)⟩

theorem kept_new (supply : Supply σ α) : Kept .new (new supply) where
  place := place_draw supply.draw supply.state rfl
  called := .empty
  cancelled hn := nomatch hn
  finished := rfl
  sleeps := .inl rfl

/-- Whether a source was dismissed does not tell where it is, before it is settled. -/
theorem Place.dismiss {source : Source σ α} {calls : Bool} (h : Place x calls source)
    {y : Standing} (he : y.ended = x.ended) (hd : x.dismissed = true → y.dismissed = true) :
    Place y calls source := by
  rcases source with _ | _ | _ | _
  · exact ⟨h.1, he.trans h.2⟩
  · exact he.trans h
  · exact he.trans h
  · exact ⟨h.1, h.2.imp (he.trans ·) hd⟩

/-- A source whose event is answered sleeps no more. -/
theorem Kept.answer (h : Kept x s) (o : Outcome Demand) (hx : x.calling = true) :
    Kept (x.after (α := α) (.answered o)) (s.answer o) := by
  have hk := h.called
  rw [hx] at hk
  obtain ⟨slot, hc, ha⟩ := hk.answer o
  rw [Sourcing.answer, hc]
  refine ⟨?_, ha, fun hn => Bool.or_eq_true_iff.2 (.inl (h.cancelled hn)), h.finished, ?_⟩
  · have hp := h.place
    rw [hc] at hp
    exact hp.dismiss rfl fun hd => Bool.or_eq_true_iff.2 (.inl hd)
  · rcases h.sleeps with hw | ho | ⟨_, hs, hg⟩
    · exact .inl (by simp [hw])
    · exact .inr (.inl ho)
    · cases hc.symm.trans hs
      exact .inl (by simp [hg.complete])

theorem Kept.cancel (h : Kept x s) : Kept (x.after (α := α) .cancelled) s.cancel := by
  have hp := h.place.dismiss (y := x.after (α := α) .cancelled) rfl fun _ => rfl
  rw [Sourcing.cancel]
  split
  · exact ⟨hp, h.called.dismiss, fun _ => rfl, h.finished, h.sleeps⟩
  · exact ⟨hp, h.called.dismiss, fun _ => rfl, h.finished, h.sleeps⟩

theorem kept_reaches {supply : Supply σ α} (h : Reaches (System.source supply c) x s) : Kept x s :=
  h.invariant (kept_new supply) Kept.step (fun o h hx => h.answer o hx) Kept.cancel

/-- A source calls its downstream when its last event was answered. -/
theorem Kept.calls (h : Kept x s) {e : Event α} (hs : Step draw c s (.calls e) s') :
    x.calling = false ∧ x.finished = false ∧ (isCompletion e = true → x.ended = false) := by
  have hp := h.place
  cases hs with
  | call ha hc he =>
    refine ⟨h.called.idle hc, h.finished.trans ha.1, fun hx => ?_⟩
    rw [hc] at hp
    rcases hs : s.source with _ | _ | _ | _ <;> rw [hs] at he hp <;> cases he
    · cases hx
    · exact hp

/-- A source is over when it has nothing more, or was told to stop. -/
theorem Kept.ends (h : Kept x s) {r : Outcome Demand} (hs : Step draw c s (.ends r) s') :
    x.calling = false ∧ x.finished = false ∧ (x.ended = true ∨ x.dismissed = true) := by
  have hp := h.place
  cases hs with
  | finish ha hs =>
    rw [hs] at hp
    exact ⟨h.called.idle (by simpa using hp.1), h.finished.trans ha.1, hp.2⟩

/-- The task of a source takes a step whenever it is runnable. -/
theorem Runs.exists_step (ha : s.Runs) (draw : σ → Option (α × σ)) (c : Completion) :
    ∃ m s', Step draw c s m s' := by
  rcases hc : s.call with _ | slot
  · rcases hs : s.source with ⟨a, rest⟩ | ⟨a, rest⟩ | _ | r
    · exact ⟨_, _, .look ha hs⟩
    · exact ⟨_, _, .call (e := .value a) ha hc (by rw [hs]; rfl)⟩
    · exact ⟨_, _, .call (e := .completion c) ha hc (by rw [hs]; rfl)⟩
    · exact ⟨_, _, .finish ha hs⟩
  · rcases slot.poll_cases () with ⟨slot', w, hp⟩ | ⟨slot', w, o, hp⟩
    · exact ⟨_, _, .wait ha hc hp⟩
    · exact ⟨_, _, .take ha hc hp⟩

/-- A source that sleeps is over, or waits for its downstream. -/
theorem Kept.live (h : Kept x s) (draw : σ → Option (α × σ)) (c : Completion) :
    x.finished = true ∨ x.calling = true ∨ ∃ m s', Step draw c s m s' := by
  rcases h.sleeps with ha | ho | ⟨slot, hc, hg⟩
  · rcases ho : s.finished with _ | _
    · exact .inr (.inr (Runs.exists_step ⟨ho, ha⟩ draw c))
    · exact .inl (h.finished.trans ho)
  · exact .inl (h.finished.trans ho)
  · have hk := h.called
    rw [hc] at hk
    exact .inr (.inl (hk.guarded hg))

end Sourcing

/-- A source keeps to the rules, and is never stuck. -/
theorem lively_source (supply : Supply σ α) (c : Completion) :
    Lively (System.source supply c) where
  runs hs := by cases hs <;> assumption
  calls hr hs := (Sourcing.kept_reaches hr).calls hs
  ends hr hs := (Sourcing.kept_reaches hr).ends hs
  live hr := (Sourcing.kept_reaches hr).live supply.draw c

end ResumeOnce.Network

import ResumeOnce.Proofs.Contest.Settled
import ResumeOnce.Proofs.Reactor.Holding
import ResumeOnce.Reactor.Session

/-!
# How an operation tells its outcome

The task of an operation ends when its future returns or panics, or when the runtime drops it.
Then the operation is finished, which lets its hooks go unless somebody has cancelled it, and its
slot is filled with the outcome. Meanwhile others cancel and release the operation, register
hooks, and ask for the outcome, as they like.

* `pollTask_returned`, `pollTask_panicked`, `leaveIncomplete_some`, `complete_plain`: what the end
  of a task comes to in the world;
* `Operation.Step`: an operation among the calls that contend for its lifecycle and the polls of
  those who wait for its outcome;
* `Operation.Sound`, `Operation.publish_alone`: what is published behind a history, and that it
  will be;
* `Operation.publishes_once`: as long as no hook panics when it is let go, the outcome of every
  task that ends is published, once; if one does, it never is;
* `Operation.burst_unpublished`: so that somebody may wait for ever.
-/

namespace ResumeOnce

namespace Lifecycle

variable {η : Type*} {l : Lifecycle η} {hook : η}

/-- What the end of an operation lets go has waited, and nobody has cancelled the operation. -/
theorem mem_finish (h : hook ∈ l.finish.2) : hook ∈ l.hooks ∧ l.status ≠ .cancelled := by
  unfold finish at h
  split at h
  case h_1 hm =>
    obtain ⟨hr, rfl⟩ := move_eq_ok.1 hm
    exact ⟨h, by simp [hr]⟩
  case h_2 hm =>
    obtain ⟨-, rfl⟩ := move_eq_error.1 hm
    split at h
    case isTrue => exact absurd h List.not_mem_nil
    case isFalse hc => exact ⟨h, hc⟩

end Lifecycle

namespace Reactor

variable {env : Env} {perform : String → Script.Command → Act Script.Answer} {w w₁ : World}
  {c : Completer} {r : Reply} {n t : Nat} {task : Task}

/-! ## The end of a task in the world -/

/-- The lifecycle of a number. -/
def World.lifecycle (w : World) (n : Nat) : Lifecycle Hook := w.lifecycles.getD n default

/-- The world with another lifecycle in place. -/
def World.withLifecycle (w : World) (n : Nat) (l : Lifecycle Hook) : World :=
  { w with lifecycles := w.lifecycles.setIfInBounds n l }

theorem lifecycle_withLifecycle (hn : n < w.lifecycles.size) (l : Lifecycle Hook) :
    (w.withLifecycle n l).lifecycle n = l := by
  simp [World.lifecycle, World.withLifecycle, hn]

/-- An operation finishes by letting go its hooks. -/
theorem finishOperation_on (n : Nat) : (finishOperation env n).on w =
    (releaseAll ((w.lifecycle n).finish.2.map (dropHook env))).on
      (w.withLifecycle n (w.lifecycle n).finish.1) := rfl

/-- A hook that owns nothing: nothing happens when it is let go. -/
def Hook.Plain (hook : Hook) : Prop := ∀ env, dropHook env hook = pure ()

theorem releaseAll_pure {acts : List (Act Unit)} (h : ∀ act ∈ acts, act = pure ()) :
    releaseAll acts = pure () := by
  induction acts with
  | nil => rfl
  | cons act acts ih =>
    rw [List.forall_mem_cons] at h
    rw [releaseAll, h.1, ih h.2]
    rfl

theorem finishOperation_plain (hp : ∀ hook ∈ (w.lifecycle n).hooks, hook.Plain) :
    (finishOperation env n).on w = (.ok (), w.withLifecycle n (w.lifecycle n).finish.1) := by
  rw [finishOperation_on, releaseAll_pure]
  · rfl
  · rw [List.forall_mem_map]
    exact fun hook hh => hp hook (Lifecycle.mem_finish hh).1 env

/-- An operation that has finished fills its slot, and wakes whoever waits there. -/
theorem complete_on (h : (finishOperation env c.lifecycle).on w = (.ok (), w₁)) :
    (complete env r (some c)).on w = (wakeAny env ((w₁.slot c.slot).complete r).2).on
      (w₁.withSlot c.slot ((w₁.slot c.slot).complete r).1) := by
  rw [complete, on_bind_of_ok h]
  rfl

/-- The end of an operation whose hooks own nothing. -/
theorem complete_plain (hc : c.lifecycle < w.lifecycles.size)
    (hp : ∀ hook ∈ (w.lifecycle c.lifecycle).hooks, hook.Plain) :
    ∃ w₁ : World, (w₁.lifecycle c.lifecycle).status ≠ .running ∧
      (complete env r (some c)).on w = (wakeAny env ((w.slot c.slot).complete r).2).on
        (w₁.withSlot c.slot ((w.slot c.slot).complete r).1) := by
  refine ⟨w.withLifecycle c.lifecycle (w.lifecycle c.lifecycle).finish.1, ?_,
    complete_on (finishOperation_plain hp)⟩
  rw [lifecycle_withLifecycle hc]
  exact Lifecycle.status_finish _

/-- A task that is dropped ends as one that returns a fault. -/
theorem leaveIncomplete_some :
    leaveIncomplete env (some c) = complete env (.error droppedFault) (some c) := rfl

/-- What follows when the frames of a task have come to an answer. -/
def conclude (env : Env) (t : Nat) (r : Reply) (completer : Option Completer) : Act Unit := do
  modify fun w => { w with tasks := w.tasks.setIfInBounds t none }
  complete env r completer
  modify fun w => { w with board := w.board.retire t }

theorem pollTask_returned
    (h : (pollFrames env perform t stepBound task.frames .go).on w = (.ok (.ended r), w₁)) :
    (pollTask env perform t task).on w = (conclude env t r task.completer).on w₁ := by
  rw [pollTask, on_bind_of_ok (catchPanic_ok h)]
  rfl

theorem pollTask_panicked {x : Script.Scream}
    (h : (pollFrames env perform t stepBound task.frames .go).on w = (.error (.panicked x), w₁)) :
    (pollTask env perform t task).on w =
      (conclude env t (.error (panickedFault x)) task.completer).on w₁ := by
  rw [pollTask, on_bind_of_ok (catchPanic_panicked h)]
  rfl

end Reactor

/-! ## The end of a contest -/

namespace Contest

variable {s s' : Contest} {t u : List Event} {n : Nat} {c c' : Call} {home home' : Option Nat}

/-- Each call is made once. -/
theorem called_once (h : Run Step new t s) (hc : .called n c home ∈ t) (hu : Run Step s u s') :
    .called n c' home' ∉ u := by
  intro hm
  obtain ⟨u₁, u₂, rfl⟩ := List.append_of_mem hm
  obtain ⟨s₁, s₂, h₁, he, -⟩ := hu.split rfl
  have hf := fair_run (h.append h₁)
  cases he
  exact hf.unmade _ hf.fresh_made _ (List.mem_append_left _ hc) rfl

/-- Alone, the call that finishes an operation returns, and lets go no hook but those that
    wait, unless somebody has cancelled the operation. -/
theorem ends_alone (h : Run Step new t s) (hc : .called n .finish home ∈ t) :
    ∃ u s' r, Run Step s u s' ∧ (∀ e ∈ u, e.call = n) ∧ s'.stage n = .returned r ∧
      ∀ hook ∈ drops u, hook ∈ s.life.hooks ∧ s.life.status ≠ .cancelled := by
  rcases (fair_run h).finisher n home hc with hn | hn | ⟨r, hn, -⟩
  · obtain ⟨u, s', hu, he, hs, hd⟩ := finish_alone hn
    exact ⟨u, s', _, hu, he, hs, fun hook hh =>
      Lifecycle.mem_finish (congrArg Prod.snd hd ▸ hh)⟩
  · obtain ⟨u, s', hu, he, hs, -, hd⟩ := discard_all hn
    have hfit := (fair_run h).fits n
    rw [hn] at hfit
    refine ⟨u, s', _, hu, he, hs, fun _ hh => ⟨hd ▸ hh, ?_⟩⟩
    rcases hfit with hfit | hfit <;> simp [hfit]
  · exact ⟨[], s, r, .nil, nofun, hn, nofun⟩

end Contest

/-! ## Operations -/

/-- How the task of an operation ends. -/
inductive Operation.Ending (α : Type u) where
  | returned (o : Outcome α)
  | panicked (scream : Script.Scream)
  | dropped

/-- How far the task of an operation is: when it has ended, a call finishes the operation. -/
inductive Operation.Stage (α : Type u) where
  | running
  | closing (n : Nat) (e : Operation.Ending α)
  /-- A hook has panicked when it was let go. -/
  | burst
  | published (e : Operation.Ending α)

/-- An operation: the calls that contend for its lifecycle, its slot, and its task. -/
structure Operation (ω : Type u) (α : Type v) where
  contest : Contest
  slot : Slot ω α
  stage : Operation.Stage α

namespace Operation

variable {ω : Type u} {α : Type v}

/-- An operation that was just spawned. -/
def new : Operation ω α := ⟨.new, .new, .running⟩

/-- The outcome of an ending. -/
def Ending.answer : Ending α → Outcome α
  | returned o => o
  | panicked scream => .error (Reactor.panickedFault scream)
  | dropped => .error Reactor.droppedFault

/-- What happens to an operation. -/
inductive Event (ω : Type u) (α : Type v) where
  | called (c : Contest.Event)
  | ended (n : Nat) (e : Ending α)
  | burst (n hook : Nat)
  | published (answer : Outcome α) (woken : Option ω)
  | polled (waker : ω) (woken : Option ω) (p : Poll (Outcome α))

namespace Event

/-- What happens in the contest. -/
def contest : Event ω α → Option Contest.Event
  | called c => some c
  | ended n _ => some (.called n .finish none)
  | burst n hook => some (.dropped n hook)
  | _ => none

/-- How the task ends, and the call that finishes the operation then. -/
def ending : Event ω α → Option (Nat × Ending α)
  | ended n e => some (n, e)
  | _ => none

/-- What is published. -/
def publication : Event ω α → Option (Outcome α)
  | published answer _ => some answer
  | _ => none

/-- Who is told to wait. -/
def waits : Event ω α → Option ω
  | polled k _ .pending => some k
  | _ => none

/-- Whether a poll is told an answer. -/
def isReady : Event ω α → Bool
  | polled _ _ (.ready _) => true
  | _ => false

/-- Whether something is done by a call, or is the publication that it leads to. -/
def By (n : Nat) : Event ω α → Prop
  | called c => c.call = n
  | published _ _ => True
  | _ => False

end Event

/-- What may happen in the contest without the task: nobody else ends the operation, and no hook
    panics when it is let go. -/
def Gentle (fragile : Nat → Prop) : Contest.Event → Prop
  | .called _ c _ => c ≠ .finish
  | .dropped _ hook => ¬ fragile hook
  | _ => True

/-- One thing happens to an operation. Some hooks are fragile: they panic when they are let go. -/
inductive Step (fragile : Nat → Prop) (s : Operation ω α) : Event ω α → Operation ω α → Prop
  | call {c : Contest.Event} {contest : Contest} (hg : Gentle fragile c)
      (hc : Contest.Step s.contest c contest) : Step fragile s (.called c) { s with contest }
  | finish {n : Nat} {contest : Contest} (e : Ending α) (hs : s.stage = .running)
      (hc : Contest.Step s.contest (.called n .finish none) contest) :
      Step fragile s (.ended n e) { s with contest, stage := .closing n e }
  | burst {n hook : Nat} {e : Ending α} {contest : Contest} (hs : s.stage = .closing n e)
      (hf : fragile hook) (hc : Contest.Step s.contest (.dropped n hook) contest) :
      Step fragile s (.burst n hook) { s with contest, stage := .burst }
  | publish {n : Nat} {e : Ending α} {r : Except StatusFault Unit} (hs : s.stage = .closing n e)
      (hr : s.contest.stage n = .returned r) :
      Step fragile s (.published e.answer (s.slot.complete e.answer).2)
        { s with slot := (s.slot.complete e.answer).1, stage := .published e }
  | poll (k : ω) : Step fragile s (.polled k (s.slot.poll k).2.1 (s.slot.poll k).2.2)
      { s with slot := (s.slot.poll k).1 }

/-! ## Histories -/

/-- How the task ended. -/
def endings (t : List (Event ω α)) : List (Nat × Ending α) := t.filterMap Event.ending

/-- What was published. -/
def publications (t : List (Event ω α)) : List (Outcome α) := t.filterMap Event.publication

/-- Whether a poll was told an answer. -/
def fetched (t : List (Event ω α)) : Bool := t.any Event.isReady

/-- The last waker of a poll that was told to wait. -/
def lastWaiting (t : List (Event ω α)) : Option ω := (t.filterMap Event.waits).getLast?

/-- What a poll is told behind a history. -/
def expected (t : List (Event ω α)) : Poll (Outcome α) :=
  match (publications t).head? with
  | none => .pending
  | some a => .ready (if fetched t then .error Slot.takenFault else a)

/-- The slot behind a history. -/
def expectedSlot (t : List (Event ω α)) : Slot ω α :=
  match (publications t).head? with
  | none => ⟨none, false, lastWaiting t⟩
  | some a => ⟨if fetched t then none else some a, fetched t, none⟩

/-! ## What is left of a history -/

variable {fragile : Nat → Prop} {t t₁ t₂ : List (Event ω α)} {s s' : Operation ω α}
  {x : Event ω α} {n hook : Nat} {e : Ending α} {k : ω} {w : Option ω} {a : Outcome α}
  {p : Poll (Outcome α)}

/-- What an event appends to a part of a history. -/
theorem filterMap_concat {β : Type*} (f : Event ω α → Option β) :
    (t ++ [x]).filterMap f = t.filterMap f ++ (f x).toList := by
  rw [List.filterMap_append]
  cases h : f x <;> simp [h]

theorem endings_concat : endings (t ++ [x]) = endings t ++ x.ending.toList := filterMap_concat _

theorem publications_concat :
    publications (t ++ [x]) = publications t ++ x.publication.toList := filterMap_concat _

theorem fetched_concat : fetched (t ++ [x]) = (fetched t || x.isReady) := by simp [fetched]

theorem lastWaiting_concat : lastWaiting (t ++ [x]) = x.waits.or (lastWaiting t) := by
  rw [lastWaiting, filterMap_concat]
  cases x.waits <;> simp [lastWaiting]

theorem mem_endings : (n, e) ∈ endings t ↔ .ended n e ∈ t := by
  rw [endings, List.mem_filterMap]
  constructor
  · rintro ⟨x, hx, he⟩
    cases x <;> cases he
    exact hx
  · exact fun h => ⟨_, h, rfl⟩

theorem mem_publications : a ∈ publications t ↔ ∃ w, .published a w ∈ t := by
  rw [publications, List.mem_filterMap]
  constructor
  · rintro ⟨x, hx, he⟩
    cases x <;> cases he
    exact ⟨_, hx⟩
  · exact fun ⟨w, h⟩ => ⟨_, h, rfl⟩

/-- A task that ends calls for its operation to be finished. -/
theorem mem_finish (h : (n, e) ∈ endings t) :
    .called n .finish none ∈ t.filterMap Event.contest :=
  List.mem_filterMap.2 ⟨_, mem_endings.1 h, rfl⟩

/-- An event that is no poll and no publication leaves the slot alone. -/
theorem expectedSlot_concat (hp : x.publication = none) (hw : x.waits = none)
    (hr : x.isReady = false) : expectedSlot (t ++ [x]) = expectedSlot t := by
  simp only [expectedSlot, publications_concat, hp, Option.toList_none, List.append_nil,
    fetched_concat, hr, Bool.or_false, lastWaiting_concat, hw, Option.none_or]

/-- A poll is told what is expected, and wakes nobody. -/
theorem poll_expected : (expectedSlot t).poll k =
    (expectedSlot (t ++ [.polled k none (expected t)]), none, expected t) := by
  have hp : publications (t ++ [.polled k none (expected t)]) = publications t :=
    publications_concat.trans (List.append_nil _)
  rw [expectedSlot, expectedSlot, hp, expected, fetched_concat, lastWaiting_concat]
  cases h : (publications t).head? with
  | none => rfl
  | some a => cases fetched t <;> rfl

/-- The publication fills the slot, and wakes the last one who was told to wait. -/
theorem complete_expected (hp : publications t = []) (hf : fetched t = false) :
    (expectedSlot t).complete a = (expectedSlot (t ++ [.published a w]), lastWaiting t) := by
  have hq : publications (t ++ [.published a w]) = [a] := by
    rw [publications_concat, hp]
    rfl
  rw [expectedSlot, expectedSlot, hq, hp, fetched_concat, hf]
  rfl

/-! ## Where the task is -/

/-- What is known from what has happened and from the status, according to how far the task
    is. -/
inductive Place (t : List (Event ω α)) (status : Status) : Stage α → Prop
  | running (he : endings t = []) (hp : publications t = []) : Place t status .running
  | closing {n : Nat} {e : Ending α} (he : endings t = [(n, e)]) (hp : publications t = []) :
      Place t status (.closing n e)
  | burst {n hook : Nat} {e : Ending α} (he : endings t = [(n, e)]) (hp : publications t = [])
      (hb : .burst n hook ∈ t) : Place t status .burst
  | published {n : Nat} {e : Ending α} (he : endings t = [(n, e)])
      (hp : publications t = [e.answer]) (hr : status ≠ .running) :
      Place t status (.published e)

/-- An event that is neither an ending nor a publication leaves the task where it is. -/
theorem Place.concat {status status' : Status} {stage : Stage α}
    (h : Place t status stage) (he : x.ending = none) (hp : x.publication = none)
    (hs : status ≠ .running → status' ≠ .running) :
    Place (t ++ [x]) status' stage := by
  have hte : endings (t ++ [x]) = endings t := by rw [endings_concat, he]; exact List.append_nil _
  have htp : publications (t ++ [x]) = publications t := by
    rw [publications_concat, hp]
    exact List.append_nil _
  cases h with
  | running he hp => exact .running (hte.trans he) (htp.trans hp)
  | closing he hp => exact .closing (hte.trans he) (htp.trans hp)
  | burst he hp hb => exact .burst (hte.trans he) (htp.trans hp) (List.mem_append_left _ hb)
  | published he hp hr => exact .published (hte.trans he) (htp.trans hp) (hs hr)

/-- What a history leaves of an operation. -/
structure Sound (t : List (Event ω α)) (s : Operation ω α) : Prop where
  contest : Run Contest.Step .new (t.filterMap Event.contest) s.contest
  slot : s.slot = expectedSlot t
  unpublished : publications t = [] → fetched t = false
  place : Place t s.contest.life.status s.stage

namespace Sound

theorem new : Sound [] (.new : Operation ω α) where
  contest := .nil
  slot := rfl
  unpublished := fun _ => rfl
  place := .running rfl rfl

section

variable (h : Sound t s)
include h

/-- When the call that finishes the operation has returned, the status is not running any
    more. -/
theorem status (he : (n, e) ∈ endings t) {r : Except StatusFault Unit}
    (hr : s.contest.stage n = .returned r) : s.contest.life.status ≠ .running := by
  rcases (Contest.fair_run h.contest).finisher n none (mem_finish he) with
    hc | hc | ⟨_, -, hc | hc⟩
  · cases hr.symm.trans hc
  · cases hr.symm.trans hc
  · rw [hc]
    nofun
  · -- It found the queue empty, and what it did before fits another status.
    obtain ⟨u, v, huv⟩ := List.append_of_mem hc
    obtain ⟨s₁, s₂, h₁, he, h₂⟩ := h.contest.split huv
    have hne : s₁.life.status ≠ .running := by
      have hfit := (Contest.fair_run h₁).fits n
      cases he with
      | empty hn _ =>
        rcases hn with hn | hn <;> rw [hn] at hfit
        · simp [show s₁.life.status = .cancelled from hfit]
        · rcases hfit with hfit | hfit <;> simp [hfit]
    rw [Contest.status_stays (h₂.cons he) hne]
    exact hne

/-- What is done in the contest leaves the slot alone. -/
theorem of_contest {c : Contest.Event} (hx : x.contest = some c) (hp : x.publication = none)
    (hw : x.waits = none) (hr : x.isReady = false) (hs : s'.slot = s.slot)
    (hc : Contest.Step s.contest c s'.contest)
    (hl : Place (t ++ [x]) s'.contest.life.status s'.stage) :
    Sound (t ++ [x]) s' where
  contest := by
    rw [filterMap_concat, hx]
    exact h.contest.snoc hc
  slot := by rw [hs, h.slot, expectedSlot_concat hp hw hr]
  unpublished hn := by
    rw [publications_concat, hp, Option.toList_none, List.append_nil] at hn
    rw [fetched_concat, h.unpublished hn, hr, Bool.or_false]
  place := hl

/-- The outcome is published. -/
theorem publish (hs : s.stage = .closing n e) {r : Except StatusFault Unit}
    (hr : s.contest.stage n = .returned r) :
    Sound (t ++ [.published e.answer (s.slot.complete e.answer).2])
      { s with slot := (s.slot.complete e.answer).1, stage := .published e } := by
  have hl := h.place
  rw [hs] at hl
  cases hl with
  | closing he hp =>
    have hslot := complete_expected (a := e.answer) (w := (s.slot.complete e.answer).2) hp
      (h.unpublished hp)
    rw [← h.slot] at hslot
    refine ⟨?_, congrArg Prod.fst hslot, ?_, .published (n := n) ?_ ?_ ?_⟩
    · rw [filterMap_concat]
      exact (List.append_nil _).symm ▸ h.contest
    · rw [publications_concat]
      simp [Event.publication]
    · rw [endings_concat, he]
      rfl
    · rw [publications_concat, hp]
      rfl
    · exact h.status (he ▸ List.mem_singleton_self _) hr

/-- Somebody asks for the outcome. -/
theorem poll (k : ω) : Sound (t ++ [.polled k (s.slot.poll k).2.1 (s.slot.poll k).2.2])
    { s with slot := (s.slot.poll k).1 } := by
  rw [h.slot, poll_expected]
  refine ⟨?_, rfl, fun hn => ?_, h.place.concat rfl rfl id⟩
  · rw [filterMap_concat]
    exact (List.append_nil _).symm ▸ h.contest
  · rw [publications_concat] at hn
    have hn : publications t = [] := (List.append_nil _).symm.trans hn
    rw [fetched_concat, h.unpublished hn, expected, hn]
    rfl

theorem step (he : Step fragile s x s') : Sound (t ++ [x]) s' := by
  have hl := h.place
  cases he with
  | call hg hc =>
    exact h.of_contest rfl rfl rfl rfl rfl hc <|
      hl.concat rfl rfl fun hr => hc.status_stays hr ▸ hr
  | finish e hs hc =>
    rw [hs] at hl
    cases hl with
    | running he hp =>
      refine h.of_contest rfl rfl rfl rfl rfl hc (.closing ?_ ?_)
      · rw [endings_concat, he]
        rfl
      · rw [publications_concat, hp]
        rfl
  | @burst n hook e contest hs hf hc =>
    rw [hs] at hl
    cases hl with
    | closing he hp =>
      have hb : .burst n hook ∈ t ++ [.burst n hook] :=
        List.mem_append_right t (List.mem_singleton_self _)
      refine h.of_contest rfl rfl rfl rfl rfl hc (.burst (e := e) ?_ ?_ hb)
      · rw [endings_concat, he]
        rfl
      · rw [publications_concat, hp]
        rfl
  | publish hs hr => exact h.publish hs hr
  | poll k => exact h.poll k

end

end Sound

theorem sound_run (h : Run (Step fragile) new t s) : Sound t s :=
  h.invariant Sound.new Sound.step

/-! ## The end of an operation, undisturbed -/

/-- What is done in the contest, as long as it is gentle, an operation can do. -/
theorem of_gentle {u : List Contest.Event} {c : Contest} (h : Run Contest.Step s.contest u c)
    (hg : ∀ x ∈ u, Gentle fragile x) :
    Run (Step fragile) s (u.map .called) { s with contest := c } := by
  induction h with
  | nil => exact .nil
  | snoc _ he ih =>
    rw [List.forall_mem_append, List.forall_mem_singleton] at hg
    rw [List.map_append]
    exact (ih hg.1).snoc (.call hg.2 he)

/-- The hooks are safe to be let go: none that waits is fragile, or somebody has cancelled the
    operation, and the hooks are his. -/
def Safe (fragile : Nat → Prop) (s : Operation ω α) : Prop :=
  s.contest.life.status ≠ .cancelled → ∀ hook ∈ s.contest.life.hooks, ¬ fragile hook

/-- The call that finishes an operation goes on, alone, until the outcome is published. -/
theorem publish_alone (h : Sound t s) (hs : s.stage = .closing n e) (hg : s.Safe fragile) :
    ∃ u s', Run (Step fragile) s u s' ∧ (∀ x ∈ u, x.By n) ∧ ∃ w, .published e.answer w ∈ u := by
  have hm : .called n .finish none ∈ t.filterMap Event.contest := by
    have hl := h.place
    rw [hs] at hl
    cases hl with
    | closing he _ => exact mem_finish (he ▸ List.mem_singleton_self _)
  obtain ⟨u, c, r, hu, hn, hr, hd⟩ := Contest.ends_alone h.contest hm
  have hgentle : ∀ x ∈ u, Gentle fragile x := by
    intro x hx
    cases x with
    | called m c home =>
      obtain rfl : m = n := hn _ hx
      exact absurd hx (Contest.called_once h.contest hm hu)
    | dropped m hook =>
      obtain ⟨hh, hc⟩ := hd hook (List.mem_filterMap.2 ⟨_, hx, rfl⟩)
      exact hg hc hook hh
    | _ => trivial
  refine ⟨_, _, (of_gentle hu hgentle).snoc (.publish hs hr), ?_, _,
    List.mem_append_right _ (List.mem_singleton_self _)⟩
  rw [List.forall_mem_append, List.forall_mem_map, List.forall_mem_singleton]
  exact ⟨hn, trivial⟩

/-! ## A hook that panics -/

theorem Step.burst_stays (he : Step fragile s x s') (hs : s.stage = .burst) :
    s'.stage = .burst := by
  cases he with
  | call _ _ | poll _ => exact hs
  | finish _ hr _ | publish hr _ => cases hs.symm.trans hr
  | burst hr _ _ => cases hs.symm.trans hr

/-- Once a hook has panicked when it was let go, nothing is ever published, and the slot stays
    empty. -/
theorem burst_stays (h : Run (Step fragile) new t s) (hb : .burst n hook ∈ t) :
    publications t = [] ∧ s.slot.isComplete = false := by
  obtain ⟨t₁, t₂, ht⟩ := List.append_of_mem hb
  obtain ⟨s₁, s₂, h₁, he, h₂⟩ := h.split ht
  have hs₂ : s₂.stage = .burst := by cases he; rfl
  have hs : s.stage = .burst :=
    h₂.invariant (P := fun _ s => s.stage = .burst) hs₂ fun hs he => he.burst_stays hs
  have hl := (sound_run h).place
  rw [hs] at hl
  cases hl with
  | burst _ hp _ =>
    refine ⟨hp, ?_⟩
    rw [(sound_run h).slot, expectedSlot, hp]
    rfl

/-! ## Outcomes -/

/-- What is told of the outcome of an operation, whatever happens and in whatever order. -/
structure Publishes (fragile : Nat → Prop) (t : List (Event ω α)) (s : Operation ω α) :
    Prop where
  /-- The task ends once at most, and an outcome is published once at most. -/
  once : (endings t).length ≤ 1 ∧ (publications t).length ≤ 1
  /-- What is published is the outcome of the task, which has ended before; and the status is
      not running any more. -/
  outcome : ∀ a w, .published a w ∈ t → s.contest.life.status ≠ .running ∧
    ∃ n e, endings t = [(n, e)] ∧ a = e.answer
  /-- When the task has ended, its outcome is published, or the call that finishes the operation
      goes on to do so and waits for nobody, unless a hook has panicked or is not safe. -/
  goes : ∀ n e, .ended n e ∈ t → (∀ hook, .burst n hook ∉ t) → s.Safe fragile →
    (∃ w, .published e.answer w ∈ t) ∨ ∃ u s', Run (Step fragile) s u s' ∧
      (∀ x ∈ u, x.By n) ∧ ∃ w, .published e.answer w ∈ u
  /-- Once a hook has panicked when it was let go, nothing was published, nor is it later: the slot
      is empty. -/
  burst : ∀ n hook, .burst n hook ∈ t → publications t = [] ∧ s.slot.isComplete = false
  /-- A poll is told to wait until the outcome is published, then the outcome, and then that it
      was taken. -/
  polls : ∀ t₁ t₂ k w p, t = t₁ ++ .polled k w p :: t₂ → w = none ∧ p = expected t₁
  /-- The publication wakes the last one who was told to wait. -/
  woken : ∀ t₁ t₂ a w, t = t₁ ++ .published a w :: t₂ → w = lastWaiting t₁

namespace Sound

variable (h : Sound t s)
include h

theorem once : (endings t).length ≤ 1 ∧ (publications t).length ≤ 1 := by
  have hl := h.place
  generalize s.stage = stage at hl
  cases hl with
  | running he hp | closing he hp | burst he hp _ | published he hp _ => simp [he, hp]

theorem outcome (hp : .published a w ∈ t) : s.contest.life.status ≠ .running ∧
    ∃ n e, endings t = [(n, e)] ∧ a = e.answer := by
  have ha := mem_publications.2 ⟨_, hp⟩
  have hl := h.place
  generalize s.stage = stage at hl
  cases hl with
  | running _ hp | closing _ hp | burst _ hp _ => exact absurd (hp ▸ ha) List.not_mem_nil
  | published he hp hr => exact ⟨hr, _, _, he, List.mem_singleton.1 (hp ▸ ha)⟩

theorem goes (he : .ended n e ∈ t) (hb : ∀ hook, .burst n hook ∉ t) (hg : s.Safe fragile) :
    (∃ w, .published e.answer w ∈ t) ∨ ∃ u s', Run (Step fragile) s u s' ∧
      (∀ x ∈ u, x.By n) ∧ ∃ w, .published e.answer w ∈ u := by
  have hn := mem_endings.2 he
  have hl := h.place
  generalize hs : s.stage = stage at hl
  cases hl with
  | running he _ => exact absurd (he ▸ hn) List.not_mem_nil
  | closing he _ =>
    obtain ⟨rfl, rfl⟩ := Prod.mk.inj (List.mem_singleton.1 (he ▸ hn))
    exact .inr (publish_alone h hs hg)
  | burst he _ hm =>
    obtain ⟨rfl, rfl⟩ := Prod.mk.inj (List.mem_singleton.1 (he ▸ hn))
    exact absurd hm (hb _)
  | published he hp _ =>
    obtain ⟨rfl, rfl⟩ := Prod.mk.inj (List.mem_singleton.1 (he ▸ hn))
    exact .inl (mem_publications.1 (hp ▸ List.mem_singleton_self _))

end Sound

theorem polled_at (h : Run (Step fragile) new t s) (ht : t = t₁ ++ .polled k w p :: t₂) :
    w = none ∧ p = expected t₁ := by
  obtain ⟨s₁, s₂, h₁, he, -⟩ := h.split ht
  have hp := (sound_run h₁).slot ▸ poll_expected (k := k)
  cases he
  rw [hp]
  exact ⟨rfl, rfl⟩

theorem published_at (h : Run (Step fragile) new t s) (ht : t = t₁ ++ .published a w :: t₂) :
    w = lastWaiting t₁ := by
  obtain ⟨s₁, s₂, h₁, he, -⟩ := h.split ht
  have hs₁ := sound_run h₁
  cases he with
  | publish hs hr =>
    have hl := hs₁.place
    rw [hs] at hl
    cases hl with
    | closing _ hp => rw [hs₁.slot, complete_expected (w := none) hp (hs₁.unpublished hp)]

/-- Whatever the status is when the task of an operation ends, and whichever hooks wait, as long
    as none panics the outcome of the task is published, once, and whoever waits is told of it. If
    one does, the outcome is lost. -/
theorem publishes_once (h : Run (Step fragile) new t s) : Publishes fragile t s where
  once := (sound_run h).once
  outcome _ _ := (sound_run h).outcome
  goes _ _ := (sound_run h).goes
  burst _ _ := burst_stays h
  polls _ _ _ _ _ := polled_at h
  woken _ _ _ _ := published_at h

/-- A task panics while somebody waits and a hook is registered: the hook is let go, and then the
    one who waits is woken and is told of the panic. -/
theorem publishes_once_panicked : ∃ (t : List (Event String Nat)) (s : Operation String Nat),
    Run (Step (· = 1)) new t s ∧ (s.contest.life.status = .finished ∧
      Event.published (.error (Reactor.panickedFault (.text "out of range"))) (some "reader") ∈ t ∧
      expected t = .ready (.error Slot.takenFault)) ∧ Publishes (· = 1) t s := by
  have h₀ : Run (Step (· = 1)) (new : Operation String Nat) [] _ := .nil
  have h₁ := h₀.snoc (.call (by nofun) (.call .register none nofun))
  have h₂ := h₁.snoc (.call (by trivial) (.queue (n := 0) rfl))
  have h₃ := h₂.snoc (.poll "reader")
  have h₄ := h₃.snoc (.finish (.panicked (.text "out of range")) rfl (.call .finish none nofun))
  have h₅ := h₄.snoc (.call (by trivial) (.move (n := 1) rfl rfl rfl))
  have h₆ := h₅.snoc (.call (by exact Nat.zero_ne_one) (.drop (n := 1) rfl rfl))
  have h₇ := h₆.snoc (.call (by trivial) (.empty (n := 1) (.inr rfl) rfl))
  have h₈ := h₇.snoc (.publish rfl rfl)
  have h₉ := h₈.snoc (.poll "reader")
  refine ⟨_, _, h₉, ⟨rfl, ?_, rfl⟩, publishes_once h₉⟩
  simp [Slot.complete, Slot.poll, Slot.takeWaker, Slot.new, new, Ending.answer]

/-- The task of an operation returns while a hook waits that panics when it is let go. The operation
    has ended then, but nothing is ever published, and whoever asks for the outcome is told to
    wait. -/
theorem burst_unpublished : ∃ (t : List (Event String Nat)) (s : Operation String Nat),
    Run (Step (· = 0)) new t s ∧ .ended 1 (.returned (.ok 7)) ∈ t ∧
      s.contest.life.status = .finished ∧
        ∀ u s', Run (Step (· = 0)) s u s' → publications (t ++ u) = [] ∧
          s'.slot.isComplete = false ∧ ∀ k w p, .polled k w p ∈ u → p = .pending := by
  have h₀ : Run (Step (· = 0)) (new : Operation String Nat) [] _ := .nil
  have h₁ := h₀.snoc (.call (by nofun) (.call .register none nofun))
  have h₂ := h₁.snoc (.call (by trivial) (.queue (n := 0) rfl))
  have h₃ := h₂.snoc (.finish (.returned (.ok 7)) rfl (.call .finish none nofun))
  have h₄ := h₃.snoc (.call (by trivial) (.move (n := 1) rfl rfl rfl))
  have h₅ := h₄.snoc (.burst (n := 1) rfl rfl (.drop (n := 1) rfl rfl))
  refine ⟨_, _, h₅, ?_, rfl, fun u s' hu => ?_⟩
  · exact List.mem_append_left _ (List.mem_append_left _ (List.mem_append_right _ (.head _)))
  · have h := h₅.append hu
    obtain ⟨hp, hs⟩ := burst_stays (n := 1) h
      (List.mem_append_left _ (List.mem_append_right _ (.head _)))
    refine ⟨hp, hs, fun k w p hk => ?_⟩
    -- Whoever asks meanwhile finds that nothing was published.
    obtain ⟨u₁, u₂, rfl⟩ := List.append_of_mem hk
    rw [← List.append_assoc] at h hp
    obtain ⟨-, rfl⟩ := polled_at h rfl
    rw [publications, List.filterMap_append] at hp
    rw [expected, publications, (List.append_eq_nil_iff.1 hp).1]
    rfl

end Operation

end ResumeOnce

import ResumeOnce.Lifecycle
import ResumeOnce.Proofs.Run
import Mathlib.Data.List.Nodup
import Mathlib.Logic.Function.Basic

/-!
# Contests for a lifecycle

Any number of calls contend for one lifecycle: some would cancel the operation or
release it, some register a hook, some tell that the operation has ended. A call does
one thing at a time, a change of status or something to the queue of hooks, and others
come in between. A hook that runs may make calls of its own.

* `Contest.Stage`: how far a call is;
* `Contest.Step`: what a call does next, with what is told of it;
* `Contest.Step.status`, `Contest.Step.hooks`: what a step does to the lifecycle;
* `Contest.Step.first`, `Contest.Step.later`: what a step does to the call that takes it.
-/

namespace ResumeOnce

namespace Contest

/-- What is asked of a lifecycle. -/
inductive Call where
  | cancel
  | release
  | register
  | finish
  deriving DecidableEq

/-- The status that a call asks for. -/
def Call.target? : Call → Option Status
  | cancel => some .cancelled
  | release => some .released
  | register => none
  | finish => some .finished

/-- How far a call is: inside of a hook, it waits for that hook to end. -/
inductive Stage where
  | unmade
  | called (c : Call)
  | looking
  | draining
  | inside (hook : Nat)
  | discarding
  | returned (answer : Except StatusFault Unit)

/-- How a call goes on that has moved the status. -/
def Call.won : Call → Stage
  | cancel => .draining
  | release => .returned (.ok ())
  | register => .looking
  | finish => .discarding

/-- How a call goes on that could not move the status. -/
def Call.lost (f : StatusFault) : Call → Stage
  | finish => if f.source = .cancelled then .returned (.ok ()) else .discarding
  | _ => .returned (.error f)

/-- What happens, and by which call. A hook has the number of the call that registers it. -/
inductive Event where
  | called (n : Nat) (c : Call) (home : Option Nat)
  | moved (n : Nat) (target : Status)
  | refused (n : Nat) (fault : StatusFault)
  | queued (n : Nat)
  | looked (n : Nat) (status : Status)
  | ran (n hook : Nat)
  | ended (n hook : Nat)
  | dropped (n hook : Nat)
  | emptied (n : Nat)

namespace Event

/-- The call by which something happens. -/
def call : Event → Nat
  | called n _ _ => n
  | moved n _ => n
  | refused n _ => n
  | queued n => n
  | looked n _ => n
  | ran n _ => n
  | ended n _ => n
  | dropped n _ => n
  | emptied n => n

/-- The change of status that this is. -/
def move? : Event → Option (Nat × Status)
  | moved n target => some (n, target)
  | _ => none

/-- The hook that this puts into the queue. -/
def queued? : Event → Option Nat
  | queued n => some n
  | _ => none

/-- The hook that this runs. -/
def run? : Event → Option Nat
  | ran _ hook => some hook
  | _ => none

/-- The hook that this lets go. -/
def drop? : Event → Option Nat
  | dropped _ hook => some hook
  | _ => none

end Event

/-- The changes of status. -/
def moves (t : List Event) : List (Nat × Status) := t.filterMap Event.move?

/-- The hooks that were registered, in order. -/
def joined (t : List Event) : List Nat := t.filterMap Event.queued?

/-- The hooks that were run, in order. -/
def runs (t : List Event) : List Nat := t.filterMap Event.run?

/-- The hooks that were let go without being run, in order. -/
def drops (t : List Event) : List Nat := t.filterMap Event.drop?

end Contest

/-- A lifecycle for which numbered calls contend, with the hook inside of which a call was made. -/
structure Contest where
  life : Lifecycle Nat
  made : Nat
  home : Nat → Option Nat
  stage : Nat → Contest.Stage

namespace Contest

variable {s s' : Contest} {e : Event} {t : List Event} {n k : Nat}

/-- Nothing was called yet. -/
def new : Contest := ⟨.new, 0, fun _ => none, fun _ => .unmade⟩

/-- A call that will do nothing any more. -/
def Done (s : Contest) (n : Nat) : Prop := s.stage n = .unmade ∨ ∃ r, s.stage n = .returned r

/-- All calls made inside of a hook have returned. -/
def Left (s : Contest) (h : Nat) : Prop := ∀ n, s.home n = some h → s.Done n

/-- Where a call can be made: outside of all hooks, or inside of a hook that runs and does not
    wait for another call. -/
def Open (s : Contest) (home : Option Nat) : Prop :=
  ∀ h, home = some h → (∃ n, s.stage n = .inside h) ∧ s.Left h

/-- One more call. -/
def enter (s : Contest) (c : Call) (home : Option Nat) : Contest :=
  { s with
    made := s.made + 1
    home := Function.update s.home s.made home
    stage := Function.update s.stage s.made (.called c) }

/-- A call gets further, and leaves the lifecycle as told. -/
def advance (s : Contest) (n : Nat) (g : Stage) (l : Lifecycle Nat) : Contest :=
  { s with life := l, stage := Function.update s.stage n g }

/-- One thing is done. -/
inductive Step : Contest → Event → Contest → Prop
  | call {s : Contest} (c : Call) (home : Option Nat) (ho : s.Open home) :
      Step s (.called s.made c home) (s.enter c home)
  | move {s : Contest} {n : Nat} {c : Call} {target : Status} {l : Lifecycle Nat}
      (hn : s.stage n = .called c) (hc : c.target? = some target)
      (hm : s.life.move target = .ok l) : Step s (.moved n target) (s.advance n c.won l)
  | refuse {s : Contest} {n : Nat} {c : Call} {target : Status} {f : StatusFault}
      (hn : s.stage n = .called c) (hc : c.target? = some target)
      (hm : s.life.move target = .error f) :
      Step s (.refused n f) (s.advance n (c.lost f) s.life)
  | queue {s : Contest} {n : Nat} (hn : s.stage n = .called .register) :
      Step s (.queued n) (s.advance n .looking (s.life.register n))
  | look {s : Contest} {n : Nat} (hn : s.stage n = .looking) :
      Step s (.looked n s.life.status) (s.advance n
        (if s.life.status = .cancelled then .draining else .returned (.ok ())) s.life)
  | run {s : Contest} {n h : Nat} {l : Lifecycle Nat} (hn : s.stage n = .draining)
      (ht : s.life.takeHook = (some h, l)) : Step s (.ran n h) (s.advance n (.inside h) l)
  | leave {s : Contest} {n h : Nat} (hn : s.stage n = .inside h) (hl : s.Left h) :
      Step s (.ended n h) (s.advance n .draining s.life)
  | drop {s : Contest} {n h : Nat} {l : Lifecycle Nat} (hn : s.stage n = .discarding)
      (ht : s.life.takeHook = (some h, l)) : Step s (.dropped n h) (s.advance n .discarding l)
  | empty {s : Contest} {n : Nat} {l : Lifecycle Nat}
      (hn : s.stage n = .draining ∨ s.stage n = .discarding)
      (ht : s.life.takeHook = (none, l)) :
      Step s (.emptied n) (s.advance n (.returned (.ok ())) l)

end Contest

/-! ## Lifecycles -/

namespace Lifecycle

variable {η : Type u} {l l' : Lifecycle η} {target : Status} {f : StatusFault} {hook : η}

theorem move_eq_ok :
    l.move target = .ok l' ↔ l.status = .running ∧ { l with status := target } = l' := by
  unfold move
  split <;> simp [*]

theorem move_eq_error :
    l.move target = .error f ↔ l.status ≠ .running ∧ ⟨l.status, target⟩ = f := by
  unfold move
  split <;> simp [*]

theorem takeHook_eq_some : l.takeHook = (some hook, l') ↔
    l.hooks = hook :: l'.hooks ∧ l'.status = l.status := by
  obtain ⟨status, hooks⟩ := l
  obtain ⟨status', hooks'⟩ := l'
  cases hooks with
  | nil => simp [takeHook]
  | cons hook' hooks =>
    simp [takeHook, and_assoc, eq_comm (a := status), and_comm (a := status' = status)]

theorem takeHook_eq_none : l.takeHook = (none, l') ↔ l.hooks = [] ∧ l = l' := by
  cases hl : l.hooks <;> simp [takeHook, hl]

/-- Whoever finds a hook takes the oldest one. -/
theorem exists_takeHook (hn : l.hooks ≠ []) : ∃ hook l', l.takeHook = (some hook, l') :=
  have ⟨hook, hooks, he⟩ := List.exists_cons_of_ne_nil hn
  ⟨hook, { l with hooks }, takeHook_eq_some.2 ⟨he, rfl⟩⟩

/-- An operation that has ended is not running any more. -/
theorem status_finish (l : Lifecycle η) : l.finish.1.status ≠ .running := by
  unfold finish
  split
  case h_1 hm =>
    obtain ⟨-, rfl⟩ := move_eq_ok.1 hm
    nofun
  case h_2 hm =>
    have hr := (move_eq_error.1 hm).1
    split <;> exact hr

/-- The end of an operation leaves it as it is if it was cancelled, and leaves no hook otherwise. -/
theorem finish_cases (l : Lifecycle η) : l.status = .cancelled ∧ l.finish.1 = l ∨
    l.status ≠ .cancelled ∧ l.finish.1.status ≠ .cancelled ∧ l.finish.1.hooks = [] := by
  unfold finish
  split
  case h_1 hm =>
    obtain ⟨hr, rfl⟩ := move_eq_ok.1 hm
    exact .inr ⟨by simp [hr], nofun, rfl⟩
  case h_2 hm =>
    obtain ⟨-, rfl⟩ := move_eq_error.1 hm
    split
    case isTrue hc => exact .inl ⟨hc, rfl⟩
    case isFalse hc => exact .inr ⟨hc, hc, rfl⟩

end Lifecycle

/-! ## Calls and what has happened -/

namespace Contest

variable {s s' : Contest} {e : Event} {t : List Event} {n k : Nat}

@[simp] theorem life_enter (c : Call) (home : Option Nat) : (s.enter c home).life = s.life := rfl

@[simp] theorem life_advance (g : Stage) (l : Lifecycle Nat) : (s.advance n g l).life = l := rfl

theorem stage_enter (c : Call) (home : Option Nat) (m : Nat) :
    (s.enter c home).stage m = if m = s.made then .called c else s.stage m := by
  simp [enter, Function.update_apply]

theorem stage_advance (g : Stage) (l : Lifecycle Nat) (m : Nat) :
    (s.advance n g l).stage m = if m = n then g else s.stage m := by
  simp [advance, Function.update_apply]

theorem moves_append (t u : List Event) : moves (t ++ u) = moves t ++ moves u :=
  List.filterMap_append

theorem joined_append (t u : List Event) : joined (t ++ u) = joined t ++ joined u :=
  List.filterMap_append

theorem runs_append (t u : List Event) : runs (t ++ u) = runs t ++ runs u :=
  List.filterMap_append

theorem drops_append (t u : List Event) : drops (t ++ u) = drops t ++ drops u :=
  List.filterMap_append

theorem mem_moves {g : Status} : (n, g) ∈ moves t ↔ .moved n g ∈ t := by
  simp only [moves, List.mem_filterMap]
  constructor
  · rintro ⟨e, he, hm⟩
    cases e <;> simp_all [Event.move?]
  · exact fun hm => ⟨_, hm, rfl⟩

theorem mem_joined : k ∈ joined t ↔ .queued k ∈ t := by
  simp only [joined, List.mem_filterMap]
  constructor
  · rintro ⟨e, he, hm⟩
    cases e <;> simp_all [Event.queued?]
  · exact fun hm => ⟨_, hm, rfl⟩

theorem mem_runs : k ∈ runs t ↔ ∃ n, .ran n k ∈ t := by
  simp only [runs, List.mem_filterMap]
  constructor
  · rintro ⟨e, he, hm⟩
    cases e with
    | ran n hook =>
      obtain rfl : hook = k := by simpa [Event.run?] using hm
      exact ⟨n, he⟩
    | _ => simp [Event.run?] at hm
  · rintro ⟨n, hm⟩
    exact ⟨_, hm, rfl⟩

/-! ## Single steps -/

/-- A call that has done something. -/
def Stage.Begun : Stage → Prop
  | unmade => False
  | called _ => False
  | _ => True

/-- A stage that a call can be at under a status. -/
def Stage.Fits (status : Status) : Stage → Prop
  | draining => status = .cancelled
  | inside _ => status = .cancelled
  | discarding => status = .finished ∨ status = .released
  | _ => True

theorem begun_won (c : Call) : c.won.Begun := by cases c <;> trivial

theorem begun_lost (c : Call) (f : StatusFault) : (c.lost f).Begun := by
  cases c with
  | finish => by_cases hf : f.source = .cancelled <;> simp [Call.lost, hf, Stage.Begun]
  | _ => trivial

theorem fits_won {c : Call} {target : Status} (hc : c.target? = some target) :
    c.won.Fits target := by
  cases c <;> simp_all [Call.target?, Call.won, Stage.Fits]

theorem fits_lost {f : StatusFault} (c : Call) (hf : f.source ≠ .running) :
    (c.lost f).Fits f.source := by
  cases c with
  | finish => cases hs : f.source <;> simp_all [Call.lost, Stage.Fits]
  | _ => trivial

/-- A step is one of the call that it is by. -/
theorem Step.stage_of_ne (he : Step s e s') (hn : e.call ≠ n) : s'.stage n = s.stage n := by
  cases he <;> simp_all [Event.call, stage_enter, stage_advance, eq_comm]

/-- Either the status is moved away from running, or it stays what it is. -/
theorem Step.status (he : Step s e s') :
    (∃ n g, e = .moved n g ∧ s.life.status = .running ∧ s'.life.status = g ∧ g ≠ .running) ∨
      (e.move? = none ∧ s'.life.status = s.life.status) := by
  cases he with
  | @move n c g l hn hc hm =>
    obtain ⟨hr, rfl⟩ := Lifecycle.move_eq_ok.1 hm
    refine .inl ⟨n, g, rfl, hr, rfl, ?_⟩
    rintro rfl
    cases c <;> simp [Call.target?] at hc
  | run hn ht | drop hn ht => exact .inr ⟨rfl, (Lifecycle.takeHook_eq_some.1 ht).2⟩
  | empty hn ht =>
    obtain ⟨-, rfl⟩ := Lifecycle.takeHook_eq_none.1 ht
    exact .inr ⟨rfl, rfl⟩
  | _ => exact .inr ⟨rfl, rfl⟩

/-- A status that is not running any more stays. -/
theorem Step.status_stays (he : Step s e s') (h : s.life.status ≠ .running) :
    s'.life.status = s.life.status := by
  obtain ⟨-, -, -, hr, -⟩ | ⟨-, hs⟩ := he.status
  · exact absurd hr h
  · exact hs

/-- What is taken out of the queue comes from its front, and what is registered goes to its
    back. -/
theorem Step.hooks (he : Step s e s') :
    runs [e] ++ drops [e] ++ s'.life.hooks = s.life.hooks ++ joined [e] := by
  cases he with
  | queue hn => rfl
  | run hn ht | drop hn ht =>
    exact (Lifecycle.takeHook_eq_some.1 ht).1.symm.trans (List.append_nil _).symm
  | move hn hc hm =>
    obtain ⟨-, rfl⟩ := Lifecycle.move_eq_ok.1 hm
    exact (List.append_nil _).symm
  | empty hn ht =>
    obtain ⟨-, rfl⟩ := Lifecycle.takeHook_eq_none.1 ht
    exact (List.append_nil _).symm
  | _ => exact (List.append_nil _).symm

/-- Either a call is made, or one that was made does something. -/
theorem Step.begun (he : Step s e s') :
    (∃ c home, e = .called s.made c home ∧ s'.stage e.call = .called c) ∨
      (s.stage e.call ≠ .unmade ∧ (s'.stage e.call).Begun) := by
  cases he with
  | call c home ho => exact .inl ⟨c, home, rfl, by simp [stage_enter, Event.call]⟩
  | move hn hc hm =>
    exact .inr ⟨by simp [Event.call, hn], by simp [stage_advance, Event.call, begun_won]⟩
  | refuse hn hc hm =>
    exact .inr ⟨by simp [Event.call, hn], by simp [stage_advance, Event.call, begun_lost]⟩
  | look hn =>
    refine .inr ⟨by simp [Event.call, hn], ?_⟩
    simp only [stage_advance, Event.call, if_true]
    split <;> trivial
  | empty hn ht =>
    refine .inr ⟨by rcases hn with hn | hn <;> simp [Event.call, hn], ?_⟩
    simp [stage_advance, Event.call, Stage.Begun]
  | queue hn | run hn ht | leave hn hl | drop hn ht =>
    exact .inr ⟨by simp [Event.call, hn], by simp [stage_advance, Event.call, Stage.Begun]⟩

/-- The first thing that a call does: it moves the status or is refused, unless it registers a
    hook. -/
theorem Step.first (he : Step s e s') (hu : s.stage s.made = .unmade) {c : Call}
    (hc : s.stage e.call = .called c) :
    (∃ g, c.target? = some g ∧ e = .moved e.call g ∧ s'.stage e.call = c.won) ∨
      (∃ g, c.target? = some g ∧ s.life.status ≠ .running ∧
        e = .refused e.call ⟨s.life.status, g⟩ ∧
          s'.stage e.call = c.lost ⟨s.life.status, g⟩) ∨
      (c = .register ∧ e = .queued e.call) := by
  cases he with
  | call c' ho => exact absurd (hu.symm.trans hc) (by simp)
  | move hn hg hm =>
    cases hn.symm.trans hc
    exact .inl ⟨_, hg, rfl, by simp [stage_advance, Event.call]⟩
  | refuse hn hg hm =>
    cases hn.symm.trans hc
    obtain ⟨hr, rfl⟩ := Lifecycle.move_eq_error.1 hm
    exact .inr (.inl ⟨_, hg, hr, rfl, by simp [stage_advance, Event.call]⟩)
  | queue hn =>
    cases hn.symm.trans hc
    exact .inr (.inr ⟨rfl, rfl⟩)
  | empty hn ht => rcases hn with hn | hn <;> cases hn.symm.trans hc
  | look hn | run hn ht | leave hn hl | drop hn ht => cases hn.symm.trans hc

/-- A call is told of a refusal by its first step alone, and does nothing once it has
    returned. -/
theorem Step.later (he : Step s e s') (hu : s.stage s.made = .unmade)
    (hb : (s.stage e.call).Begun) :
    (∀ r, s.stage e.call ≠ .returned r) ∧ ∀ f, s'.stage e.call ≠ .returned (.error f) := by
  cases he with
  | call c home ho => simp [Event.call, hu, Stage.Begun] at hb
  | move hn hg hm | refuse hn hg hm | queue hn => simp [Event.call, hn, Stage.Begun] at hb
  | look hn =>
    refine ⟨by simp [Event.call, hn], fun f => ?_⟩
    simp only [stage_advance, Event.call, if_true]
    split <;> simp
  | empty hn ht =>
    exact ⟨by rcases hn with hn | hn <;> simp [Event.call, hn],
      by simp [stage_advance, Event.call]⟩
  | run hn ht | leave hn hl | drop hn ht =>
    exact ⟨by simp [Event.call, hn], by simp [stage_advance, Event.call]⟩

/-- A step leaves its call at a stage that fits to the status. -/
theorem Step.fits (he : Step s e s') (hf : (s.stage e.call).Fits s.life.status) :
    (s'.stage e.call).Fits s'.life.status := by
  cases he with
  | call c home ho => simp [stage_enter, Event.call, Stage.Fits]
  | move hn hc hm =>
    obtain ⟨-, rfl⟩ := Lifecycle.move_eq_ok.1 hm
    simpa [stage_advance, Event.call] using fits_won hc
  | refuse hn hc hm =>
    obtain ⟨hr, rfl⟩ := Lifecycle.move_eq_error.1 hm
    simpa [stage_advance, Event.call] using fits_lost _ hr
  | look hn =>
    simp only [stage_advance, Event.call, if_true, life_advance]
    split
    · assumption
    · trivial
  | run hn ht | drop hn ht =>
    simp only [Event.call, hn] at hf
    simpa [stage_advance, Event.call, (Lifecycle.takeHook_eq_some.1 ht).2, Stage.Fits] using hf
  | leave hn hl =>
    simp only [Event.call, hn] at hf
    simpa [stage_advance, Event.call, Stage.Fits] using hf
  | queue hn | empty hn ht => simp [stage_advance, Event.call, Stage.Fits]

end Contest

end ResumeOnce

import ResumeOnce.Proofs.Fold.Accounting
import ResumeOnce.Reactor.Session

/-!
# How the task of a fold ends

The task of a fold ends with the final state, by a panic of the folder, or because the
runtime drops it. In the first case its channel is closed and empty, so that no producer is
left behind. In the other cases the channel is left as it is: if nobody has closed it, it
goes on accepting actions, and nobody takes them out.

* `Exit`, `Task`, `Task.Step`: a fold and how its task ends;
* `Task.Step.consumer`, `Task.consumer_run`: whatever happens in between, it is a fold;
* `Others`, `Others.keep`: what others do to the channel when the task has ended;
* `Exited`, `exited`: what every run comes to.
-/

namespace ResumeOnce.Fold

variable {ρ α : Type}

/-- How the task of a fold has ended. -/
inductive Exit where
  | final (c : Completion)
  | panicked
  | dropped

/-- Whether the consumer calls its folder at a turn. -/
def Calling : Turn α → Prop
  | .start | .reduce _ | .emit | .finalize _ | .dispose _ _ => True
  | _ => False

/-- The task of a fold: its consumer, as it is or as the task has left it. -/
structure Task (ρ α : Type) where
  consumer : Consumer ρ α
  exit : Option Exit

/-- What is seen of a step of a task. -/
inductive Sight (α : Type) where
  | happened (e : Event α)
  | exited (exit : Exit)

/-- The events that were seen, in order. -/
def events (t : List (Sight α)) : List (Event α) :=
  t.filterMap fun
    | .happened e => some e
    | .exited _ => none

@[simp]
theorem events_happened (t : List (Sight α)) (e : Event α) :
    events (t ++ [.happened e]) = events t ++ [e] := by simp [events]

@[simp]
theorem events_exited (t : List (Sight α)) (x : Exit) :
    events (t ++ [.exited x]) = events t := by simp [events]

variable [DecidableEq ρ]

/-- What others do to the channel of a fold. -/
inductive Others : Consumer ρ α → Event α → Consumer ρ α → Prop
  | write {s : Consumer ρ α} (p : Option ρ) (a : α) :
      Others s (.wrote a (s.channel.write p a).result) (s.exchange (s.channel.write p a))
  | close {s : Consumer ρ α} (c : Completion) :
      Others s (.closed c (s.channel.close c).result) (s.exchange (s.channel.close c))
  | withdraw {s : Consumer ρ α} (f : Fault) :
      Others s (.withdrawn f (s.channel.cancel f).result) (s.exchange (s.channel.cancel f))

namespace Task

/-- A task at its begin. -/
def new (b : Buffering) : Task ρ α := ⟨.new b, none⟩

/-- What can happen to a fold and its task. A panic ends the task where the folder is called. -/
inductive Step : Task ρ α → Sight α → Task ρ α → Prop
  | go {s f : Consumer ρ α} {e : Event α} : Consumer.Step s e f →
      Step ⟨s, none⟩ (.happened e) ⟨f, none⟩
  | final {s : Consumer ρ α} {c : Completion} : s.turn = .stop c →
      Step ⟨s, none⟩ (.exited (.final c)) ⟨s, some (.final c)⟩
  | panic {s : Consumer ρ α} : Calling s.turn →
      Step ⟨s, none⟩ (.exited .panicked) ⟨s, some .panicked⟩
  | drop {s : Consumer ρ α} : Step ⟨s, none⟩ (.exited .dropped) ⟨s, some .dropped⟩
  | after {s f : Consumer ρ α} {e : Event α} {x : Exit} : Others s e f →
      Step ⟨s, some x⟩ (.happened e) ⟨f, some x⟩

end Task

/-! ## Others -/

namespace Others

variable {s s' : Consumer ρ α} {e : Event α}

theorem step (h : Others s e s') : Consumer.Step s e s' := by
  cases h with
  | write p a => exact .write p a
  | close c => exact .close c
  | withdraw f => exact .withdraw f

theorem turn (h : Others s e s') (hs : s.Sound) : s'.turn = s.turn := by
  cases h with
  | write p a => exact (hs.write p a).turn
  | close c => exact (hs.close c).turn
  | withdraw f =>
    obtain ⟨c, -, -, he⟩ := hs.withdraw f
    rw [he]
    rfl

theorem calls (h : Others s e s') : e.calls = [] := by cases h <;> rfl

/-- Whatever is in the channel stays in it, unless it is taken back. -/
theorem keep (h : Others s e s') (hs : s.Sound) (hw : e.withdrawals = []) :
    s.channel.values <+: s'.channel.values := by
  cases h with
  | write p a =>
    have hx := hs.write p a
    generalize (s.channel.write p a).result = w at hx
    generalize s.exchange (s.channel.write p a) = s' at hx
    cases hx with
    | closed x hx => exact List.prefix_refl _
    | full ho hw hp hb => exact List.prefix_refl _
    | met r c ho ha hq hc => simp [Channel.values, hq]
    | queued c ho hw hc => simp [Channel.values, hc.queued]
  | close c =>
    have hv : (s.exchange (s.channel.close c)).channel.values = s.channel.values := by
      rw [Channel.values, Channel.values, (hs.close c).queued]
    exact hv ▸ List.prefix_refl _
  | withdraw f =>
    obtain ⟨c, -, hv, -⟩ := hs.withdraw f
    have hn : s.channel.values = [] := hv ▸ hw
    rw [hn]
    exact List.nil_prefix

end Others

/-! ## A task is a fold -/

/-- Whoever gives a channel its completion closes it. -/
theorem Consumer.Step.closes {s s' : Consumer ρ α} {e : Event α} (h : Consumer.Step s e s')
    (hs : s.Sound) (he : e.terminals ≠ []) : s'.channel.completion.isSome := by
  cases h with
  | close c => exact (hs.close c).closes
  | finish ht => exact (hs.close _).closes
  | withdraw f =>
    obtain ⟨c, hc, -, hx⟩ := hs.withdraw f
    rw [hx, Consumer.answer, hc.completion]
    rfl
  | _ => exact absurd rfl he

namespace Task

variable {b : Buffering} {t t' : List (Sight α)} {s s' : Task ρ α} {x : Sight α}

/-- A step of a task is a step of its fold, or the end of the task. -/
theorem Step.consumer (h : Step s x s') :
    (∃ e, x = .happened e ∧ Consumer.Step s.consumer e s'.consumer) ∨
      ∃ y, x = .exited y ∧ s'.consumer = s.consumer := by
  cases h with
  | go hs => exact .inl ⟨_, rfl, hs⟩
  | after ho => exact .inl ⟨_, rfl, ho.step⟩
  | final ht => exact .inr ⟨_, rfl, rfl⟩
  | panic hc => exact .inr ⟨_, rfl, rfl⟩
  | drop => exact .inr ⟨_, rfl, rfl⟩

theorem consumer_run (h : Run Step (new b : Task ρ α) t s) :
    Run Consumer.Step (.new b) (events t) s.consumer := by
  refine h.invariant (P := fun t s => Run Consumer.Step (.new b) (events t) s.consumer) .nil ?_
  intro t s x s' hr hs
  rcases hs.consumer with ⟨e, rfl, he⟩ | ⟨y, rfl, he⟩
  · rw [events_happened]
    exact hr.snoc he
  · rw [events_exited, he]
    exact hr

/-- The channel is closed if and only if somebody has closed it. -/
theorem closed_iff (h : Run Step (new b : Task ρ α) t s) :
    s.consumer.channel.completion.isSome ↔ terminals (events t) ≠ [] := by
  refine (consumer_run h).invariant (P := fun t s => Run Consumer.Step (.new b) t s ∧
    (s.channel.completion.isSome ↔ terminals t ≠ [])) ⟨.nil, ?_⟩ ?_ |>.2
  · have ho : (Consumer.new b : Consumer ρ α).channel.completion = none := rfl
    simp [ho, terminals]
  · rintro t s e s' ⟨hr, hp⟩ hs
    have hk := kept_run hr
    refine ⟨hr.snoc hs, ?_⟩
    rw [terminals_snoc, ne_eq, List.append_eq_nil_iff, Classical.not_and_iff_not_or_not]
    constructor
    · intro hc
      rcases hs.completion hk.sound with he | ⟨c, he, -⟩
      · exact .inl (hp.1 (he ▸ hc))
      · exact .inr (by simp [he])
    · rintro (hn | hn)
      · exact hs.closed hk.sound (hp.2 hn)
      · exact hs.closes hk.sound hn

/-- Where the task was when it ended. -/
def Place (s : Task ρ α) : Prop :=
  match s.exit with
  | some (.final c) => s.consumer.turn = .stop c
  | some .panicked => Calling s.consumer.turn
  | _ => True

theorem place_run (h : Run Step (new b : Task ρ α) t s) : s.Place := by
  refine h.invariant (P := fun t s => Run Step (new b : Task ρ α) t s ∧ s.Place)
    ⟨.nil, trivial⟩ ?_ |>.2
  rintro t s x s' ⟨hr, hp⟩ hs
  refine ⟨hr.snoc hs, ?_⟩
  have hk := kept_run (consumer_run hr)
  cases hs with
  | go hs => trivial
  | final ht => exact ht
  | panic hc => exact hc
  | drop => trivial
  | @after s f e x ho =>
    have ht := ho.turn hk.sound
    cases x with
    | final c => exact ht.trans hp
    | panicked =>
      change Calling f.turn
      rw [ht]
      exact hp
    | dropped => trivial

/-- When the task has ended, the folder is not called any more, and whatever is in the channel
    stays in it unless it is taken back. -/
theorem stays (hr : Run Step (new b : Task ρ α) t s) {y : Exit} (hy : s.exit = some y)
    (h : Run Step s t' s') : s'.exit = some y ∧ calls (events t') = [] ∧
      (withdrawals (events t') = [] →
        s.consumer.channel.values <+: s'.consumer.channel.values) := by
  refine h.invariant (P := fun t' s' => s'.consumer.Sound ∧ s'.exit = some y ∧
    calls (events t') = [] ∧ (withdrawals (events t') = [] →
      s.consumer.channel.values <+: s'.consumer.channel.values))
    ⟨(kept_run (consumer_run hr)).sound, hy, rfl, fun _ => List.prefix_refl _⟩ ?_ |>.2
  rintro t' s' x s₁ ⟨hk, hx, hc, hv⟩ hs
  cases hs with
  | after ho =>
    refine ⟨ho.step.sound hk, hx, ?_, ?_⟩
    · rw [events_happened, calls_snoc, hc, ho.calls]
      rfl
    · intro hw
      rw [events_happened, withdrawals_snoc, List.append_eq_nil_iff] at hw
      exact (hv hw.1).trans (ho.keep hk hw.2)
  | go | final | panic | drop => cases hx

end Task

/-! ## The end -/

/-- Whether nobody is left behind in a channel: it is closed, and there is nothing in it. -/
def Settled (s : Consumer ρ α) : Prop := s.channel.completion.isSome ∧ s.channel.queued = []

/-- A settled channel refuses whatever comes. -/
theorem Settled.refuses {s : Consumer ρ α} (h : Settled s) (hs : s.Sound) (p : Option ρ) (a : α) :
    ∃ f, (s.channel.write p a).result = .refused ⟨f, a⟩ := by
  have hx := hs.write p a
  generalize (s.channel.write p a).result = w at hx ⊢
  generalize s.exchange (s.channel.write p a) = s' at hx
  cases hx with
  | closed x hx => exact ⟨_, rfl⟩
  | full ho hw hp hb => exact ⟨_, rfl⟩
  | met r c ho ha hq hc => simp [Settled, ho] at h
  | queued c ho hw hc => simp [Settled, ho] at h

/-- How the end of its task leaves a fold. -/
structure Exited (b : Buffering) (t : List (Sight α)) (s : Task ρ α) : Prop where
  /-- With its final state, it leaves nobody behind: what the channel accepted was passed to the
      folder or given back, and what comes later is refused. -/
  final : ∀ c, s.exit = some (.final c) → Settled s.consumer ∧
    accepted (events t) = taken (calls (events t)) ++ withdrawals (events t) ∧
    ∀ p a, ∃ f, (s.consumer.channel.write p a).result = .refused ⟨f, a⟩
  /-- In any case, what the channel accepted was passed to the folder or given back, is lost with
      the task that had it in hand, or is in the channel. -/
  conserved : accepted (events t) = taken (calls (events t)) ++ s.consumer.hand ++
    withdrawals (events t) ++ s.consumer.channel.values
  /-- A panic is a panic of the folder. -/
  panicked : s.exit = some .panicked → Calling s.consumer.turn
  /-- The channel is closed only if somebody has closed it; the end of the task does not. -/
  closed_iff : s.consumer.channel.completion.isSome ↔ terminals (events t) ≠ []
  /-- As long as nobody has, it accepts whatever there is room for. -/
  accepts : terminals (events t) = [] → ∀ p a,
    s.consumer.channel.buffering.admits (Channel.unattended s.consumer.channel.queued) = true →
    ∀ r, (s.consumer.channel.write p a).result ≠ .refused r
  /-- What is in the channel when the task has ended is not passed to the folder, and stays there
      unless it is taken back. -/
  stays : ∀ y, s.exit = some y → ∀ t' s', Run Task.Step s t' s' →
    s'.exit = some y ∧ calls (events t') = [] ∧ (withdrawals (events t') = [] →
      s.consumer.channel.values <+: s'.consumer.channel.values)

/-- Only a fold that comes to its final state leaves nobody behind. -/
theorem exited {b : Buffering} {t : List (Sight α)} {s : Task ρ α}
    (h : Run Task.Step (.new b : Task ρ α) t s) : Exited b t s := by
  have hk := kept_run (Task.consumer_run h)
  have hc := Task.closed_iff h
  have hp := Task.place_run h
  refine ⟨fun c hx => ?_, hk.balance.conserved_in_order, fun hx => ?_, hc, fun hn p a hb r hr => ?_,
    fun y hy t' s' => Task.stays h hy⟩
  · have ht : s.consumer.turn = .stop c := by
      rw [Task.Place, hx] at hp
      exact hp
    have hl : Settled s.consumer :=
      ⟨hk.left.closed (ht ▸ trivial), hk.left.emptied c ht⟩
    refine ⟨hl, ?_, hl.refuses hk.sound⟩
    have hload : s.consumer.load = [] := by
      simp [Consumer.load, Consumer.hand, ht, Channel.values, hl.2]
    rw [hk.balance.conserved, hload, List.append_nil]
  · rw [Task.Place, hx] at hp
    exact hp
  · have hx := hk.sound.write p a
    rw [hr] at hx
    generalize s.consumer.exchange (s.consumer.channel.write p a) = s' at hx
    cases hx with
    | closed x hx => exact hc.1 (by rw [hx]; rfl) hn
    | full ho hw hp hf => simp [hb] at hf

/-- The folder panics at its first action. A second one is in the channel, and a third one is
    accepted afterwards. -/
theorem exited_panicked : ∃ (t : List (Sight Nat)) (s : Task Nat Nat),
    Run Task.Step (.new .unbounded : Task Nat Nat) t s ∧ Exited .unbounded t s ∧
      s.exit = some .panicked ∧ s.consumer.turn = .reduce 5 ∧
      s.consumer.channel.completion = none ∧ s.consumer.channel.values = [6, 7] := by
  have new : Run Task.Step (.new .unbounded : Task Nat Nat) [] _ := .nil
  have written := new.snoc (.go (.write none 5)) |>.snoc (.go (.write none 6))
  have taken := written.snoc (.go (.start rfl)) |>.snoc (.go (.checkpoint rfl))
    |>.snoc (.go (.read 0 rfl rfl))
  have run := taken.snoc (.panic (by trivial)) |>.snoc (.after (.write none 7))
  exact ⟨_, _, run, exited run, rfl, rfl, rfl, rfl⟩

/-- The value of a fold tells that its folder panicked; its channel is open, holds an action, and
    accepts another one. -/
theorem panicked_fold_open :
    (match Reactor.Session.run .cancel false
      [.fold "f" ⟨.unbounded,
          [⟨.int 1, none, none, .panic, .emit⟩, ⟨.int 2, none, none, .keep, .emit⟩], none, false, []⟩,
        .pollValue "f", .foldState "f", .send "f" ⟨.int 3, none, none, .keep, .emit⟩,
        .foldState "f"] with
    | .ok ([_, ⟨.outcome (.error f), _⟩, ⟨.channelState n _ none, _⟩, ⟨.done, _⟩,
        ⟨.channelState m _ none, _⟩], _) => f.kind == .panicked && n == 1 && m == 2
    | _ => false) = true := by
  decide +kernel

end ResumeOnce.Fold

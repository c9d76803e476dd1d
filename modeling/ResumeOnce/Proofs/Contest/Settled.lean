import ResumeOnce.Proofs.Contest.Fair

/-!
# How a contest comes out

One call moves the status, and all others are told so. After a cancellation every hook
is run, once, whenever it was registered, and by whomever; after anything else no hook
is run, and the end of the operation lets go those that wait.

* `Contest.settled`: who wins, what the others are told, and what becomes of the hooks;
* `Contest.proceeds`: no call waits for another one, but for those that its hook has made;
* `Contest.finish_alone`: the end of an operation, undisturbed, is that of its lifecycle.
-/

namespace ResumeOnce.Contest

variable {s s' : Contest} {e : Event} {t : List Event} {n : Nat}

/-! ## How a contest comes out -/

/-- How a contest comes out, whatever was called and in whatever order things were done. -/
structure Settled (t : List Event) (s : Contest) : Prop where
  /-- The status is moved once at most, and is then what it was moved to. -/
  once : (moves t = [] ∧ s.life.status = .running) ∨
    ∃ n, moves t = [(n, s.life.status)] ∧ s.life.status ≠ .running
  /-- Once the status is not running any more, it never changes. -/
  stays : ∀ t₁ t₂ s₁, t = t₁ ++ t₂ → Run Step new t₁ s₁ → Run Step s₁ t₂ s →
    s₁.life.status ≠ .running → s.life.status = s₁.life.status
  /-- A cancel or release that has returned has moved the status and tells so, or it has done
      nothing but being refused, and tells what the status was and still is. -/
  told : ∀ n c home g r, .called n c home ∈ t → c ≠ .finish → c.target? = some g →
    s.stage n = .returned r → (r = .ok () ∧ moves t = [(n, g)]) ∨
      (r = .error ⟨s.life.status, g⟩ ∧ s.life.status ≠ .running ∧ ∀ e ∈ t, e.call = n →
        e = .refused n ⟨s.life.status, g⟩ ∨ ∃ home, e = .called n c home)
  /-- A refusal tells the status that it finds, and changes nothing. -/
  refusals : ∀ t₁ t₂ n f, t = t₁ ++ .refused n f :: t₂ → ∃ s₁ s₂, Run Step new t₁ s₁ ∧
    Step s₁ (.refused n f) s₂ ∧ Run Step s₂ t₂ s ∧ s₂.life = s₁.life ∧
      f.source = s₁.life.status ∧ f.source ≠ .running
  /-- No hook is run twice or let go twice, or both run and let go. -/
  hooks_once : (runs t ++ drops t).Nodup
  /-- When a cancel has succeeded and every call has returned, every hook was run, to its end. -/
  cancelled : ∀ m, .moved m .cancelled ∈ t → (∀ n, s.Done n) →
    ∀ h home, .called h .register home ∈ t → (runs t).count h = 1 ∧ ∃ n, .ended n h ∈ t
  /-- When a finish or release has won, no hook is run. -/
  spared : ∀ m g, .moved m g ∈ t → g ≠ .cancelled → runs t = []
  /-- When a finish or release has won and the end of the operation was told, all hooks that had
      been registered by then are gone. -/
  discarded : ∀ m g n home r, .moved m g ∈ t → g ≠ .cancelled → .called n .finish home ∈ t →
    s.stage n = .returned r → ∃ t₁ t₂, t = t₁ ++ .emptied n :: t₂ ∧ drops t₁ = joined t₁

/-- Once the status is not running any more, it stays. -/
theorem status_stays {s₀ : Contest} (h : Run Step s₀ t s) (h₀ : s₀.life.status ≠ .running) :
    s.life.status = s₀.life.status := by
  induction h with
  | nil => rfl
  | snoc _ he ih => rw [he.status_stays (ih ▸ h₀), ih]

theorem Fair.moved (h : Fair t s) {m : Nat} {g : Status} (hm : .moved m g ∈ t) :
    moves t = [(m, g)] ∧ s.life.status = g ∧ g ≠ .running := by
  obtain ⟨hn, -⟩ | ⟨k, hk, hr⟩ := h.status
  · exact absurd (mem_moves.2 hm) (hn ▸ List.not_mem_nil)
  · obtain ⟨rfl, rfl⟩ := Prod.mk.inj (List.mem_singleton.1 (hk ▸ mem_moves.2 hm))
    exact ⟨hk, rfl, hr⟩

theorem Fair.told (h : Fair t s) {c : Call} {home : Option Nat} {g : Status}
    {r : Except StatusFault Unit} (hc : .called n c home ∈ t) (hf : c ≠ .finish)
    (hg : c.target? = some g) (hr : s.stage n = .returned r) :
    (r = .ok () ∧ moves t = [(n, g)]) ∨
      (r = .error ⟨s.life.status, g⟩ ∧ s.life.status ≠ .running ∧ ∀ e ∈ t, e.call = n →
        e = .refused n ⟨s.life.status, g⟩ ∨ ∃ home, e = .called n c home) := by
  rcases h.contender n c home g hc hf hg with hs | ⟨hm, -, hs⟩ | ⟨hs, hx⟩
  · cases hr.symm.trans hs
  · refine .inl ⟨?_, (h.moved hm).1⟩
    cases r with
    | ok _ => rfl
    | error f => exact absurd hr (hs f)
  · cases hr.symm.trans hs
    exact .inr ⟨rfl, hx⟩

theorem refused_at {t₁ t₂ : List Event} {f : StatusFault} (h : Run Step new t s)
    (ht : t = t₁ ++ .refused n f :: t₂) : ∃ s₁ s₂, Run Step new t₁ s₁ ∧
      Step s₁ (.refused n f) s₂ ∧ Run Step s₂ t₂ s ∧ s₂.life = s₁.life ∧
        f.source = s₁.life.status ∧ f.source ≠ .running := by
  obtain ⟨s₁, s₂, h₁, he, h₂⟩ := h.split ht
  refine ⟨s₁, s₂, h₁, he, h₂, ?_⟩
  cases he with
  | refuse hn hc hm =>
    obtain ⟨hr, rfl⟩ := Lifecycle.move_eq_error.1 hm
    exact ⟨rfl, rfl, hr⟩

/-- Nobody who is done looks after the queue, so that it is empty. -/
theorem Fair.cancelled (h : Fair t s) {m : Nat} (hm : .moved m .cancelled ∈ t)
    (hq : ∀ n, s.Done n) {k : Nat} {home : Option Nat} (hc : .called k .register home ∈ t) :
    (runs t).count k = 1 ∧ ∃ n, .ended n k ∈ t := by
  have hs := (h.moved hm).2.1
  have hempty : s.life.hooks = [] := by
    by_contra hh
    obtain ⟨n, hn⟩ := h.owed hs hh
    rcases hq n with hd | ⟨r, hd⟩ <;> simp [hd, Stage.Looks] at hn
  have hdrops : drops t = [] := by
    by_contra hd
    simpa [hs] using h.let_go hd
  have hl : runs t = joined t := by
    simpa [hempty, hdrops] using h.ledger
  have hk : k ∈ joined t := by
    rcases h.registrar k home hc with hr | hk
    · rcases hq k with hd | ⟨r, hd⟩ <;> cases hr.symm.trans hd
    · exact mem_joined.2 hk
  obtain ⟨n, hn⟩ := mem_runs.1 (hl ▸ hk)
  refine ⟨List.count_eq_one_of_mem (hl ▸ h.nodup) (hl ▸ hk), n, ?_⟩
  refine (h.ended n k hn).resolve_left fun hi => ?_
  rcases hq n with hd | ⟨r, hd⟩ <;> cases hi.symm.trans hd

theorem Fair.spared (h : Fair t s) {m : Nat} {g : Status} (hm : .moved m g ∈ t)
    (hg : g ≠ .cancelled) : runs t = [] := by
  by_contra hr
  exact hg ((h.moved hm).2.1 ▸ h.ran hr)

/-- The end of an operation goes on until it finds the queue empty. -/
theorem discarded_at (h : Run Step new t s) {m : Nat} {g : Status} {home : Option Nat}
    {r : Except StatusFault Unit} (hm : .moved m g ∈ t) (hg : g ≠ .cancelled)
    (hc : .called n .finish home ∈ t) (hr : s.stage n = .returned r) :
    ∃ t₁ t₂, t = t₁ ++ .emptied n :: t₂ ∧ drops t₁ = joined t₁ := by
  have hfair := fair_run h
  obtain ⟨-, hs, hne⟩ := hfair.moved hm
  have hn : .emptied n ∈ t := by
    rcases hfair.finisher n home hc with hf | hf | ⟨_, -, hx | he⟩
    · cases hr.symm.trans hf
    · cases hr.symm.trans hf
    · exact absurd (hs.symm.trans hx) hg
    · exact he
  obtain ⟨t₁, t₂, ht⟩ := List.append_of_mem hn
  refine ⟨t₁, t₂, ht, ?_⟩
  obtain ⟨s₁, s₂, h₁, he, -⟩ := h.split ht
  have hfair₁ := fair_run h₁
  have hruns : runs t₁ = [] := by
    have := hfair.spared hm hg
    rw [ht, runs_append] at this
    exact (List.append_eq_nil_iff.1 this).1
  cases he with
  | empty _ he =>
    have hl := hfair₁.ledger
    rwa [hruns, (Lifecycle.takeHook_eq_none.1 he).1, List.append_nil, List.nil_append] at hl

/-- Of the calls that contend for a lifecycle, one wins at most; the others are told so and do
    nothing else; and every hook is run, let go or kept, once, as the winner has it. -/
theorem settled (h : Run Step new t s) : Settled t s where
  once := (fair_run h).status
  stays _ _ _ _ _ h₂ := status_stays h₂
  told _ _ _ _ _ := (fair_run h).told
  refusals _ _ _ _ := refused_at h
  hooks_once := by
    have := (fair_run h).nodup
    rw [← (fair_run h).ledger] at this
    exact (List.nodup_append.1 this).1
  cancelled _ hm hq _ _ := (fair_run h).cancelled hm hq
  spared _ _ := (fair_run h).spared
  discarded _ _ _ _ _ := discarded_at h

/-- A hook that waits makes the canceller run it, and while it runs it registers another one,
    which therefore runs it in its turn; a release comes too late. -/
theorem settled_nested : ∃ (t : List Event) (s : Contest), Run Step new t s ∧
    (moves t = [(1, .cancelled)] ∧ runs t = [0, 2] ∧
      s.stage 3 = .returned (.error ⟨.cancelled, .released⟩)) ∧ Settled t s := by
  have h₀ : Run Step new [] _ := .nil
  have h₁ := h₀.snoc (.call .register none fun _ h => nomatch h)
  have h₂ := h₁.snoc (.queue (n := 0) rfl)
  have h₃ := h₂.snoc (.look (n := 0) rfl)
  have h₄ := h₃.snoc (.call .cancel none fun _ h => nomatch h)
  have h₅ := h₄.snoc (.move (n := 1) rfl rfl rfl)
  have h₆ := h₅.snoc (.run (n := 1) rfl rfl)
  have h₇ := h₆.snoc (.call .register (some 0) (by
    rintro _ ⟨⟩
    exact ⟨⟨1, rfl⟩, fun n hn => by simp [new, enter, advance] at hn⟩))
  have h₈ := h₇.snoc (.queue (n := 2) rfl)
  have h₉ := h₈.snoc (.look (n := 2) rfl)
  have h₁₀ := h₉.snoc (.run (n := 2) rfl rfl)
  have h₁₁ := h₁₀.snoc (.leave (n := 2) rfl fun n hn => by
    simp [new, enter, advance, Function.update_apply] at hn)
  have h₁₂ := h₁₁.snoc (.empty (n := 2) (.inl rfl) rfl)
  have h₁₃ := h₁₂.snoc (.leave (n := 1) rfl fun n hn => by
    obtain rfl : n = 2 := by simpa [new, enter, advance, Function.update_apply] using hn
    exact .inr ⟨.ok (), rfl⟩)
  have h₁₄ := h₁₃.snoc (.empty (n := 1) (.inl rfl) rfl)
  have h₁₅ := h₁₄.snoc (.call .release none fun _ h => nomatch h)
  have h₁₆ := h₁₅.snoc (.refuse (n := 3) rfl rfl rfl)
  exact ⟨_, _, h₁₆, ⟨rfl, rfl, rfl⟩, settled h₁₆⟩

/-! ## Nobody waits for anybody else -/

/-- A call that runs a hook waits for later calls alone. -/
structure Nested (t : List Event) (s : Contest) : Prop where
  ran : ∀ m h, s.stage m = .inside h → h ∈ runs t
  homes : ∀ n h, s.home n = some h → h ∈ runs t
  inner : ∀ m n h, s.stage m = .inside h → s.home n = some h → m < n

theorem Nested.new : Nested [] new := by
  constructor <;> simp [Contest.new]

/-- A hook at the front of the queue was not run yet. -/
theorem Fair.not_ran (h : Fair t s) {k : Nat} {l : Lifecycle Nat}
    (ht : s.life.takeHook = (some k, l)) : k ∉ runs t := by
  have hn := h.nodup
  rw [← h.ledger, (Lifecycle.takeHook_eq_some.1 ht).1, List.append_assoc] at hn
  exact fun hk => (List.nodup_append.1 hn).2.2 k hk k (by simp) rfl

/-- A call gets into a hook by taking it out of the queue. -/
theorem Step.inside (he : Step s e s') {k : Nat} (hk : s'.stage e.call = .inside k) :
    e = .ran e.call k ∧ s'.home = s.home ∧ ∃ l, s.life.takeHook = (some k, l) := by
  cases he with
  | run hn ht =>
    obtain rfl : _ = k := by simpa [stage_advance, Event.call] using hk
    exact ⟨rfl, rfl, _, ht⟩
  | @move n c g l hn hc hm => cases c <;> simp [stage_advance, Event.call, Call.won] at hk
  | @refuse n c g f hn hc hm =>
    cases c <;> simp only [stage_advance, Event.call, Call.lost, if_true] at hk <;> grind
  | look hn =>
    simp only [stage_advance, Event.call, if_true] at hk
    split at hk <;> cases hk
  | call c home ho => simp [stage_enter, Event.call] at hk
  | queue hn | leave hn hl | drop hn ht | empty hn ht =>
    simp [stage_advance, Event.call] at hk

/-- The only calls inside of a hook are those that are made there while it runs. -/
theorem Step.home (he : Step s e s') {k : Nat} (hk : s'.home n = some k) :
    s.home n = some k ∨ (n = s.made ∧ ∃ m, s.stage m = .inside k) := by
  cases he with
  | call c home ho =>
    by_cases hn : n = s.made
    · subst hn
      exact .inr ⟨rfl, (ho k (by simpa [enter] using hk)).1⟩
    · exact .inl (by simpa [enter, hn] using hk)
  | _ => exact .inl hk

theorem Nested.step (hn : Nested t s) (h : Fair t s) (he : Step s e s') :
    Nested (t ++ [e]) s' where
  ran m k hm := by
    rw [runs_append]
    by_cases hc : e.call = m
    · rw [(he.inside (hc ▸ hm)).1]
      exact List.mem_append_right _ (List.mem_singleton.2 rfl)
    · exact List.mem_append_left _ (hn.ran m k (he.stage_of_ne hc ▸ hm))
  homes n k hk := by
    rw [runs_append]
    rcases he.home hk with hk | ⟨-, m, hm⟩
    · exact List.mem_append_left _ (hn.homes n k hk)
    · exact List.mem_append_left _ (hn.ran m k hm)
  inner m n k hm hk := by
    by_cases hc : e.call = m
    · -- The hook comes out of the queue, so that no call can have been made inside of it.
      obtain ⟨-, hh, l, ht⟩ := he.inside (hc ▸ hm)
      exact absurd (hn.homes n k (hh ▸ hk)) (h.not_ran ht)
    · rw [he.stage_of_ne hc] at hm
      rcases he.home hk with hk | ⟨rfl, -⟩
      · exact hn.inner m n k hm hk
      · by_contra hlt
        cases (h.fresh m (Nat.le_of_not_lt hlt)).symm.trans hm

theorem nested_run (h : Run Step new t s) : Fair t s ∧ Nested t s :=
  h.invariant (P := fun t s => Fair t s ∧ Nested t s) ⟨.new, .new⟩
    fun ⟨hf, hn⟩ he => ⟨hf.step he, hn.step hf he⟩

/-- A call that has not returned does something next, or waits for a later one that was made
    inside of the hook it runs and does so. -/
theorem proceeds (h : Run Step new t s) (hn : ¬ s.Done n) :
    ∃ e s', Step s e s' ∧ n ≤ e.call ∧ s.stage e.call ≠ .unmade := by
  have hf := (nested_run h).1
  induction hk : s.made - n using Nat.strongRecOn generalizing n with
  | _ k ih =>
  subst hk
  cases hs : s.stage n with
  | unmade => exact absurd (.inl hs) hn
  | returned r => exact absurd (.inr ⟨r, hs⟩) hn
  | called c =>
    cases hc : c.target? with
    | none =>
      obtain rfl : c = .register := by cases c <;> simp_all [Call.target?]
      exact ⟨_, _, .queue hs, Nat.le_refl _, by simp [Event.call, hs]⟩
    | some g =>
      cases hm : s.life.move g with
      | ok l => exact ⟨_, _, .move hs hc hm, Nat.le_refl _, by simp [Event.call, hs]⟩
      | error f => exact ⟨_, _, .refuse hs hc hm, Nat.le_refl _, by simp [Event.call, hs]⟩
  | looking => exact ⟨_, _, .look hs, Nat.le_refl _, by simp [Event.call, hs]⟩
  | draining =>
    rcases ht : s.life.takeHook with ⟨_ | k, l⟩
    · exact ⟨_, _, .empty (.inl hs) ht, Nat.le_refl _, by simp [Event.call, hs]⟩
    · exact ⟨_, _, .run hs ht, Nat.le_refl _, by simp [Event.call, hs]⟩
  | discarding =>
    rcases ht : s.life.takeHook with ⟨_ | k, l⟩
    · exact ⟨_, _, .empty (.inr hs) ht, Nat.le_refl _, by simp [Event.call, hs]⟩
    · exact ⟨_, _, .drop hs ht, Nat.le_refl _, by simp [Event.call, hs]⟩
  | inside k =>
    by_cases hl : s.Left k
    · exact ⟨_, _, .leave hs hl, Nat.le_refl _, by simp [Event.call, hs]⟩
    · -- Of the calls that the hook has made, one has not returned, and that one is later.
      obtain ⟨m, hm⟩ := not_forall.1 hl
      obtain ⟨hk, hd⟩ := Classical.not_imp.1 hm
      have hlt := (nested_run h).2.inner n m k hs hk
      have hmade : m < s.made := by
        by_contra hm
        exact hd (.inl (hf.fresh m (Nat.le_of_not_lt hm)))
      obtain ⟨e, s', he, hle, hu⟩ := ih (s.made - m) (by omega) hd rfl
      exact ⟨e, s', he, by omega, hu⟩

/-! ## The end of an operation, undisturbed -/

/-- Alone, a call that discards lets go all hooks. -/
theorem discard_all (hn : s.stage n = .discarding) : ∃ t s', Run Step s t s' ∧
    (∀ e ∈ t, e.call = n) ∧ s'.stage n = .returned (.ok ()) ∧
      s'.life = { s.life with hooks := [] } ∧ drops t = s.life.hooks := by
  generalize hl : s.life.hooks = hooks
  induction hooks generalizing s with
  | nil =>
    have ht : s.life.takeHook = (none, s.life) := Lifecycle.takeHook_eq_none.2 ⟨hl, rfl⟩
    refine ⟨[.emptied n], _, Run.nil.snoc (.empty (.inr hn) ht), by simp [Event.call], ?_, ?_, rfl⟩
    · simp [stage_advance]
    · simp [← hl]
  | cons hook hooks ih =>
    have ht : s.life.takeHook = (some hook, { s.life with hooks }) :=
      Lifecycle.takeHook_eq_some.2 ⟨hl, rfl⟩
    obtain ⟨t, s', hr, hc, hs, hx, hd⟩ := ih (s := s.advance n .discarding { s.life with hooks })
      (by simp [stage_advance]) rfl
    refine ⟨.dropped n hook :: t, s', hr.cons (.drop hn ht), ?_, hs, hx, ?_⟩
    · simpa [Event.call] using hc
    · rw [← List.singleton_append, drops_append, hd]
      rfl

/-- What the end of an operation does step by step, with nobody in between, it does at once. -/
theorem finish_alone (hn : s.stage n = .called .finish) : ∃ t s', Run Step s t s' ∧
    (∀ e ∈ t, e.call = n) ∧ s'.stage n = .returned (.ok ()) ∧
      (s'.life, drops t) = s.life.finish := by
  unfold Lifecycle.finish
  cases hm : s.life.move .finished with
  | ok l =>
    have he : Step s (.moved n .finished) (s.advance n .discarding l) := .move hn rfl hm
    obtain ⟨t, s', hr, hc, hs, hx, hd⟩ := discard_all (s := s.advance n .discarding l) (n := n)
      (by simp [stage_advance])
    refine ⟨_, s', hr.cons he, by simpa [Event.call] using hc, hs, ?_⟩
    rw [← List.singleton_append, drops_append, hd, hx]
    rfl
  | error f =>
    have he : Step s (.refused n f) (s.advance n (Call.finish.lost f) s.life) := .refuse hn rfl hm
    by_cases hf : f.source = .cancelled
    · refine ⟨_, _, Run.nil.snoc he, by simp [Event.call], ?_, ?_⟩
      · simp [stage_advance, Call.lost, hf]
      · simp only [life_advance, hf, if_true]
        rfl
    · obtain ⟨t, s', hr, hc, hs, hx, hd⟩ :=
        discard_all (s := s.advance n (Call.finish.lost f) s.life) (n := n)
          (by simp [stage_advance, Call.lost, hf])
      refine ⟨_, s', hr.cons he, by simpa [Event.call] using hc, hs, ?_⟩
      rw [← List.singleton_append, drops_append, hd, hx]
      simp only [hf, if_false]
      rfl

end ResumeOnce.Contest

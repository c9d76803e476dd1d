import ResumeOnce.Proofs.Contest.Basic

/-!
# What holds all along a contest

What has happened tells where every call is and what has become of every hook, and
behind a cancellation there is always somebody who will still look at the queue: the
one who cancels, or one who has just registered a hook and has not yet looked at the
status. Every step keeps this.

* `Contest.Fair`, `Contest.Fair.step`: the invariant, and that every step keeps it;
* `Contest.fair_run`: it holds all along every run.
-/

namespace ResumeOnce.Contest

variable {s s' : Contest} {e : Event} {t : List Event} {n : Nat}

/-- Somebody looks after the hooks in the queue. -/
def Stage.Looks : Stage → Prop
  | looking => True
  | draining => True
  | inside _ => True
  | _ => False

/-- What is known of a contest and of what has happened in it. -/
structure Fair (t : List Event) (s : Contest) : Prop where
  fresh : ∀ n, s.made ≤ n → s.stage n = .unmade
  unmade : ∀ n, s.stage n = .unmade → ∀ e ∈ t, e.call ≠ n
  called : ∀ n c, s.stage n = .called c → ∀ e ∈ t, e.call = n → ∃ home, e = .called n c home
  status : (moves t = [] ∧ s.life.status = .running) ∨
    ∃ n, moves t = [(n, s.life.status)] ∧ s.life.status ≠ .running
  fits : ∀ n, (s.stage n).Fits s.life.status
  /-- Hooks are run, or let go, in the order in which they were registered. -/
  ledger : runs t ++ drops t ++ s.life.hooks = joined t
  nodup : (joined t).Nodup
  ran : runs t ≠ [] → s.life.status = .cancelled
  let_go : drops t ≠ [] → s.life.status = .finished ∨ s.life.status = .released
  /-- Behind a cancellation, somebody looks after the hooks in the queue. -/
  owed : s.life.status = .cancelled → s.life.hooks ≠ [] → ∃ n, (s.stage n).Looks
  ended : ∀ n h, .ran n h ∈ t → s.stage n = .inside h ∨ .ended n h ∈ t
  contender : ∀ n c home g, .called n c home ∈ t → c ≠ .finish → c.target? = some g →
    s.stage n = .called c ∨
      (.moved n g ∈ t ∧ (s.stage n).Begun ∧ ∀ f, s.stage n ≠ .returned (.error f)) ∨
      (s.stage n = .returned (.error ⟨s.life.status, g⟩) ∧ s.life.status ≠ .running ∧
        ∀ e ∈ t, e.call = n →
          e = .refused n ⟨s.life.status, g⟩ ∨ ∃ home, e = .called n c home)
  registrar : ∀ n home, .called n .register home ∈ t →
    s.stage n = .called .register ∨ .queued n ∈ t
  finisher : ∀ n home, .called n .finish home ∈ t → s.stage n = .called .finish ∨
    s.stage n = .discarding ∨
      ∃ r, s.stage n = .returned r ∧ (s.life.status = .cancelled ∨ .emptied n ∈ t)

theorem Fair.new : Fair [] new := by
  constructor <;> simp [Contest.new, Lifecycle.new, moves, runs, drops,
    joined, Stage.Fits]

theorem Fair.fresh_made (h : Fair t s) : s.stage s.made = .unmade := h.fresh _ (Nat.le_refl _)

theorem Fair.fresh_step (h : Fair t s) (he : Step s e s') :
    ∀ n, s'.made ≤ n → s'.stage n = .unmade := by
  have hf := h.fresh
  cases he <;> simp only [enter, advance, Function.update_apply] <;> grind

theorem Fair.unmade_step (h : Fair t s) (he : Step s e s') :
    ∀ n, s'.stage n = .unmade → ∀ e' ∈ t ++ [e], e'.call ≠ n := by
  intro n hn
  by_cases hc : e.call = n
  · subst hc
    rcases he.begun with ⟨c, home, -, hs⟩ | ⟨-, hb⟩
    · cases hn.symm.trans hs
    · rw [hn] at hb
      exact hb.elim
  · have := h.unmade n (he.stage_of_ne hc ▸ hn)
    grind

theorem Fair.called_step (h : Fair t s) (he : Step s e s') : ∀ n c, s'.stage n = .called c →
    ∀ e' ∈ t ++ [e], e'.call = n → ∃ home, e' = .called n c home := by
  intro n c hn
  by_cases hc : e.call = n
  · subst hc
    rcases he.begun with ⟨c', home, rfl, hs⟩ | ⟨-, hb⟩
    · cases hn.symm.trans hs
      intro e' he' hc
      rcases List.mem_append.1 he' with he' | he'
      · exact absurd hc (h.unmade s.made h.fresh_made e' he')
      · exact ⟨home, List.mem_singleton.1 he'⟩
    · rw [hn] at hb
      exact hb.elim
  · have := h.called n c (he.stage_of_ne hc ▸ hn)
    grind

theorem Fair.status_step (h : Fair t s) (he : Step s e s') :
    (moves (t ++ [e]) = [] ∧ s'.life.status = .running) ∨
      ∃ n, moves (t ++ [e]) = [(n, s'.life.status)] ∧ s'.life.status ≠ .running := by
  rw [moves_append]
  obtain ⟨n, g, rfl, hr, hg, hne⟩ | ⟨hm, hs⟩ := he.status
  · obtain ⟨hn, -⟩ | ⟨-, -, hne'⟩ := h.status
    · exact .inr ⟨n, by rw [hn, hg]; rfl, hg ▸ hne⟩
    · exact absurd hr hne'
  · rw [show moves [e] = [] from List.filterMap_cons_none hm, List.append_nil, hs]
    exact h.status

theorem Fair.fits_step (h : Fair t s) (he : Step s e s') :
    ∀ n, (s'.stage n).Fits s'.life.status := by
  intro n
  by_cases hc : e.call = n
  · exact hc ▸ he.fits (hc ▸ h.fits n)
  · -- The others find the status as it was, unless it was running and none of them had to fit.
    have hf := h.fits n
    rw [he.stage_of_ne hc]
    by_cases hr : s.life.status = .running
    · cases hs : s.stage n <;> simp_all [Stage.Fits]
    · rwa [he.status_stays hr]

/-- Hooks are taken out of the queue by calls that run them or by calls that let them go, as the
    status is. -/
theorem Fair.ledger_step (h : Fair t s) (he : Step s e s') :
    runs (t ++ [e]) ++ drops (t ++ [e]) ++ s'.life.hooks = joined (t ++ [e]) := by
  have hd : drops t ++ runs [e] = runs [e] ++ drops t := by
    cases he with
    | @run n k l hn ht =>
      have hs : s.life.status = .cancelled := by simpa [hn, Stage.Fits] using h.fits n
      have hd : drops t = [] := by_contra fun hd => by simpa [hs] using h.let_go hd
      rw [hd, List.append_nil, List.nil_append]
    | _ => exact List.append_nil _
  calc runs (t ++ [e]) ++ drops (t ++ [e]) ++ s'.life.hooks
      = runs t ++ (runs [e] ++ drops t) ++ (drops [e] ++ s'.life.hooks) := by
        simp only [runs_append, drops_append, List.append_assoc]
    _ = runs t ++ drops t ++ (runs [e] ++ drops [e] ++ s'.life.hooks) := by
        rw [← hd]
        simp only [List.append_assoc]
    _ = joined (t ++ [e]) := by
        rw [he.hooks, ← List.append_assoc, h.ledger, joined_append]

theorem Fair.nodup_step (h : Fair t s) (he : Step s e s') : (joined (t ++ [e])).Nodup := by
  rw [joined_append]
  cases he with
  | @queue n hn =>
    have hq : n ∉ joined t := fun hq => by
      obtain ⟨home, hq⟩ := h.called _ _ hn _ (mem_joined.1 hq) rfl
      cases hq
    exact List.nodup_append.2 ⟨h.nodup, List.nodup_cons.2 ⟨List.not_mem_nil, List.nodup_nil⟩,
      fun k hk m hm hkm => hq (List.mem_singleton.1 hm ▸ hkm ▸ hk)⟩
  | _ => exact (List.append_nil _).symm ▸ h.nodup

theorem Fair.ran_step (h : Fair t s) (he : Step s e s') (hr : runs (t ++ [e]) ≠ []) :
    s'.life.status = .cancelled := by
  rw [runs_append] at hr
  have hs : s.life.status = .cancelled := by
    cases he with
    | @run n k l hn ht => simpa [hn, Stage.Fits] using h.fits n
    | _ => exact h.ran fun ht => hr (by rw [ht]; rfl)
  rw [he.status_stays (by simp [hs]), hs]

theorem Fair.let_go_step (h : Fair t s) (he : Step s e s') (hd : drops (t ++ [e]) ≠ []) :
    s'.life.status = .finished ∨ s'.life.status = .released := by
  rw [drops_append] at hd
  have hs : s.life.status = .finished ∨ s.life.status = .released := by
    cases he with
    | @drop n k l hn ht => simpa [hn, Stage.Fits] using h.fits n
    | _ => exact h.let_go fun ht => hd (by rw [ht]; rfl)
  rwa [he.status_stays (by rcases hs with hs | hs <;> simp [hs])]

theorem Fair.owed_step (h : Fair t s) (he : Step s e s') (hs : s'.life.status = .cancelled)
    (hh : s'.life.hooks ≠ []) : ∃ n, (s'.stage n).Looks := by
  -- Whoever looks after the queue goes on to do so, unless it is his own step.
  have others : s.life.status = .cancelled → s.life.hooks ≠ [] → ¬ (s.stage e.call).Looks →
      ∃ n, (s'.stage n).Looks := fun hs hh hn => by
    obtain ⟨m, hm⟩ := h.owed hs hh
    exact ⟨m, by rwa [he.stage_of_ne fun hc => hn (hc ▸ hm)]⟩
  cases he with
  | call c home ho => exact others hs hh (by simp [Event.call, h.fresh_made, Stage.Looks])
  | @move n c g l hn hc hm =>
    obtain ⟨-, rfl⟩ := Lifecycle.move_eq_ok.1 hm
    obtain rfl : g = .cancelled := hs
    refine ⟨n, ?_⟩
    cases c <;> simp_all [Call.target?, Call.won, stage_advance, Stage.Looks]
  | refuse hn hc hm => exact others hs hh (by simp [Event.call, hn, Stage.Looks])
  | @queue n hn => exact ⟨n, by simp [stage_advance, Stage.Looks]⟩
  | @look n hn =>
    have hs : s.life.status = .cancelled := hs
    exact ⟨n, by simp [stage_advance, hs, Stage.Looks]⟩
  | @run n k l hn ht => exact ⟨n, by simp [stage_advance, Stage.Looks]⟩
  | @leave n k hn hl => exact ⟨n, by simp [stage_advance, Stage.Looks]⟩
  | @drop n k l hn ht =>
    have hf := h.fits n
    rw [hn, ← (Lifecycle.takeHook_eq_some.1 ht).2] at hf
    simp [Stage.Fits, show l.status = .cancelled from hs] at hf
  | empty hn ht =>
    obtain ⟨hn, rfl⟩ := Lifecycle.takeHook_eq_none.1 ht
    exact absurd hn hh

theorem Fair.ended_step (h : Fair t s) (he : Step s e s') :
    ∀ n k, .ran n k ∈ t ++ [e] → s'.stage n = .inside k ∨ .ended n k ∈ t ++ [e] := by
  intro n k hr
  rcases List.mem_append.1 hr with hr | hr
  · rcases h.ended n k hr with hi | hi
    · by_cases hc : e.call = n
      · subst hc
        cases he with
        | leave hn hl =>
          cases hn.symm.trans hi
          exact .inr (by simp [Event.call])
        | call c home ho => cases h.fresh_made.symm.trans hi
        | empty hn ht => rcases hn with hn | hn <;> cases hn.symm.trans hi
        | move hn _ _ | refuse hn _ _ | queue hn | look hn | run hn _ | drop hn _ =>
          cases hn.symm.trans hi
      · exact .inl ((he.stage_of_ne hc).trans hi)
    · exact .inr (List.mem_append_left _ hi)
  · obtain rfl := List.mem_singleton.1 hr
    cases he
    exact .inl (by simp [stage_advance])

/-- What a call was made as is known from its first stage or from before. -/
theorem Step.called_mem (he : Step s e s') {c : Call} {home : Option Nat}
    (hc : .called n c home ∈ t ++ [e]) : .called n c home ∈ t ∨ s'.stage n = .called c := by
  rcases List.mem_append.1 hc with hc | hc
  · exact .inl hc
  · obtain rfl := List.mem_singleton.1 hc
    cases he
    exact .inr (by simp [stage_enter])

theorem Fair.contender_step (h : Fair t s) (he : Step s e s') {c : Call} {home : Option Nat}
    {g : Status} (hc : .called n c home ∈ t ++ [e]) (hf : c ≠ .finish)
    (hg : c.target? = some g) :
    s'.stage n = .called c ∨
      (.moved n g ∈ t ++ [e] ∧ (s'.stage n).Begun ∧ ∀ f, s'.stage n ≠ .returned (.error f)) ∨
      (s'.stage n = .returned (.error ⟨s'.life.status, g⟩) ∧ s'.life.status ≠ .running ∧
        ∀ e' ∈ t ++ [e], e'.call = n →
          e' = .refused n ⟨s'.life.status, g⟩ ∨ ∃ home, e' = .called n c home) := by
  rcases he.called_mem hc with hc | hc
  case inr => exact .inl hc
  by_cases hn : e.call = n
  · subst hn
    rcases h.contender _ c home g hc hf hg with hs | ⟨hm, hb, -⟩ | ⟨hs, -, -⟩
    · have hh := h.called _ c hs
      rcases he.first h.fresh_made hs with ⟨g', hg', hm, hw⟩ | ⟨g', hg', hr, hm, hw⟩ | ⟨rfl, -⟩
      · cases hg.symm.trans hg'
        have hm' := List.mem_append_right t (List.mem_singleton.2 hm.symm)
        refine .inr (.inl ⟨hm', hw ▸ begun_won c, fun f => ?_⟩)
        cases c <;> simp [hw, Call.won]
      · cases hg.symm.trans hg'
        have hl : c.lost ⟨s.life.status, g⟩ = .returned (.error ⟨s.life.status, g⟩) := by
          cases c with
          | finish => exact absurd rfl hf
          | _ => rfl
        rw [he.status_stays hr]
        refine .inr (.inr ⟨hw.trans hl, hr, fun e' he' hn' => ?_⟩)
        rcases List.mem_append.1 he' with he' | he'
        · exact .inr (hh e' he' hn')
        · exact .inl (List.mem_singleton.1 he' ▸ hm)
      · cases hg
    · refine .inr (.inl ⟨List.mem_append_left _ hm, ?_, (he.later h.fresh_made hb).2⟩)
      rcases he.begun with ⟨c', home', rfl, -⟩ | ⟨-, hb'⟩
      · simp [Event.call, h.fresh_made, Stage.Begun] at hb
      · exact hb'
    · exact absurd hs ((he.later h.fresh_made (hs ▸ trivial)).1 _)
  · rw [he.stage_of_ne hn]
    refine (h.contender n c home g hc hf hg).imp_right (Or.imp ?_ ?_)
    · exact And.imp_left (List.mem_append_left _)
    · rintro ⟨hs, hr, hh⟩
      rw [he.status_stays hr]
      refine ⟨hs, hr, fun e' he' hn' => ?_⟩
      rcases List.mem_append.1 he' with he' | he'
      · exact hh e' he' hn'
      · exact absurd (List.mem_singleton.1 he' ▸ hn') hn

theorem Fair.registrar_step (h : Fair t s) (he : Step s e s') {home : Option Nat}
    (hc : .called n .register home ∈ t ++ [e]) :
    s'.stage n = .called .register ∨ .queued n ∈ t ++ [e] := by
  rcases he.called_mem hc with hc | hc
  case inr => exact .inl hc
  rcases h.registrar n home hc with hs | hq
  · by_cases hn : e.call = n
    · subst hn
      rcases he.first h.fresh_made hs with ⟨g, hg, -⟩ | ⟨g, hg, -⟩ | ⟨-, hq⟩
      · cases hg
      · cases hg
      · exact .inr (List.mem_append_right _ (List.mem_singleton.2 hq.symm))
    · exact .inl ((he.stage_of_ne hn).trans hs)
  · exact .inr (List.mem_append_left _ hq)

theorem Fair.finisher_step (h : Fair t s) (he : Step s e s') {home : Option Nat}
    (hc : .called n .finish home ∈ t ++ [e]) : s'.stage n = .called .finish ∨
      s'.stage n = .discarding ∨
        ∃ r, s'.stage n = .returned r ∧ (s'.life.status = .cancelled ∨ .emptied n ∈ t ++ [e]) := by
  rcases he.called_mem hc with hc | hc
  case inr => exact .inl hc
  by_cases hn : e.call = n
  · subst hn
    rcases h.finisher _ home hc with hs | hs | ⟨r, hs, -⟩
    · rcases he.first h.fresh_made hs with ⟨g, hg, -, hw⟩ | ⟨g, hg, hr, -, hw⟩ | ⟨hr, -⟩
      · exact .inr (.inl hw)
      · rw [he.status_stays hr]
        by_cases hx : s.life.status = .cancelled
        · exact .inr (.inr ⟨_, by simpa [Call.lost, hx] using hw, .inl hx⟩)
        · exact .inr (.inl (by simpa [Call.lost, hx] using hw))
      · cases hr
    · cases he with
      | call c home ho => cases h.fresh_made.symm.trans hs
      | drop hn ht => exact .inr (.inl (by simp [stage_advance, Event.call]))
      | empty hn ht =>
        exact .inr (.inr ⟨.ok (), by simp [stage_advance, Event.call],
          .inr (by simp [Event.call])⟩)
      | move hn _ _ | refuse hn _ _ | queue hn | look hn | run hn _ | leave hn _ =>
        cases hn.symm.trans hs
    · exact absurd hs ((he.later h.fresh_made (hs ▸ trivial)).1 _)
  · rw [he.stage_of_ne hn]
    refine (h.finisher n home hc).imp_right (Or.imp_right ?_)
    rintro ⟨r, hs, hx⟩
    refine ⟨r, hs, hx.imp (fun hx => ?_) (List.mem_append_left _)⟩
    rw [he.status_stays (by simp [hx]), hx]

theorem Fair.step (h : Fair t s) (he : Step s e s') : Fair (t ++ [e]) s' where
  fresh := h.fresh_step he
  unmade := h.unmade_step he
  called := h.called_step he
  status := h.status_step he
  fits := h.fits_step he
  ledger := h.ledger_step he
  nodup := h.nodup_step he
  ran := h.ran_step he
  let_go := h.let_go_step he
  owed := h.owed_step he
  ended := h.ended_step he
  contender _ _ _ _ := h.contender_step he
  registrar _ _ := h.registrar_step he
  finisher _ _ := h.finisher_step he

theorem fair_run (h : Run Step Contest.new t s) : Fair t s := h.invariant Fair.new Fair.step

end ResumeOnce.Contest

import Mathlib.Data.List.Nodup
import Mathlib.Data.List.Perm.Subperm
import ResumeOnce.Proofs.Cell.Story

/-!
# Races come to updates one after another

Of the updates that race for a cell, those whose swap is won take effect, each at its swap. The
snapshot that such an update has decided on is then still the current one, so that the whole race
comes to the same as the updates that have won, undisturbed and in that order (`serial`).

* `Ledger`: every swap that was won has replaced the snapshot that was decided on;
* `Spare`: as many swaps as an update has lost, others have won;
* `Atomic`: what can be told of a race;
* `atomic_run`: it holds behind every run.
-/

namespace ResumeOnce.Race

variable {σ : Type u} {ρ : Type v} {decide : Nat → Nat → σ → Decision σ ρ} {x y : σ}
  {s s' : Race σ ρ} {e : Event σ ρ} {t t₁ t₂ : List (Event σ ρ)} {n k : Nat} {w : Win σ}

/-- The cell behind updates that nobody interferes with: those that have won, with the decisions
    that they have won with. -/
def serial (decide : Nat → Nat → σ → Decision σ ρ) (x : σ) (ws : List (Win σ)) : Cell σ :=
  ws.foldl (fun c w => (c.update (decide w.update w.lost)).cell) (.new x)

/-! ## What was won -/

/-- The history and the swaps that were won. -/
structure Ledger (decide : Nat → Nat → σ → Decision σ ρ) (x : σ) (t : List (Event σ ρ))
    (s : Race σ ρ) : Prop where
  current : (history x t)[(wins t).length]? = some s.cell.current
  serial : s.cell = serial decide x (wins t)
  won : ∀ (i : Nat) (w : Win σ), (wins t)[i]? = some w → ∃ y r, (history x t)[i]? = some y ∧
    decide w.update w.lost y = .commit w.next r ∧ s.stage w.update = .returned w.lost r ∧
      (looks (own w.update t))[w.lost]? = some ⟨y, i⟩
  once : ((wins t).map Win.update).Nodup

theorem Ledger.new : Ledger decide x [] (new x) where
  current := rfl
  serial := rfl
  won i w hw := by contradiction
  once := .nil

/-- Who has won has returned. -/
theorem Ledger.returned (h : Ledger decide x t s) (hw : w ∈ wins t) :
    ∃ r, s.stage w.update = .returned w.lost r := by
  obtain ⟨i, hi⟩ := List.getElem?_of_mem hw
  obtain ⟨y, r, -, -, hr, -⟩ := h.won i w hi
  exact ⟨r, hr⟩

/-- A step that wins no swap leaves the ledger as it is. -/
theorem Ledger.same (h : Ledger decide x t s) (he : Step decide s e s') (hw : e.win? = none)
    (hc : s'.cell = s.cell) : Ledger decide x (t ++ [e]) s' := by
  have hwins : wins (t ++ [e]) = wins t := by
    rw [wins_append]
    simp [wins, hw]
  have hhistory : history x (t ++ [e]) = history x t := by rw [history, hwins, history]
  refine ⟨?_, ?_, fun i w hi => ?_, ?_⟩
  · rw [hhistory, hwins, hc]
    exact h.current
  · rw [hwins, hc]
    exact h.serial
  · rw [hwins] at hi
    obtain ⟨y, r, hy, hd, hr, hl⟩ := h.won i w hi
    have hne := he.update?_ne hr
    exact ⟨y, r, hhistory ▸ hy, hd, (he.stage_of_ne hne).trans hr, by rw [own_of_ne hne, hl]⟩
  · rw [hwins]
    exact h.once

/-- An update wins its swap with a decision on the current snapshot. -/
theorem Ledger.win (h : Ledger decide x t s) (ht : Told decide t s) {p : Nat} {a : Reference σ}
    {next : σ} {r : ρ} (hn : s.stage n = .swapping k a next r) (ha : s.current = a.place)
    (hp : s.Free p) :
    Ledger decide x (t ++ [.won ⟨n, k, next⟩]) ((s.commit p next).advance n (.returned k r)) := by
  have he : Step decide s _ _ := .win hn ha hp
  have hs : Story decide n (own n t) (.swapping k a next r) := hn ▸ ht.story n
  -- The places agree, so that nothing was put in place since the update has looked.
  have hseen : a.seen = s.cell := (ht.sound.swaps (.inl ⟨n, by rw [hn]; rfl⟩)).1 ha
  have hd : decide n k s.cell.current = .commit next r := hseen ▸ hs.swapping
  have hl : (looks (own n t))[k]? = some s.cell := hseen ▸ hs.getElem?_looks rfl
  have hwins : wins (t ++ [.won ⟨n, k, next⟩] : List (Event σ ρ)) = wins t ++ [⟨n, k, next⟩] :=
    wins_append
  have hhistory : history x (t ++ [.won ⟨n, k, next⟩] : List (Event σ ρ)) = history x t ++ [next] :=
    history_append
  refine ⟨?_, ?_, fun i w hi => ?_, ?_⟩
  · rw [hwins, hhistory, cell_advance, cell_commit]
    exact getElem?_snoc.2 (.inr ⟨by simp [length_history], rfl⟩)
  · rw [hwins, Race.serial, List.foldl_append, ← Race.serial, ← h.serial, cell_advance, cell_commit]
    simp only [List.foldl_cons, List.foldl_nil, Cell.update, hd]
  · rw [hwins] at hi
    rw [hhistory]
    rcases getElem?_snoc.1 hi with hi | ⟨rfl, rfl⟩
    · obtain ⟨y, r', hy, hd', hr, hl⟩ := h.won i w hi
      have hne := he.update?_ne hr
      exact ⟨y, r', getElem?_snoc.2 (.inl hy), hd', (he.stage_of_ne hne).trans hr,
        by rw [own_of_ne hne, hl]⟩
    · refine ⟨s.cell.current, r, getElem?_snoc.2 (.inl h.current), hd, by simp, ?_⟩
      rw [own_of_eq rfl, looks_append, ht.sound.wins]
      exact (List.append_nil (looks (own n t))).symm ▸ hl
  · rw [hwins, List.map_append]
    refine h.once.append (List.nodup_singleton n) fun m hm hmn => ?_
    -- An update that swaps has not returned, so that it has not won yet.
    obtain ⟨w, hw, rfl⟩ := List.mem_map.1 hm
    obtain rfl : w.update = n := List.mem_singleton.1 hmn
    obtain ⟨r', hr⟩ := h.returned hw
    cases hn.symm.trans hr

theorem Ledger.step (h : Ledger decide x t s) (ht : Told decide t s) (he : Step decide s e s') :
    Ledger decide x (t ++ [e]) s' := by
  cases he with
  | win hn ha hp => exact h.win ht hn ha hp
  | look hn => exact h.same (.look hn) rfl rfl
  | call hn => exact h.same (.call hn) rfl rfl
  | lose hn ha => exact h.same (.lose hn ha) rfl rfl
  | take hh => exact h.same (.take hh) rfl rfl
  | drop m => exact h.same (.drop m) rfl rfl

/-! ## What was lost -/

/-- The swaps that others have won. -/
def others (n : Nat) (t : List (Event σ ρ)) : Nat := (wins t).countP (·.update ≠ n)

theorem others_append : others n (t₁ ++ t₂) = others n t₁ + others n t₂ := by
  rw [others, wins_append, List.countP_append]
  rfl

/-- Values that rise stay above their places. -/
theorem length_le_of_rising {l : List Nat} {b : Nat} (h : l.Pairwise (· < ·))
    (hb : ∀ a ∈ l, a < b) : l.length ≤ b := by
  have hn : l.Nodup := h.imp Nat.ne_of_lt
  have hs : l ⊆ List.range b := fun a ha => List.mem_range.2 (hb a ha)
  exact List.length_range (n := b) ▸ (hn.subperm hs).length_le

/-- An update that has not won is none of those that have. -/
theorem Ledger.others_eq (h : Ledger decide x t s) (hn : ∀ k r, s.stage n ≠ .returned k r) :
    others n t = (wins t).length := by
  refine List.countP_eq_length.2 fun w hw => decide_eq_true ?_
  rintro rfl
  obtain ⟨r, hr⟩ := h.returned hw
  exact hn _ _ hr

/-- A swap is lost only to another update that has won one since the lost one before. -/
theorem Ledger.lt_others (h : Ledger decide x t s) (ht : Told decide t s) {a : Reference σ}
    {next : σ} {r : ρ} (hn : s.stage n = .swapping k a next r) (ha : s.current ≠ a.place) :
    k < others n t := by
  have hl : (looks (own n t)).length = k + 1 := (hn ▸ ht.story n).counts.looks
  have hr : ((looks (own n t)).map Cell.version).Pairwise (· < ·) :=
    List.pairwise_map.2 (ht.story n).rising
  have hb : ∀ v ∈ (looks (own n t)).map Cell.version, v < s.version := fun v hv => by
    obtain ⟨c, hc, rfl⟩ := List.mem_map.1 hv
    exact ht.lt_of_lose hn ha hc
  have hle := length_le_of_rising hr hb
  rwa [List.length_map, hl, ← ht.sound.wins, ← h.others_eq (n := n) (by simp [hn])] at hle

/-- An update has lost no more swaps than others have won. -/
theorem Ledger.spare (h : Ledger decide x t s) (ht : Told decide t s) (he : Step decide s e s')
    (hl : (s.stage n).lost ≤ others n t) : (s'.stage n).lost ≤ others n (t ++ [e]) := by
  rw [others_append]
  refine Nat.le_add_right_of_le ?_
  -- Only a lost swap raises what an update has lost.
  by_cases hn : e.update? = some n
  · cases he with
    | @lose m k a next r hm ha =>
      obtain rfl : m = n := Option.some.inj hn
      rw [stage_advance, if_pos rfl]
      exact h.lt_others ht hm ha
    | @call m k a hm =>
      obtain rfl : m = n := Option.some.inj hn
      rw [stage_advance, if_pos rfl, Stage.lost_decided]
      rwa [hm] at hl
    | @look m k hm | @win m k p a next r hm =>
      obtain rfl : m = n := Option.some.inj hn
      rw [stage_advance, if_pos rfl]
      rwa [hm] at hl
    | take | drop => cases hn
  · rw [he.stage_of_ne hn]
    exact hl

/-- Everything that is known behind a run, as far as a step can keep it. -/
structure Fair (decide : Nat → Nat → σ → Decision σ ρ) (x : σ) (t : List (Event σ ρ))
    (s : Race σ ρ) : Prop where
  told : Told decide t s
  ledger : Ledger decide x t s
  spare : ∀ n, (s.stage n).lost ≤ others n t

theorem fair_run (h : Run (Step decide) (new x) t s) : Fair decide x t s := by
  refine h.invariant ⟨.new, .new, fun _ => Nat.le_refl 0⟩ fun ⟨ht, hl, hs⟩ he => ?_
  exact ⟨ht.step he, hl.step ht he, fun n => hl.spare ht he (hs n)⟩

/-! ## What can be told of a race -/

/-- A race comes to the updates that have won, one after another. -/
structure Atomic (decide : Nat → Nat → σ → Decision σ ρ) (x : σ) (t : List (Event σ ρ))
    (s : Race σ ρ) : Prop where
  /-- The cell is the one behind those that have won, with the last of its snapshots. -/
  cell : s.cell = serial decide x (wins t) ∧
    (history x t)[(wins t).length]? = some s.cell.current
  /-- Each that has won is there once. It has replaced the snapshot before its own, on which it had
      decided and of which it has seen the very version, and has returned the outcome. -/
  won : ((wins t).map Win.update).Nodup ∧
    ∀ (i : Nat) (w : Win σ), (wins t)[i]? = some w → ∃ y r, (history x t)[i]? = some y ∧
      decide w.update w.lost y = .commit w.next r ∧ s.stage w.update = .returned w.lost r ∧
        (looks (own w.update t))[w.lost]? = some ⟨y, i⟩
  /-- An update looks at the current snapshot, a later one each time. -/
  looked : (∀ t₁ t₂ n c, t = t₁ ++ .looked n c :: t₂ → c = serial decide x (wins t₁)) ∧
    ∀ n, (looks (own n t)).Pairwise (·.version < ·.version)
  /-- A decision is called on what was looked at. -/
  called : ∀ n i y d, (calls (own n t))[i]? = some (y, d) →
    (looks (own n t))[i]?.map Cell.current = some y ∧ decide n i y = d
  /-- When an update returns, its decision was called once for each lost swap and once more. It
      returns the outcome of the last call, and has won exactly if that one does not abort. -/
  returned : ∀ n k r, s.stage n = .returned k r →
    losses (own n t) = k ∧ (calls (own n t)).length = k + 1 ∧
      ∃ y, (calls (own n t))[k]? = some (y, decide n k y) ∧ (decide n k y).outcome = r ∧
        ∀ next, decide n k y = .commit next r ↔ ⟨n, k, next⟩ ∈ wins t
  /-- An update whose decision aborts has returned with that, and does nothing any more; it has
      put nothing in place. -/
  aborted : ∀ t₁ t₂ n y r, t = t₁ ++ .called n y (.abort r) :: t₂ →
    s.stage n = .returned (losses (own n t₁)) r ∧ (∀ e ∈ t₂, e.update? ≠ some n) ∧
      ∀ w ∈ wins t, w.update ≠ n
  /-- A reference that is taken shows what was current then, until it is let go. -/
  kept : ∀ t₁ t₂ h c, t = t₁ ++ .took h c :: t₂ → .dropped h ∉ t₂ → c = serial decide x (wins t₁) ∧
    ∃ p, s.kept h = some ⟨p, c⟩ ∧ s.memory p = c.current
  /-- An update that has not returned can go on, and it does so no more than three times for each
      swap that others win, and three times more. -/
  ends : ∀ n, ((∃ k r, s.stage n = .returned k r) ∨
      ∃ e s', Step decide s e s' ∧ e.update? = some n) ∧
    losses (own n t) ≤ others n t ∧ (own n t).length ≤ 3 * others n t + 3

/-- An update that has not returned can go on. -/
theorem proceeds (h : Sound t s) (decide : Nat → Nat → σ → Decision σ ρ) (n : Nat) :
    (∃ k r, s.stage n = .returned k r) ∨ ∃ e s', Step decide s e s' ∧ e.update? = some n := by
  cases hn : s.stage n with
  | looking k => exact .inr ⟨_, _, .look hn, rfl⟩
  | deciding k a => exact .inr ⟨_, _, .call hn, rfl⟩
  | swapping k a next r =>
    by_cases ha : s.current = a.place
    · obtain ⟨p, hp⟩ := h.exists_free
      exact .inr ⟨_, _, .win hn ha hp, rfl⟩
    · exact .inr ⟨_, _, .lose hn ha, rfl⟩
  | returned k r => exact .inl ⟨k, r, rfl⟩

/-- An update whose decision aborts returns at once, and is not heard of any more. -/
theorem aborted_run (h : Run (Step decide) (new x) t s) {r : ρ}
    (ht : t = t₁ ++ .called n y (.abort r) :: t₂) :
    s.stage n = .returned (losses (own n t₁)) r ∧ (∀ e ∈ t₂, e.update? ≠ some n) ∧
      ∀ w ∈ wins t, w.update ≠ n := by
  obtain ⟨s₁, s₂, h₁, he, h₂⟩ := h.split ht
  generalize hd : Decision.abort r = d at he
  cases he with
  | @call m k a hm =>
    have hr : (s₁.advance n (.decided k a (decide n k (s₁.memory a.place)))).stage n =
        .returned k r := by
      rw [stage_advance, if_pos rfl, ← hd]
      rfl
    have hk : losses (own n t₁) = k := (hm ▸ (told_run h₁).story n).counts.losses
    obtain ⟨hs, hn⟩ := returned_run h₂ hr
    refine ⟨hk ▸ hs, hn, fun w hw => ?_⟩
    rintro rfl
    rw [ht, wins_append] at hw
    rcases List.mem_append.1 hw with hw | hw
    · -- It had not returned when its decision was called.
      obtain ⟨r', hr'⟩ := (fair_run h₁).ledger.returned hw
      cases hm.symm.trans hr'
    · obtain ⟨e, he, hew⟩ := List.mem_filterMap.1 hw
      rcases List.mem_cons.1 he with rfl | he
      · cases hew
      · exact hn e he (update?_of_win? hew)

/-- A reference that is kept shows what was current when it was taken. -/
theorem kept_shown (h : Run (Step decide) (new x) t s) {m : Nat} {c : Cell σ}
    (ht : t = t₁ ++ .took m c :: t₂) (hd : .dropped m ∉ t₂) : c = serial decide x (wins t₁) ∧
      ∃ p, s.kept m = some ⟨p, c⟩ ∧ s.memory p = c.current := by
  obtain ⟨s₁, s₂, h₁, he, h₂⟩ := h.split ht
  cases he with
  | take hh =>
    have hk : s.kept m = some s₁.ref := kept_run h₂ (Function.update_self ..) hd
    exact ⟨(fair_run h₁).ledger.serial, s₁.current, hk,
      ((fair_run h).told.sound.refs _ (.inr ⟨m, hk⟩)).memory⟩

theorem atomic_run (h : Run (Step decide) (new x) t s) : Atomic decide x t s := by
  have hf := fair_run h
  have hs := hf.told.story
  refine ⟨⟨hf.ledger.serial, hf.ledger.current⟩, ⟨hf.ledger.once, hf.ledger.won⟩,
    ⟨fun t₁ t₂ n c ht => ?_, fun n => (hs n).rising⟩, fun n i y d hc => (hs n).called hc,
    fun n k r hn => ?_, fun _ _ _ _ _ ht => aborted_run h ht,
    fun _ _ _ _ ht hd => kept_shown h ht hd,
    fun n => ⟨proceeds hf.told.sound decide n, ?_⟩⟩
  · obtain ⟨s₁, s₂, h₁, he, -⟩ := h.split ht
    cases he
    exact (fair_run h₁).ledger.serial
  · have hst : Story decide n (own n t) (.returned k r) := hn ▸ hs n
    obtain ⟨y, hy, hr, hw⟩ := hst.returned
    exact ⟨hst.counts.losses, hst.counts.calls, y, hy, hr,
      fun next => (hw next).trans mem_wins_own⟩
  · have hl := hf.spare n
    refine ⟨(hs n).counts.losses ▸ hl, ?_⟩
    calc (own n t).length ≤ (s.stage n).steps := (hs n).counts.steps
      _ ≤ 3 * (s.stage n).lost + 3 := (s.stage n).steps_le
      _ ≤ 3 * others n t + 3 := Nat.add_le_add_right (Nat.mul_le_mul_left 3 hl) 3

end ResumeOnce.Race

import ResumeOnce.Proofs.Cell.Serial

/-!
# An update against others, as a race

`Cell.updateAgainst` tells what an update comes to when others put something in place between its
look and its swap, round after round. That is a race: the others are updates that take their turns
in the given order, each of them at once (`against_run`). So it does what an update does in any
race, which is told by `serializes`.
-/

namespace ResumeOnce.Race

variable {σ : Type u} {ρ : Type v} {decide : Nat → Nat → σ → Decision σ ρ} {x : σ}
  {s s' : Race σ ρ} {e : Event σ ρ} {t : List (Event σ ρ)} {n k m : Nat} {a : Reference σ}
  {st : Stage σ ρ} {d : σ → Decision σ ρ} {changes rest : List (σ → σ)} {c : Cell σ}

/-- An update that nobody interferes with takes its steps one after another, and comes to what
    `Cell.update` says. -/
theorem update_alone (decide : Nat → Nat → σ → Decision σ ρ) (h : Sound t s)
    (hn : s.stage n = .looking k) :
    ∃ t' s', Run (Step decide) s t' s' ∧ (∀ e ∈ t', e.update? = some n) ∧
      s'.cell = (s.cell.update (decide n k)).cell ∧
      s'.stage = Function.update s.stage n (.returned k (s.cell.update (decide n k)).outcome) := by
  have he₁ : Step decide s (.looked n s.cell) (s.advance n (.deciding k s.ref)) := .look hn
  have he₂ : Step decide (s.advance n (.deciding k s.ref)) _ _ :=
    .call (n := n) (k := k) (a := s.ref) (by simp)
  have hc : (s.advance n (.deciding k s.ref) : Race σ ρ).memory s.ref.place = s.cell.current := rfl
  rw [hc] at he₂
  cases hd : decide n k s.cell.current with
  | abort r =>
    rw [hd] at he₂
    refine ⟨_, _, (Run.nil.snoc he₁).snoc he₂, by simp [Event.update?], ?_, ?_⟩
    · simp only [Cell.update, hd, cell_advance]
    · simp [advance, Stage.decided, Cell.update, hd]
  | commit next r =>
    rw [hd] at he₂
    obtain ⟨p, hp⟩ := ((h.step he₁).step he₂).exists_free
    have hn₂ : ((s.advance n (.deciding k s.ref)).advance n
        (.decided k s.ref (.commit next r))).stage n = .swapping k s.ref next r := by
      simp [Stage.decided]
    refine ⟨_, _, ((Run.nil.snoc he₁).snoc he₂).snoc (.win hn₂ rfl hp), by simp [Event.update?],
      ?_, ?_⟩
    · simp only [Cell.update, hd, cell_advance, cell_commit]
    · simp [advance, commit, Cell.update, hd]

/-- The update zero decides by `d`, and each of the others makes one of the changes. -/
def against (d : σ → Decision σ ρ) (changes : List (σ → σ)) : Nat → Nat → σ → Decision σ ρ
  | 0, _, y => d y
  | i + 1, _, y =>
    match changes[i]? with
    | some f => .commit (f y) (d y).outcome
    | none => .abort (d y).outcome

/-- So many changes were made, in order, and the others have not begun. -/
structure Made (d : σ → Decision σ ρ) (changes : List (σ → σ)) (x : σ) (made : Nat)
    (t : List (Event σ ρ)) (s : Race σ ρ) : Prop where
  run : Run (Step (against d changes)) (new x) t s
  rest : ∀ i, made ≤ i → s.stage (i + 1) = .looking 0
  order : ((wins t).map Win.update).filter (· ≠ 0) = List.range' 1 made

/-- The update zero goes on. -/
theorem Made.own (h : Made d changes x m t s) (he : Step (against d changes) s e s')
    (h₀ : e.update? = some 0) : Made d changes x m (t ++ [e]) s' where
  run := h.run.snoc he
  rest i hi := (he.stage_of_ne (by simp [h₀])).trans (h.rest i hi)
  order := by
    rw [wins_append, List.map_append, List.filter_append, h.order]
    cases e <;> simp_all [wins, Event.win?, Event.update?]

/-- The next change is made, while the update zero stays where it is. -/
theorem Made.change (h : Made d changes x m t s) {f : σ → σ} (hf : changes[m]? = some f) :
    ∃ t' s', Made d changes x (m + 1) t' s' ∧ s'.stage 0 = s.stage 0 ∧
      s'.cell = s.cell.commit (f s.cell.current) := by
  obtain ⟨t', s', hr, hown, hc, hs⟩ :=
    update_alone (against d changes) (sound_run h.run) (h.rest m (Nat.le_refl m))
  have hd : (s.cell.update (against d changes (m + 1) 0)).cell =
      s.cell.commit (f s.cell.current) := by
    simp only [Cell.update, against, hf]
  rw [hd] at hc
  refine ⟨t ++ t', s', ⟨h.run.append hr, fun i hi => ?_, ?_⟩, ?_, hc⟩
  · rw [hs, Function.update_of_ne (by omega)]
    exact h.rest i (by omega)
  · -- One swap was won, and by the update that was on.
    have hone : (wins t').length = 1 := by
      have hw := (sound_run (h.run.append hr)).wins
      have hv : s'.version = s.version + 1 := congrArg Cell.version hc
      rw [wins_append, List.length_append, (sound_run h.run).wins] at hw
      omega
    have hwho : (wins t').map Win.update = List.replicate 1 (m + 1) := by
      refine List.eq_replicate_iff.2 ⟨by rw [List.length_map, hone], fun j hj => ?_⟩
      obtain ⟨w, hw, rfl⟩ := List.mem_map.1 hj
      obtain ⟨e, he, hew⟩ := List.mem_filterMap.1 hw
      exact Option.some.inj ((update?_of_win? hew).symm.trans (hown e he))
    rw [wins_append, List.map_append, List.filter_append, h.order, hwho, List.range'_concat]
    simp [Nat.add_comm]
  · rw [hs, Function.update_of_ne (by omega)]

/-- The race can come to where the update zero is at a stage and the cell is this one. -/
def Reaches (d : σ → Decision σ ρ) (changes : List (σ → σ)) (x : σ) (made : Nat) (st : Stage σ ρ)
    (c : Cell σ) : Prop :=
  ∃ t s, Made d changes x made t s ∧ s.stage 0 = st ∧ s.cell = c

theorem Reaches.interfere (h : Reaches d changes x m st c) {fs : List (σ → σ)}
    (hfs : changes.drop m = fs ++ rest) :
    Reaches d changes x (m + fs.length) st (c.interfere fs) := by
  induction fs generalizing m c with
  | nil => exact h
  | cons f fs ih =>
    obtain ⟨t, s, hm, rfl, rfl⟩ := h
    obtain ⟨t', s', hm', hs, hc⟩ := hm.change (f := f) (by rw [← List.head?_drop, hfs]; rfl)
    rw [List.length_cons, Nat.add_comm fs.length, ← Nat.add_assoc]
    refine ih ⟨t', s', hm', hs, hc⟩ ?_
    rw [← List.tail_drop, hfs]
    rfl

theorem Reaches.look (h : Reaches d changes x m (.looking k) c) :
    ∃ p, Reaches d changes x m (.deciding k ⟨p, c⟩) c := by
  obtain ⟨t, s, hm, hs, rfl⟩ := h
  exact ⟨s.current, _, _, hm.own (.look hs) rfl, by simp [ref], rfl⟩

theorem Reaches.call (h : Reaches d changes x m (.deciding k a) c) :
    Reaches d changes x m (.decided k a (d a.seen.current)) c := by
  obtain ⟨t, s, hm, hs, rfl⟩ := h
  have ha := (sound_run hm.run).refs a (.inl ⟨0, by rw [hs]; rfl⟩)
  refine ⟨_, _, hm.own (.call hs) rfl, ?_, rfl⟩
  rw [stage_advance, if_pos rfl, ha.memory]
  rfl

theorem Reaches.win {next : σ} {r : ρ} (h : Reaches d changes x m (.swapping k a next r) c)
    (hc : c.version = a.seen.version) : Reaches d changes x m (.returned k r) (c.commit next) := by
  obtain ⟨t, s, hm, hs, rfl⟩ := h
  have ha := (sound_run hm.run).refs a (.inl ⟨0, by rw [hs]; rfl⟩)
  obtain ⟨p, hp⟩ := (sound_run hm.run).exists_free
  exact ⟨_, _, hm.own (.win hs (ha.place.2 hc.symm) hp) rfl, by simp, by simp⟩

theorem Reaches.lose {next : σ} {r : ρ} (h : Reaches d changes x m (.swapping k a next r) c)
    (hc : c.version ≠ a.seen.version) : Reaches d changes x m (.looking (k + 1)) c := by
  obtain ⟨t, s, hm, hs, rfl⟩ := h
  have ha := (sound_run hm.run).refs a (.inl ⟨0, by rw [hs]; rfl⟩)
  exact ⟨_, _, hm.own (.lose hs (mt ha.place.1 (Ne.symm hc))) rfl, by simp, rfl⟩

/-- One look with changes behind it, and what the update zero does then. -/
theorem Reaches.attempt (h : Reaches d changes x m (.looking k) c) (fs : List (σ → σ))
    (hfs : changes.drop m = fs ++ rest) :
    (∀ r, d c.current = .abort r →
      Reaches d changes x (m + fs.length) (.returned k r) (c.interfere fs)) ∧
    (∀ next r, d c.current = .commit next r →
      if (c.interfere fs).version = c.version then
        Reaches d changes x (m + fs.length) (.returned k r) ((c.interfere fs).commit next)
      else Reaches d changes x (m + fs.length) (.looking (k + 1)) (c.interfere fs)) := by
  obtain ⟨p, hp⟩ := h.look
  have hc := (hp.interfere hfs).call
  refine ⟨fun r hd => by rwa [hd] at hc, fun next r hd => ?_⟩
  rw [hd] at hc
  split
  · exact hc.win ‹_›
  · exact hc.lose ‹_›

/-- What an update comes to against others, it comes to in the race. -/
theorem Reaches.updateAgainst {rounds : List (List (σ → σ))}
    (h : Reaches d changes x m (.looking k) c) (hm : changes.drop m = rounds.flatten) :
    ∃ lost, (c.updateAgainst d rounds).attempts = lost + 1 ∧
      Reaches d changes x
        (m + (rounds.take (c.updateAgainst d rounds).attempts).flatten.length)
        (.returned (k + lost) (c.updateAgainst d rounds).outcome)
        (c.updateAgainst d rounds).cell := by
  induction rounds generalizing k m c with
  | nil =>
    -- Nobody interferes behind the last round.
    obtain ⟨habort, hcommit⟩ := h.attempt [] hm
    rw [Cell.updateAgainst, Cell.update]
    cases hd : d c.current with
    | abort r => exact ⟨0, rfl, habort r hd⟩
    | commit next r =>
      have hs := hcommit next r hd
      rw [show c.interfere [] = c from rfl, if_pos rfl] at hs
      exact ⟨0, rfl, hs⟩
  | cons fs rounds ih =>
    obtain ⟨habort, hcommit⟩ := h.attempt fs hm
    simp only [Cell.updateAgainst]
    cases hd : d c.current with
    | abort r => exact ⟨0, rfl, by simpa using habort r hd⟩
    | commit next r =>
      have hs := hcommit next r hd
      dsimp only
      split at hs
      · rw [if_pos ‹_›]
        exact ⟨0, rfl, by simpa using hs⟩
      · -- The swap is lost, and the update looks again with the rounds that are left.
        rw [if_neg ‹_›]
        have hrest : changes.drop (m + fs.length) = rounds.flatten := by
          rw [← List.drop_drop, hm, List.flatten_cons, List.drop_left]
        obtain ⟨lost, hl, hr⟩ := ih hs hrest
        refine ⟨lost + 1, congrArg (· + 1) hl, ?_⟩
        rw [show k + 1 + lost = k + (lost + 1) by omega, Nat.add_assoc m] at hr
        simpa using hr

/-- The update zero against others: there is a race in which they make their changes in order, and
    in which it loses as many swaps, returns the same, and leaves the same cell. -/
theorem against_run (d : σ → Decision σ ρ) (x : σ) (rounds : List (List (σ → σ))) :
    ∃ t s k, Run (Step (against d rounds.flatten)) (new x) t s ∧
      s.stage 0 = .returned k (Cell.updateAgainst d rounds (.new x)).outcome ∧
      (Cell.updateAgainst d rounds (.new x)).attempts = k + 1 ∧
      s.cell = (Cell.updateAgainst d rounds (.new x)).cell ∧
      ((wins t).map Win.update).filter (· ≠ 0) = List.range' 1
        (rounds.take (Cell.updateAgainst d rounds (.new x)).attempts).flatten.length := by
  have h₀ : Reaches d rounds.flatten x 0 (.looking 0) (.new x) :=
    ⟨[], new x, ⟨.nil, fun _ _ => rfl, rfl⟩, rfl, rfl⟩
  obtain ⟨k, hk, t, s, hm, hs, hc⟩ := h₀.updateAgainst rfl
  rw [Nat.zero_add] at hs
  refine ⟨t, s, k, hm.run, hs, hk, hc, ?_⟩
  rw [hm.order, Nat.zero_add]

/-- No update is lost in a race, however many take part and whatever they decide: the race comes to
    the updates that have won, one after another, and each of them has decided on exactly the
    snapshot that it has replaced. An update against others is such a race. -/
theorem serializes (x : σ) :
    (∀ (decide : Nat → Nat → σ → Decision σ ρ) (t : List (Event σ ρ)) (s : Race σ ρ),
      Run (Step decide) (new x) t s → Atomic decide x t s) ∧
    ∀ (d : σ → Decision σ ρ) (rounds : List (List (σ → σ))), ∃ t s k,
      Run (Step (against d rounds.flatten)) (new x) t s ∧
        s.stage 0 = .returned k (Cell.updateAgainst d rounds (.new x)).outcome ∧
        (Cell.updateAgainst d rounds (.new x)).attempts = k + 1 ∧
        s.cell = (Cell.updateAgainst d rounds (.new x)).cell ∧
        ((wins t).map Win.update).filter (· ≠ 0) = List.range' 1
          (rounds.take (Cell.updateAgainst d rounds (.new x)).attempts).flatten.length :=
  ⟨fun _ _ _ h => atomic_run h, fun d rounds => against_run d x rounds⟩

/-- An equal value is put in place between the look of an update and its swap. The swap is lost,
    and the update wins the next one, with its second call. -/
theorem serializes_equal_value : ∃ (t : List (Event Nat Nat)) (s : Race Nat Nat),
    Run (Step (against (fun y => .commit (y + 1) y) [id])) (new 0) t s ∧
      s.stage 0 = .returned 1 0 ∧ s.cell = ⟨1, 2⟩ ∧
        losses (own 0 t) = 1 ∧ (calls (own 0 t)).length = 2 := by
  obtain ⟨t, s, k, hr, hs, hk, hc, -⟩ :=
    (@serializes Nat Nat 0).2 (fun y => .commit (y + 1) y) [[id]]
  obtain rfl : 1 = k := Nat.succ.inj hk
  obtain ⟨hlosses, hcalls, -⟩ := ((serializes 0).1 _ t s hr).returned 0 1 0 hs
  exact ⟨t, s, hr, hs, hc, hlosses, hcalls⟩

end ResumeOnce.Race

import ResumeOnce.Proofs.Cell.Race

/-!
# What an update does in a race

An update goes round and round: it looks, calls its decision and swaps, until its decision aborts
or its swap is won. Its story so far is determined up to what it finds, whatever others do in
between (`told_run`). From the story one can tell how often it has called its decision, and on
what, and what it returned.

It looks again only when a swap was lost, and a swap is lost only if something was put in place
since it looked (`Told.lt_of_lose`). So it finds a later version each time (`Story.rising`).
-/

namespace ResumeOnce.Race

variable {σ : Type u} {ρ : Type v} {decide : Nat → Nat → σ → Decision σ ρ} {x y : σ}
  {s s' : Race σ ρ} {e : Event σ ρ} {t l : List (Event σ ρ)} {n k i : Nat} {a : Reference σ}
  {st : Stage σ ρ} {d : Decision σ ρ} {next : σ} {r : ρ}

namespace Stage

/-- How often an update has looked. -/
def looks : Stage σ ρ → Nat
  | looking k => k
  | deciding k _ => k + 1
  | swapping k _ _ _ => k + 1
  | returned k _ => k + 1

/-- How often an update has called its decision. -/
def calls : Stage σ ρ → Nat
  | looking k => k
  | deciding k _ => k
  | swapping k _ _ _ => k + 1
  | returned k _ => k + 1

/-- How many steps an update has taken at most: three for each lost swap, and those since. -/
def steps : Stage σ ρ → Nat
  | looking k => 3 * k
  | deciding k _ => 3 * k + 1
  | swapping k _ _ _ => 3 * k + 2
  | returned k _ => 3 * k + 3

theorem steps_le (st : Stage σ ρ) : st.steps ≤ 3 * st.lost + 3 := by
  cases st <;> simp only [steps, lost] <;> omega

end Stage

/-! ## Stories -/

/-- The steps of an update, and how far it is behind them. Each time it looks it finds a later
    version than before. -/
inductive Story (decide : Nat → Nat → σ → Decision σ ρ) (n : Nat) :
    List (Event σ ρ) → Stage σ ρ → Prop
  | start : Story decide n [] (.looking 0)
  | look {l : List (Event σ ρ)} {k : Nat} {a : Reference σ} (h : Story decide n l (.looking k))
      (ha : ∀ c ∈ looks l, c.version < a.seen.version) :
      Story decide n (l ++ [.looked n a.seen]) (.deciding k a)
  | call {l : List (Event σ ρ)} {k : Nat} {a : Reference σ} (h : Story decide n l (.deciding k a)) :
      Story decide n (l ++ [.called n a.seen.current (decide n k a.seen.current)])
        (.decided k a (decide n k a.seen.current))
  | win {l : List (Event σ ρ)} {k : Nat} {a : Reference σ} {next : σ} {r : ρ}
      (h : Story decide n l (.swapping k a next r)) :
      Story decide n (l ++ [.won ⟨n, k, next⟩]) (.returned k r)
  | lose {l : List (Event σ ρ)} {k : Nat} {a : Reference σ} {next : σ} {r : ρ}
      (h : Story decide n l (.swapping k a next r)) :
      Story decide n (l ++ [.lost n]) (.looking (k + 1))

@[simp]
theorem Stage.lost_decided (k : Nat) (a : Reference σ) (d : Decision σ ρ) :
    (Stage.decided k a d).lost = k := by
  cases d <;> rfl

/-- How often something was done, told by how far an update is. -/
structure Counts (l : List (Event σ ρ)) (st : Stage σ ρ) : Prop where
  looks : (looks l).length = st.looks
  calls : (calls l).length = st.calls
  losses : losses l = st.lost
  steps : l.length ≤ st.steps

theorem Counts.snoc (h : Counts l st) {st' : Stage σ ρ}
    (hl : st.looks + (Race.looks [e]).length = st'.looks)
    (hc : st.calls + (Race.calls [e]).length = st'.calls)
    (hk : st.lost + Race.losses [e] = st'.lost) (hs : st.steps < st'.steps) :
    Counts (l ++ [e]) st' where
  looks := by rw [looks_append, List.length_append, h.looks, hl]
  calls := by rw [calls_append, List.length_append, h.calls, hc]
  losses := by rw [losses_append, h.losses, hk]
  steps := by
    rw [List.length_append]
    exact Nat.lt_of_le_of_lt h.steps hs

namespace Story

theorem counts (h : Story decide n l st) : Counts l st := by
  induction h with
  | start => exact ⟨rfl, rfl, rfl, Nat.le_refl _⟩
  | @call l k a h ih =>
    cases decide n k a.seen.current with
    | commit => exact ih.snoc rfl rfl rfl (Nat.lt_succ_self _)
    | abort => exact ih.snoc rfl rfl rfl (Nat.lt_succ_of_lt (Nat.lt_succ_self _))
  | look h ha ih | win h ih | lose h ih => exact ih.snoc rfl rfl rfl (Nat.lt_succ_self _)

/-- The reference that an update holds is what it found when it looked last. -/
theorem looks_eq (h : Story decide n l st) (ha : st.ref? = some a) :
    ∃ cs, looks l = cs ++ [a.seen] ∧ cs.length = st.lost := by
  induction h generalizing a with
  | start => contradiction
  | @look l k b h hb ih =>
    obtain rfl : b = a := Option.some.inj ha
    exact ⟨looks l, by rw [looks_append]; rfl, h.counts.looks⟩
  | @call l k b h ih =>
    obtain ⟨cs, hcs, hl⟩ := ih rfl
    cases hd : decide n k b.seen.current with
    | commit next r =>
      rw [hd] at ha
      obtain rfl : b = a := Option.some.inj ha
      exact ⟨cs, by rw [looks_append, hcs, List.append_assoc]; rfl, hl⟩
    | abort r =>
      rw [hd] at ha
      contradiction
  | win | lose => contradiction

theorem getElem?_looks (h : Story decide n l st) (ha : st.ref? = some a) :
    (looks l)[st.lost]? = some a.seen := by
  obtain ⟨cs, hcs, hl⟩ := h.looks_eq ha
  rw [hcs, ← hl, List.getElem?_concat_length]

/-- An update finds a later version each time. -/
theorem rising (h : Story decide n l st) : (looks l).Pairwise (·.version < ·.version) := by
  induction h with
  | start => exact .nil
  | look h ha ih =>
    rw [looks_append]
    exact List.pairwise_append.2 ⟨ih, List.pairwise_singleton ..,
      fun c hc b hb => List.mem_singleton.1 hb ▸ ha c hc⟩
  | call h ih | win h ih | lose h ih =>
    rw [looks_append]
    exact (List.append_nil _).symm ▸ ih

/-- Nothing that was found is later than what an update refers to. -/
theorem le_ref (h : Story decide n l st) (ha : st.ref? = some a) {c : Cell σ} (hc : c ∈ looks l) :
    c.version ≤ a.seen.version := by
  obtain ⟨cs, hcs, -⟩ := h.looks_eq ha
  have hr := h.rising
  rw [hcs] at hr hc
  rcases List.mem_append.1 hc with hc | hc
  · exact Nat.le_of_lt ((List.pairwise_append.1 hr).2.2 c hc a.seen List.mem_cons_self)
  · exact List.mem_singleton.1 hc ▸ Nat.le_refl _

/-- Each call is made on what was found by the look before it, and decides as the decision does. -/
theorem called (h : Story decide n l st) (hc : (calls l)[i]? = some (y, d)) :
    (looks l)[i]?.map Cell.current = some y ∧ decide n i y = d := by
  -- What was found stays what it is when more is found.
  have grows : ∀ {l l' : List (Event σ ρ)}, (looks l)[i]?.map Cell.current = some y →
      (looks (l ++ l'))[i]?.map Cell.current = some y := fun {l l'} h => by
    obtain ⟨c, hc, hy⟩ := Option.map_eq_some_iff.1 h
    rw [looks_append, List.getElem?_append_left (List.getElem?_eq_some_iff.1 hc).1, hc, ← hy]
    rfl
  induction h with
  | start => contradiction
  | @call l k a h ih =>
    rw [calls_append] at hc
    rcases getElem?_snoc.1 hc with hc | ⟨rfl, hyd⟩
    · exact (ih hc).imp_left grows
    · obtain ⟨rfl, rfl⟩ := Prod.mk.inj hyd
      have hk : (calls l).length = k := h.counts.calls
      have hl : (looks l)[k]? = some a.seen := h.getElem?_looks rfl
      exact ⟨grows (by rw [hk, hl]; rfl), by rw [hk]⟩
  | look h ha ih | win h ih | lose h ih =>
    simp only [calls_append, calls_looked, calls_won, calls_lost, List.append_nil] at hc
    exact (ih hc).imp_left grows

/-- An update swaps as it has decided. -/
theorem swapping (h : Story decide n l (.swapping k a next r)) :
    decide n k a.seen.current = .commit next r := by
  generalize hst : Stage.swapping k a next r = st at h
  cases h with
  | @call l j b h =>
    cases hd : decide n j b.seen.current with
    | commit next' r' =>
      rw [hd] at hst
      cases hst
      exact hd
    | abort r' =>
      rw [hd] at hst
      cases hst
  | _ => cases hst

/-- Only an update that has returned has won. -/
theorem wins_eq_nil (h : Story decide n l st) : wins l = [] ∨ ∃ k r, st = .returned k r := by
  induction h with
  | start => exact .inl rfl
  | win h ih => exact .inr ⟨_, _, rfl⟩
  | look h ha ih | call h ih | lose h ih =>
    obtain ih | ⟨_, _, ih⟩ := ih
    · exact .inl (by rw [wins_append, ih]; rfl)
    · cases ih

/-- An update that swaps has called last what it swaps for. -/
theorem getElem?_calls (h : Story decide n l (.swapping k a next r)) :
    (calls l)[k]? = some (a.seen.current, decide n k a.seen.current) := by
  have hk : (calls l).length = k + 1 := h.counts.calls
  have hl : (looks l)[k]? = some a.seen := h.getElem?_looks rfl
  obtain ⟨⟨y, d⟩, hc⟩ : ∃ c, (calls l)[k]? = some c := ⟨_, List.getElem?_eq_getElem (by omega)⟩
  obtain ⟨hy, hd⟩ := h.called hc
  obtain rfl : a.seen.current = y := Option.some.inj (by rw [← hy, hl]; rfl)
  rw [hc, hd]

/-- An update returns the outcome of its last call, which has aborted or whose swap was won. -/
theorem returned (h : Story decide n l (.returned k r)) :
    ∃ y, (calls l)[k]? = some (y, decide n k y) ∧ (decide n k y).outcome = r ∧
      ∀ next, decide n k y = .commit next r ↔ ⟨n, k, next⟩ ∈ wins l := by
  generalize hst : Stage.returned k r = st at h
  cases h with
  | @call l j a h =>
    cases hd : decide n j a.seen.current with
    | commit => cases (hd ▸ hst)
    | abort r' =>
      obtain ⟨rfl, rfl⟩ := Stage.returned.inj (hst.trans (congrArg _ hd))
      have hk : (calls l).length = k := h.counts.calls
      have hw : wins l = [] := h.wins_eq_nil.resolve_right nofun
      refine ⟨a.seen.current, ?_, by rw [hd]; rfl, fun next => ?_⟩
      · rw [calls_append, ← hd]
        exact getElem?_snoc.2 (.inr ⟨hk.symm, rfl⟩)
      · rw [wins_append, hw, hd]
        exact iff_of_false nofun nofun
  | @win l j a next' r' h =>
    obtain ⟨rfl, rfl⟩ := Stage.returned.inj hst
    have hw : wins l = [] := h.wins_eq_nil.resolve_right nofun
    refine ⟨a.seen.current, ?_, by rw [h.swapping]; rfl, fun next => ?_⟩
    · rw [calls_append, calls_won, List.append_nil, h.getElem?_calls]
    · rw [wins_append, hw, h.swapping]
      simp [wins, Event.win?, eq_comm]
  | _ => cases hst

end Story

/-! ## The stories of a run -/

/-- What every update has done so far is a story, and one that looks again has to expect a later
    version than those it has found. -/
structure Told (decide : Nat → Nat → σ → Decision σ ρ) (t : List (Event σ ρ)) (s : Race σ ρ) :
    Prop where
  sound : Sound t s
  story : ∀ n, Story decide n (own n t) (s.stage n)
  past : ∀ n k, s.stage n = .looking k → ∀ c ∈ looks (own n t), c.version < s.version

theorem Told.new : Told decide [] (new x) where
  sound := .new
  story _ := .start
  past _ _ _ _ hc := absurd hc List.not_mem_nil

/-- An update goes on in its story. -/
theorem Told.goes_on (h : Told decide t s) (he : Step decide s e s') (hn : e.update? = some n) :
    Story decide n (own n t ++ [e]) (s'.stage n) := by
  cases he with
  | @look m k hm =>
    obtain rfl : m = n := Option.some.inj hn
    rw [stage_advance, if_pos rfl]
    exact (hm ▸ h.story m).look (a := s.ref) (h.past m k hm)
  | @call m k a hm =>
    obtain rfl : m = n := Option.some.inj hn
    rw [stage_advance, if_pos rfl, (h.sound.refs a (.inl ⟨m, by rw [hm]; rfl⟩)).memory]
    exact (hm ▸ h.story m).call
  | @win m k p a next r hm ha hp =>
    obtain rfl : m = n := Option.some.inj hn
    rw [stage_advance, if_pos rfl]
    exact (hm ▸ h.story m).win
  | @lose m k a next r hm ha =>
    obtain rfl : m = n := Option.some.inj hn
    rw [stage_advance, if_pos rfl]
    exact (hm ▸ h.story m).lose
  | take | drop => cases hn

/-- An update whose swap is lost has found nothing that is as late as the cell is now. -/
theorem Told.lt_of_lose (h : Told decide t s) (hn : s.stage n = .swapping k a next r)
    (ha : s.current ≠ a.place) {c : Cell σ} (hc : c ∈ looks (own n t)) : c.version < s.version := by
  have hv := h.sound.refs a (.inl ⟨n, by rw [hn]; rfl⟩)
  have hle : c.version ≤ a.seen.version := (hn ▸ h.story n).le_ref rfl hc
  have hne : a.seen.version ≠ s.version := mt hv.place.2 ha
  have := hv.version
  omega

theorem Told.step (h : Told decide t s) (he : Step decide s e s') : Told decide (t ++ [e]) s' where
  sound := h.sound.step he
  story n := by
    by_cases hn : e.update? = some n
    · rw [own_of_eq hn]
      exact h.goes_on he hn
    · rw [own_of_ne hn, he.stage_of_ne hn]
      exact h.story n
  past n k hk c hc := by
    by_cases hn : e.update? = some n
    · rw [own_of_eq hn, looks_append] at hc
      -- Of the steps of an update, only that of a lost swap leads back to looking.
      cases he with
      | @lose m j a next r hm ha =>
        obtain rfl : m = n := Option.some.inj hn
        exact h.lt_of_lose hm ha (by simpa [looks, Event.look?] using hc)
      | @call m j a hm =>
        obtain rfl : m = n := Option.some.inj hn
        rw [stage_advance, if_pos rfl] at hk
        cases hd : decide m j (s.memory a.place) <;> rw [hd] at hk <;> cases hk
      | @look m | @win m =>
        obtain rfl : m = n := Option.some.inj hn
        rw [stage_advance, if_pos rfl] at hk
        cases hk
      | take | drop => cases hn
    · rw [he.stage_of_ne hn] at hk
      rw [own_of_ne hn] at hc
      exact Nat.lt_of_lt_of_le (h.past n k hk c hc) he.version_le

theorem told_run (h : Run (Step decide) (new x) t s) : Told decide t s :=
  h.invariant .new fun h he => h.step he

end ResumeOnce.Race

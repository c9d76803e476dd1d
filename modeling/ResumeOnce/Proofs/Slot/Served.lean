import ResumeOnce.Proofs.Slot.Audience

/-!
# Who is served at a slot

There is room for one waker in a slot. While it is there, and whoever left it has looked again in
vain, somebody will wake it: the arrival of the answer, or the poll that has the answer in hand.
So of all futures that wait the last one to leave its waker is woken once the answer is there; and
the answer itself goes to one poll, every later one being told that it was taken.

Nothing more holds. A waker that is in the slot gives way to the next one, and is woken by
nobody: of two futures that wait the first one sleeps for ever (`crowded_out`).

* `Audience.Watched`: who will wake the waker that is in the slot;
* `Audience.Served`: what holds of everybody who asks, behind every run;
* `Audience.last_served`: it does.
-/

namespace ResumeOnce.Audience

variable {ι : Type w} {ω : Type u} {α : Type v} {s s' : Audience ι ω α}
  {t t₁ t₂ : List (Event ι ω α)} {e : Event ι ω α} {i j : ι} {k : ω} {r : Outcome α}

/-! ## The last waker -/

/-- The last future to leave a waker. -/
def lastLeft (t : List (Event ι ω α)) : Option ι := (t.filterMap Event.left?).getLast?

theorem lastLeft_concat_of_none (he : e.left? = none) : lastLeft (t ++ [e]) = lastLeft t := by
  rw [lastLeft, List.filterMap_append, List.filterMap_cons_none he, List.filterMap_nil,
    List.append_nil, lastLeft]

theorem lastLeft_concat_left : lastLeft (t ++ [.did i (.left k)]) = some i := by
  rw [lastLeft, List.filterMap_append, List.getLast?_append]
  rfl

/-- Who left a waker last, if nobody did since. -/
theorem lastLeft_append (h : ∀ e ∈ t₂, e.left? = none) :
    lastLeft (t₁ ++ .did i (.left k) :: t₂) = some i := by
  have hn : t₂.filterMap Event.left? = [] := List.filterMap_eq_nil_iff.2 h
  rw [lastLeft, List.filterMap_append, List.getLast?_append]
  simp [Event.left?, hn]

/-! ## The waker of one's own -/

/-- The waker that a future has left in its poll. -/
def Stage.left? : Stage ω α → Option ω
  | looking true k | asking true k | waiting k => some k
  | _ => none

/-- A future has left a waker, and no other one since. -/
def Left (t : List (Event ι ω α)) (i : ι) (k : ω) : Prop :=
  ∃ t₁ t₂, t = t₁ ++ .did i (.left k) :: t₂ ∧ ∀ k', .did i (.left k') ∉ t₂

theorem Left.concat (h : Left t i k) (he : ∀ k', e ≠ .did i (.left k')) :
    Left (t ++ [e]) i k := by
  obtain ⟨t₁, t₂, rfl, hn⟩ := h
  refine ⟨t₁, t₂ ++ [e], by simp, ?_⟩
  intro k' hm
  rcases List.mem_append.1 hm with hm | hm
  · exact hn k' hm
  · exact he k' (List.mem_singleton.1 hm).symm

theorem Access.left {slot slot' : Slot ω α} {x y : Stage ω α} {d : Deed ω α}
    (h : Access slot x d slot' y) (hy : y.left? = some k) :
    d = .left k ∨ x.left? = some k ∧ ∀ k', d ≠ .left k' := by
  cases h with
  | @miss again k' hr =>
    cases again with
    | false => cases hy
    | true => exact .inr ⟨hy, nofun⟩
  | leave =>
    cases hy
    exact .inl rfl
  | wait ht => exact .inr ⟨hy, nofun⟩
  | _ => cases hy

section Steps

variable [DecidableEq ι]

/-- Whoever waits with a waker has left it. -/
theorem left_run (h : Run Step (.new : Audience ι ω α) t s) :
    ∀ i k, (s.stage i).left? = some k → Left t i k := by
  refine Run.invariant (P := fun t s => ∀ i k, (s.stage i).left? = some k → Left t i k)
    (by rintro _ _ ⟨⟩) ?_ h
  intro t s e s' ih he i k hk
  cases he with
  | fill r ha => exact (ih i k hk).concat nofun
  | rouse ha => exact (ih i k hk).concat nofun
  | @access j d slot x ha =>
    by_cases hj : i = j
    · subst hj
      rw [go_stage_self] at hk
      rcases ha.left hk with rfl | ⟨hx, hn⟩
      · exact ⟨t, [], rfl, nofun⟩
      · refine (ih i k hx).concat ?_
        rintro k' ⟨⟩
        exact hn k' rfl
    · rw [go_stage_of_ne hj] at hk
      refine (ih i k hk).concat ?_
      rintro k' ⟨⟩
      exact hj rfl

/-- A waker stays in the slot until another one is left, or it is woken. -/
theorem Step.waker (he : Step s e s') (hk : s.slot.waker = some k) (hl : e.left? = none)
    (hw : e.wakes ≠ some k) : s'.slot.waker = some k := by
  cases he with
  | fill r ha => exact hk
  | rouse ha => exact absurd hk hw
  | @access i d slot x ha =>
    rw [go_slot, ha.waker]
    generalize s.stage i = y at ha
    cases ha with
    | leave => cases hl
    | pass => exact absurd hk hw
    | _ => exact hk

theorem waker_run (h : Run Step s t s') (hk : s.slot.waker = some k)
    (hl : ∀ e ∈ t, e.left? = none) (hw : ∀ e ∈ t, e.wakes ≠ some k) :
    s'.slot.waker = some k := by
  induction h with
  | nil => exact hk
  | snoc _ he ih =>
    rw [List.forall_mem_append, List.forall_mem_singleton] at hl hw
    exact he.waker (ih hl.1 hw.1) hl.2 hw.2

theorem traced_run (h : Run Step (.new : Audience ι ω α) t s) : Traced t s :=
  Run.invariant (P := Traced) .new (fun ht he => ht.step he) h

end Steps

/-! ## Who wakes it -/

/-- While the waker of a future is in the slot, and it has looked again in vain, the arrival of
    the answer is not over, or somebody has the answer in hand; or else the future is about to
    learn that the answer was taken. -/
structure Watched (t : List (Event ι ω α)) (s : Audience ι ω α) : Prop where
  asking : ∀ i k, lastLeft t = some i → s.slot.waker.isSome → s.stage i = .asking true k →
    s.arrival ≠ .over ∨ (∃ j r, s.stage j = .storing r) ∨ s.slot.taken = true
  waiting : ∀ i k, lastLeft t = some i → s.slot.waker.isSome → s.stage i = .waiting k →
    s.arrival ≠ .over ∨ ∃ j, (s.stage j).Holds

section Watching

variable [DecidableEq ι]

/-- Whoever has the answer in hand keeps it while others go on. -/
theorem storing_go {slot : Slot ω α} {x : Stage ω α} (hi : ¬ (s.stage i).Holds)
    (h : ∃ j r, s.stage j = .storing r) : ∃ j r, (s.go i slot x).stage j = .storing r := by
  obtain ⟨j, r, hj⟩ := h
  refine ⟨j, r, ?_⟩
  rw [go_stage_of_ne, hj]
  rintro rfl
  exact hi (hj ▸ trivial)

theorem holds_go {slot : Slot ω α} {x : Stage ω α} (hi : ¬ (s.stage i).Holds)
    (h : ∃ j, (s.stage j).Holds) : ∃ j, ((s.go i slot x).stage j).Holds := by
  obtain ⟨j, hj⟩ := h
  refine ⟨j, ?_⟩
  rwa [go_stage_of_ne]
  rintro rfl
  exact hi hj

namespace Watched

omit [DecidableEq ι] in
/-- Behind a step that takes the waker out there is nothing to watch. -/
theorem of_none (hw : s.slot.waker = none) : Watched t s where
  asking := fun i k _ hs => by rw [hw] at hs; cases hs
  waiting := fun i k _ hs => by rw [hw] at hs; cases hs

omit [DecidableEq ι] in
/-- Before the arrival is over there is nothing to fear. -/
theorem of_arrival (ha : s.arrival ≠ .over) : Watched t s where
  asking := fun _ _ _ _ _ => .inl ha
  waiting := fun _ _ _ _ _ => .inl ha

/-- A future without the answer goes on, and the slot stays as it is. -/
theorem go (h : Watched t s) {d : Deed ω α} {x : Stage ω α} (hi : ¬ (s.stage i).Holds)
    (hd : (Event.did i d).left? = none)
    (hask : ∀ k, x = .asking true k → s.arrival ≠ .over ∨ (∃ j r, s.stage j = .storing r) ∨
      s.slot.taken = true)
    (hwait : ∀ k, x = .waiting k → lastLeft t = some i → s.slot.waker.isSome →
      s.arrival ≠ .over ∨ ∃ j, (s.stage j).Holds) :
    Watched (t ++ [.did i d]) (s.go i s.slot x) := by
  constructor
  · intro j k hl hw hs
    rw [lastLeft_concat_of_none hd] at hl
    refine Or.imp_right (Or.imp_left (storing_go hi)) ?_
    rcases go_stage_eq hs with ⟨-, hx⟩ | hs
    · exact hask k hx
    · exact h.asking j k hl hw hs
  · intro j k hl hw hs
    rw [lastLeft_concat_of_none hd] at hl
    refine Or.imp_right (holds_go hi) ?_
    rcases go_stage_eq hs with ⟨rfl, hx⟩ | hs
    · exact hwait k hx hl hw
    · exact h.waiting j k hl hw hs

/-- A future has the answer in hand, and will wake whoever is there. -/
theorem of_storing {slot : Slot ω α} (t : List (Event ι ω α)) (s : Audience ι ω α) (i : ι)
    (r : Outcome α) : Watched t (s.go i slot (.storing r)) where
  asking := fun _ _ _ _ _ => .inr (.inl ⟨i, r, go_stage_self ..⟩)
  waiting := fun _ _ _ _ _ => .inr ⟨i, by rw [go_stage_self]; trivial⟩

theorem of_passing {slot : Slot ω α} (t : List (Event ι ω α)) (s : Audience ι ω α) (i : ι)
    (r : Outcome α) (ht : slot.taken = true) : Watched t (s.go i slot (.passing r)) where
  asking := fun _ _ _ _ _ => .inr (.inr ht)
  waiting := fun _ _ _ _ _ => .inr ⟨i, by rw [go_stage_self]; trivial⟩

theorem access (h : Watched t s) (ht : Traced t s) {d : Deed ω α} {slot : Slot ω α}
    {x : Stage ω α} (ha : Access s.slot (s.stage i) d slot x) :
    Watched (t ++ [.did i d]) (s.go i slot x) := by
  generalize hy : s.stage i = y at ha
  cases ha with
  | begin hx k => exact h.go (hy ▸ hx.not_holds) rfl nofun nofun
  | find hr => exact of_storing _ _ _ _
  | @miss again k hr =>
    rw [Slot.pop_of_none hr]
    refine h.go (by rw [hy]; exact id) rfl (fun k' _ => ?_) nofun
    -- It looked in vain: the answer is on its way, or in hand, or taken.
    rcases hb : s.arrival with _ | _ | _
    · exact .inl nofun
    · exact .inl nofun
    · rcases ht.place (by rw [hb]; nofun) with hs | hs
      · rw [show s.slot.result = none from hr] at hs
        cases hs
      · exact .inr hs
  | late hl => exact h.go (by rw [hy]; exact id) rfl nofun nofun
  | stay hl => exact h.go (by rw [hy]; exact id) rfl nofun nofun
  | @leave k =>
    constructor
    · intro j k' hl _ hs
      rw [lastLeft_concat_left] at hl
      cases hl
      rw [go_stage_self] at hs
      cases hs
    · intro j k' hl _ hs
      rw [lastLeft_concat_left] at hl
      cases hl
      rw [go_stage_self] at hs
      cases hs
  | @wait k hl =>
    refine h.go (by rw [hy]; exact id) rfl nofun ?_
    rintro k' ⟨⟩ ho hw
    -- It has asked in vain as well: the answer is on its way, or in hand.
    rcases h.asking i k ho hw hy with ha | ⟨j, r, hj⟩ | hs
    · exact .inl ha
    · exact .inr ⟨j, by rw [hj]; trivial⟩
    · rw [hl] at hs
      cases hs
  | store => exact of_passing _ _ _ _ rfl
  | pass => exact of_none rfl

theorem step (h : Watched t s) (ht : Traced t s) (he : Step s e s') : Watched (t ++ [e]) s' := by
  cases he with
  | fill r ha => exact of_arrival nofun
  | rouse ha => exact of_none rfl
  | access ha => exact h.access ht ha

end Watched

theorem watched_run (h : Run Step (.new : Audience ι ω α) t s) : Watched t s := by
  induction h with
  | nil => exact .of_arrival nofun
  | snoc hr he ih => exact ih.step (traced_run hr) he

end Watching

/-! ## Late polls -/

/-- A poll of a future that began when the answer was taken, or no poll at all. -/
def Stage.Late : Stage ω α → Prop
  | looking false _ | asking false _ | ended => True
  | _ => False

/-- A poll that has looked in vain. -/
def Stage.Missed : Stage ω α → Prop
  | asking _ _ | leaving _ | looking true _ => True
  | _ => False

theorem Access.comes_late {slot slot' : Slot ω α} {x y : Stage ω α} {d : Deed ω α}
    (h : Access slot x d slot' y) (hr : slot.result = none) (ht : slot.taken = true)
    (hx : x.Late) : y.Late ∧ ∀ p, d.returns = some p → p = .ready (.error Slot.takenFault) := by
  cases h with
  | begin => exact ⟨trivial, nofun⟩
  | find hs => rw [show slot.result = some _ from hs] at hr; cases hr
  | @miss again k hs =>
    cases again with
    | false => exact ⟨trivial, nofun⟩
    | true => cases hx
  | late =>
    refine ⟨trivial, ?_⟩
    rintro p ⟨⟩
    rfl
  | stay hs => rw [ht] at hs; cases hs
  | _ => cases hx

/-- Who has looked in vain finds the slot empty, unless it is filled. -/
theorem Access.missed {slot slot' : Slot ω α} {x y : Stage ω α} {d : Deed ω α}
    (h : Access slot x d slot' y) (hx : x.Missed → slot.result = none) (hy : y.Missed) :
    slot'.result = none := by
  cases h with
  | miss hr => rfl
  | stay | leave => exact hx trivial
  | _ => cases hy

section Steps

variable [DecidableEq ι]

/-- What is gone from the slot does not come back. -/
theorem Access.emptied {slot slot' : Slot ω α} {x y : Stage ω α} {d : Deed ω α}
    (h : Access slot x d slot' y) (hr : slot.result = none) : slot'.result = none := by
  rw [h.result]
  split
  · rfl
  · exact hr

/-- Every poll of a future that begins when the answer is taken is told so. -/
theorem late_run (h : Run Step s t s') (ha : s.arrival ≠ .before) (hr : s.slot.result = none)
    (ht : s.slot.taken = true) (hi : (s.stage i).Late) :
    ∀ d, .did i d ∈ t → ∀ p, d.returns = some p → p = .ready (.error Slot.takenFault) := by
  suffices hk : (s'.arrival ≠ .before ∧ s'.slot.result = none ∧ s'.slot.taken = true ∧
      (s'.stage i).Late) ∧ ∀ d, .did i d ∈ t → ∀ p, d.returns = some p →
        p = .ready (.error Slot.takenFault) from hk.2
  induction h with
  | nil => exact ⟨⟨ha, hr, ht, hi⟩, nofun⟩
  | @snoc t s₁ s₂ e _ he ih =>
    obtain ⟨⟨ha, hr, ht, hi⟩, hp⟩ := ih
    cases he with
    | fill r hb => exact absurd hb ha
    | rouse => exact ⟨⟨nofun, hr, ht, hi⟩, fun d hm => hp d (by simpa using hm)⟩
    | @access j d slot x hd =>
      have ht' : slot.taken = true := hd.taken.elim (fun h => h.trans ht) And.left
      refine ⟨⟨ha, hd.emptied hr, ht', ?_⟩, ?_⟩
      · by_cases hj : i = j
        · subst hj
          rw [go_stage_self]
          exact (hd.comes_late hr ht hi).1
        · rwa [go_stage_of_ne hj]
      · intro d' hm
        rcases List.mem_append.1 hm with hm | hm
        · exact hp d' hm
        · cases List.mem_singleton.1 hm
          exact (hd.comes_late hr ht hi).2

/-- Behind the arrival, a poll that has looked in vain finds the slot empty all along. -/
theorem missed_run (h : Run Step s t s') (ha : s.arrival ≠ .before)
    (hi : (s.stage i).Missed → s.slot.result = none) :
    s'.arrival ≠ .before ∧ ((s'.stage i).Missed → s'.slot.result = none) := by
  induction h with
  | nil => exact ⟨ha, hi⟩
  | @snoc t s₁ s₂ e _ he ih =>
    obtain ⟨ha, hi⟩ := ih
    cases he with
    | fill r hb => exact absurd hb ha
    | rouse => exact ⟨nofun, hi⟩
    | @access j d slot x hd =>
      refine ⟨ha, ?_⟩
      by_cases hj : i = j
      · subst hj
        rw [go_stage_self]
        exact hd.missed hi
      · rw [go_stage_of_ne hj]
        exact fun hm => hd.emptied (hi hm)

/-! ## Progress -/

/-- A poll that is under way can take its next access, and comes nearer to its end. -/
theorem exists_access (h : ¬ (s.stage i).Rests) :
    ∃ d s', Step s (.did i d) s' ∧ (s'.stage i).ahead < (s.stage i).ahead := by
  suffices ha : ∃ d slot x, Access s.slot (s.stage i) d slot x ∧ x.ahead < (s.stage i).ahead by
    obtain ⟨d, slot, x, ha, hx⟩ := ha
    exact ⟨d, _, .access ha, by rwa [go_stage_self]⟩
  generalize s.stage i = y at h
  cases y with
  | idle => exact absurd trivial h
  | looking again k =>
    rcases hr : s.slot.pop.2 with _ | r
    · exact ⟨_, _, _, .miss hr, by cases again <;> simp [Stage.ahead]⟩
    · exact ⟨_, _, _, .find hr, by cases again <;> simp [Stage.ahead]⟩
  | asking again k =>
    rcases ht : s.slot.taken with _ | _
    · cases again with
      | false => exact ⟨_, _, _, .stay ht, by simp [Stage.ahead]⟩
      | true => exact ⟨_, _, _, .wait ht, by simp [Stage.ahead]⟩
    · exact ⟨_, _, _, .late ht, by cases again <;> simp [Stage.ahead]⟩
  | leaving k => exact ⟨_, _, _, .leave, by simp [Stage.ahead]⟩
  | storing r => exact ⟨_, _, _, .store, by simp [Stage.ahead]⟩
  | passing r => exact ⟨_, _, _, .pass, by simp [Stage.ahead]⟩
  | waiting k => exact absurd trivial h
  | ended => exact absurd trivial h

end Steps

/-! ## Everybody who asks -/

/-- What holds behind a run of everybody who asks a slot. -/
structure Served [DecidableEq ι] (t : List (Event ι ω α)) (s : Audience ι ω α) : Prop where
  /-- When the answer has arrived, whoever looks first finds it. -/
  first : s.arrival ≠ .before → (∀ i r, .did i (.found r) ∉ t) →
    ∃ r, .filled r ∈ t ∧ s.slot.result = some r
  /-- It is found once at most. -/
  once : (t.filterMap Event.found?).length ≤ 1
  /-- Who has found it returns with it, -/
  got : ∀ i k r, .did i (.passed k r) ∈ t → .did i (.found r) ∈ t ∧ .filled r ∈ t
  /-- and every poll that begins behind that is told that it was taken. -/
  later : ∀ t₁ i k t₂, t = t₁ ++ .did i (.began k) :: t₂ →
    (∃ j k r, .did j (.passed k r) ∈ t₁) →
    ∀ d, .did i d ∈ t₂ → ∀ p, d.returns = some p → p = .ready (.error Slot.takenFault)
  /-- A poll that begins behind the arrival is told to wait only while another one has found the
      answer and has not returned yet. -/
  inHand : ∀ u i v, t = u ++ .did i (.told .pending) :: v →
    (∃ t₁ k t₂, u = t₁ ++ .did i (.began k) :: t₂ ∧ ∃ r, .filled r ∈ t₁) →
    ∃ j r, .did j (.found r) ∈ u ∧ ∀ k r', .did j (.passed k r') ∉ u
  /-- Nobody is woken before the answer has arrived. -/
  behind : ∀ t₁ e t₂, t = t₁ ++ e :: t₂ → e.wakes.isSome → ∃ r, .filled r ∈ t₁
  /-- The arrival comes to its end, -/
  arrives : s.arrival = .filled → ∃ k s', Step s (.roused k) s' ∧ s'.arrival = .over
  /-- and so does every poll. -/
  next : ∀ i, ¬ (s.stage i).Rests →
    ∃ d s', Step s (.did i d) s' ∧ (s'.stage i).ahead < (s.stage i).ahead
  /-- When the arrival is over and nobody has the answer in hand, whoever waits has been woken
      since it left its waker, unless another one has left a waker behind it. -/
  woken : s.arrival = .over → (∀ j, ¬ (s.stage j).Holds) → ∀ i k, s.stage i = .waiting k →
    ∃ t₁ t₂, t = t₁ ++ .did i (.left k) :: t₂ ∧ (∀ k', .did i (.left k') ∉ t₂) ∧
      ((∃ e ∈ t₂, e.wakes = some k) ∨ ∃ j k', j ≠ i ∧ .did j (.left k') ∈ t₂)

section Steps

variable [DecidableEq ι] (h : Run Step (.new : Audience ι ω α) t s)
include h

theorem first_run (ha : s.arrival ≠ .before) (hn : ∀ i r, .did i (.found r) ∉ t) :
    ∃ r, .filled r ∈ t ∧ s.slot.result = some r := by
  have ht := traced_run h
  rcases ht.place ha with hr | ⟨i, r, hs⟩ | hs
  · obtain ⟨r, hr⟩ := Option.isSome_iff_exists.1 hr
    exact ⟨r, (ht.result r hr).1, hr⟩
  · exact absurd (ht.storing i r hs) (hn i r)
  · obtain ⟨i, r, hf⟩ := ht.taken hs
    exact absurd hf (hn i r)

theorem later_run {i : ι} {k : ω} (ht : t = t₁ ++ .did i (.began k) :: t₂)
    (hp : ∃ j k r, .did j (.passed k r) ∈ t₁) : ∀ d, .did i d ∈ t₂ → ∀ p,
      d.returns = some p → p = .ready (.error Slot.takenFault) := by
  obtain ⟨s₁, s₂, h₁, he, h₂⟩ := h.split ht
  obtain ⟨j, k', r, hm⟩ := hp
  have h₀ := traced_run h₁
  obtain ⟨hf, hs⟩ := h₀.passed j k' r hm
  obtain ⟨hfill, hr⟩ := h₀.found j r hf
  cases he with
  | access ha =>
    generalize s₁.stage i = y at ha
    cases ha with
    | begin hx _ =>
      exact late_run h₂ (h₀.filled.1 ⟨r, hfill⟩) hr hs (by rw [go_stage_self]; trivial)

theorem inHand_run {u v : List (Event ι ω α)} {i : ι}
    (ht : t = u ++ .did i (.told .pending) :: v)
    (hb : ∃ t₁ k t₂, u = t₁ ++ .did i (.began k) :: t₂ ∧ ∃ r, .filled r ∈ t₁) :
    ∃ j r, .did j (.found r) ∈ u ∧ ∀ k r', .did j (.passed k r') ∉ u := by
  obtain ⟨s₁, s₂, h₁, he, -⟩ := h.split ht
  obtain ⟨t₁, k, t₂, hu, r, hf⟩ := hb
  obtain ⟨s₃, s₄, h₃, hb, h₄⟩ := h₁.split hu
  have hm : s₁.arrival ≠ .before ∧ ((s₁.stage i).Missed → s₁.slot.result = none) := by
    have ha := (traced_run h₃).filled.1 ⟨r, hf⟩
    cases hb with
    | access hx =>
      generalize s₃.stage i = y at hx
      cases hx with
      | begin => exact missed_run h₄ ha fun hi => by rw [go_stage_self] at hi; cases hi
  have h₀ := traced_run h₁
  cases he with
  | access hx =>
    generalize hy : s₁.stage i = y at hx
    cases hx with
    | wait hn =>
      -- The slot is empty, and the answer is not known to be taken: somebody has it in hand.
      rcases h₀.place hm.1 with hr | ⟨j, r', hj⟩ | ht
      · rw [hm.2 (hy ▸ trivial)] at hr
        cases hr
      · refine ⟨j, r', h₀.storing j r' hj, fun k' r'' hp => ?_⟩
        rw [(h₀.passed j k' r'' hp).2] at hn
        cases hn
      · rw [ht] at hn
        cases hn

/-- A step that wakes somebody is behind the arrival. -/
theorem behind_run {e : Event ι ω α} (ht : t = t₁ ++ e :: t₂) (hw : e.wakes.isSome) :
    ∃ r, .filled r ∈ t₁ := by
  obtain ⟨s₁, s₂, h₁, he, -⟩ := h.split ht
  have h₀ := traced_run h₁
  cases he with
  | fill => cases hw
  | rouse ha => exact h₀.filled.2 (by rw [ha]; nofun)
  | @access i d slot x hx =>
    generalize hy : s₁.stage i = y at hx
    cases hx with
    | pass => exact ⟨_, (h₀.found i _ (h₀.passing i _ hy).1).1⟩
    | _ => cases hw

/-- When everything is over, the last future to leave its waker is woken. -/
theorem woken_run (ha : s.arrival = .over) (hn : ∀ j, ¬ (s.stage j).Holds) {i : ι} {k : ω}
    (hi : s.stage i = .waiting k) :
    ∃ t₁ t₂, t = t₁ ++ .did i (.left k) :: t₂ ∧ (∀ k', .did i (.left k') ∉ t₂) ∧
      ((∃ e ∈ t₂, e.wakes = some k) ∨ ∃ j k', j ≠ i ∧ .did j (.left k') ∈ t₂) := by
  obtain ⟨t₁, t₂, ht, hl⟩ := left_run h i k (by rw [hi]; rfl)
  refine ⟨t₁, t₂, ht, hl, ?_⟩
  by_contra hc
  simp only [not_or, not_exists, not_and] at hc
  obtain ⟨hw, ho⟩ := hc
  have hleft : ∀ e ∈ t₂, e.left? = none := by
    intro e he
    rcases e with _ | _ | ⟨j, d⟩
    · rfl
    · rfl
    · cases d with
      | left k' =>
        by_cases hj : j = i
        · exact absurd (hj ▸ he) (hl k')
        · exact absurd he (ho j k' hj)
      | _ => rfl
  -- So the waker is in the slot still, and nobody would ever wake it.
  obtain ⟨s₁, s₂, -, he, h₂⟩ := h.split ht
  have hk : s.slot.waker = some k := by
    refine waker_run h₂ ?_ hleft hw
    cases he with
    | access hx =>
      rw [go_slot, hx.waker]
  have hlast : lastLeft t = some i := ht ▸ lastLeft_append hleft
  rcases (watched_run h).waiting i k hlast (by rw [hk]; rfl) hi with hx | ⟨j, hj⟩
  · exact hx ha
  · exact hn j hj

end Steps

/-- Everybody who asks a slot is served as told. -/
theorem last_served [DecidableEq ι] (h : Run Step (.new : Audience ι ω α) t s) : Served t s where
  first := first_run h
  once := (traced_run h).once
  got := fun i k r hm =>
    have hf := ((traced_run h).passed i k r hm).1
    ⟨hf, ((traced_run h).found i r hf).1⟩
  later := fun _ _ _ _ ht hp => later_run h ht hp
  inHand := fun _ _ _ ht hb => inHand_run h ht hb
  behind := fun _ _ _ ht hw => behind_run h ht hw
  arrives := fun ha => ⟨_, _, .rouse ha, rfl⟩
  next := fun _ hi => exists_access hi
  woken := fun ha hn _ _ hi => woken_run h ha hn hi

/-- Two futures leave their wakers, the answer arrives, and the second one fetches it. -/
theorem crowded_run : ∃ (t : List (Event Bool Nat Unit)) (s : Audience Bool Nat Unit),
    Run Step .new t s ∧ s.arrival = .over ∧ s.stage false = .waiting 1 ∧ s.stage true = .ended ∧
      t.filterMap Event.wakes = [2] ∧
      t.filterMap Event.returns = [.pending, .pending, .ready (.ok ())] := by
  let s₀ : Audience Bool Nat Unit := .new
  let s₁ := s₀.go false (Slot.new.leave 1) (.waiting 1)
  let s₂ := s₁.go true (Slot.new.leave 2) (.waiting 2)
  let s₃ : Audience Bool Nat Unit := ⟨⟨some (.ok ()), false, none⟩, .over, s₂.stage⟩
  obtain ⟨t₁, h₁, hw₁, hr₁⟩ := poll_undisturbed (s := s₀) (i := false) trivial 1
  obtain ⟨t₂, h₂, hw₂, hr₂⟩ := poll_undisturbed (s := s₁) (i := true) trivial 2
  have hc := complete_undisturbed (s := s₂) rfl (.ok ())
  obtain ⟨t₃, h₃, hw₃, hr₃⟩ := poll_undisturbed (s := s₃) (i := true) trivial 2
  refine ⟨_, _, ((Run.append h₁ h₂).append hc).append h₃, rfl, rfl, rfl, ?_, ?_⟩
  · rw [List.filterMap_append, List.filterMap_append, List.filterMap_append, hw₁, hw₂, hw₃]
    rfl
  · rw [List.filterMap_append, List.filterMap_append, List.filterMap_append, hr₁, hr₂, hr₃]
    rfl

/-- So the second future is served, and the first one is not. -/
theorem last_served_crowded : ∃ (t : List (Event Bool Nat Unit)) (s : Audience Bool Nat Unit),
    Run Step .new t s ∧ Served t s ∧ s.stage false = .waiting 1 ∧ s.stage true = .ended := by
  obtain ⟨t, s, h, -, h₁, h₂, -, -⟩ := crowded_run
  exact ⟨t, s, h, last_served h, h₁, h₂⟩

/-- The first one waits, the answer has arrived and was fetched, no poll is under way, and the
    waker of the first one was never woken. -/
theorem crowded_out : ∃ (t : List (Event Bool Nat Unit)) (s : Audience Bool Nat Unit),
    Run Step .new t s ∧ s.arrival = .over ∧ (∀ i, (s.stage i).Rests) ∧
      s.stage false = .waiting 1 ∧ (∀ e ∈ t, e.wakes ≠ some 1) ∧
      t.filterMap Event.returns = [.pending, .pending, .ready (.ok ())] := by
  obtain ⟨t, s, h, ha, h₁, h₂, hw, hr⟩ := crowded_run
  refine ⟨t, s, h, ha, ?_, h₁, ?_, hr⟩
  · rintro (_ | _)
    · rw [h₁]
      trivial
    · rw [h₂]
      trivial
  · intro e he hk
    have hm : (1 : Nat) ∈ t.filterMap Event.wakes := List.mem_filterMap.2 ⟨e, he, hk⟩
    rw [hw] at hm
    cases hm with
    | tail _ hm => cases hm

end ResumeOnce.Audience

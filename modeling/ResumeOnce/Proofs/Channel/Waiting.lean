import ResumeOnce.Proofs.Channel.Keeping

/-!
# Nobody hangs on a channel

A call that waits is in line, or finds its answer as soon as it looks. Whoever leaves
the line is told and woken by the step that takes him out, and everybody gets out of the
line once. A channel that closes sends its readers away and keeps what is written to
it; a channel that is cancelled sends everybody away.

* `Vigil.Passes`, `Vigil.Kept.passes`: what a step does to those who wait;
* `Vigil.attended`: what can be said of everybody who ever waits.
-/

namespace ResumeOnce.Channel.Vigil

variable {ω : Type u} {α : Type v} {s s' : Vigil ω α} {ev : Event ω α} {t : List (Event ω α)}
variable {e : Exchanged Nat α β}

/-! ## What a step does to those who wait -/

/-- What a step does, behind some history: whoever leaves the line is told, by the one right to do
    so, and the waker of his last poll is woken; nobody else is told or woken. -/
structure Passes (t : List (Event ω α)) (s : Vigil ω α) (ev : Event ω α) (s' : Vigil ω α) :
    Prop where
  line : (s'.channel.inLine ++ ev.told.map Telling.party).Perm (s.channel.inLine ++ ev.joined)
  told : ∀ x ∈ ev.told, x.fresh = true ∧ x.woken = lastWaker t x.party
  woken : ev.woken = none
  /-- A completion is only ever replaced by a cancellation. -/
  completion : ∀ x, s.channel.completion = some x → s'.channel.completion = some x ∨
    ∃ f values told, ev = .cancelled f values told ∧ s'.channel.completion = some (.failure f)
  /-- What is queued in a closed channel is read, in order, or cancelled. -/
  queued : s.channel.completion.isSome → s'.channel.queued = s.channel.queued ∨
    (∃ w k b o told, s.channel.queued = w :: s'.channel.queued ∧ ev = .begun k (.read b) o told) ∨
      ∃ f values told, ev = .cancelled f values told
  /-- Behind a close, whatever it answers, the channel is closed, no reader waits, and what is
      written stays. It is refused when the channel was closed before, and then it changes
      nothing. -/
  shut : ∀ c done told, ev = .closed c done told → s'.channel.completion.isSome ∧
    s'.channel.waiting = [] ∧ s'.channel.queued = s.channel.queued ∧
      (done = false ↔ s.channel.completion.isSome) ∧
        (done = false → s'.channel = s.channel ∧ told = [])
  /-- Closing an open channel tells those who read. -/
  closed : ∀ c told, ev = .closed c true told → s.channel.completion = none ∧
    s'.channel.completion = some c ∧ s'.channel.queued = s.channel.queued ∧
      told.map Telling.party = s.channel.waiting ∧ ∀ x ∈ told, x.answer = .error c.fault
  /-- Cancelling tells everybody. -/
  cancelled : ∀ f values told, ev = .cancelled f values told →
    s'.channel.completion = some (.failure f) ∧ s'.channel.queued = [] ∧
      told.map Telling.party = s.channel.inLine ∧ ∀ x ∈ told, x.answer = .error f

/-- Whoever is taken out of the line by an operation is told what the operation says. -/
theorem Kept.tellings (h : Kept t s) (ho : Operates s e s' ev) :
    ev.told = e.resolutions.map fun r => ⟨r.party, r.answer, true, lastWaker t r.party⟩ :=
  ho.told.trans (h.tells ho).2.2.told

theorem Kept.told_party (h : Kept t s) (ho : Operates s e s' ev) :
    ev.told.map Telling.party = e.resolutions.map Resolution.party := by
  rw [h.tellings ho, List.map_map]
  rfl

theorem Kept.told_answer (h : Kept t s) (ho : Operates s e s' ev) {o : Outcome (Option α)}
    (hr : ∀ r ∈ e.resolutions, r.answer = o) : ∀ x ∈ ev.told, x.answer = o := by
  rw [h.tellings ho]
  intro x hx
  obtain ⟨r, hr', rfl⟩ := List.mem_map.1 hx
  exact hr r hr'

theorem Kept.passes_line (h : Kept t s) (ho : Operates s e s' ev) :
    (s'.channel.inLine ++ ev.told.map Telling.party).Perm (s.channel.inLine ++ ev.joined) := by
  rw [h.told_party ho, ho.channel]
  exact ho.line

theorem Kept.passes_told (h : Kept t s) (ho : Operates s e s' ev) :
    ∀ x ∈ ev.told, x.fresh = true ∧ x.woken = lastWaker t x.party := by
  rw [h.tellings ho]
  intro x hx
  obtain ⟨r, -, rfl⟩ := List.mem_map.1 hx
  exact ⟨rfl, rfl⟩

/-- A step that is none of the channel's. -/
theorem Passes.ofAside (hc : s'.channel = s.channel) (ht : ev.told = []) (hj : ev.joined = [])
    (hw : ev.woken = none) (hx : ∀ c done told, ev ≠ .closed c done told)
    (hf : ∀ f values told, ev ≠ .cancelled f values told) : Passes t s ev s' where
  line := by rw [hc, ht, hj]; rfl
  told := by simp [ht]
  woken := hw
  completion := fun x hx => .inl (hc ▸ hx)
  queued := fun _ => .inl (by rw [hc])
  shut := fun c done told he => absurd he (hx c done told)
  closed := fun c told he => absurd he (hx c true told)
  cancelled := fun f values told he => absurd he (hf f values told)

theorem Kept.passes_begin (h : Kept t s) {k : Nat} {call : Call α} (hk : s.stage k = .made call) :
    Passes t s (s.begin k call).2 (s.begin k call).1 := by
  have ha := h.sound.attempting k call
  have ho := h.begins hk
  refine {
    line := h.passes_line ho
    told := h.passes_told ho
    woken := rfl
    completion := fun x hx => .inl (by rw [ho.channel, ha.completion, hx])
    queued := fun hx => ?_
    shut := fun c done told he => nomatch he
    closed := fun c told he => nomatch he
    cancelled := fun f values told he => nomatch he }
  rw [ho.channel]
  refine (ha.closed hx).imp_right ?_
  rintro ⟨b, w, rfl, hq⟩
  exact .inl ⟨w, k, b, _, _, hq, rfl⟩

theorem Kept.passes_close (h : Kept t s) (c : Completion) :
    Passes t s (.closed c (s.channel.close c).result (s.exchange (s.channel.close c)).2)
      (s.exchange (s.channel.close c)).1 := by
  have ho := h.closes c
  have hparty := h.told_party ho
  have hanswer := h.told_answer ho (o := .error c.fault)
  refine {
    line := h.passes_line ho
    told := h.passes_told ho
    woken := rfl
    completion := fun x hx => ?_
    queued := fun hx => ?_
    shut := fun c' done told he => ?_
    closed := fun c' told he => ?_
    cancelled := fun f values told he => nomatch he }
  all_goals rw [exchange_channel]
  · cases h.sound.closing c with
    | closed _ hc => exact .inl (by rw [hc, hx])
    | closes _ hx' => simp [hx'] at hx
  · cases h.sound.closing c with
    | closed _ hc => exact .inl (by rw [hc])
    | closes _ hx' => simp [hx'] at hx
  · injection he with h₁ h₂ h₃
    subst h₁ h₂ h₃
    cases h.sound.closing c with
    | closed hx hc =>
      rw [hc] at hparty ⊢
      exact ⟨hx, h.sound.closed hx, rfl, by simp [hx], fun _ => ⟨rfl, List.map_eq_nil_iff.1 hparty⟩⟩
    | closes _ hx hs hc =>
      rw [hc]
      exact ⟨by simp [hs.completion], hs.waiting, hs.queued, by simp [hx], nofun⟩
  · injection he with h₁ h₂ h₃
    subst h₁ h₃
    cases h.sound.closing c with
    | closed _ hc => simp [hc] at h₂
    | closes _ hx hs hc =>
      rw [hc] at hparty hanswer ⊢
      refine ⟨hx, hs.completion, hs.queued, hparty.trans (map_party_readers _ _), hanswer ?_⟩
      intro r hr
      obtain ⟨r, -, rfl⟩ := List.mem_map.1 hr
      rfl

theorem Kept.passes_cancel (h : Kept t s) (f : Fault) :
    Passes t s (.cancelled f (s.channel.cancel f).result (s.exchange (s.channel.cancel f)).2)
      (s.exchange (s.channel.cancel f)).1 := by
  have ho := h.cancels f
  have hparty := h.told_party ho
  have hanswer := h.told_answer ho (o := .error f)
  obtain ⟨c', hs, hc⟩ := h.sound.cancel f
  refine {
    line := h.passes_line ho
    told := h.passes_told ho
    woken := rfl
    completion := fun x hx => .inr ⟨f, _, _, rfl, by rw [exchange_channel, hc, hs.completion]⟩
    queued := fun _ => .inr (.inr ⟨f, _, _, rfl⟩)
    shut := fun c done told he => nomatch he
    closed := fun c told he => nomatch he
    cancelled := fun f' values told he => ?_ }
  injection he with h₁ h₂ h₃
  subst h₁ h₃
  rw [exchange_channel]
  rw [hc] at hparty hanswer ⊢
  refine ⟨hs.completion, hs.queued, ?_, hanswer fun r hr => ?_⟩
  · rw [List.map_append, map_party_readers, map_party_writers] at hparty
    exact hparty
  · rcases List.mem_append.1 hr with hr | hr
    · obtain ⟨r, -, rfl⟩ := List.mem_map.1 hr
      rfl
    · obtain ⟨w, -, hr⟩ := List.mem_flatMap.1 hr
      obtain ⟨r, -, rfl⟩ := List.mem_map.1 hr
      rfl

theorem Kept.passes (h : Kept t s) (he : Step s ev s') : Passes t s ev s' := by
  cases he with
  | begin hk => exact h.passes_begin hk
  | close c => exact h.passes_close c
  | cancel f => exact h.passes_cancel f
  | make call hk => exact .ofAside rfl rfl rfl rfl (by simp) (by simp)
  | drop hk => exact .ofAside rfl rfl rfl rfl (by simp) (by simp)
  | poll w hk =>
    rcases h.polls hk w with ⟨-, hp⟩ | ⟨-, x, -, -, hp⟩ <;> simp only [Vigil.poll, hp]
    · exact .ofAside rfl rfl rfl rfl (by simp) (by simp)
    · exact .ofAside rfl rfl rfl rfl (by simp) (by simp)

/-! ## Whole runs -/

variable {b : Buffering} {policy : LeakPolicy}

/-- What can be said of everybody who ever waits on a channel. -/
structure Attended (b : Buffering) (policy : LeakPolicy) (t : List (Event ω α))
    (s : Vigil ω α) : Prop where
  /-- A call that waits finds nothing exactly as long as it is in line. -/
  pending : ∀ k call w, s.stage k = .waits call →
    (((s.slot k).poll w).2.2 = .pending ↔ k ∈ s.channel.inLine)
  /-- A read is in line only in a channel that is open and holds no value. -/
  reader : ∀ k b, s.stage k = .waits (.read b) → k ∈ s.channel.inLine →
    k ∈ s.channel.waiting ∧ s.channel.completion = none ∧ s.channel.values = []
  /-- A call that waits and is not in line finds what it was told, and wakes nobody. -/
  answered : ∀ k call w, s.stage k = .waits call → k ∉ s.channel.inLine → ∃ x ∈ told t,
    x.party = k ∧ (s.slot k).poll w = (⟨none, true, none⟩, none, .ready x.answer)
  /-- Everybody who got in line was told once, or is in line still. -/
  once : (s.channel.inLine ++ (told t).map Telling.party).Perm (joined t) ∧ (joined t).Nodup
  passes : ∀ t₁ ev t₂, t = t₁ ++ ev :: t₂ → ∃ s₁ s₂, Run Step (new b policy) t₁ s₁ ∧
    Step s₁ ev s₂ ∧ Run Step s₂ t₂ s ∧ Passes t₁ s₁ ev s₂
  /-- Behind a close, whatever it answered, the channel is closed and no reader waits. -/
  closed : ∀ c done told, .closed c done told ∈ t →
    s.channel.completion.isSome ∧ s.channel.waiting = []
  cancelled : ∀ f values told, .cancelled f values told ∈ t → s.channel.inLine = []
  /-- A channel is closed once at most. -/
  closings : t.countP Event.closes ≤ 1

/-- A channel that is closed stays so. -/
theorem Passes.stays (h : Passes t s ev s') (hx : s.channel.completion.isSome) :
    s'.channel.completion.isSome := by
  obtain ⟨x, hx⟩ := Option.isSome_iff_exists.1 hx
  rcases h.completion x hx with hx | ⟨f, _, _, -, hx⟩ <;> simp [hx]

/-- Behind a close the channel is closed, whatever happens then. -/
theorem closed_run (h : Run Step (new b policy) t s) {c : Completion} {done : Bool}
    {told : List (Telling ω α)} (hc : .closed c done told ∈ t) : s.channel.completion.isSome := by
  induction h with
  | nil => cases hc
  | snoc hr he ih =>
    have hp := (kept_run hr).passes he
    rcases List.mem_append.1 hc with hc | hc
    · exact hp.stays (ih hc)
    · exact (hp.shut c done told (List.mem_singleton.1 hc).symm).1

/-- A channel that closes was open. -/
theorem Passes.closes (h : Passes t s ev s') (hx : ev.closes = true) :
    s.channel.completion = none := by
  cases ev with
  | closed c done told =>
    obtain rfl : done = true := hx
    exact (h.closed c told rfl).1
  | _ => cases hx

theorem closings_le (h : Run Step (new b policy) t s) : t.countP Event.closes ≤ 1 := by
  induction h with
  | nil => exact Nat.zero_le 1
  | @snoc t s s' ev hr he ih =>
    rw [List.countP_append, List.countP_singleton]
    split
    · rename_i hx
      have hk := kept_run hr
      have ho := hk.opened ((hk.passes he).closes hx)
      have hz : t.countP Event.closes = 0 :=
        List.countP_eq_zero.2 fun ev' he' => by simp [ho ev' he']
      omega
    · exact ih

/-- Once a channel is cancelled, nobody is in line any more, and nothing is queued. -/
theorem cancelled_run (h : Run Step (new b policy) t s) {f : Fault} {values : List α}
    {told : List (Telling ω α)} (hc : .cancelled f values told ∈ t) :
    s.channel.completion.isSome ∧ s.channel.queued = [] := by
  induction h with
  | nil => cases hc
  | @snoc t s s' ev hr he ih =>
    have hp := (kept_run hr).passes he
    rcases List.mem_append.1 hc with hc | hc
    · obtain ⟨hx, hq⟩ := ih hc
      refine ⟨hp.stays hx, ?_⟩
      rcases hp.queued hx with hq' | ⟨w, _, _, _, _, hq', -⟩ | ⟨f, _, _, he⟩
      · rw [hq', hq]
      · simp [hq] at hq'
      · exact (hp.cancelled _ _ _ he).2.1
    · obtain rfl := List.mem_singleton.1 hc
      obtain ⟨hx, hq, -⟩ := hp.cancelled _ _ _ rfl
      exact ⟨by simp [hx], hq⟩

/-- Nobody hangs on a channel: whoever waits is in line, whoever leaves the line is told and woken,
    and behind the end of the channel the line is as that end has it. -/
theorem attended (h : Run Step (new b policy) t s) : Attended b policy t s := by
  have hk := kept_run h
  refine {
    pending := fun k call w hs => ?_
    reader := fun k b hs hl => ?_
    answered := fun k call w hs hl => ?_
    once := ⟨hk.line, hk.nodup⟩
    passes := fun t₁ ev t₂ ht => ?_
    closed := fun c done told hc =>
      have hx := closed_run h hc
      ⟨hx, hk.sound.closed hx⟩
    cancelled := fun f values told hc => ?_
    closings := closings_le h }
  · rcases hk.polls hs w with ⟨hl, hp⟩ | ⟨hl, x, -, -, hp⟩ <;> simp [hp, hl]
  · have hr : k ∈ s.channel.waiting := (List.mem_append.1 hl).resolve_right fun hw => by
      obtain ⟨a, ha⟩ := hk.writer k _ hs hw
      cases ha
    refine ⟨hr, ?_, ?_⟩
    · by_contra hx
      rw [hk.sound.closed (Option.isSome_iff_ne_none.2 hx)] at hr
      cases hr
    · have hq : s.channel.queued = [] :=
        hk.sound.apart.resolve_left fun hw => by simp [hw] at hr
      rw [values, hq]
      rfl
  · exact ((hk.polls hs w).resolve_left fun hp => hl hp.1).2
  · obtain ⟨s₁, s₂, h₁, he, h₂⟩ := h.split ht
    exact ⟨s₁, s₂, h₁, he, h₂, (kept_run h₁).passes he⟩
  · obtain ⟨hx, hq⟩ := cancelled_run h hc
    rw [inLine, waitingWriters, hk.sound.closed hx, hq]
    rfl

/-- Of two readers the first polls twice, and is woken by its second waker when a value is written;
    the second was dropped unpolled, keeps its place, and is told when the channel closes. A second
    close is refused and tells nobody, and then the channel is cancelled. -/
theorem attended_dropped_read : ∃ (t : List (Event Nat Nat)) (s : Vigil Nat Nat),
    Run Step (new .unbounded .cancel) t s ∧
      ((told t).map Telling.party = [0, 1] ∧ (told t).map Telling.woken = [some 8, none]) ∧
        (.closed .finished true [⟨1, .error Completion.finished.fault, true, none⟩] ∈ t ∧
          .closed (.failure .cancelled) false [] ∈ t) ∧ Attended .unbounded .cancel t s := by
  have h₀ : Run Step (new .unbounded .cancel : Vigil Nat Nat) [] _ := .nil
  have h₁ := h₀.snoc (.make (k := 0) (.read true) rfl)
  have h₂ := h₁.snoc (.begin (k := 0) rfl)
  have h₃ := h₂.snoc (.poll (k := 0) 7 rfl)
  have h₄ := h₃.snoc (.make (k := 1) (.read true) rfl)
  have h₅ := h₄.snoc (.begin (k := 1) rfl)
  have h₆ := h₅.snoc (.drop (k := 1) (.inr ⟨_, rfl⟩))
  have h₇ := h₆.snoc (.poll (k := 0) 8 rfl)
  have h₈ := h₇.snoc (.make (k := 2) (.write 5 true) rfl)
  have h₉ := h₈.snoc (.begin (k := 2) rfl)
  have h₁₀ := h₉.snoc (.close .finished)
  have h₁₁ := h₁₀.snoc (.close (.failure .cancelled))
  have h₁₂ := h₁₁.snoc (.cancel .cancelled)
  refine ⟨_, _, h₁₂, ⟨rfl, rfl⟩, ⟨?_, ?_⟩, attended h₁₂⟩
  · exact List.mem_append_left _ (List.mem_append_left _ (List.mem_append_right _ (.head _)))
  · exact List.mem_append_left _ (List.mem_append_right _ (.head _))

end ResumeOnce.Channel.Vigil

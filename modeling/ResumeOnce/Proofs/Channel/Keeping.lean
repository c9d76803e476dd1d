import ResumeOnce.Proofs.Channel.Vigil

/-!
# What is known of those in line

Whoever got in line is in line still or was told, once. While he is in line, his right
is unused and his slot holds the waker that his last poll has left, so that whoever takes
him out of the line wakes it. A call that waits and is not in line any more finds its
answer in its slot.

* `Vigil.Kept`, `Vigil.Kept.step`: the invariant, and that every step keeps it;
* `Vigil.Operates`: an operation is carried out in a step, whoever asks for it;
* `Vigil.Kept.tells`, `Vigil.Kept.polls`: whoever leaves the line was asleep there, and whoever
  looks into his slot finds his answer there unless he is in line.
-/

namespace ResumeOnce.Channel.Vigil

variable {ω : Type u} {α : Type v} {s s' : Vigil ω α} {ev : Event ω α} {t : List (Event ω α)}

@[simp]
theorem told_snoc (t : List (Event ω α)) (e : Event ω α) : told (t ++ [e]) = told t ++ e.told := by
  simp [told]

@[simp]
theorem joined_snoc (t : List (Event ω α)) (e : Event ω α) :
    joined (t ++ [e]) = joined t ++ e.joined := by
  simp [joined]

theorem lastWaker_snoc (t : List (Event ω α)) (e : Event ω α) (k : Nat) :
    lastWaker (t ++ [e]) k = (e.left k).or (lastWaker t k) := by
  cases hk : e.left k <;> simp [lastWaker, hk]

/-- A call that has not begun. -/
def Idle (s : Vigil ω α) (k : Nat) : Prop := s.stage k = .unmade ∨ ∃ call, s.stage k = .made call

/-- What is known of those who wait, and of what has happened. -/
structure Kept (t : List (Event ω α)) (s : Vigil ω α) : Prop where
  sound : s.channel.Sound
  idle : ∀ k, s.Idle k → k ∉ joined t ∧ lastWaker t k = none ∧ s.Asleep k none
  asleep : ∀ k ∈ s.channel.inLine, s.Asleep k (lastWaker t k)
  line : (s.channel.inLine ++ (told t).map Telling.party).Perm (joined t)
  nodup : (joined t).Nodup
  reader : ∀ k call, s.stage k = .waits call → k ∈ s.channel.waiting → call = .read true
  writer : ∀ k call, s.stage k = .waits call → k ∈ s.channel.waitingWriters →
    ∃ a, call = .write a true
  waits : ∀ k call, s.stage k = .waits call → k ∈ joined t ∧ (k ∈ s.channel.inLine ∨
    ∃ x ∈ told t, x.party = k ∧ s.slot k = ⟨some x.answer, false, none⟩)
  opened : s.channel.completion = none → ∀ e ∈ t, e.closes = false

theorem Kept.new (b : Buffering) (policy : LeakPolicy) :
    Kept [] (new b policy : Vigil ω α) where
  sound := (shows_new b).sound
  idle k _ := ⟨List.not_mem_nil, rfl, rfl, rfl⟩
  asleep k hk := by
    simp [Vigil.new, inLine, waitingWriters, (shows_new b).waiting, (shows_new b).queued] at hk
  line := by
    simp [Vigil.new, inLine, waitingWriters, (shows_new b).waiting, (shows_new b).queued, told,
      joined]
  nodup := List.nodup_nil
  reader k call hk := by cases hk
  writer k call hk := by cases hk
  waits k call hk := by cases hk
  opened _ e he := absurd he List.not_mem_nil

/-! ## Operations -/

/-- An operation is carried out in a step: some join the line, and those who leave it are told. -/
structure Operates (s : Vigil ω α) (e : Exchanged Nat α β) (s' : Vigil ω α) (ev : Event ω α) :
    Prop where
  sound : e.channel.Sound
  line : (e.channel.inLine ++ e.resolutions.map Resolution.party).Perm
    (s.channel.inLine ++ ev.joined)
  joins : ev.joined.Nodup
  fresh : ∀ k ∈ ev.joined, s.Idle k
  channel : s'.channel = e.channel
  slot : s'.slot = (s.exchange e).1.slot
  right : ∀ k, s'.Idle k ∨ k ∈ e.channel.inLine → s'.right k = (s.exchange e).1.right k
  idle : ∀ k, s'.Idle k → s.Idle k ∧ k ∉ ev.joined
  waits : ∀ k call, s'.stage k = .waits call → s.stage k = .waits call ∨ k ∈ ev.joined
  reader : ∀ k call, s'.stage k = .waits call → k ∈ e.channel.waiting →
    (s.stage k = .waits call ∧ k ∈ s.channel.waiting) ∨ call = .read true
  writer : ∀ k call, s'.stage k = .waits call → k ∈ e.channel.waitingWriters →
    (s.stage k = .waits call ∧ k ∈ s.channel.waitingWriters) ∨ ∃ a, call = .write a true
  opened : e.channel.completion = none → s.channel.completion = none ∧ ev.closes = false
  told : ev.told = (s.exchange e).2
  left : ∀ k, ev.left k = none

variable {e : Exchanged Nat α β}

/-- Nobody is in line twice, and whoever leaves the line was asleep there. -/
theorem Kept.tells (h : Kept t s) (ho : Operates s e s' ev) :
    (joined t ++ ev.joined).Nodup ∧
      (e.channel.inLine ++ e.resolutions.map Resolution.party).Nodup ∧
        Tells { s with channel := e.channel } e.resolutions (lastWaker t) (s.exchange e).1
          (s.exchange e).2 := by
  have hnew : ∀ k ∈ ev.joined, k ∉ joined t := fun k hk => (h.idle k (ho.fresh k hk)).1
  have hall := (List.nodup_append.2 ⟨h.nodup, ho.joins, fun k hk j hj hkj =>
    hnew j hj (hkj ▸ hk)⟩)
  have hline := h.line.nodup_iff.2 h.nodup
  have hsub : ∀ k ∈ s.channel.inLine, k ∈ joined t := fun k hk =>
    h.line.mem_iff.1 (List.mem_append_left _ hk)
  have hn : (e.channel.inLine ++ e.resolutions.map Resolution.party).Nodup :=
    ho.line.nodup_iff.2 (List.nodup_append.2 ⟨(List.nodup_append.1 hline).1, ho.joins,
      fun k hk j hj hkj => hnew j hj (hkj ▸ hsub k hk)⟩)
  refine ⟨hall, hn, Vigil.tells (List.nodup_append.1 hn).2.1 fun k hk => ?_⟩
  have hk := ho.line.mem_iff.1 (List.mem_append_right _ hk)
  have hs : s.Asleep k (lastWaker t k) := by
    rcases List.mem_append.1 hk with hk | hk
    · exact h.asleep k hk
    · obtain ⟨-, hw, hs⟩ := h.idle k (ho.fresh k hk)
      rwa [hw]
  exact ⟨hs.unused, hs.slot⟩

theorem Kept.operates (h : Kept t s) (ho : Operates s e s' ev) : Kept (t ++ [ev]) s' := by
  obtain ⟨hnodup, hline, ht⟩ := h.tells ho
  have hparties : ev.told.map Telling.party = e.resolutions.map Resolution.party := by
    rw [ho.told, ht.told, List.map_map]
    rfl
  have hlast : ∀ k, lastWaker (t ++ [ev]) k = lastWaker t k := fun k => by
    rw [lastWaker_snoc, ho.left, Option.none_or]
  -- Whoever was in line or joins it is in line still, or is told.
  have hmem : ∀ k, k ∈ e.channel.inLine ∨ k ∈ e.resolutions.map Resolution.party ↔
      k ∈ s.channel.inLine ∨ k ∈ ev.joined := fun k => by
    rw [← List.mem_append, ho.line.mem_iff, List.mem_append]
  have hsub : ∀ k ∈ s.channel.inLine, k ∈ joined t := fun k hk =>
    h.line.mem_iff.1 (List.mem_append_left _ hk)
  refine
    { sound := ho.channel ▸ ho.sound
      idle := fun k hk => ?_
      asleep := fun k hk => ?_
      line := ?_
      nodup := by rwa [joined_snoc]
      reader := fun k call hk hr => ?_
      writer := fun k call hk hr => ?_
      waits := fun k call hk => ?_
      opened := fun hx e' he' => ?_ }
  · obtain ⟨hi, hj⟩ := ho.idle k hk
    obtain ⟨hn, hw, hs⟩ := h.idle k hi
    have hp : k ∉ e.resolutions.map Resolution.party := fun hp =>
      ((hmem k).1 (.inr hp)).elim (fun hl => hn (hsub k hl)) hj
    obtain ⟨hr, hsl⟩ := ht.others k hp
    refine ⟨by simp [hn, hj], by rw [hlast, hw], ?_, ?_⟩
    · rw [ho.right k (.inl hk), hr]
      exact hs.unused
    · rw [ho.slot, hsl]
      exact hs.slot
  · rw [ho.channel] at hk
    have hp : k ∉ e.resolutions.map Resolution.party := fun hp =>
      (List.nodup_append.1 hline).2.2 k hk k hp rfl
    obtain ⟨hr, hsl⟩ := ht.others k hp
    have hs : s.Asleep k (lastWaker t k) := by
      rcases (hmem k).1 (.inl hk) with hk | hk
      · exact h.asleep k hk
      · obtain ⟨-, hw, hs⟩ := h.idle k (ho.fresh k hk)
        rwa [hw]
    rw [hlast]
    constructor
    · rw [ho.right k (.inr hk), hr]
      exact hs.unused
    · rw [ho.slot, hsl]
      exact hs.slot
  · rw [told_snoc, joined_snoc, List.map_append, hparties, ho.channel]
    have h₁ := ho.line
    have h₂ := h.line
    rw [List.perm_iff_count] at *
    intro k
    have h₁ := h₁ k
    have h₂ := h₂ k
    simp only [List.count_append] at *
    omega
  · rw [ho.channel] at hr
    rcases ho.reader k call hk hr with ⟨hk, hr⟩ | hr
    · exact h.reader k call hk hr
    · exact hr
  · rw [ho.channel] at hr
    rcases ho.writer k call hk hr with ⟨hk, hr⟩ | hr
    · exact h.writer k call hk hr
    · exact hr
  · rw [joined_snoc, told_snoc, ho.channel, ho.slot]
    by_cases hp : k ∈ e.resolutions.map Resolution.party
    · -- It is told just now.
      obtain ⟨r, hr, rfl⟩ := List.mem_map.1 hp
      refine ⟨?_, .inr ⟨⟨r.party, r.answer, true, lastWaker t r.party⟩, ?_, rfl, ht.answered r hr⟩⟩
      · exact List.mem_append.2 (((hmem _).1 (.inr hp)).imp_left (hsub _))
      · rw [ho.told, ht.told]
        exact List.mem_append_right _ (List.mem_map.2 ⟨r, hr, rfl⟩)
    · rw [(ht.others k hp).2]
      rcases ho.waits k call hk with hk | hk
      · obtain ⟨hj, hl⟩ := h.waits k call hk
        refine ⟨List.mem_append_left _ hj, hl.imp (fun hl => ?_) ?_⟩
        · exact ((hmem k).2 (.inl hl)).resolve_right hp
        · exact fun ⟨x, hx, hxk⟩ => ⟨x, List.mem_append_left _ hx, hxk⟩
      · exact ⟨List.mem_append_right _ hk, .inl (((hmem k).2 (.inr hk)).resolve_right hp)⟩
  · rw [ho.channel] at hx
    obtain ⟨hx, hc⟩ := ho.opened hx
    rcases List.mem_append.1 he' with he' | he'
    · exact h.opened hx e' he'
    · rwa [List.mem_singleton.1 he']

/-! ## Steps -/

@[simp]
theorem stage_move (s : Vigil ω α) (k : Nat) (g : Stage α) (j : Nat) :
    (s.move k g).stage j = if j = k then g else s.stage j := by
  simp [move, Function.update_apply]

theorem begin_channel (s : Vigil ω α) (k : Nat) (call : Call α) :
    (s.begin k call).1.channel = (s.channel.attempt k call).channel := by
  simp only [begin]
  split <;> exact exchange_channel _ _

theorem begin_slot (s : Vigil ω α) (k : Nat) (call : Call α) :
    (s.begin k call).1.slot = (s.exchange (s.channel.attempt k call)).1.slot := by
  simp only [begin]
  split <;> rfl

theorem begin_stage (s : Vigil ω α) (k : Nat) (call : Call α) (j : Nat) :
    (s.begin k call).1.stage j = if j = k then
      (if (s.channel.attempt k call).result.isNone then .waits call else .over)
      else s.stage j := by
  simp only [begin]
  split <;> rename_i he <;> simp [he, retire]

/-- The right of a call that is settled at once is used up. -/
theorem begin_right {k j : Nat} {call : Call α}
    (hj : j ≠ k ∨ (s.channel.attempt k call).result.isNone) :
    (s.begin k call).1.right j = (s.exchange (s.channel.attempt k call)).1.right j := by
  simp only [begin]
  split <;> rename_i he
  · rfl
  · rw [he] at hj
    simp [move, retire, hj.resolve_right (by simp)]

theorem Kept.not_inLine (h : Kept t s) {k : Nat} (hk : s.Idle k) : k ∉ s.channel.inLine :=
  fun hl => (h.idle k hk).1 (h.line.mem_iff.1 (List.mem_append_left _ hl))

/-- A call begins by asking the channel, and joins the line if it is not settled. -/
theorem Kept.begins (h : Kept t s) {k : Nat} {call : Call α} (hk : s.stage k = .made call) :
    Operates s (s.channel.attempt k call) (s.begin k call).1 (s.begin k call).2 := by
  have ha := h.sound.attempting k call
  have hi : s.Idle k := .inr ⟨call, hk⟩
  have hn := h.not_inLine hi
  have hjoined : (s.begin k call).2.joined =
      if (s.channel.attempt k call).result.isNone then [k] else [] := by
    cases he : (s.channel.attempt k call).result <;> simp [begin, he, Event.joined]
  have hline := ha.line
  rw [← hjoined] at hline
  have hself : ∀ j ∈ (s.begin k call).2.joined, j = k := fun j hj => by
    rw [hjoined] at hj
    split at hj <;> simp_all
  -- Others are at the stage at which they were.
  have hwaits : ∀ j call', (s.begin k call).1.stage j = .waits call' →
      (j = k ∧ call' = call ∧ j ∈ (s.begin k call).2.joined) ∨
        (j ≠ k ∧ s.stage j = .waits call') := fun j call' hj => by
    rw [begin_stage] at hj
    rw [hjoined]
    split at hj <;> grind
  have hidle : ∀ j, (s.begin k call).1.Idle j → j ≠ k ∧ s.Idle j := fun j hj => by
    rw [Idle, begin_stage] at hj
    rw [Idle]
    split at hj <;> grind
  exact {
    sound := ha.sound
    line := hline
    joins := by rw [hjoined]; split <;> simp
    fresh := fun j hj => hself j hj ▸ hi
    channel := begin_channel s k call
    slot := begin_slot s k call
    right := fun j hj => by
      refine begin_right (or_iff_not_imp_right.2 fun hr => ?_)
      rintro rfl
      rcases hj with hj | hj
      · exact (hidle j hj).1 rfl
      · have := hline.mem_iff.1 (List.mem_append_left _ hj)
        simp [hjoined, hr, hn] at this
    idle := fun j hj => ⟨(hidle j hj).2, fun hj' => (hidle j hj).1 (hself j hj')⟩
    waits := fun j call' hj => (hwaits j call' hj).elim (.inr ·.2.2) (.inl ·.2)
    reader := fun j call' hj hr => by
      rcases hwaits j call' hj with ⟨rfl, rfl, -⟩ | ⟨hjk, hj⟩
      · exact .inr ((ha.readers j hr).elim
          (fun hw => absurd (List.mem_append_left _ hw) hn) And.right)
      · exact .inl ⟨hj, (ha.readers j hr).resolve_right (hjk ·.1)⟩
    writer := fun j call' hj hr => by
      rcases hwaits j call' hj with ⟨rfl, rfl, -⟩ | ⟨hjk, hj⟩
      · exact .inr ((ha.writers j hr).elim
          (fun hw => absurd (List.mem_append_right _ hw) hn) And.right)
      · exact .inl ⟨hj, (ha.writers j hr).resolve_right (hjk ·.1)⟩
    opened := fun hx => ⟨ha.completion ▸ hx, rfl⟩
    told := rfl
    left := fun _ => rfl }

/-- An operation of nobody's call leaves every call at its stage. -/
theorem Operates.ofEnd {e : Exchanged Nat α β} (hs : e.channel.Sound)
    (hl : (e.channel.inLine ++ e.resolutions.map Resolution.party).Perm s.channel.inLine)
    (hr : ∀ k ∈ e.channel.waiting, k ∈ s.channel.waiting)
    (hw : ∀ k ∈ e.channel.waitingWriters, k ∈ s.channel.waitingWriters)
    (hx : e.channel.completion = none → s.channel.completion = none ∧ ev.closes = false)
    (ht : ev.told = (s.exchange e).2) (hj : ev.joined = []) (hv : ∀ k, ev.left k = none) :
    Operates s e (s.exchange e).1 ev where
  sound := hs
  line := by rwa [hj, List.append_nil]
  joins := hj ▸ List.nodup_nil
  fresh := fun k hk => by simp [hj] at hk
  channel := exchange_channel s e
  slot := rfl
  right := fun _ _ => rfl
  idle := fun k hk => ⟨by simpa [Idle] using hk, by simp [hj]⟩
  waits := fun k call hk => .inl (by simpa using hk)
  reader := fun k call hk hr' => .inl ⟨by simpa using hk, hr k hr'⟩
  writer := fun k call hk hw' => .inl ⟨by simpa using hk, hw k hw'⟩
  opened := hx
  told := ht
  left := hv

theorem map_party_readers (rs : List Nat) (o : Outcome α) :
    (rs.map fun r => Resolution.reader r o).map Resolution.party = rs := by
  rw [List.map_map]
  exact List.map_id' rs

theorem map_party_writers (ws : List (Writer Nat α)) (o : Outcome Unit) :
    (ws.flatMap fun w => w.resumption.toList.map fun r =>
      (Resolution.writer r o : Resolution Nat α)).map Resolution.party =
        ws.filterMap Writer.resumption := by
  induction ws with
  | nil => rfl
  | cons w ws ih =>
    obtain ⟨_ | r, v⟩ := w
    · simpa using ih
    · simpa [Resolution.party] using ih

theorem Kept.closes (h : Kept t s) (c : Completion) : Operates s (s.channel.close c)
    (s.exchange (s.channel.close c)).1
    (.closed c (s.channel.close c).result (s.exchange (s.channel.close c)).2) := by
  cases h.sound.closing c with
  | closed hx he =>
    rw [he]
    exact Operates.ofEnd h.sound (by simp) (fun _ => id) (fun _ => id) (fun hx' => ⟨hx', rfl⟩)
      rfl rfl fun _ => rfl
  | closes c' ho hs he =>
    rw [he]
    refine Operates.ofEnd hs.sound ?_ (by simp [hs.waiting]) (fun k hk => ?_)
      (by simp [hs.completion]) rfl rfl fun _ => rfl
    · rw [map_party_readers]
      simpa [inLine, waitingWriters, hs.waiting, hs.queued] using List.perm_append_comm
    · rwa [waitingWriters, hs.queued] at hk

theorem Kept.cancels (h : Kept t s) (f : Fault) : Operates s (s.channel.cancel f)
    (s.exchange (s.channel.cancel f)).1
    (.cancelled f (s.channel.cancel f).result (s.exchange (s.channel.cancel f)).2) := by
  obtain ⟨c', hs, he⟩ := h.sound.cancel f
  rw [he]
  refine Operates.ofEnd hs.sound ?_ (by simp [hs.waiting]) (by simp [waitingWriters, hs.queued])
    (by simp [hs.completion]) rfl rfl fun _ => rfl
  rw [List.map_append, map_party_readers, map_party_writers]
  simp [inLine, waitingWriters, hs.waiting, hs.queued]

/-! ## Polls -/

/-- A call that waits finds its answer or leaves its waker. -/
theorem Kept.polls (h : Kept t s) {k : Nat} {call : Call α} (hk : s.stage k = .waits call) (w : ω) :
    (k ∈ s.channel.inLine ∧ (s.slot k).poll w = (⟨none, false, some w⟩, none, .pending)) ∨
      (k ∉ s.channel.inLine ∧ ∃ x ∈ told t, x.party = k ∧
        (s.slot k).poll w = (⟨none, true, none⟩, none, .ready x.answer)) := by
  by_cases hl : k ∈ s.channel.inLine
  · exact .inl ⟨hl, by simp [(h.asleep k hl).slot, Slot.poll]⟩
  · obtain ⟨x, hx, hxk, hs⟩ := (h.waits k call hk).2.resolve_left hl
    exact .inr ⟨hl, x, hx, hxk, by simp [hs, Slot.poll]⟩

/-- What a step leaves alone that has nothing to do with the channel. -/
theorem Kept.aside (h : Kept t s) (hc : s'.channel = s.channel) (hr : s'.right = s.right)
    (hi : ∀ k, s'.Idle k → s.Idle k ∧ s'.slot k = s.slot k ∧ ev.left k = none)
    (hl : ∀ k ∈ s.channel.inLine, (s'.slot k) = ⟨none, false, (ev.left k).or (lastWaker t k)⟩)
    (hw : ∀ k call, s'.stage k = .waits call → s.stage k = .waits call ∧
      (k ∉ s.channel.inLine → s'.slot k = s.slot k))
    (ht : ev.told = []) (hj : ev.joined = []) (hx : ev.closes = false) : Kept (t ++ [ev]) s' where
  sound := hc ▸ h.sound
  idle k hk := by
    obtain ⟨hi, hs, hv⟩ := hi k hk
    obtain ⟨hn, hw, ha⟩ := h.idle k hi
    refine ⟨by simpa [hj] using hn, by rw [lastWaker_snoc, hv, hw]; rfl, ?_, ?_⟩
    · rw [hr]
      exact ha.unused
    · rw [hs]
      exact ha.slot
  asleep k hk := by
    rw [hc] at hk
    exact ⟨hr ▸ (h.asleep k hk).unused, lastWaker_snoc t ev k ▸ hl k hk⟩
  line := by simpa [hc, ht, hj] using h.line
  nodup := by simpa [hj] using h.nodup
  reader k call hk hk' := h.reader k call (hw k call hk).1 (hc ▸ hk')
  writer k call hk hk' := h.writer k call (hw k call hk).1 (hc ▸ hk')
  waits k call hk := by
    obtain ⟨hk, hs⟩ := hw k call hk
    rw [joined_snoc, told_snoc, hj, ht, List.append_nil, List.append_nil, hc]
    obtain ⟨hn, hx⟩ := h.waits k call hk
    refine ⟨hn, ?_⟩
    by_cases hk' : k ∈ s.channel.inLine
    · exact .inl hk'
    · rw [hs hk']
      exact hx
  opened hx' e he := by
    rcases List.mem_append.1 he with he | he
    · exact h.opened (hc ▸ hx') e he
    · rwa [List.mem_singleton.1 he]

/-- A call moves that has not begun, or that nobody polls any more. -/
theorem Kept.moves (h : Kept t s) {k : Nat} {g : Stage α} (hg : ∀ call, g ≠ .waits call)
    (hi : (s.move k g).Idle k → s.Idle k) (hv : ∀ j, ev.left j = none) (ht : ev.told = [])
    (hj : ev.joined = []) (hx : ev.closes = false) : Kept (t ++ [ev]) (s.move k g) := by
  refine h.aside rfl rfl (fun j hj => ⟨?_, rfl, hv j⟩) (fun j hj => ?_) (fun j call hj => ?_)
    ht hj hx
  · by_cases hjk : j = k
    · subst hjk
      exact hi hj
    · simpa [Idle, hjk] using hj
  · rw [hv, Option.none_or]
    exact (h.asleep j hj).slot
  · rw [stage_move] at hj
    split at hj
    · exact absurd hj (hg call)
    · exact ⟨hj, fun _ => rfl⟩

theorem Kept.poll (h : Kept t s) {k : Nat} {call : Call α} (hk : s.stage k = .waits call) (w : ω) :
    Kept (t ++ [(s.poll k w).2]) (s.poll k w).1 := by
  rcases h.polls hk w with ⟨hl, hp⟩ | ⟨hl, x, -, -, hp⟩
  · have he : s.poll k w = ({ s with slot := Function.update s.slot k ⟨none, false, some w⟩ },
        .polled k w none none) := by
      simp only [Vigil.poll, hp]
    rw [he]
    refine h.aside rfl rfl (fun j hj => ⟨hj, ?_⟩) (fun j hj => ?_) (fun j call' hj => ⟨hj, ?_⟩)
      rfl rfl rfl
    · have hjk : j ≠ k := by
        rintro rfl
        simp [Idle, hk] at hj
      simp [hjk, hjk.symm, Event.left]
    · by_cases hjk : j = k
      · simp [hjk, Event.left]
      · simpa [hjk, Ne.symm hjk, Event.left] using (h.asleep j hj).slot
    · rintro hn
      have hjk : j ≠ k := fun hjk => hn (hjk ▸ hl)
      simp [hjk]
  · have he : s.poll k w =
        ({ s with slot := Function.update s.slot k ⟨none, true, none⟩ }.move k .over,
          .polled k w none (some x.answer)) := by
      simp only [Vigil.poll, hp]
    rw [he]
    refine h.aside rfl rfl (fun j hj => ?_) (fun j hj => ?_) (fun j call' hj => ?_) rfl rfl rfl
    · have hjk : j ≠ k := by
        rintro rfl
        simp [Idle] at hj
      exact ⟨by simpa [Idle, hjk] using hj, by simp [move, hjk], rfl⟩
    · have hjk : j ≠ k := fun hjk => hl (hjk ▸ hj)
      simpa [move, hjk, Event.left] using (h.asleep j hj).slot
    · by_cases hjk : j = k
      · simp [hjk] at hj
      · exact ⟨by simpa [hjk] using hj, fun _ => by simp [move, hjk]⟩

theorem Kept.step (h : Kept t s) (he : Step s ev s') : Kept (t ++ [ev]) s' := by
  cases he with
  | make call hk => exact h.moves (by simp) (fun _ => .inl hk) (fun _ => rfl) rfl rfl rfl
  | begin hk => exact h.operates (h.begins hk)
  | poll w hk => exact h.poll hk w
  | drop hk =>
    exact h.moves (by simp) (fun hi => by simp [Idle] at hi) (fun _ => rfl) rfl rfl rfl
  | close c => exact h.operates (h.closes c)
  | cancel f => exact h.operates (h.cancels f)

theorem kept_run {b : Buffering} {policy : LeakPolicy} (h : Run Step (new b policy) t s) :
    Kept t s :=
  h.invariant (Kept.new b policy) Kept.step

end ResumeOnce.Channel.Vigil

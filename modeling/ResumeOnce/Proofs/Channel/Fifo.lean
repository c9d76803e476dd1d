import ResumeOnce.Proofs.Channel.Ledger

/-!
# First in, first out

A channel hands its values over in the order in which it accepted them, to the reads
in their order, and it keeps every value until it hands it over or gives it back.
This holds for every use of a channel, whoever waits, and whoever stops waiting.

* `Fifo`, `fifo`: what a run has done with the values, and whom it has answered;
* `Received`, `Resolved`, `Pending`: what the calls are told;
* `Kept`, `Kept.step`: the invariant behind it, the ledger with what the calls are told.
-/

namespace ResumeOnce.Channel

variable {α : Type u} {t : List (Event α)} {e : Event α} {s s' : Traffic α}
  {hs rs qs : List (Option Nat × α)} {us : List Nat}

/-- What a channel has done with its values, first in, first out. -/
structure Fifo (t : List (Event α)) (s : Traffic α) : Prop where
  /-- What was accepted is what was handed over, what was given back, and what is queued. -/
  conserved : (accepted t).map Prod.snd =
    (handovers t).map Prod.fst ++ (returned t).map Prod.fst ++ s.channel.values
  /-- The values went to the reads in their order, the first to the first. -/
  matched : (handovers t).map Prod.snd <+: reads t
  in_order : ∀ (i : Nat) a k, (handovers t)[i]? = some (a, k) →
    (accepted t)[i]?.map Prod.snd = some a ∧ (reads t)[i]? = some k
  /-- No read stands twice among the reads, and no writer among those who wait. -/
  reads_nodup : (reads t).Nodup
  writers_nodup : ((accepted t).filterMap Prod.fst).Nodup
  /-- A read is answered with a value exactly when the value was handed to it. -/
  received : ∀ k a, s.answered k = some (.read (.ok a)) ↔ (a, k) ∈ handovers t
  /-- A write that waits succeeds exactly when its value was handed over. -/
  passed : ∀ (i : Nat) k a, (accepted t)[i]? = some (some k, a) →
    (s.answered k = some (.wrote (.ok ())) ↔ i < (handovers t).length)
  /-- It fails exactly when its value was given back, with the fault of the cancellation. -/
  failed : ∀ (i : Nat) k a, (accepted t)[i]? = some (some k, a) → ∀ f,
    (s.answered k = some (.wrote (.error f)) ↔
      ∃ j, i = (handovers t).length + j ∧ (returned t)[j]? = some (a, f))
  /-- A write that is refused gives back the value that it was given. -/
  refused : ∀ k waits a r rs, Event.wrote k waits a (.refused r) rs ∈ t → r.value = a
  /-- What a poll was told is the answer. -/
  told : ∀ k r, Event.polled k (some r) ∈ t → s.answered k = some r

/-! ## What the calls are told -/

variable {A A' : Nat → Option (Answer α)} {ws : List Nat} {hands : List (α × Nat)}
  {backs : List (α × Fault)} {k : Nat}

/-- Among the answers, a read has a value exactly when it was handed the value, and those who
    wait have none. -/
structure Received (A : Nat → Option (Answer α)) (ws : List Nat) (hands : List (α × Nat)) :
    Prop where
  received : ∀ k a, A k = some (.read (.ok a)) ↔ (a, k) ∈ hands
  waiting : ∀ k ∈ ws, A k = none

/-- Among the answers, a write succeeds whose value was handed over, and fails whose value was
    given back. -/
structure Resolved (A : Nat → Option (Answer α)) (hs rs : List (Option Nat × α))
    (backs : List (α × Fault)) : Prop where
  handed : ∀ w ∈ hs, ∀ k, w.1 = some k → A k = some (.wrote (.ok ()))
  returned : ∀ p ∈ rs.zip backs, ∀ k, p.1.1 = some k → A k = some (.wrote (.error p.2.2))

/-- Among the answers, a writer in the queue has none. -/
def Pending (A : Nat → Option (Answer α)) (qs : List (Option Nat × α)) : Prop :=
  ∀ w ∈ qs, ∀ k, w.1 = some k → A k = none

open Traffic (settle settle_kept settle_of_not settle_of_none)

namespace Received

/-- A call that is new is told something else than a value. -/
theorem begin (h : Received A ws hands) (hk : k ∉ hands.map Prod.snd) (hw : k ∉ ws)
    {r : Option (Answer α)} (hr : ∀ a, r ≠ some (.read (.ok a))) :
    Received (Function.update A k r) ws hands where
  received j a := by
    by_cases hj : j = k
    · subst hj
      rw [Function.update_self]
      exact ⟨fun he => absurd he (hr a), fun he => absurd (List.mem_map_of_mem he) hk⟩
    · rw [Function.update_of_ne hj]
      exact h.received j a
  waiting j hj := by
    rw [Function.update_of_ne (ne_of_mem_of_not_mem hj hw)]
    exact h.waiting j hj

theorem park (h : Received A ws hands) (hk : A k = none) : Received A (ws ++ [k]) hands where
  received := h.received
  waiting j hj := by
    rcases List.mem_append.1 hj with hj | hj
    · exact h.waiting j hj
    · rw [List.mem_singleton.1 hj, hk]

/-- A call that is new takes a value. -/
theorem take (h : Received A ws hands) (hk : k ∉ hands.map Prod.snd) (hw : k ∉ ws) (a : α) :
    Received (Function.update A k (some (.read (.ok a)))) ws (hands ++ [(a, k)]) where
  received j b := by
    by_cases hj : j = k
    · subst hj
      -- The call is new, so it was handed nothing before.
      have hn : (b, j) ∉ hands := by
        intro he
        exact hk (List.mem_map_of_mem he)
      simp [hn, eq_comm]
    · rw [Function.update_of_ne hj, h.received j b]
      simp [hj]
  waiting j hj := by
    rw [Function.update_of_ne (ne_of_mem_of_not_mem hj hw)]
    exact h.waiting j hj

/-- Who waits first is handed a value. -/
theorem meet (h : Received A (k :: ws) hands) (hk : k ∉ ws) (a : α) :
    Received (settle A (k = ·) (.read (.ok a))) ws (hands ++ [(a, k)]) where
  received j b := by
    -- Who waits has no answer yet, so the value becomes the answer.
    have hn : A k = none := h.waiting k List.mem_cons_self
    by_cases hj : k = j
    · subst hj
      have hb : (b, k) ∉ hands := by
        intro he
        simp [(h.received k b).2 he] at hn
      rw [settle_of_none rfl hn]
      simp [hb, eq_comm]
    · rw [settle_of_not hj, h.received j b]
      simp [Ne.symm hj]
  waiting j hj := by
    rw [settle_of_not (ne_of_mem_of_not_mem hj hk).symm]
    exact h.waiting j (List.mem_cons_of_mem _ hj)

/-- Some calls that do not wait any more are told something else than a value. -/
theorem settle {called : Nat → Prop} [DecidablePred called] {r : Answer α}
    (h : Received A ws hands) (hr : ∀ a, r ≠ .read (.ok a)) :
    Received (settle A called r) [] hands where
  received j a := by
    rw [← h.received j a, Traffic.settle]
    split
    · rcases A j with _ | r'
      · simpa using hr a
      · simp
    · rfl
  waiting j hj := absurd hj List.not_mem_nil

end Received

namespace Resolved

/-- What writers were told stays. -/
theorem kept (h : Resolved A hs rs backs)
    (hk : ∀ w ∈ hs ++ rs, ∀ k, w.1 = some k → ∀ r, A k = some r → A' k = some r) :
    Resolved A' hs rs backs where
  handed w hw k hwk := hk w (List.mem_append_left _ hw) k hwk _ (h.handed w hw k hwk)
  returned p hp k hpk :=
    hk p.1 (List.mem_append_right _ (List.of_mem_zip hp).1) k hpk _ (h.returned p hp k hpk)

/-- The value of a writer is handed over. -/
theorem hand (h : Resolved A hs rs backs) {w : Option Nat × α}
    (hw : ∀ k, w.1 = some k → A k = some (.wrote (.ok ()))) : Resolved A (hs ++ [w]) rs backs where
  handed v hv := by
    rcases List.mem_append.1 hv with hv | hv
    · exact h.handed v hv
    · exact List.mem_singleton.1 hv ▸ hw
  returned := h.returned

/-- The values of writers are given back. -/
theorem giveBack (h : Resolved A hs rs backs) (hl : rs.length = backs.length) {f : Fault}
    (hq : ∀ w ∈ qs, ∀ k, w.1 = some k → A k = some (.wrote (.error f))) :
    Resolved A hs (rs ++ qs) (backs ++ qs.map fun w => (w.2, f)) where
  handed := h.handed
  returned p hp := by
    have hz : qs.zip (qs.map fun w => (w.2, f)) = qs.map fun w => (w, w.2, f) := by
      simpa using List.zip_map' (f := id) (l := qs)
    rw [List.zip_append hl, List.mem_append, hz] at hp
    rcases hp with hp | hp
    · exact h.returned p hp
    · obtain ⟨w, hw, rfl⟩ := List.mem_map.1 hp
      exact hq w hw

end Resolved

/-- A call that is new may be told anything. -/
theorem Pending.begin (h : Pending A qs) (hk : ∀ w ∈ qs, w.1 ≠ some k) (r : Option (Answer α)) :
    Pending (Function.update A k r) qs := by
  intro w hw j hj
  have hne : j ≠ k := by
    rintro rfl
    exact hk w hw hj
  rw [Function.update_of_ne hne]
  exact h w hw j hj

/-! ## The invariant -/

/-- The values are where the ledger says, and the calls were told so. -/
structure Kept (t : List (Event α)) (s : Traffic α) (hs rs qs : List (Option Nat × α))
    (us : List Nat) : Prop where
  named : Named t s
  ledger : Ledger t s hs rs qs us
  received : Received s.answered s.channel.waiting (handovers t)
  resolved : Resolved s.answered hs rs (returned t)
  pending : Pending s.answered qs

namespace Kept

variable (h : Kept t s hs rs qs us)
include h

theorem not_handed (hk : s.begun k = none) : k ∉ (handovers t).map Prod.snd := by
  have hr := h.named.reads_new hk
  rw [h.ledger.reads] at hr
  exact fun hm => hr (List.mem_append_left _ hm)

theorem not_waiting (hk : s.begun k = none) : k ∉ s.channel.waiting :=
  fun hw => h.named.reads_new hk (h.ledger.waiting_read hw)

theorem waiting_nodup : s.channel.waiting.Nodup := by
  rcases hc : s.channel.completion with _ | x
  · have hr := h.named.reads_nodup
    rw [h.ledger.reads, (h.ledger.waiting hc).1] at hr
    exact (List.nodup_append.1 hr).2.1
  · rw [h.ledger.sound.closed (by simp [hc])]
    exact List.nodup_nil

theorem writer_begun {w : Option Nat × α} (hw : w ∈ hs ++ rs ++ qs) (hk : w.1 = some k) :
    s.begun k = some (.write w.2 true) := by
  refine h.named.writers_begun k w.2 ?_
  rw [h.ledger.accepted, ← hk]
  exact hw

theorem writer_ne {w : Option Nat × α} (hw : w ∈ hs ++ rs ++ qs) (hk : s.begun k = none) :
    w.1 ≠ some k := by
  intro hwk
  have hb := h.writer_begun hw hwk
  simp [hk] at hb

theorem resolved_kept (hm : Traffic.Move s e s') :
    Resolved s'.answered hs rs (Channel.returned t) := by
  refine h.resolved.kept fun w hw j hj r hr => hm.answer_kept ?_ hr
  rw [h.writer_begun (List.mem_append_left _ hw) hj]
  simp

/-- A writer in the queue is no read that waits. -/
theorem pending_readers {r : Answer α} :
    Pending (settle s.answered (· ∈ s.channel.waiting) r) qs := by
  intro w hw j hj
  have hb := h.writer_begun (List.mem_append_right _ hw) hj
  have hn : j ∉ s.channel.waiting := by
    intro hm
    obtain ⟨waits, hb'⟩ := h.named.reads_begun j (h.ledger.waiting_read hm)
    simp [hb] at hb'
  rw [settle_of_not hn]
  exact h.pending w hw j hj

omit h in
/-- When a writer is answered, the writers behind it are not. -/
theorem pending_rest {w : Option Nat × α} (h : Kept t s hs rs (w :: qs) us) {r : Answer α} :
    Pending (settle s.answered (w.1 = some ·) r) qs := by
  intro v hv j hj
  have hn : w.1 ≠ some j := by
    intro hw
    -- Otherwise the writer would stand twice among those who were accepted.
    have hd := h.named.writers_nodup
    rw [h.ledger.accepted, List.filterMap_append, List.filterMap_cons_some hw] at hd
    exact (List.nodup_cons.1 (List.nodup_append.1 hd).2.1).1 (List.mem_filterMap.2 ⟨v, hv, hj⟩)
  rw [settle_of_not hn]
  exact h.pending v (List.mem_cons_of_mem _ hv) j hj

end Kept

/-- One step keeps the invariant. -/
theorem Kept.step (h : Kept t s hs rs qs us) (he : Traffic.Step s e s') :
    ∃ hs' rs' qs' us', Kept (t ++ [e]) s' hs' rs' qs' us' := by
  have hm := he.move h.ledger.sound
  have hn := h.named.step he
  have hr := h.resolved_kept hm
  cases hm with
  | quiet hc ha hsil =>
    refine ⟨hs, rs, qs, us, hn, h.ledger.still hc hsil, ?_, ?_, ?_⟩
    · simpa [hc, ha, hsil.handovers] using h.received
    · simpa [hsil.returned] using hr
    · rw [ha]
      exact h.pending
  | failed k r hk hc ha hf hsil =>
    refine ⟨hs, rs, qs, us, hn, h.ledger.still hc hsil, ?_, ?_, ?_⟩
    · rw [hc, ha, handovers_snoc, hsil.handovers, List.append_nil]
      refine h.received.begin (h.not_handed hk) (h.not_waiting hk) ?_
      intro a hr
      cases hr
      obtain ⟨f, hf⟩ := hf
      cases hf
    · simpa [hsil.returned] using hr
    · rw [ha]
      exact h.pending.begin (fun w hw => h.writer_ne (List.mem_append_right _ hw) hk) _
  | took k p a ws hk hq hw hs' ha =>
    -- The oldest writer of the channel is the first one that the ledger has in the queue.
    obtain ⟨⟨p', a'⟩, qs, rfl, hwe, rfl⟩ := List.map_eq_cons_iff.1 (h.ledger.queued.symm.trans hq)
    obtain ⟨rfl, rfl⟩ : p' = p ∧ a' = a := by simpa [entry] using hwe
    refine ⟨hs ++ [(p', a')], rs, qs, us, hn, h.ledger.took hs', ?_, ?_, ?_⟩
    · rw [ha, hs'.waiting, handovers_snoc]
      exact (h.received.settle (by simp)).take (h.not_handed hk) List.not_mem_nil a'
    · simp only [returned_snoc, Event.returned, List.append_nil]
      refine hr.hand ?_
      intro j hj
      have hne : j ≠ k := by
        rintro rfl
        exact h.writer_ne (w := (p', a')) (by simp) hk hj
      rw [ha, Function.update_of_ne hne, settle_of_none hj (h.pending _ List.mem_cons_self j hj)]
    · rw [ha]
      refine h.pending_rest.begin (fun w hw => h.writer_ne ?_ hk) _
      exact List.mem_append_right _ (List.mem_cons_of_mem _ hw)
  | parked k hk ho hq hs' ha =>
    refine ⟨hs, rs, [], us ++ [k], hn, h.ledger.parked ho hq hs', ?_, ?_, ?_⟩
    · rw [ha, hs'.waiting]
      simp only [handovers_snoc, Event.handovers, List.append_nil]
      exact (h.received.begin (h.not_handed hk) (h.not_waiting hk) (by simp)).park (by simp)
    · simpa [Event.returned] using hr
    · exact fun w hw => absurd hw List.not_mem_nil
  | met k waits a r vs hk ho hw hq hs' ha =>
    refine ⟨hs ++ [(writer waits k, a)], [], [], vs, hn, h.ledger.met ho hw hq hs', ?_, ?_, ?_⟩
    · -- The write has just begun, so it is not the read that it meets, nor one behind it.
      have hkr : k ∉ s.channel.waiting := h.not_waiting hk
      have hnd := h.waiting_nodup
      rw [hw, List.mem_cons, not_or] at hkr
      rw [hw, List.nodup_cons] at hnd
      rw [ha, hs'.waiting, handovers_snoc]
      refine ((hw ▸ h.received).meet hnd.1 a).begin ?_ hkr.2 (by simp)
      simpa [hkr.1] using h.not_handed hk
    · obtain rfl : rs = [] := (h.ledger.waiting ho).2
      simp only [returned_snoc, Event.returned, List.append_nil]
      refine hr.hand ?_
      intro j hj
      cases waits <;> cases hj
      rw [ha, Function.update_self]
    · exact fun w hw => absurd hw List.not_mem_nil
  | stored k waits a hk ho hw hs' ha =>
    refine ⟨hs, [], qs ++ [(writer waits k, a)], [], hn, h.ledger.stored ho hw hs', ?_, ?_, ?_⟩
    · rw [ha, hs'.waiting]
      simp only [handovers_snoc, Event.handovers, List.filterMap_nil, List.append_nil]
      refine (hw ▸ h.received).begin (h.not_handed hk) List.not_mem_nil ?_
      intro b
      cases waits <;> simp
    · obtain rfl : rs = [] := (h.ledger.waiting ho).2
      simpa [Event.returned] using hr
    · rw [ha]
      intro w hw j hj
      rcases List.mem_append.1 hw with hw | hw
      · refine h.pending.begin (fun v hv => h.writer_ne ?_ hk) _ w hw j hj
        exact List.mem_append_right _ hv
      · obtain rfl := List.mem_singleton.1 hw
        cases waits <;> cases hj
        exact Function.update_self ..
  | ended x ho hs' ha =>
    refine ⟨hs, rs, qs, us, hn, h.ledger.ended hs', ?_, ?_, ?_⟩
    · rw [ha, hs'.waiting]
      simp only [handovers_snoc, Event.handovers, List.append_nil]
      exact h.received.settle (by simp)
    · simpa [Event.returned] using hr
    · rw [ha]
      exact h.pending_readers
  | emptied f hs' ha =>
    refine ⟨hs, rs ++ qs, [], us, hn, h.ledger.emptied hs', ?_, ?_, ?_⟩
    · rw [ha, hs'.waiting]
      simp only [handovers_snoc, Event.handovers, List.append_nil]
      exact (h.received.settle (by simp)).settle (by simp)
    · -- The writers in the queue have no answer yet, and are told the fault.
      have hl : rs.length = (Channel.returned t).length := by
        simpa using congrArg List.length h.ledger.returned
      simp only [returned_snoc, Event.returned, h.ledger.values, List.map_map]
      refine hr.giveBack hl ?_
      intro w hw j hj
      rw [ha, settle_of_none _ (h.pending_readers w hw j hj)]
      rw [h.ledger.queued, List.map_map]
      exact List.mem_map.2 ⟨w, hw, hj⟩
    · exact fun w hw => absurd hw List.not_mem_nil

/-- Nothing has happened on a new channel. -/
theorem kept_new (b : Buffering) : Kept ([] : List (Event α)) (.new b) [] [] [] [] where
  named := ⟨List.nodup_nil, by simp [reads], List.nodup_nil, by simp [accepted]⟩
  ledger :=
    { sound := (shows_new b).sound
      accepted := rfl
      handed := rfl
      returned := rfl
      queued := (shows_new b).queued
      reads := rfl
      waiting := fun _ => ⟨(shows_new b).waiting.symm, rfl⟩
      apart := .inl rfl
      after := .inl rfl }
  received := ⟨by simp [Traffic.new, handovers], fun _ _ => rfl⟩
  resolved := ⟨by simp, by simp⟩
  pending := by simp [Pending]

variable {b : Buffering}

theorem kept_run (h : Run Traffic.Step (.new b) t s) : ∃ hs rs qs us, Kept t s hs rs qs us :=
  h.invariant (P := fun t s => ∃ hs rs qs us, Kept t s hs rs qs us)
    ⟨[], [], [], [], kept_new b⟩ fun ⟨_, _, _, _, hk⟩ hs => hk.step hs

/-- A refusal gives back the value of the write. -/
theorem Traffic.Step.refused (h : s.channel.Sound) (hs : Traffic.Step s e s') {k : Nat}
    {waits : Bool} {a : α} {r : Refusal α} {rs : List (Resolution Nat α)}
    (he : e = .wrote k waits a (.refused r) rs) : r.value = a := by
  cases hs with
  | @begin j call hm hj hg =>
    match call with
    | .read false => cases he
    | .read true => cases he
    | .write b waits' =>
      obtain ⟨rfl, rfl, rfl, hr, -⟩ := Event.wrote.inj he
      cases h.writing (writer waits' j) b with
      | closed x hx hw =>
        rw [hw] at hr
        cases hr
        rfl
      | handed r rs c' ho hw' hq hs' hw =>
        rw [hw] at hr
        cases hr
      | full ho hw' hp hb hw =>
        rw [hw] at hr
        cases hr
        rfl
      | queued c' ho hw' hb hs' hw =>
        rw [hw] at hr
        cases hr
  | _ => cases he

/-- A poll is told the answer of a call that has begun. -/
theorem Traffic.Step.told (hs : Traffic.Step s e s') {k : Nat} {r : Answer α}
    (he : e = .polled k (some r)) : s.begun k ≠ none ∧ s.answered k = some r := by
  cases hs with
  | poll hb hg =>
    obtain ⟨rfl, ha⟩ := Event.polled.inj he
    exact ⟨Option.isSome_iff_ne_none.1 hb, ha⟩
  | @begin j call hm hj hg =>
    match call with
    | .read false => cases he
    | .read true => cases he
    | .write b waits' => cases he
  | _ => cases he

theorem refused_run (h : Run Traffic.Step (.new b) t s) {k : Nat} {waits : Bool} {a : α}
    {r : Refusal α} {rs : List (Resolution Nat α)} (he : .wrote k waits a (.refused r) rs ∈ t) :
    r.value = a := by
  induction h with
  | nil => exact absurd he List.not_mem_nil
  | snoc hr hs ih =>
    rcases List.mem_append.1 he with he | he
    · exact ih he
    · obtain ⟨_, _, _, _, hk⟩ := kept_run hr
      exact hs.refused hk.ledger.sound (List.mem_singleton.1 he).symm

theorem told_run (h : Run Traffic.Step (.new b) t s) {k : Nat} {r : Answer α}
    (he : .polled k (some r) ∈ t) : s.begun k ≠ none ∧ s.answered k = some r := by
  induction h with
  | nil => exact absurd he List.not_mem_nil
  | @snoc t s s' e hr hs ih =>
    have hbefore : s.begun k ≠ none ∧ s.answered k = some r := by
      rcases List.mem_append.1 he with he | he
      · exact ih he
      · exact hs.told (List.mem_singleton.1 he).symm
    obtain ⟨_, _, _, _, hk⟩ := kept_run hr
    obtain ⟨call, hc⟩ := Option.ne_none_iff_exists'.1 hbefore.1
    refine ⟨?_, (hs.move hk.ledger.sound).answer_kept hbefore.1 hbefore.2⟩
    rw [hs.begun_kept hc]
    simp

/-- A writer that waits was told that its value was handed over, or that it was given back, or
    it was told nothing and its value is in the queue. -/
theorem Kept.writer_told (h : Kept t s hs rs qs us) {i : Nat} {k : Nat} {a : α}
    (hi : (Channel.accepted t)[i]? = some (some k, a)) :
    (i < (handovers t).length ∧ s.answered k = some (.wrote (.ok ()))) ∨
    (∃ j f, i = (handovers t).length + j ∧ (Channel.returned t)[j]? = some (a, f) ∧
      s.answered k = some (.wrote (.error f))) ∨
    ((handovers t).length + (Channel.returned t).length ≤ i ∧ s.answered k = none) := by
  have hh : hs.length = (handovers t).length := by
    simpa using congrArg List.length h.ledger.handed
  have hr : rs.length = (Channel.returned t).length := by
    simpa using congrArg List.length h.ledger.returned
  rw [h.ledger.accepted, List.append_assoc] at hi
  -- The place of a writer tells in which of the three parts of the ledger it stands.
  rcases Nat.lt_or_ge i hs.length with hlt | hge
  · rw [List.getElem?_append_left hlt] at hi
    exact .inl ⟨hh ▸ hlt, h.resolved.handed _ (List.mem_of_getElem? hi) k rfl⟩
  obtain ⟨j, rfl⟩ := Nat.exists_eq_add_of_le hge
  rw [List.getElem?_append_right hge, Nat.add_sub_cancel_left] at hi
  rcases Nat.lt_or_ge j rs.length with hlt | hge'
  · rw [List.getElem?_append_left hlt] at hi
    obtain ⟨v, hv⟩ : ∃ v, (Channel.returned t)[j]? = some v :=
      ⟨_, List.getElem?_eq_getElem (hr ▸ hlt)⟩
    have ha : v.1 = a := by
      have hm := congrArg (·[j]?) h.ledger.returned
      simp only [List.getElem?_map, hi, hv, Option.map_some, Option.some.injEq] at hm
      exact hm.symm
    have hz : ((some k, a), v) ∈ rs.zip (Channel.returned t) :=
      List.mem_of_getElem? (List.getElem?_zip_eq_some.2 ⟨hi, hv⟩)
    exact .inr (.inl ⟨j, v.2, by rw [hh], by rw [hv, ← ha], h.resolved.returned _ hz k rfl⟩)
  · rw [List.getElem?_append_right hge'] at hi
    exact .inr (.inr ⟨by omega, h.pending _ (List.mem_of_getElem? hi) k rfl⟩)

/-- Whoever uses a channel, and whoever stops waiting: it is first in, first out. -/
theorem fifo (h : Run Traffic.Step (.new b) t s) : Fifo t s := by
  obtain ⟨hs, rs, qs, us, hk⟩ := kept_run h
  have conserved : (accepted t).map Prod.snd =
      (handovers t).map Prod.fst ++ (returned t).map Prod.fst ++ s.channel.values := by
    rw [hk.ledger.accepted, hk.ledger.values, ← hk.ledger.handed, ← hk.ledger.returned]
    simp
  exact
    { conserved
      matched := ⟨us, hk.ledger.reads.symm⟩
      in_order := by
        intro i a k hi
        have hlt : i < (handovers t).length := (List.getElem?_eq_some_iff.1 hi).1
        constructor
        · rw [← List.getElem?_map, conserved, List.append_assoc,
            List.getElem?_append_left (by simpa using hlt)]
          simp [hi]
        · rw [hk.ledger.reads, List.getElem?_append_left (by simpa using hlt)]
          simp [hi]
      reads_nodup := hk.named.reads_nodup
      writers_nodup := hk.named.writers_nodup
      received := hk.received.received
      passed := by
        intro i k a hi
        rcases hk.writer_told hi with ⟨hlt, ha⟩ | ⟨j, f, rfl, hj, ha⟩ | ⟨hge, ha⟩
        · simp [hlt, ha]
        · simp [ha]
        · simp [ha]
          omega
      failed := by
        intro i k a hi f
        rcases hk.writer_told hi with ⟨hlt, ha⟩ | ⟨j, g, rfl, hj, ha⟩ | ⟨hge, ha⟩
        · simp [ha]
          omega
        · simp [ha, hj, eq_comm]
        · simp [ha]
          intro j hj hf
          have := (List.getElem?_eq_some_iff.1 hf).1
          omega
      refused := fun k waits a r rs he => refused_run h he
      told := fun k r he => (told_run h he).2 }

/-- A read waits and is dropped, two writes wait, and the channel is cancelled: the first value
    goes to the read that nobody polls any more, and the second is given back. -/
theorem fifo_dropped_read : ∃ (t : List (Event Nat)) (s : Traffic Nat),
    Run Traffic.Step (.new (.oldest 0)) t s ∧ Fifo t s ∧ handovers t = [(7, 0)] ∧
      s.answered 2 = some (.wrote (.error (Fault.ofKind .cancelled))) := by
  have new : Run Traffic.Step (.new (.oldest 0)) ([] : List (Event Nat)) _ := .nil
  have read := new.snoc (.make (k := 0) (.read true) rfl)
    |>.snoc (@Traffic.Step.begin _ _ 0 (.read true) rfl rfl rfl) |>.snoc (.drop 0)
  have first := read.snoc (.make (k := 1) (.write 7 true) rfl)
    |>.snoc (@Traffic.Step.begin _ _ 1 (.write 7 true) rfl rfl rfl)
  have second := first.snoc (.make (k := 2) (.write 8 true) rfl)
    |>.snoc (@Traffic.Step.begin _ _ 2 (.write 8 true) rfl rfl rfl)
  have run := second.snoc (.cancel (Fault.ofKind .cancelled))
  exact ⟨_, _, run, fifo run, rfl, rfl⟩

end ResumeOnce.Channel

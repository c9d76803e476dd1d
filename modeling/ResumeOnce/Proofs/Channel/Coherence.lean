import ResumeOnce.Proofs.Channel.Cells

/-!
# Snapshots agree with what is behind them

Whoever is to be answered is so in one place, the queues of the channel or an errand,
and so is every cell that is to be emptied; until then nobody was answered and no
cell is empty. A new call has one place. An operation only moves calls and cells from
one place to another, and an errand takes its own away. So it goes on along every run,
however the errands of different operations are interleaved.

* `Cells.Coherent`, `Cells.Coherent.step`: the invariant, and that every step keeps it;
* `Cells.Consistent`: what a snapshot is, compared to the parties and cells behind it;
* `Cells.Faultless`: what an operation or errand never comes upon;
* `Cells.snapshot_consistent`: both hold along every run.
-/

namespace ResumeOnce.Channel

variable {α : Type u} {b : Buffering}

/-- A sound channel shows what it is. -/
theorem Sound.shows {c : Channel ρ α} (h : c.Sound) :
    c.Shows c.buffering c.completion c.waiting c.queued := ⟨h, rfl, rfl, rfl, rfl⟩

namespace Cells

variable {s s' : Cells α} {e : Errand} {before behind : List Errand}

/-- Every call that is to be answered is so in one place, and every cell that is to be emptied
    is full and in one place. -/
structure Coherent (b : Buffering) (s : Cells α) : Prop where
  sound : s.channel.Sound
  buffering : s.channel.buffering = b
  bounded : ∀ n, b = .oldest n → unattended s.channel.queued ≤ n
  rights : s.rights.Nodup
  holdings : s.holdings.Nodup
  called : ∀ k, k ∈ s.rights ∨ k ∈ s.holdings → s.called k = true
  unanswered : ∀ k, k ∈ s.rights ∨ s.called k = false → s.answered k = none
  full : ∀ k ∈ s.holdings, (s.cell k).isSome

theorem coherent_new (b : Buffering) : (new b : Cells α).Coherent b where
  sound := (shows_new b).sound
  buffering := rfl
  bounded n _ := Nat.zero_le n
  rights := List.nodup_nil
  holdings := List.nodup_nil
  called k hk := by simp [Cells.rights, Cells.holdings, new, parties, (shows_new b).waiting,
    (shows_new b).queued, (shows_new b).values] at hk
  unanswered _ _ := rfl
  full k hk := by simp [Cells.holdings, new, (shows_new b).values] at hk

/-! ## Operations -/

/-- What some errands do is left to others and to the channel. -/
theorem perm_handed_on {kept kept' todo done left due : List Nat} (hd : todo.Perm (done ++ left))
    (h : (kept' ++ due).Perm (kept ++ done)) : (kept' ++ (left ++ due)).Perm (kept ++ todo) := by
  rw [List.perm_iff_count] at *
  intro k
  have h₁ := hd k
  have h₂ := h k
  simp only [List.count_append] at *
  omega

/-- An operation that replaces some errands by others, and hands on whatever its channel lets
    go, leaves everything in one place. -/
theorem Coherent.hands_on (h : s.Coherent b) {c' : Channel Nat Nat} {x : Option Completion}
    {rs : List Nat} {ws : List (Writer Nat Nat)} {done left due : List Errand}
    (hd : s.errands.Perm (done ++ left)) (hs : c'.Shows s.channel.buffering x rs ws)
    (hb : ∀ n, b = .oldest n → unattended ws ≤ n)
    (hr : (rs ++ ws.filterMap Writer.resumption ++ due.flatMap Errand.calls).Perm
      (s.channel.parties ++ done.flatMap Errand.calls))
    (hc : (ws.filterMap Writer.value ++ due.flatMap Errand.cells).Perm
      (s.channel.values ++ done.flatMap Errand.cells)) :
    Coherent b { s with channel := c', errands := left ++ due } := by
  have hrights : (Cells.rights { s with channel := c', errands := left ++ due }).Perm s.rights := by
    have hd' := hd.flatMap_right Errand.calls
    rw [List.flatMap_append] at hd'
    simpa only [Cells.rights, parties, hs.waiting, hs.queued, List.flatMap_append]
      using perm_handed_on hd' hr
  have hholdings : (Cells.holdings { s with channel := c', errands := left ++ due }).Perm
      s.holdings := by
    have hd' := hd.flatMap_right Errand.cells
    rw [List.flatMap_append] at hd'
    simpa only [Cells.holdings, hs.values, List.flatMap_append] using perm_handed_on hd' hc
  exact {
    sound := hs.sound
    buffering := hs.buffering.trans h.buffering
    bounded := by rwa [hs.queued]
    rights := hrights.nodup_iff.2 h.rights
    holdings := hholdings.nodup_iff.2 h.holdings
    called := fun k hk => h.called k (hk.imp hrights.mem_iff.1 hholdings.mem_iff.1)
    unanswered := fun k hk => h.unanswered k (hk.imp_left hrights.mem_iff.1)
    full := fun k hk => h.full k (hholdings.mem_iff.1 hk) }

/-- An operation that leaves the channel as it is hands its errand on to its own caller. -/
theorem Coherent.leaves (h : s.Coherent b) {due : List Errand}
    (he : s.errands = before ++ e :: behind)
    (hr : due.flatMap Errand.calls = e.calls)
    (hc : due.flatMap Errand.cells = e.cells) :
    Coherent b { s with errands := before ++ behind ++ due } := by
  have hd : s.errands.Perm ([e] ++ (before ++ behind)) := he ▸ List.perm_middle
  refine h.hands_on hd h.sound.shows h.bounded ?_ ?_
  · simp [parties, hr]
  · simp [values, hc]

theorem Coherent.write {k : Nat} {waits : Bool} (h : s.Coherent b)
    (he : s.errands = before ++ .write k waits :: behind) :
    Coherent b ({ s with errands := before ++ behind }.carryOut (.write k waits)) := by
  have hd : s.errands.Perm ([.write k waits] ++ (before ++ behind)) := he ▸ List.perm_middle
  rw [carryOut, exchange]
  cases h.sound.writing (writer waits k) k with
  | closed x hx hw =>
    rw [hw]
    exact h.leaves he rfl rfl
  | full ho hw hp hb hw =>
    rw [hw]
    exact h.leaves he rfl rfl
  | handed r rs c' ho hr hq hs hw =>
    -- The reader was in the queue and is to be answered now, and so is the writer.
    rw [hw]
    refine h.hands_on hd hs (by simp [unattended]) ?_ ?_
    · simp [Errand.calls, parties, hr, hq]
    · simp [Errand.cells, values, hq]
  | queued c' ho hr hb hs hw =>
    rw [hw]
    refine h.hands_on hd hs (fun n hn => ?_) ?_ ?_
    · have hle := h.bounded n hn
      rw [unattended_append]
      cases waits with
      | true => simpa [writer] using hle
      | false =>
        have hadm := hb rfl
        rw [h.buffering, hn] at hadm
        simpa [writer, Buffering.admits, Nat.succ_le_iff] using hadm
    · cases waits <;> simp [Errand.calls, parties, hr, writer]
    · cases waits <;> simp [Errand.cells, values]

/-- A read, however its channel is asked. -/
theorem Coherent.asks {k : Nat} {waits : Bool} (h : s.Coherent b)
    (he : s.errands = before ++ .read k waits :: behind) {p : Option Nat}
    (hp : ∀ r, p = some r → r = k) :
    Coherent b
      ({ s with errands := before ++ behind }.exchange (s.channel.read p) (Errand.ofRead k)) := by
  have hd : s.errands.Perm ([.read k waits] ++ (before ++ behind)) := he ▸ List.perm_middle
  rw [exchange]
  cases h.sound.reading p with
  | closed x hx hq hw =>
    rw [hw]
    exact h.leaves he rfl rfl
  | blocked ho hq hn hw =>
    rw [hw]
    exact h.leaves he rfl rfl
  | took r j ws c' hq hr hs hw =>
    -- The cell was in the queue and is the reader's now; its writer is to be told.
    rw [hw]
    refine h.hands_on hd hs (fun n hn => ?_) ?_ ?_
    · have hle := h.bounded n hn
      rw [hq, unattended_cons] at hle
      omega
    · cases r <;> simp [Errand.calls, parties, hq, hr, List.perm_middle]
    · cases r <;> simp [Errand.cells, values, hq]
  | queued r c' ho hq hr hs hw =>
    obtain rfl := hp r hr
    rw [hw]
    exact h.hands_on hd hs (by simp [unattended]) (by simp [Errand.calls, parties, hq])
      (by simp [Errand.cells, values, hq])

theorem Coherent.read {k : Nat} {waits : Bool} (h : s.Coherent b)
    (he : s.errands = before ++ .read k waits :: behind) :
    Coherent b ({ s with errands := before ++ behind }.carryOut (.read k waits)) := by
  cases waits with
  | true => exact h.asks he fun r hr => (Option.some.inj hr).symm
  | false =>
    -- A read that does not wait is settled at once.
    obtain ⟨o, ho, ht⟩ := tryRead_eq_read h.sound
    have hx := h.asks he (p := none) (by simp)
    rw [exchange, ho] at hx
    rwa [carryOut, exchange, ht]

@[simp]
theorem flatMap_nothing (l : List β) : (l.flatMap fun _ => ([] : List Nat)) = [] :=
  List.flatMap_eq_nil_iff.2 fun _ _ => rfl

theorem errands_of_readers (rs : List Nat) (f : Fault) :
    (rs.map fun r => Resolution.reader r (.error f)).map Errand.ofResolution =
      rs.map fun r => .give r (.error f) := by
  simp [Function.comp_def]

theorem errands_of_writers (ws : List (Writer Nat Nat)) (f : Fault) :
    (ws.flatMap fun w => w.resumption.toList.map fun r =>
        Resolution.writer r (.error f)).map Errand.ofResolution =
      (ws.filterMap Writer.resumption).map fun r => .tell r (.error f) := by
  induction ws with
  | nil => rfl
  | cons w ws ih =>
    obtain ⟨_ | r, v⟩ := w
    · simpa using ih
    · simpa using ih

theorem Coherent.close (h : s.Coherent b) (c : Completion) :
    Coherent b (s.exchange (s.channel.close c) fun _ => []) := by
  rw [exchange]
  cases h.sound.closing c with
  | closed hx hw =>
    rw [hw]
    exact h.hands_on (.refl ([] ++ s.errands)) h.sound.shows h.bounded (by simp [parties])
      (by simp [values])
  | closes c' ho hs hw =>
    -- The readers leave the queue, and are to be told.
    rw [hw, errands_of_readers]
    refine h.hands_on (.refl ([] ++ s.errands)) hs h.bounded ?_ ?_
    · simp [Errand.calls, parties, List.flatMap_map, List.perm_append_comm]
    · simp [Errand.cells, values, List.flatMap_map]

theorem Coherent.cancel (h : s.Coherent b) (f : Fault) :
    Coherent b (s.exchange (s.channel.cancel f) (List.map .recover)) := by
  obtain ⟨c', hs, hw⟩ := h.sound.cancel f
  rw [exchange, hw, List.map_append, errands_of_readers, errands_of_writers]
  refine h.hands_on (.refl ([] ++ s.errands)) hs (by simp [unattended]) ?_ ?_
  · simp [Errand.calls, parties, List.flatMap_map]
  · simp [Errand.cells, values, List.flatMap_map]

/-! ## Calls and answers -/

/-- A call that is made is to be answered, and its cell to be emptied if it has a value. -/
theorem Coherent.ask (h : s.Coherent b) {k : Nat} (hk : s.called k = false) {value : Option α}
    (hr : e.calls = [k]) (hv : e.cells = value.toList.map fun _ => k) :
    (s.ask k value e).Coherent b := by
  -- Nothing is known yet of the number of a new call.
  have hkr : k ∉ s.rights := fun hm => by simp [h.called k (.inl hm)] at hk
  have hkh : k ∉ s.holdings := fun hm => by simp [h.called k (.inr hm)] at hk
  have hrights : (s.ask k value e).rights = s.rights ++ [k] := by
    simp [Cells.rights, Cells.ask, hr]
  have hholdings : (s.ask k value e).holdings = s.holdings ++ value.toList.map fun _ => k := by
    simp [Cells.holdings, Cells.ask, hv]
  have hner : ∀ j ∈ s.rights, ¬ j = k := fun j hj hjk => hkr (hjk ▸ hj)
  have hneh : ∀ j ∈ s.holdings, ¬ j = k := fun j hj hjk => hkh (hjk ▸ hj)
  exact {
    sound := h.sound
    buffering := h.buffering
    bounded := h.bounded
    rights := hrights ▸ List.nodup_append.2 ⟨h.rights, by simp, by simpa using hner⟩
    holdings := by
      rw [hholdings]
      cases value with
      | none => simpa using h.holdings
      | some a => simpa [List.nodup_append, h.holdings] using hneh
    called := fun j hj => by
      rw [hrights, hholdings] at hj
      by_cases hjk : j = k
      · simp [Cells.ask, hjk]
      · have hj' : j ∈ s.rights ∨ j ∈ s.holdings := by
          cases value <;> simpa [hjk] using hj
        simp [Cells.ask, Function.update_of_ne hjk, h.called j hj']
    unanswered := fun j hj => by
      by_cases hjk : j = k
      · exact h.unanswered j (.inr (hjk ▸ hk))
      · refine h.unanswered j ?_
        rw [hrights] at hj
        simpa [Cells.ask, Function.update_of_ne hjk, hjk] using hj
    full := fun j hj => by
      rw [hholdings, List.mem_append] at hj
      by_cases hjk : j = k
      · subst hjk
        cases value with
        | none => exact absurd hj (by simpa using hkh)
        | some a => simp [Cells.ask]
      · have hj' : j ∈ s.holdings := by
          cases value <;> simpa [hjk] using hj
        simpa [Cells.ask, Function.update_of_ne hjk] using h.full j hj' }

/-- An errand that answers a call, empties a cell or both is done with them. -/
theorem Coherent.spent (h : s.Coherent b) (he : s.errands = before ++ e :: behind)
    (hc : s'.channel = s.channel) (hd : s'.called = s.called) (hl : s'.errands = before ++ behind)
    (ha : ∀ k ∉ e.calls, s'.answered k = s.answered k)
    (hv : ∀ k ∉ e.cells, s'.cell k = s.cell k) : Coherent b s' := by
  have hp : s.errands.Perm (e :: s'.errands) := he ▸ hl ▸ List.perm_middle
  have hr : s.rights.Perm (e.calls ++ s'.rights) := by
    have := (hp.flatMap_right Errand.calls).append_left s.channel.parties
    rw [Cells.rights, Cells.rights, hc]
    exact this.trans (by simpa using (List.perm_append_comm_assoc ..))
  have hh : s.holdings.Perm (e.cells ++ s'.holdings) := by
    have := (hp.flatMap_right Errand.cells).append_left s.channel.values
    rw [Cells.holdings, Cells.holdings, hc]
    exact this.trans (by simpa using (List.perm_append_comm_assoc ..))
  have hnr := List.nodup_append.1 (hr.nodup_iff.1 h.rights)
  have hnh := List.nodup_append.1 (hh.nodup_iff.1 h.holdings)
  have hmr : ∀ k ∈ s'.rights, k ∈ s.rights := fun k hk => hr.mem_iff.2 (by simp [hk])
  have hmh : ∀ k ∈ s'.holdings, k ∈ s.holdings := fun k hk => hh.mem_iff.2 (by simp [hk])
  exact {
    sound := hc ▸ h.sound
    buffering := hc ▸ h.buffering
    bounded := hc ▸ h.bounded
    rights := hnr.2.1
    holdings := hnh.2.1
    called := fun k hk => hd ▸ h.called k (hk.imp (hmr k) (hmh k))
    unanswered := fun k hk => by
      rw [hd] at hk
      rw [ha k, h.unanswered k (hk.imp_left (hmr k))]
      rintro hke
      rcases hk with hk | hk
      · exact hnr.2.2 k hke k hk rfl
      · have := h.called k (.inl (hr.mem_iff.2 (by simp [hke])))
        simp [hk] at this
    full := fun k hk => by
      rw [hv k fun hke => hnh.2.2 k hke k hk rfl]
      exact h.full k (hmh k hk) }

/-- An errand answers its own call alone. -/
theorem answered_carryOut {k : Nat} (hk : k ∉ e.calls) :
    (s.carryOut e).answered k = s.answered k := by
  cases e with
  | write j waits => rfl
  | read j waits => cases waits <;> rfl
  | give j o => cases o <;> simp_all [Cells.carryOut, reply, drain, Errand.calls]
  | tell j o => simp_all [Cells.carryOut, reply, Errand.calls]
  | reject j f => simp_all [Cells.carryOut, reply, drain, Errand.calls]
  | recover j => rfl

/-- An errand empties its own cell alone. -/
theorem cell_carryOut {k : Nat} (hk : k ∉ e.cells) : (s.carryOut e).cell k = s.cell k := by
  cases e with
  | write j waits => rfl
  | read j waits => cases waits <;> rfl
  | give j o => cases o <;> simp_all [Cells.carryOut, reply, drain, Errand.cells]
  | tell j o => rfl
  | reject j f => simp_all [Cells.carryOut, reply, drain, Errand.cells]
  | recover j => simp_all [Cells.carryOut, drain, Errand.cells]

theorem Coherent.carryOut (h : s.Coherent b) (he : s.errands = before ++ e :: behind) :
    Coherent b ({ s with errands := before ++ behind }.carryOut e) := by
  cases e with
  | write k waits => exact h.write he
  | read k waits => exact h.read he
  | give k o =>
    cases o <;> exact h.spent he rfl rfl rfl (fun _ => answered_carryOut) fun _ => cell_carryOut
  | tell k o => exact h.spent he rfl rfl rfl (fun _ => answered_carryOut) fun _ => cell_carryOut
  | reject k f => exact h.spent he rfl rfl rfl (fun _ => answered_carryOut) fun _ => cell_carryOut
  | recover k => exact h.spent he rfl rfl rfl (fun _ => answered_carryOut) fun _ => cell_carryOut

theorem Coherent.step {a : Act α} (h : s.Coherent b) (hs : Step s a s') : s'.Coherent b := by
  cases hs with
  | write a waits hk => exact h.ask hk rfl rfl
  | read waits hk => exact h.ask hk rfl rfl
  | close c => exact h.close c
  | cancel f => exact h.cancel f
  | errand before behind he => exact h.carryOut he

theorem coherent_run {t : List (Act α)} (h : Run Step (new b) t s) : s.Coherent b :=
  h.invariant (P := fun _ s => s.Coherent b) (coherent_new b) fun h hs => h.step hs

/-! ## What an operation finds -/

/-- Readers and writers never wait both, nobody waits to read from a closed channel, the writers
    that do not wait are counted and never too many, whoever is queued is still to be answered,
    and every queued value is still in its cell. -/
structure Consistent (b : Buffering) (s : Cells α) : Prop where
  buffering : s.channel.buffering = b
  apart : s.channel.waiting = [] ∨ s.channel.queued = []
  closed : s.channel.completion.isSome → s.channel.waiting = []
  counted : s.channel.snapshot.buffered = unattended s.channel.queued
  bounded : ∀ n, b = .oldest n → s.channel.snapshot.buffered ≤ n
  readers : ∀ r ∈ s.channel.waiting, s.answered r = none
  writers : ∀ w ∈ s.channel.queued, ∀ k, w.resumption = some k → s.answered k = none
  filled : ∀ w ∈ s.channel.queued, ∃ k a, w.value = some k ∧ s.cell k = some a

/-- No operation comes upon what cannot be. -/
structure Faultless (b : Buffering) (s : Cells α) : Prop where
  /-- Whoever is taken out of the queue has a value, and is in the count if it does not wait. -/
  took : ∀ p w s', s.channel.snapshot.read p = .commit s' (.took w) →
    (∃ k a, w.value = some k ∧ s.cell k = some a) ∧
      s'.buffered + (if w.waits then 0 else 1) = s.channel.snapshot.buffered
  /-- A value on its way to a reader is still in its cell. -/
  given : ∀ r k, .give r (.ok k) ∈ s.errands → ∃ a, s.cell k = some a
  /-- A writer that is refused finds its value. -/
  rejected : ∀ k f, .reject k f ∈ s.errands → ∃ a, s.cell k = some a
  /-- Whoever is to be answered was not answered before. -/
  unanswered : ∀ e ∈ s.errands, ∀ k ∈ e.calls, s.answered k = none
  /-- A read that does not wait is not queued. -/
  tried : (s.channel.snapshot.read none).outcome ≠ .waiting
  /-- A write that waits is not refused for lack of room. -/
  waits : ∀ w, w.waits → (s.channel.snapshot.write w b).outcome ≠ .full
  /-- A write that does not wait is refused by an open channel only for lack of room. -/
  refused : s.channel.completion = none → ∀ k f,
    (s.channel.write none k).result = .refused ⟨f, k⟩ ↔
      f = Fault.ofKind .channelFull ∧ s.channel.waiting = [] ∧
        ∃ n, b = .oldest n ∧ unattended s.channel.queued = n

theorem Coherent.consistent (h : s.Coherent b) : s.Consistent b where
  buffering := h.buffering
  apart := h.sound.apart
  closed := h.sound.closed
  counted := h.sound.counted
  bounded n hn := h.sound.counted ▸ h.bounded n hn
  readers r hr := h.unanswered r (.inl (by simp [Cells.rights, parties, hr]))
  writers w hw k hk := by
    have hm : k ∈ s.channel.queued.filterMap Writer.resumption :=
      List.mem_filterMap.2 ⟨w, hw, hk⟩
    exact h.unanswered k (.inl (by simp [Cells.rights, parties, hm]))
  filled w hw := by
    obtain ⟨k, hk⟩ := Option.isSome_iff_exists.1 (h.sound.filled w hw)
    have hm : k ∈ s.channel.values := List.mem_filterMap.2 ⟨w, hw, hk⟩
    obtain ⟨a, ha⟩ := Option.isSome_iff_exists.1 (h.full k (by simp [Cells.holdings, hm]))
    exact ⟨k, a, hk, ha⟩

/-- What an errand is to empty is full. -/
theorem Coherent.cell_full (h : s.Coherent b) (he : e ∈ s.errands) {k : Nat} (hk : k ∈ e.cells) :
    ∃ a, s.cell k = some a :=
  Option.isSome_iff_exists.1 (h.full k (List.mem_append_right _ (List.mem_flatMap.2 ⟨e, he, hk⟩)))

theorem Coherent.took (h : s.Coherent b) {p : Option Nat} {w : Writer Nat Nat}
    {s' : Snapshot Nat Nat} (hr : s.channel.snapshot.read p = .commit s' (.took w)) :
    w ∈ s.channel.queued ∧
      s'.buffered + (if w.waits then 0 else 1) = s.channel.snapshot.buffered := by
  have hc := h.sound.counted
  rcases h.sound.writers_balanced.dequeue?_cases with ⟨hnil, hd⟩ | ⟨w', writers, hd, hl, hb⟩
  · -- Nothing is taken out of an empty queue.
    simp only [Snapshot.read, hd] at hr
    grind
  · simp only [Snapshot.read, hd, Decision.commit.injEq, ReadStep.took.injEq] at hr
    obtain ⟨rfl, rfl⟩ := hr
    have hq : s.channel.queued = w' :: writers.toList := hl
    refine ⟨by simp [hq], ?_⟩
    rw [hq, unattended, List.countP_cons] at hc
    cases hw : w'.waits <;> simp_all

/-- A write that does not wait is refused by an open channel exactly if no reader waits and as
    many values as it may hold were written without waiting. -/
theorem Coherent.refused (h : s.Coherent b) (ho : s.channel.completion = none) (k : Nat)
    (f : Fault) : (s.channel.write none k).result = .refused ⟨f, k⟩ ↔
      f = Fault.ofKind .channelFull ∧ s.channel.waiting = [] ∧
        ∃ n, b = .oldest n ∧ unattended s.channel.queued = n := by
  cases h.sound.writing none k with
  | closed x hx hw => simp [ho] at hx
  | handed r rs c' hn hr hq hs hw => simp [hw, hr]
  | full hn hr hp hb hw =>
    rw [hw]
    have hfull : ∃ n, b = .oldest n ∧ unattended s.channel.queued = n := by
      rw [h.buffering] at hb
      cases b with
      | unbounded => simp [Buffering.admits] at hb
      | oldest n =>
        have hle := h.bounded n rfl
        simp only [Buffering.admits, decide_eq_false_iff_not, Nat.not_lt] at hb
        exact ⟨n, rfl, Nat.le_antisymm hle hb⟩
    exact ⟨fun hf => ⟨by simpa [eq_comm] using hf, hr, hfull⟩, fun hf => by rw [hf.1]⟩
  | queued c' hn hr hb hs hw =>
    rw [hw]
    -- There was room, so that the count cannot be at the limit.
    have hadm := hb rfl
    rw [h.buffering] at hadm
    simp only [reduceCtorEq, false_iff]
    rintro ⟨-, -, n, rfl, hn⟩
    simp [Buffering.admits, hn] at hadm

theorem Coherent.faultless (h : s.Coherent b) : s.Faultless b where
  took p w s' hr := ⟨h.consistent.filled w (h.took hr).1, (h.took hr).2⟩
  given r k he := h.cell_full he (by simp [Errand.cells])
  rejected k f he := h.cell_full he (by simp [Errand.cells])
  unanswered e he k hk :=
    h.unanswered k (.inl (List.mem_append_right _ (List.mem_flatMap.2 ⟨e, he, hk⟩)))
  tried := by
    unfold Snapshot.read
    cases s.channel.snapshot.writers.dequeue? with
    | some x => simp [Decision.outcome]
    | none => cases s.channel.snapshot.completion <;> simp [Decision.outcome]
  waits w hw := by
    unfold Snapshot.write
    cases s.channel.snapshot.completion with
    | some c => simp [Decision.outcome]
    | none => cases s.channel.snapshot.readers.dequeue? <;> simp [Decision.outcome, hw]
  refused := h.refused

/-- On every run of a channel, with errands done in any order, the snapshot agrees with the cells
    and the parties behind it, and no operation comes upon what cannot be. -/
theorem snapshot_consistent {t : List (Act α)} (h : Run Step (new b) t s) :
    s.Consistent b ∧ s.Faultless b :=
  ⟨(coherent_run h).consistent, (coherent_run h).faultless⟩

/-- There is room for one value: the second is refused, a writer that waits queues up behind the
    first, and a reader takes the first before its writer or anybody else is told anything. -/
theorem snapshot_consistent_oldest_one : ∃ (t : List (Act Nat)) (s : Cells Nat),
    Run Step (new (.oldest 1)) t s ∧ (s.channel.values = [2] ∧ s.errands =
      [.tell 0 (.ok ()), .reject 1 (Fault.ofKind .channelFull), .give 3 (.ok 0)]) ∧
    s.Consistent (.oldest 1) ∧ s.Faultless (.oldest 1) := by
  have h₀ : Run Step (new (.oldest 1) : Cells Nat) [] _ := .nil
  have h₁ := h₀.snoc (.write (k := 0) 10 false rfl)
  have h₂ := h₁.snoc (.errand [] [] rfl)
  have h₃ := h₂.snoc (.write (k := 1) 11 false rfl)
  have h₄ := h₃.snoc (.errand [.tell 0 (.ok ())] [] rfl)
  have h₅ := h₄.snoc (.write (k := 2) 12 true rfl)
  have h₆ := h₅.snoc (.errand [.tell 0 (.ok ()), .reject 1 (Fault.ofKind .channelFull)] [] rfl)
  have h₇ := h₆.snoc (.read (k := 3) true rfl)
  have h₈ := h₇.snoc (.errand [.tell 0 (.ok ()), .reject 1 (Fault.ofKind .channelFull)] [] rfl)
  exact ⟨_, _, h₈, ⟨rfl, rfl⟩, snapshot_consistent h₈⟩

end Cells

end ResumeOnce.Channel

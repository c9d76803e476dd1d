import Mathlib.Data.List.Nodup
import ResumeOnce.Proofs.Channel.Move

/-!
# The ledger of a channel

What a channel accepted is what it handed over, then what it gave back, then what is
in its queue; and the reads that count are those that got a value, then those that
wait. Every move keeps such a ledger, with the lists that it changes.

* `Named`, `Named.step`: the calls that count have begun, each once;
* `Ledger`: where the values are, with one lemma for every move.
-/

namespace ResumeOnce.Channel

variable {α : Type u} {t : List (Event α)} {e : Event α} {s s' : Traffic α}

/-! ## Who the calls are -/

namespace Traffic

theorem Step.begun_kept (hs : Step s e s') {k : Nat} {call : Call α} (h : s.begun k = some call) :
    s'.begun k = some call := by
  cases hs with
  | make call' hm => exact h
  | @begin j call' hm hj hg =>
    -- A call begins only once.
    have hne : k ≠ j := by
      rintro rfl
      simp [h] at hj
    rw [beginCall_begun, Function.update_of_ne hne, h]
  | poll hb hg => split <;> exact h
  | drop j => exact h
  | close c => simpa using h
  | cancel f => simpa using h

/-- A read that counts is one that has just begun. -/
theorem Step.reads_begun (hs : Step s e s') : e.reads = [] ∨
    ∃ k waits, e.reads = [k] ∧ s.begun k = none ∧ s'.begun k = some (.read waits) := by
  cases hs with
  | @begin k call hm hk hg =>
    have hb : (s.beginCall k call).1.begun k = some call := by simp
    match call with
    | .read false =>
      rcases ho : s.channel.tryRead.result with f | a
      · exact .inl (by simp [beginCall, ho, Event.reads])
      · exact .inr ⟨k, false, by simp [beginCall, ho, Event.reads], hk, hb⟩
    | .read true =>
      rcases ho : (s.channel.read (some k)).result with (f | a) | _
      · exact .inl (by simp [beginCall, ho, Event.reads])
      · exact .inr ⟨k, true, by simp [beginCall, ho, Event.reads], hk, hb⟩
      · exact .inr ⟨k, true, by simp [beginCall, ho, Event.reads], hk, hb⟩
    | .write a waits => exact .inl rfl
  | _ => exact .inl rfl

/-- A write that is accepted is one that has just begun. -/
theorem Step.accepted_begun (hs : Step s e s') : e.accepted = [] ∨
    ∃ k waits a, e.accepted = [(writer waits k, a)] ∧ s.begun k = none ∧
      s'.begun k = some (.write a waits) := by
  cases hs with
  | @begin k call hm hk hg =>
    have hb : (s.beginCall k call).1.begun k = some call := by simp
    match call with
    | .read false => exact .inl rfl
    | .read true => exact .inl rfl
    | .write a waits =>
      rcases hr : (s.channel.write (writer waits k) a).result with _ | _ | r
      · exact .inr ⟨k, waits, a, by simp [beginCall, hr, Event.accepted], hk, hb⟩
      · exact .inr ⟨k, waits, a, by simp [beginCall, hr, Event.accepted], hk, hb⟩
      · exact .inl (by simp [beginCall, hr, Event.accepted])
  | _ => exact .inl rfl

end Traffic

/-- The reads and the writers that count have begun, each once. -/
structure Named (t : List (Event α)) (s : Traffic α) : Prop where
  reads_nodup : (reads t).Nodup
  reads_begun : ∀ k ∈ reads t, ∃ waits, s.begun k = some (.read waits)
  writers_nodup : ((accepted t).filterMap Prod.fst).Nodup
  writers_begun : ∀ k a, (some k, a) ∈ accepted t → s.begun k = some (.write a true)

theorem Named.reads_new (h : Named t s) {k : Nat} (hk : s.begun k = none) : k ∉ reads t := by
  intro hr
  obtain ⟨waits, hb⟩ := h.reads_begun k hr
  simp [hk] at hb

theorem Named.writers_new (h : Named t s) {k : Nat} (hk : s.begun k = none) (a : α) :
    (some k, a) ∉ accepted t := by
  intro ha
  have hb := h.writers_begun k a ha
  simp [hk] at hb

theorem Named.step (h : Named t s) (hs : Traffic.Step s e s') : Named (t ++ [e]) s' where
  reads_nodup := by
    rw [reads_snoc]
    rcases hs.reads_begun with he | ⟨k, waits, he, hk, hb⟩ <;> rw [he]
    · simpa using h.reads_nodup
    · exact h.reads_nodup.append (List.nodup_singleton k) (by simpa using h.reads_new hk)
  reads_begun j hj := by
    rw [reads_snoc, List.mem_append] at hj
    rcases hj with hj | hj
    · obtain ⟨waits, hb⟩ := h.reads_begun j hj
      exact ⟨waits, hs.begun_kept hb⟩
    · rcases hs.reads_begun with he | ⟨k, waits, he, hk, hb⟩ <;> rw [he] at hj
      · exact absurd hj List.not_mem_nil
      · rw [List.mem_singleton.1 hj]
        exact ⟨waits, hb⟩
  writers_nodup := by
    rw [accepted_snoc, List.filterMap_append]
    rcases hs.accepted_begun with he | ⟨k, waits, a, he, hk, hb⟩ <;> rw [he]
    · simpa using h.writers_nodup
    · -- Only a writer that waits counts, and it has just begun.
      cases waits
      · simpa [writer] using h.writers_nodup
      · refine h.writers_nodup.append (List.nodup_singleton k) ?_
        simpa [writer] using fun b => h.writers_new hk b
  writers_begun j b hj := by
    rw [accepted_snoc, List.mem_append] at hj
    rcases hj with hj | hj
    · exact hs.begun_kept (h.writers_begun j b hj)
    · rcases hs.accepted_begun with he | ⟨k, waits, a, he, hk, hb⟩ <;> rw [he] at hj
      · exact absurd hj List.not_mem_nil
      · cases waits <;> simp [writer] at hj
        rw [hj.1, hj.2, hb]

/-! ## Where the values are -/

/-- A writer in the queue of a channel. -/
def entry (w : Option Nat × α) : Writer Nat α := ⟨w.1, some w.2⟩

/-- The writers that were accepted are those whose values were handed over, those whose values
    were given back, and those in the queue; behind the reads that got a value wait some. -/
structure Ledger (t : List (Event α)) (s : Traffic α) (hs rs qs : List (Option Nat × α))
    (us : List Nat) : Prop where
  sound : s.channel.Sound
  accepted : accepted t = hs ++ rs ++ qs
  handed : hs.map Prod.snd = (handovers t).map Prod.fst
  returned : rs.map Prod.snd = (returned t).map Prod.fst
  queued : s.channel.queued = qs.map entry
  reads : reads t = (handovers t).map Prod.snd ++ us
  waiting : s.channel.completion = none → us = s.channel.waiting ∧ rs = []
  apart : us = [] ∨ qs = []
  after : rs = [] ∨ qs = []

variable {hs rs qs : List (Option Nat × α)} {us : List Nat}

theorem Ledger.waiting_read (h : Ledger t s hs rs qs us) {k : Nat} (hk : k ∈ s.channel.waiting) :
    k ∈ Channel.reads t := by
  rcases hc : s.channel.completion with _ | x
  · rw [h.reads, (h.waiting hc).1]
    exact List.mem_append_right _ hk
  · have hn := h.sound.closed (by simp [hc])
    simp [hn] at hk

namespace Ledger

/-- Nothing changes. -/
theorem still (h : Ledger t s hs rs qs us) (hc : s'.channel = s.channel) (he : e.Silent) :
    Ledger (t ++ [e]) s' hs rs qs us where
  sound := hc ▸ h.sound
  accepted := by simp [h.accepted, he.accepted]
  handed := by simp [h.handed, he.handovers]
  returned := by simp [h.returned, he.returned]
  queued := hc ▸ h.queued
  reads := by simp [h.reads, he.reads, he.handovers]
  waiting := hc ▸ h.waiting
  apart := h.apart
  after := h.after

/-- A read takes the oldest value in the queue. -/
theorem took {w : Option Nat × α} (h : Ledger t s hs rs (w :: qs) us) {k : Nat}
    {x : Option Completion}
    (hs' : s'.channel.Shows s.channel.buffering x [] (qs.map entry)) :
    Ledger (t ++ [.read k (.settled (.ok w.2))]) s' (hs ++ [w]) rs qs us where
  sound := hs'.sound
  accepted := by
    -- As there is a value in the queue, nothing was given back yet.
    have hr : rs = [] := h.after.resolve_right (by simp)
    simp [h.accepted, Event.accepted, hr]
  handed := by simp [h.handed, Event.handovers]
  returned := by simp [h.returned, Event.returned]
  queued := hs'.queued
  reads := by
    -- For the same reason no read waits.
    have hu : us = [] := h.apart.resolve_right (by simp)
    simp [h.reads, Event.reads, Event.handovers, hu]
  waiting _ :=
    ⟨(h.apart.resolve_right (by simp)).trans hs'.waiting.symm, h.after.resolve_right (by simp)⟩
  apart := .inl (h.apart.resolve_right (by simp))
  after := .inl (h.after.resolve_right (by simp))

/-- A read is queued. -/
theorem parked (h : Ledger t s hs rs qs us) {k : Nat} (ho : s.channel.completion = none)
    (hq : s.channel.queued = [])
    (hs' : s'.channel.Shows s.channel.buffering none (s.channel.waiting ++ [k]) []) :
    Ledger (t ++ [.read k .queued]) s' hs rs [] (us ++ [k]) where
  sound := hs'.sound
  accepted := by
    have hn : qs = [] := List.map_eq_nil_iff.1 (h.queued.symm.trans hq)
    simp [h.accepted, Event.accepted, hn]
  handed := by simp [h.handed, Event.handovers]
  returned := by simp [h.returned, Event.returned]
  queued := hs'.queued
  reads := by simp [h.reads, Event.reads, Event.handovers]
  waiting _ := ⟨by rw [(h.waiting ho).1, hs'.waiting], (h.waiting ho).2⟩
  apart := .inr rfl
  after := .inr rfl

/-- A write meets the read that waits first. -/
theorem met (h : Ledger t s hs rs qs us) {k r : Nat} {waits : Bool} {a : α} {vs : List Nat}
    (ho : s.channel.completion = none) (hw : s.channel.waiting = r :: vs)
    (hq : s.channel.queued = []) (hs' : s'.channel.Shows s.channel.buffering none vs []) :
    Ledger (t ++ [.wrote k waits a .handed [.reader r (.ok a)]]) s' (hs ++ [(writer waits k, a)])
      [] [] vs where
  sound := hs'.sound
  accepted := by
    have hn : qs = [] := List.map_eq_nil_iff.1 (h.queued.symm.trans hq)
    simp [h.accepted, Event.accepted, hn, (h.waiting ho).2]
  handed := by simp [h.handed, Event.handovers]
  returned := by simp [← h.returned, Event.returned, (h.waiting ho).2]
  queued := hs'.queued
  reads := by simp [h.reads, Event.reads, Event.handovers, (h.waiting ho).1, hw]
  waiting _ := ⟨hs'.waiting.symm, rfl⟩
  apart := .inr rfl
  after := .inl rfl

/-- A write is queued. -/
theorem stored (h : Ledger t s hs rs qs us) {k : Nat} {waits : Bool} {a : α}
    (ho : s.channel.completion = none) (hw : s.channel.waiting = [])
    (hs' : s'.channel.Shows s.channel.buffering none []
      (s.channel.queued ++ [⟨writer waits k, some a⟩])) :
    Ledger (t ++ [.wrote k waits a .queued []]) s' hs [] (qs ++ [(writer waits k, a)]) [] where
  sound := hs'.sound
  accepted := by simp [h.accepted, Event.accepted, (h.waiting ho).2]
  handed := by simp [h.handed, Event.handovers]
  returned := by simp [← h.returned, Event.returned, (h.waiting ho).2]
  queued := by simp [hs'.queued, h.queued, entry]
  reads := by simp [h.reads, Event.reads, Event.handovers, (h.waiting ho).1, hw]
  waiting _ := ⟨hs'.waiting.symm, rfl⟩
  apart := .inl rfl
  after := .inl rfl

/-- The channel closes. -/
theorem ended (h : Ledger t s hs rs qs us) {x : Completion}
    (hs' : s'.channel.Shows s.channel.buffering (some x) [] s.channel.queued) :
    Ledger (t ++ [.closed x true]) s' hs rs qs us where
  sound := hs'.sound
  accepted := by simp [h.accepted, Event.accepted]
  handed := by simp [h.handed, Event.handovers]
  returned := by simp [h.returned, Event.returned]
  queued := hs'.queued.trans h.queued
  reads := by simp [h.reads, Event.reads, Event.handovers]
  waiting ho := absurd (hs'.completion.symm.trans ho) (by simp)
  apart := h.apart
  after := h.after

theorem values (h : Ledger t s hs rs qs us) : s.channel.values = qs.map Prod.snd := by
  rw [Channel.values, h.queued]
  exact filterMap_value_writers Prod.fst Prod.snd qs

/-- A cancellation gives the values in the queue back. -/
theorem emptied (h : Ledger t s hs rs qs us) {f : Fault}
    (hs' : s'.channel.Shows s.channel.buffering (some (.failure f)) [] []) :
    Ledger (t ++ [.cancelled f s.channel.values]) s' hs (rs ++ qs) [] us where
  sound := hs'.sound
  accepted := by simp [h.accepted, Event.accepted]
  handed := by simp [h.handed, Event.handovers]
  returned := by simp [h.returned, Event.returned, h.values, Function.comp_def]
  queued := hs'.queued
  reads := by simp [h.reads, Event.reads, Event.handovers]
  waiting ho := absurd (hs'.completion.symm.trans ho) (by simp)
  apart := .inr rfl
  after := .inr rfl

end Ledger

end ResumeOnce.Channel

import ResumeOnce.Channel.Basic
import ResumeOnce.Proofs.Queue.Persistent

/-!
# The contents of a channel

A channel is told by four things: its buffering, its completion, the readers that
wait and the writers whose values nobody has read, each oldest first. A channel is
*sound* when its queues are balanced, readers and writers never wait at the same
time, no reader waits once the channel is closed, every queued writer still has its
value, and the count of the writers that do not wait is right. Every operation
keeps a channel sound; what it does is told case by case, with whom it answers:

* `Writing`, `Sound.writing`: a value is written;
* `Reading`, `Sound.reading`: a value is read;
* `Closing`, `Sound.closing`: the channel closes;
* `Sound.cancel`: the channel is cancelled.
-/

namespace ResumeOnce.Channel

variable {ρ : Type u} {α : Type v} {c : Channel ρ α}

/-- The readers that wait. -/
def waiting (c : Channel ρ α) : List ρ := c.snapshot.readers.toList

/-- The writers whose values nobody has read. -/
def queued (c : Channel ρ α) : List (Writer ρ α) := c.snapshot.writers.toList

/-- The values that nobody has read. -/
def values (c : Channel ρ α) : List α := c.queued.filterMap Writer.value

/-- The number of writers among some that do not wait for a reader. -/
def unattended (ws : List (Writer ρ α)) : Nat := ws.countP fun w => !w.waits

/-- Nothing is out of order in the channel. -/
structure Sound (c : Channel ρ α) : Prop where
  readers_balanced : c.snapshot.readers.Balanced
  writers_balanced : c.snapshot.writers.Balanced
  apart : c.waiting = [] ∨ c.queued = []
  closed : c.completion.isSome → c.waiting = []
  filled : ∀ w ∈ c.queued, w.value.isSome
  counted : c.snapshot.buffered = unattended c.queued

/-- A sound channel with a buffering, a completion, readers and writers. -/
structure Shows (c : Channel ρ α) (b : Buffering) (x : Option Completion) (rs : List ρ)
    (ws : List (Writer ρ α)) : Prop where
  sound : c.Sound
  buffering : c.buffering = b
  completion : c.completion = x
  waiting : c.waiting = rs
  queued : c.queued = ws

theorem shows_new (b : Buffering) : (new b : Channel ρ α).Shows b none [] [] where
  sound := ⟨PersistentQueue.balanced_empty, PersistentQueue.balanced_empty, .inl rfl, fun _ => rfl,
    fun _ hw => absurd hw List.not_mem_nil, rfl⟩
  buffering := rfl
  completion := rfl
  waiting := rfl
  queued := rfl

/-- The values of writers that still have them. -/
@[simp]
theorem filterMap_value_writers (p : β → Option ρ) (v : β → α) (xs : List β) :
    (xs.map fun x => (⟨p x, some (v x)⟩ : Writer ρ α)).filterMap Writer.value = xs.map v := by
  induction xs with
  | nil => rfl
  | cons x xs ih => simp [ih]

theorem Shows.values {b : Buffering} {x : Option Completion} {rs : List ρ}
    {ws : List (Writer ρ α)} (h : c.Shows b x rs ws) : c.values = ws.filterMap Writer.value := by
  rw [Channel.values, h.queued]

/-- Every writer in the queue has its value. -/
theorem Sound.length_values (h : c.Sound) : c.values.length = c.queued.length := by
  rw [values, List.filterMap_length_eq_length]
  exact h.filled

/-- The channel with the next snapshot in place. -/
def committed (c : Channel ρ α) (s : Snapshot ρ α) : Channel ρ α :=
  { c with cell := c.cell.commit s }

theorem shows_committed {s : Snapshot ρ α} {x : Option Completion} {rs : List ρ}
    {ws : List (Writer ρ α)} (hrb : s.readers.Balanced) (hwb : s.writers.Balanced)
    (hx : s.completion = x) (hr : s.readers.toList = rs) (hw : s.writers.toList = ws)
    (hrw : rs = [] ∨ ws = []) (hc : x.isSome → rs = []) (hv : ∀ w ∈ ws, w.value.isSome)
    (hb : s.buffered = unattended ws) : (c.committed s).Shows c.buffering x rs ws := by
  subst hx hr hw
  exact ⟨⟨hrb, hwb, hrw, hc, hv, hb⟩, rfl, rfl, rfl, rfl⟩

/-! ## Writing -/

/-- What it comes to that a value is written. -/
inductive Writing (c : Channel ρ α) (p : Option ρ) (a : α) : Prop
  | closed (x : Completion) (hx : c.completion = some x)
      (he : c.write p a = ⟨c, [], .refused ⟨x.fault, a⟩⟩)
  | handed (r : ρ) (rs : List ρ) (c' : Channel ρ α) (ho : c.completion = none)
      (hw : c.waiting = r :: rs) (hq : c.queued = []) (hs : c'.Shows c.buffering none rs [])
      (he : c.write p a = ⟨c', [.reader r (.ok a)], .handed⟩)
  | full (ho : c.completion = none) (hw : c.waiting = []) (hp : p = none)
      (hb : c.buffering.admits (unattended c.queued) = false)
      (he : c.write p a = ⟨c, [], .refused ⟨Fault.ofKind .channelFull, a⟩⟩)
  | queued (c' : Channel ρ α) (ho : c.completion = none) (hw : c.waiting = [])
      (hb : p = none → c.buffering.admits (unattended c.queued) = true)
      (hs : c'.Shows c.buffering none [] (c.queued ++ [⟨p, some a⟩]))
      (he : c.write p a = ⟨c', [], .queued⟩)

variable {p : Option ρ} {a : α}

theorem write_closed {x : Completion} (hx : c.snapshot.completion = some x) :
    c.write p a = ⟨c, [], .refused ⟨x.fault, a⟩⟩ := by
  -- `write` speaks of the version in the cell, of which the snapshot is another name.
  unfold snapshot at hx
  simp [write, Cell.update, Snapshot.write, hx]

theorem write_handed {r : ρ} {readers : PersistentQueue ρ} (ho : c.snapshot.completion = none)
    (hd : c.snapshot.readers.dequeue? = some (r, readers)) :
    c.write p a = ⟨c.committed { c.snapshot with readers }, [.reader r (.ok a)], .handed⟩ := by
  unfold snapshot at ho hd
  simp [write, Cell.update, Snapshot.write, ho, hd, handOver, committed, snapshot]

theorem write_full (ho : c.snapshot.completion = none)
    (hd : c.snapshot.readers.dequeue? = none)
    (hb : c.buffering.admits c.snapshot.buffered = false) :
    c.write none a = ⟨c, [], .refused ⟨Fault.ofKind .channelFull, a⟩⟩ := by
  unfold snapshot at ho hd hb
  simp [write, Cell.update, Snapshot.write, ho, hd, hb, Writer.waits]

theorem write_queued (ho : c.snapshot.completion = none)
    (hd : c.snapshot.readers.dequeue? = none)
    (hb : p = none → c.buffering.admits c.snapshot.buffered = true) :
    c.write p a = ⟨c.committed { c.snapshot with
      writers := c.snapshot.writers.enqueue ⟨p, some a⟩
      buffered := c.snapshot.buffered + if p.isSome then 0 else 1 }, [], .queued⟩ := by
  unfold snapshot at ho hd hb
  cases p <;> simp_all [write, Cell.update, Snapshot.write, Writer.waits, committed, snapshot]

theorem unattended_append (ws : List (Writer ρ α)) :
    unattended (ws ++ [⟨p, some a⟩]) = unattended ws + if p.isSome then 0 else 1 := by
  cases p <;> simp [unattended, Writer.waits]

theorem Sound.writing (h : c.Sound) (p : Option ρ) (a : α) : c.Writing p a := by
  rcases hx : c.completion with _ | x
  · rcases h.readers_balanced.dequeue?_cases with ⟨hnil, hd⟩ | ⟨r, readers, hd, hl, hb⟩
    · -- Nobody waits for the value, so that it is queued if it may be.
      by_cases hf : p = none ∧ c.buffering.admits (unattended c.queued) = false
      · -- A writer that does not wait finds no room.
        obtain ⟨rfl, hadm⟩ := hf
        exact .full hx hnil rfl hadm (write_full hx hd (by rwa [h.counted]))
      · have hadm : p = none → c.buffering.admits (unattended c.queued) = true := fun hp =>
          eq_true_of_ne_false fun hadm => hf ⟨hp, hadm⟩
        refine .queued _ hx hnil hadm ?_ (write_queued hx hd (by rwa [h.counted]))
        refine shows_committed h.readers_balanced (h.writers_balanced.enqueue _) hx hnil
          (PersistentQueue.toList_enqueue _ _) (.inl rfl) (fun _ => rfl) (fun w hw => ?_) ?_
        · rcases List.mem_append.1 hw with hw | hw
          · exact h.filled w hw
          · rw [List.mem_singleton.1 hw]
            rfl
        · exact (congrArg (· + _) h.counted).trans (unattended_append _).symm
    · -- A reader waits, so that no writer does.
      have hw : c.waiting = r :: readers.toList := hl
      have hq : c.queued = [] := h.apart.resolve_left (by simp [hw])
      refine .handed r _ _ hx hw hq ?_ (write_handed hx hd)
      exact shows_committed hb h.writers_balanced hx rfl hq (.inr rfl)
        (fun hs => absurd hs (by simp))
        (fun _ hw => absurd hw List.not_mem_nil) (h.counted.trans (congrArg unattended hq))
  · exact .closed x hx (write_closed hx)

/-! ## Reading -/

/-- What it comes to that a value is read. -/
inductive Reading (c : Channel ρ α) (p : Option ρ) : Prop
  | took (r : Option ρ) (a : α) (ws : List (Writer ρ α)) (c' : Channel ρ α)
      (hq : c.queued = ⟨r, some a⟩ :: ws) (hw : c.waiting = [])
      (hs : c'.Shows c.buffering c.completion [] ws)
      (he : c.read p = ⟨c', r.toList.map fun w => .writer w (.ok ()), .settled (.ok a)⟩)
  | closed (x : Completion) (hx : c.completion = some x) (hq : c.queued = [])
      (he : c.read p = ⟨c, [], .settled (.error x.fault)⟩)
  | blocked (ho : c.completion = none) (hq : c.queued = []) (hp : p = none)
      (he : c.read p = ⟨c, [], .settled (.error (Fault.ofKind .wouldBlock))⟩)
  | queued (r : ρ) (c' : Channel ρ α) (ho : c.completion = none) (hq : c.queued = [])
      (hp : p = some r) (hs : c'.Shows c.buffering none (c.waiting ++ [r]) [])
      (he : c.read p = ⟨c', [], .queued⟩)

theorem read_took {r : Option ρ} {writers : PersistentQueue (Writer ρ α)}
    (hd : c.snapshot.writers.dequeue? = some (⟨r, some a⟩, writers)) :
    c.read p = ⟨c.committed { c.snapshot with
        writers
        buffered := c.snapshot.buffered - if r.isSome then 0 else 1 },
      r.toList.map fun w => .writer w (.ok ()), .settled (.ok a)⟩ := by
  unfold snapshot at hd
  cases r <;>
    simp [read, Cell.update, Snapshot.read, hd, handOver, Writer.waits, committed, snapshot]

theorem read_closed {x : Completion} (hd : c.snapshot.writers.dequeue? = none)
    (hx : c.snapshot.completion = some x) : c.read p = ⟨c, [], .settled (.error x.fault)⟩ := by
  unfold snapshot at hd hx
  simp [read, Cell.update, Snapshot.read, hd, hx]

theorem read_blocked (hd : c.snapshot.writers.dequeue? = none)
    (ho : c.snapshot.completion = none) :
    c.read none = ⟨c, [], .settled (.error (Fault.ofKind .wouldBlock))⟩ := by
  unfold snapshot at hd ho
  simp [read, Cell.update, Snapshot.read, hd, ho]

theorem read_queued {r : ρ} (hd : c.snapshot.writers.dequeue? = none)
    (ho : c.snapshot.completion = none) :
    c.read (some r) = ⟨c.committed { c.snapshot with
      readers := c.snapshot.readers.enqueue r }, [], .queued⟩ := by
  unfold snapshot at hd ho
  simp [read, Cell.update, Snapshot.read, hd, ho, committed, snapshot]

theorem unattended_cons (r : Option ρ) (ws : List (Writer ρ α)) :
    unattended (⟨r, some a⟩ :: ws) = unattended ws + if r.isSome then 0 else 1 := by
  cases r <;> simp [unattended, Writer.waits]

theorem Sound.reading (h : c.Sound) (p : Option ρ) : c.Reading p := by
  rcases h.writers_balanced.dequeue?_cases with ⟨hnil, hd⟩ | ⟨⟨r, value⟩, writers, hd, hl, hb⟩
  · have hq : c.queued = [] := hnil
    rcases hx : c.completion with _ | x
    · rcases p with _ | r
      · exact .blocked hx hq rfl (read_blocked hd hx)
      · refine .queued r _ hx hq rfl ?_ (read_queued hd hx)
        exact shows_committed (h.readers_balanced.enqueue r) h.writers_balanced hx
          (PersistentQueue.toList_enqueue _ _) hq (.inr rfl) (fun hs => absurd hs (by simp))
          (fun _ hw => absurd hw List.not_mem_nil) (h.counted.trans (congrArg unattended hq))
    · -- Only now the completion counts: what was written before is read first.
      exact .closed x hx hq (read_closed hd hx)
  · -- The oldest value is taken, and no reader waits behind it.
    have hq : c.queued = ⟨r, value⟩ :: writers.toList := hl
    have hw : c.waiting = [] := h.apart.resolve_right (by simp [hq])
    obtain ⟨a, rfl⟩ : ∃ a, value = some a :=
      Option.isSome_iff_exists.1 (h.filled ⟨r, value⟩ (by simp [hq]))
    refine .took r a _ _ hq hw ?_ (read_took hd)
    refine shows_committed h.readers_balanced hb rfl hw rfl (.inl rfl) (fun _ => rfl)
      (fun w hw => h.filled w (by rw [hq]; exact List.mem_cons_of_mem _ hw)) ?_
    have hc := h.counted
    rw [hq, unattended_cons] at hc
    simp only [hc, Nat.add_sub_cancel]

/-- A read that does not wait is never queued. -/
theorem tryRead_eq_read (h : c.Sound) :
    ∃ o, (c.read none).result = .settled o ∧
      c.tryRead = ⟨(c.read none).channel, (c.read none).resolutions, o⟩ := by
  cases h.reading none with
  | took r a ws c' hq hw hs he => exact ⟨.ok a, by simp [tryRead, he]⟩
  | closed x hx hq he => exact ⟨.error x.fault, by simp [tryRead, he]⟩
  | blocked ho hq hp he => exact ⟨.error (Fault.ofKind .wouldBlock), by simp [tryRead, he]⟩
  | queued r c' ho hq hp hs he => exact absurd hp (by simp)

/-! ## Ending -/

/-- What it comes to that the channel closes. -/
inductive Closing (c : Channel ρ α) (x : Completion) : Prop
  | closed (hx : c.completion.isSome) (he : c.close x = ⟨c, [], false⟩)
  | closes (c' : Channel ρ α) (ho : c.completion = none)
      (hs : c'.Shows c.buffering (some x) [] c.queued)
      (he : c.close x = ⟨c', c.waiting.map fun r => .reader r (.error x.fault), true⟩)

theorem Sound.closing (h : c.Sound) (x : Completion) : c.Closing x := by
  rcases ho : c.completion with _ | y
  · have ho' : c.cell.current.completion = none := ho
    refine .closes (c.committed { c.snapshot with completion := some x, readers := .empty }) ho
      ?_ ?_
    · exact shows_committed PersistentQueue.balanced_empty h.writers_balanced rfl rfl rfl (.inl rfl)
        (fun _ => rfl) h.filled h.counted
    · -- The readers are told in the order of a walk over their queue.
      rw [waiting, ← h.readers_balanced.walked_fst]
      simp [close, Cell.update, Snapshot.close, ho', committed, snapshot]
  · have ho' : c.cell.current.completion = some y := ho
    exact .closed (by simp [ho]) (by simp [close, Cell.update, Snapshot.close, ho'])

/-- A cancellation empties the channel, answers everybody who waits with the fault, and gives
    the values back in order. -/
theorem Sound.cancel (h : c.Sound) (f : Fault) :
    ∃ c' : Channel ρ α, c'.Shows c.buffering (some (.failure f)) [] [] ∧
      c.cancel f = ⟨c', (c.waiting.map fun r => .reader r (.error f)) ++
        c.queued.flatMap fun w => w.resumption.toList.map fun r => .writer r (.error f),
        c.values⟩ := by
  refine ⟨c.committed ⟨some (.failure f), .empty, .empty, 0⟩, ?_, ?_⟩
  · exact shows_committed PersistentQueue.balanced_empty PersistentQueue.balanced_empty rfl rfl rfl
      (.inl rfl) (fun _ => rfl) (fun _ hw => absurd hw List.not_mem_nil) rfl
  · -- Both queues are walked in order, and so are the values that are given back.
    rw [waiting, values, queued, ← h.readers_balanced.walked_fst, ← h.writers_balanced.walked_fst]
    rfl

end ResumeOnce.Channel

import ResumeOnce.Proofs.Fold.Consumer

/-!
# Other names for actions

Neither a channel nor the consumer of a fold looks at the actions that it passes on. With
another name for every action everything comes to the same, told by the other names.

* `PersistentQueue.map`: a queue of other names;
* `Channel.map`, `Channel.write_map`, `Channel.read_map`: a channel that carries them;
* `Consumer.map`, `Consumer.exchange_map`: the consumer of such a channel;
* `Consumer.write_map`, `Consumer.read_map` and so on: what is done to it, and what it does.
-/

namespace ResumeOnce

variable {ρ α α' β β' : Type}

/-! ## Queues -/

namespace SizedList

/-- The list with another name for every value. -/
def map (f : α → α') (l : SizedList α) : SizedList α' := ⟨l.items.map f, l.size⟩

theorem rest_map (f : α → α') (l : SizedList α) : (l.map f).rest = l.rest.map f := by
  obtain ⟨_ | ⟨a, items⟩, size⟩ := l <;> rfl

theorem pushAll_map (f : α → α') (l : SizedList α) (values : List α) :
    (l.map f).pushAll (values.map f) = (l.pushAll values).map f := by
  induction values generalizing l with
  | nil => rfl
  | cons a values ih => exact ih (l.push a)

end SizedList

namespace PersistentQueue

/-- The queue with another name for every value. -/
def map (f : α → α') (q : PersistentQueue α) : PersistentQueue α' := ⟨q.front.map f, q.rear.map f⟩

theorem balanced_map (f : α → α') (front rear : SizedList α) :
    balanced (front.map f) (rear.map f) = (balanced front rear).map f := by
  rw [balanced, balanced]
  -- The sizes are the same, so that both queues move their rear or neither does.
  change (if rear.size ≤ front.size then _ else _) = _
  by_cases h : rear.size ≤ front.size
  · rw [if_pos h, if_pos h]
    rfl
  · rw [if_neg h, if_neg h]
    have hr := SizedList.pushAll_map f .empty rear.items
    have hf := SizedList.pushAll_map f (SizedList.empty.pushAll rear.items) front.items.reverse
    rw [List.map_reverse, ← hr] at hf
    exact congrArg (PersistentQueue.mk · .empty) hf

theorem enqueue_map (f : α → α') (q : PersistentQueue α) (a : α) :
    (q.map f).enqueue (f a) = (q.enqueue a).map f :=
  balanced_map f q.front (q.rear.push a)

theorem dequeue?_map (f : α → α') (q : PersistentQueue α) :
    (q.map f).dequeue? = q.dequeue?.map fun p => (f p.1, p.2.map f) := by
  have hb := balanced_map f q.front.rest q.rear
  rw [← SizedList.rest_map] at hb
  obtain ⟨⟨_ | ⟨a, items⟩, size⟩, rear⟩ := q
  · rfl
  · exact congrArg (fun q => some (f a, q)) hb

end PersistentQueue

/-! ## Channels -/

/-- The writer with another name for its value. -/
def Writer.map (f : α → α') (w : Writer ρ α) : Writer ρ α' := ⟨w.resumption, w.value.map f⟩

/-- The snapshot with another name for every value. -/
def Snapshot.map (f : α → α') (s : Snapshot ρ α) : Snapshot ρ α' :=
  ⟨s.completion, s.readers, s.writers.map (Writer.map f), s.buffered⟩

/-- The channel with another name for every value. -/
def Channel.map (f : α → α') (c : Channel ρ α) : Channel ρ α' :=
  ⟨⟨c.cell.current.map f, c.cell.version⟩, c.buffering⟩

/-- The answer with another name for the value. -/
def Resolution.map (f : α → α') : Resolution ρ α → Resolution ρ α'
  | .reader party answer => .reader party (answer.map f)
  | .writer party answer => .writer party answer

/-- What an operation comes to, with other names for the values and for its result. -/
def Exchanged.map (f : α → α') (g : β → β') (e : Exchanged ρ α β) : Exchanged ρ α' β' :=
  ⟨e.channel.map f, e.resolutions.map (.map f), g e.result⟩

/-- What becomes of a value by another name. -/
def Written.map (f : α → α') : Written α → Written α'
  | .handed => .handed
  | .queued => .queued
  | .refused r => .refused ⟨r.fault, f r.value⟩

/-- What becomes of a read, with another name for the value. -/
def ReadResult.map (f : α → α') : ReadResult α → ReadResult α'
  | .settled answer => .settled (answer.map f)
  | .queued => .queued

namespace Channel

variable {c : Channel ρ α}

theorem write_map (f : α → α') (c : Channel ρ α) (p : Option ρ) (a : α) :
    (c.map f).write p (f a) = (c.write p a).map f (.map f) := by
  rcases hx : c.snapshot.completion with _ | x
  · rcases hd : c.snapshot.readers.dequeue? with _ | ⟨r, readers⟩
    · by_cases hb : p = none → c.buffering.admits c.snapshot.buffered = true
      · have hq := PersistentQueue.enqueue_map (Writer.map f) c.snapshot.writers ⟨p, some a⟩
        rw [write_queued hx hd hb, write_queued (c := c.map f) hx hd hb]
        change (⟨(c.map f).committed { (c.map f).snapshot with
          writers := (c.snapshot.writers.map (.map f)).enqueue (Writer.map f ⟨p, some a⟩)
          buffered := _ }, [], .queued⟩ : Exchanged ρ α' (Written α')) = _
        rw [hq]
        rfl
      · obtain ⟨rfl, hf⟩ := Classical.not_imp.1 hb
        rw [Bool.not_eq_true] at hf
        rw [write_full hx hd hf, write_full (c := c.map f) hx hd hf]
        rfl
    · rw [write_handed hx hd, write_handed (c := c.map f) hx hd]
      rfl
  · rw [write_closed hx, write_closed (c := c.map f) hx]
    rfl

/-- The oldest value is taken out, if it is still there. -/
theorem read_taken {p : Option ρ} {w : Writer ρ α} {writers : PersistentQueue (Writer ρ α)}
    (hd : c.snapshot.writers.dequeue? = some (w, writers)) :
    c.read p = ⟨c.committed { c.snapshot with
        writers
        buffered := c.snapshot.buffered - if w.waits then 0 else 1 },
      w.resumption.toList.map fun r => .writer r (.ok ()), .settled (handOver w)⟩ := by
  unfold snapshot at hd
  simp [read, Cell.update, Snapshot.read, hd, committed, snapshot]

theorem handOver_map (f : α → α') (w : Writer ρ α) :
    handOver (w.map f) = (handOver w).map f := by
  obtain ⟨r, _ | a⟩ := w <;> rfl

theorem read_map (f : α → α') (c : Channel ρ α) (p : Option ρ) :
    (c.map f).read p = (c.read p).map f (.map f) := by
  have hd' := PersistentQueue.dequeue?_map (Writer.map f) c.snapshot.writers
  rcases hd : c.snapshot.writers.dequeue? with _ | ⟨w, writers⟩
  · rw [hd] at hd'
    rcases hx : c.snapshot.completion with _ | x
    · rcases p with _ | r
      · rw [read_blocked hd hx, read_blocked (c := c.map f) hd' hx]
        rfl
      · rw [read_queued hd hx, read_queued (c := c.map f) hd' hx]
        rfl
    · rw [read_closed hd hx, read_closed (c := c.map f) hd' hx]
      rfl
  · rw [hd] at hd'
    rw [read_taken hd, read_taken (c := c.map f) hd', handOver_map, Exchanged.map, List.map_map]
    rfl

theorem tryRead_map (f : α → α') (c : Channel ρ α) :
    (c.map f).tryRead = c.tryRead.map f (Except.map f) := by
  rw [tryRead, tryRead, read_map]
  generalize c.read none = e
  obtain ⟨c', rs, o | -⟩ := e <;> rfl

theorem close_map (f : α → α') (c : Channel ρ α) (x : Completion) :
    (c.map f).close x = (c.close x).map f id := by
  have hs : (c.map f).cell.current = c.cell.current.map f := rfl
  rcases hx : c.cell.current.completion with _ | y
  · simp only [close, Cell.update, Snapshot.close, hs, hx, Snapshot.map, Option.isSome_none,
      Bool.false_eq_true, if_false, Exchanged.map, List.map_map]
    rfl
  · simp only [close, Cell.update, Snapshot.close, hs, hx, Snapshot.map, Option.isSome_some,
      if_true]
    rfl

end Channel

/-! ## The consumer -/

namespace Fold

/-- The turn with another name for its action. -/
def Turn.map (f : α → α') : Turn α → Turn α'
  | .start => .start
  | .checkpoint => .checkpoint
  | .read => .read
  | .reduce a => .reduce (f a)
  | .emit => .emit
  | .close c => .close c
  | .finalize c => .finalize c
  | .drain c => .drain c
  | .dispose a c => .dispose (f a) c
  | .stop c => .stop c

theorem Turn.next_checkpoint_map (f : α → α') (o : Outcome Unit) :
    (Turn.next .checkpoint o : Turn α).map f = Turn.next .checkpoint o := by
  cases o <;> rfl

theorem Turn.next_read_map (f : α → α') (o : Outcome α) :
    (Turn.next .read o).map f = Turn.next .read (o.map f) := by
  cases o <;> rfl

theorem Turn.next_reduce_map (f : α → α') (a : α) (effect : Effect) :
    (Turn.next (.reduce a) effect).map f = Turn.next (.reduce (f a)) effect := by
  cases effect <;> rfl

theorem Turn.next_emit_map (f : α → α') (o : Outcome Unit) :
    (Turn.next .emit o : Turn α).map f = Turn.next .emit o := by
  cases o <;> rfl

theorem Turn.next_drain_map (f : α → α') (c : Completion) (o : Outcome α) :
    (Turn.next (.drain c) o).map f = Turn.next (.drain c) (o.map f) := by
  cases o <;> rfl

namespace Consumer

/-- The consumer with another name for every action. -/
def map (f : α → α') (s : Consumer ρ α) : Consumer ρ α' where
  channel := s.channel.map f
  turn := s.turn.map f
  awaited := s.awaited.map fun w => (w.1, w.2.map (Except.map f))
  cancelled := s.cancelled

theorem goOn_map (f : α → α') (s : Consumer ρ α) (t : Turn α) :
    (s.map f).goOn (t.map f) = (s.goOn t).map f := rfl

variable [DecidableEq ρ]

theorem receive_map (f : α → α') (s : Consumer ρ α) (r : Resolution ρ α) :
    (s.map f).receive (r.map f) = (s.receive r).map f := by
  cases r with
  | writer r o => rfl
  | reader r o =>
    obtain ⟨channel, turn, _ | ⟨p, _ | o'⟩, cancelled⟩ := s
    · rfl
    · by_cases hp : p = r <;> simp [map, receive, Resolution.map, hp]
    · rfl

theorem exchange_map (f : α → α') (g : β → β') (s : Consumer ρ α) (e : Exchanged ρ α β) :
    (s.map f).exchange (e.map f g) = (s.exchange e).map f := by
  obtain ⟨channel, rs, result⟩ := e
  change (rs.map (Resolution.map f)).foldl receive (({ s with channel } : Consumer ρ α).map f) =
    (rs.foldl receive { s with channel }).map f
  generalize ({ s with channel } : Consumer ρ α) = s
  induction rs generalizing s with
  | nil => rfl
  | cons r rs ih =>
    rw [List.map_cons, List.foldl_cons, List.foldl_cons, receive_map, ih]

theorem write_map (f : α → α') (s : Consumer ρ α) (p : Option ρ) (a : α) :
    (s.map f).exchange ((s.map f).channel.write p (f a)) =
      (s.exchange (s.channel.write p a)).map f := by
  rw [← exchange_map f (Written.map f), ← Channel.write_map]
  rfl

theorem close_map (f : α → α') (s : Consumer ρ α) (x : Completion) :
    (s.map f).exchange ((s.map f).channel.close x) = (s.exchange (s.channel.close x)).map f := by
  rw [← exchange_map f id, ← Channel.close_map]
  rfl

theorem finish_map (f : α → α') (s : Consumer ρ α) (x : Completion) :
    (s.map f).finish x = (s.finish x).map f :=
  congrArg (goOn · (Turn.next (.close x) ())) (s.close_map f x)

theorem read_map (f : α → α') (s : Consumer ρ α) (p : ρ) : (s.map f).read p = (s.read p).map f := by
  have hr : (s.map f).channel.read (some p) = (s.channel.read (some p)).map f (ReadResult.map f) :=
    s.channel.read_map f (some p)
  have he := s.exchange_map f (ReadResult.map f) (s.channel.read (some p))
  rw [Consumer.read, Consumer.read, hr, he]
  rcases hx : (s.channel.read (some p)).result with o | -
  · change _ = ((s.exchange (s.channel.read (some p))).goOn (Turn.next .read o)).map f
    rw [← goOn_map, Turn.next_read_map, Exchanged.map, hx]
    rfl
  · rw [Exchanged.map, hx]
    rfl

theorem drain_map (f : α → α') (s : Consumer ρ α) (c : Completion) :
    ((s.map f).exchange (s.map f).channel.tryRead).goOn
        (Turn.next (.drain c) (s.map f).channel.tryRead.result) =
      ((s.exchange s.channel.tryRead).goOn
        (Turn.next (.drain c) s.channel.tryRead.result)).map f := by
  have hr : (s.map f).channel.tryRead = s.channel.tryRead.map f (Except.map f) :=
    s.channel.tryRead_map f
  rw [hr, exchange_map, ← goOn_map, Turn.next_drain_map]
  rfl

end Consumer

end Fold

end ResumeOnce

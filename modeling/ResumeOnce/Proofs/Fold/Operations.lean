import ResumeOnce.Proofs.Fold.Consumer

/-!
# What becomes of a consumer and its channel

Each operation on the channel of a fold, and what it comes to for the consumer: whether it
gets an answer, and what is then in the channel. Nothing but these cases is used of the
operations later on.

* `Consumer.Wrote`, `Consumer.Sound.write`: an action is written;
* `Consumer.Closed`, `Consumer.Sound.close`: the channel closes;
* `Consumer.Reads`, `Consumer.Sound.read`: the consumer reads;
* `Consumer.Drains`, `Consumer.Sound.drain`: it looks for what is left;
* `Consumer.Sound.withdraw`: the actions in the channel are taken back.
-/

namespace ResumeOnce.Fold.Consumer

variable {ρ α : Type} {s s' : Consumer ρ α}

@[simp]
theorem answer_parked (s : Consumer ρ α) (o : Outcome α) : (s.answer o).parked = [] := by
  obtain ⟨channel, turn, _ | ⟨p, _ | a⟩, cancelled⟩ := s <;> rfl

theorem hand_answer_error (s : Consumer ρ α) (f : Fault) :
    (s.answer (.error f)).hand = s.hand := by
  obtain ⟨channel, turn, _ | ⟨p, _ | a⟩, cancelled⟩ := s <;> cases turn <;> rfl

theorem Sound.answer (h : s.Sound) {c : Channel ρ α} {b : Buffering} {x : Option Completion}
    {ws : List (Writer ρ α)} (hs : c.Shows b x [] ws) (o : Outcome α) :
    ({ s with channel := c }.answer o).Sound where
  channel := hs.sound
  waiting := by rw [answer_parked]; exact hs.waiting
  reading ha := h.reading (by simpa [Consumer.answer] using ha)

/-- The consumer goes on without touching the channel. -/
theorem Sound.goOn (h : s.Sound) (ha : s.awaited = none) (t : Turn α) : (s.goOn t).Sound where
  channel := h.channel
  waiting := h.waiting
  reading hs := by simp [ha] at hs

theorem Sound.awaits_nothing (h : s.Sound) (ht : s.turn ≠ .read) : s.awaited = none := by
  simpa using fun hi => ht (h.reading hi)

/-! ## An action is written -/

/-- What it comes to that an action is written. -/
inductive Wrote (s : Consumer ρ α) (p : Option ρ) (a : α) : Written α → Consumer ρ α → Prop
  | closed (x : Completion) (hx : s.channel.completion = some x) :
      Wrote s p a (.refused ⟨x.fault, a⟩) s
  | full (ho : s.channel.completion = none) (hw : s.parked = []) (hp : p = none)
      (hb : s.channel.buffering.admits (Channel.unattended s.channel.queued) = false) :
      Wrote s p a (.refused ⟨Fault.ofKind .channelFull, a⟩) s
  | met (r : ρ) (c : Channel ρ α) (ho : s.channel.completion = none)
      (ha : s.awaited = some (r, none)) (hq : s.channel.queued = [])
      (hs : c.Shows s.channel.buffering none [] []) :
      Wrote s p a .handed { s with channel := c, awaited := some (r, some (.ok a)) }
  | queued (c : Channel ρ α) (ho : s.channel.completion = none) (hw : s.parked = [])
      (hs : c.Shows s.channel.buffering none [] (s.channel.queued ++ [⟨p, some a⟩])) :
      Wrote s p a .queued { s with channel := c }

theorem Wrote.sound {p : Option ρ} {a : α} {w : Written α}
    (hw : Wrote s p a w s') (h : s.Sound) : s'.Sound := by
  cases hw with
  | closed x hx => exact h
  | full ho hw hp hb => exact h
  | met r c ho ha hq hs => exact ⟨hs.sound, hs.waiting, fun _ => h.reading (by simp [ha])⟩
  | queued c ho hw hs => exact ⟨hs.sound, hs.waiting.trans hw.symm, h.reading⟩

theorem Wrote.turn {p : Option ρ} {a : α} {w : Written α} (hw : Wrote s p a w s') :
    s'.turn = s.turn := by
  cases hw with
  | closed x hx => rfl
  | full ho hw hp hb => rfl
  | met r c ho ha hq hs => rfl
  | queued c ho hw hs => rfl

theorem Wrote.waits {p : Option ρ} {a : α} {w : Written α} (hw : Wrote s p a w s') :
    s'.awaited.isSome = s.awaited.isSome := by
  cases hw with
  | closed x hx => rfl
  | full ho hw hp hb => rfl
  | met r c ho ha hq hs => rw [ha]; rfl
  | queued c ho hw hs => rfl

theorem Wrote.cancelled {p : Option ρ} {a : α} {w : Written α} (hw : Wrote s p a w s') :
    s'.cancelled = s.cancelled := by
  cases hw with
  | closed x hx => rfl
  | full ho hw hp hb => rfl
  | met r c ho ha hq hs => rfl
  | queued c ho hw hs => rfl

theorem Wrote.buffering {p : Option ρ} {a : α} {w : Written α} (hw : Wrote s p a w s') :
    s'.channel.buffering = s.channel.buffering := by
  cases hw with
  | closed x hx => rfl
  | full ho hw hp hb => rfl
  | met r c ho ha hq hs => exact hs.buffering
  | queued c ho hw hs => exact hs.buffering

theorem Wrote.completion {p : Option ρ} {a : α} {w : Written α} (hw : Wrote s p a w s') :
    s'.channel.completion = s.channel.completion := by
  cases hw with
  | closed x hx => rfl
  | full ho hw hp hb => rfl
  | met r c ho ha hq hs => exact hs.completion.trans ho.symm
  | queued c ho hw hs => exact hs.completion.trans ho.symm

theorem Wrote.refused {p : Option ρ} {a : α} {w : Written α} (hw : Wrote s p a w s')
    (hc : s.channel.completion.isSome) : (Event.wrote a w).accepted = [] ∧ s' = s := by
  cases hw with
  | closed x hx => exact ⟨rfl, rfl⟩
  | full ho hw hp hb => exact ⟨rfl, rfl⟩
  | met r c ho ha hq hs => simp [ho] at hc
  | queued c ho hw hs => simp [ho] at hc

/-- An action that is accepted comes to the end of the load. -/
theorem Wrote.load {p : Option ρ} {a : α} {w : Written α} (hw : Wrote s p a w s')
    (h : s.Sound) : s'.load = s.load ++ (Event.wrote a w).accepted := by
  cases hw with
  | closed x hx => simp
  | full ho hw hp hb => simp
  | met r c ho ha hq hc =>
    have ht : s.turn = .read := h.reading (by simp [ha])
    simp [Consumer.load, hand, ht, ha, Channel.values, hc.queued, hq]
  | queued c ho hw hc => simp [Consumer.load, hand, Channel.values, hc.queued]

/-! ## The channel closes -/

/-- What it comes to that the channel closes. -/
inductive Closed (s : Consumer ρ α) (x : Completion) : Bool → Consumer ρ α → Prop
  | before (hx : s.channel.completion.isSome) : Closed s x false s
  | now (c : Channel ρ α) (ho : s.channel.completion = none)
      (hs : c.Shows s.channel.buffering (some x) [] s.channel.queued) :
      Closed s x true ({ s with channel := c }.answer (.error x.fault))

theorem Closed.sound {x : Completion} {done : Bool} (hc : Closed s x done s')
    (h : s.Sound) : s'.Sound := by
  cases hc with
  | before hx => exact h
  | now c ho hs => exact h.answer hs _

theorem Closed.turn {x : Completion} {done : Bool} (hc : Closed s x done s') :
    s'.turn = s.turn := by
  cases hc with
  | before hx => rfl
  | now c ho hs => rfl

theorem Closed.awaited {x : Completion} {done : Bool} (hc : Closed s x done s')
    (ha : s.awaited = none) : s'.awaited = none := by
  cases hc with
  | before hx => exact ha
  | now c ho hs => simp [Consumer.answer, ha]

theorem Closed.closes {x : Completion} {done : Bool} (hc : Closed s x done s') :
    s'.channel.completion.isSome := by
  cases hc with
  | before hx => exact hx
  | now c ho hs => exact Option.isSome_iff_exists.2 ⟨x, hs.completion⟩

theorem Closed.cancelled {x : Completion} {done : Bool} (hc : Closed s x done s') :
    s'.cancelled = s.cancelled := by
  cases hc with
  | before hx => rfl
  | now c ho hs => rfl

/-- The channel stays as it is closed, or is closed now. -/
theorem Closed.completion {x : Completion} {done : Bool} (hc : Closed s x done s') :
    s'.channel.completion = s.channel.completion ∨
      (Event.closed (α := α) x done).terminals = [x] ∧ s'.channel.completion = some x := by
  cases hc with
  | before hx => exact .inl rfl
  | now c ho hs => exact .inr ⟨rfl, hs.completion⟩

theorem Closed.buffering {x : Completion} {done : Bool} (hc : Closed s x done s') :
    s'.channel.buffering = s.channel.buffering := by
  cases hc with
  | before hx => rfl
  | now c ho hs => exact hs.buffering

theorem Closed.queued {x : Completion} {done : Bool} (hc : Closed s x done s') :
    s'.channel.queued = s.channel.queued := by
  cases hc with
  | before hx => rfl
  | now c ho hs => exact hs.queued

theorem Closed.load {x : Completion} {done : Bool} (hc : Closed s x done s') :
    s'.load = s.load := by
  cases hc with
  | before hx => rfl
  | now c ho hs =>
    rw [Consumer.load, hand_answer_error]
    exact congrArg (s.hand ++ ·) hs.values

/-! ## The consumer reads -/

/-- What it comes to that the consumer reads. -/
inductive Reads (s : Consumer ρ α) (p : ρ) : Consumer ρ α → Prop
  | took (r : Option ρ) (a : α) (ws : List (Writer ρ α)) (c : Channel ρ α)
      (hq : s.channel.queued = ⟨r, some a⟩ :: ws)
      (hs : c.Shows s.channel.buffering s.channel.completion [] ws) :
      Reads s p ({ s with channel := c }.goOn (.reduce a))
  | closed (x : Completion) (hx : s.channel.completion = some x) (hq : s.channel.queued = []) :
      Reads s p (s.goOn (.close (.ofFault x.fault)))
  | parked (c : Channel ρ α) (ho : s.channel.completion = none) (hq : s.channel.queued = [])
      (hs : c.Shows s.channel.buffering none [p] []) :
      Reads s p { s with channel := c, awaited := some (p, none) }

theorem Reads.sound {p : ρ} (hr : Reads s p s') (h : s.Sound)
    (ha : s.awaited = none) (ht : s.turn = .read) : s'.Sound := by
  have hp : s.parked = [] := by rw [Consumer.parked, ha]
  cases hr with
  | took r a ws c hq hs =>
    exact ⟨hs.sound, hs.waiting.trans hp.symm, fun hi => absurd hi (by simp [ha])⟩
  | closed x hx hq => exact h.goOn ha _
  | parked c ho hq hs => exact ⟨hs.sound, hs.waiting, fun _ => ht⟩

theorem Reads.buffering {p : ρ} (hr : Reads s p s') :
    s'.channel.buffering = s.channel.buffering := by
  cases hr with
  | took r a ws c hq hs => exact hs.buffering
  | closed x hx hq => rfl
  | parked c ho hq hs => exact hs.buffering

theorem Reads.completion {p : ρ} (hr : Reads s p s') :
    s'.channel.completion = s.channel.completion := by
  cases hr with
  | took r a ws c hq hs => exact hs.completion
  | closed x hx hq => rfl
  | parked c ho hq hs => exact hs.completion.trans ho.symm

theorem Reads.cancelled {p : ρ} (hr : Reads s p s') : s'.cancelled = s.cancelled := by
  cases hr with
  | took r a ws c hq hs => rfl
  | closed x hx hq => rfl
  | parked c ho hq hs => rfl

theorem Reads.stays_empty {p : ρ} (hr : Reads s p s') (hq : s.channel.queued = []) :
    s'.channel.queued = [] := by
  cases hr with
  | took r a ws c hq' hs => simp [hq] at hq'
  | closed x hx hq => exact hq
  | parked c ho hq hs => exact hs.queued

/-- The oldest action in the channel comes into the hand. -/
theorem Reads.load {p : ρ} (hr : Reads s p s') (ht : s.turn = .read) (ha : s.awaited = none) :
    s'.load = s.load := by
  cases hr with
  | took r a ws c hq hs => simp [Consumer.load, hand, ht, ha, Channel.values, hs.queued, hq]
  | closed x hx hq => simp [Consumer.load, hand, ht, ha]
  | parked c ho hq hs => simp [Consumer.load, hand, ht, ha, Channel.values, hs.queued, hq]

/-! ## The consumer looks for what is left -/

/-- What it comes to that the consumer looks for an action that is left. -/
inductive Drains (s : Consumer ρ α) : Outcome α → Consumer ρ α → Prop
  | took (r : Option ρ) (a : α) (ws : List (Writer ρ α)) (c : Channel ρ α)
      (hq : s.channel.queued = ⟨r, some a⟩ :: ws)
      (hs : c.Shows s.channel.buffering s.channel.completion [] ws) :
      Drains s (.ok a) { s with channel := c }
  | empty (f : Fault) (hq : s.channel.queued = []) : Drains s (.error f) s

theorem Drains.sound {o : Outcome α} (hd : Drains s o s') (h : s.Sound)
    (ha : s.awaited = none) : s'.Sound ∧ s'.awaited = none := by
  have hp : s.parked = [] := by rw [Consumer.parked, ha]
  cases hd with
  | took r a ws c hq hs => exact ⟨⟨hs.sound, hs.waiting.trans hp.symm, h.reading⟩, ha⟩
  | empty f hq => exact ⟨h, ha⟩

theorem Drains.buffering {o : Outcome α} (hd : Drains s o s') :
    s'.channel.buffering = s.channel.buffering := by
  cases hd with
  | took r a ws c hq hs => exact hs.buffering
  | empty f hq => rfl

theorem Drains.completion {o : Outcome α} (hd : Drains s o s') :
    s'.channel.completion = s.channel.completion := by
  cases hd with
  | took r a ws c hq hs => exact hs.completion
  | empty f hq => rfl

theorem Drains.cancelled {o : Outcome α} (hd : Drains s o s') : s'.cancelled = s.cancelled := by
  cases hd with
  | took r a ws c hq hs => rfl
  | empty f hq => rfl

theorem Drains.stays_empty {o : Outcome α} (hd : Drains s o s') (hq : s.channel.queued = []) :
    s'.channel.queued = [] := by
  cases hd with
  | took r a ws c hq' hs => simp [hq] at hq'
  | empty f hq => exact hq

theorem Drains.load {o : Outcome α} (hd : Drains s o s') {c : Completion}
    (ht : s.turn = .drain c) :
    (s'.goOn (Turn.next (.drain c) o)).load = s.load := by
  cases hd with
  | took r a ws c hq hs =>
    simp [Consumer.load, hand, ht, Channel.values, hs.queued, hq, Turn.next]
  | empty f hq => simp [Consumer.load, hand, ht, Turn.next]

/-! ## Operations on the channel -/

variable [DecidableEq ρ]

/-- A consumer that does not wait is reached by nothing. -/
theorem foldl_receive_of_idle (ha : s.awaited = none) (rs : List (Resolution ρ α)) :
    rs.foldl receive s = s := by
  induction rs with
  | nil => rfl
  | cons r rs ih =>
    have hr : s.receive r = s := by cases r <;> simp [receive, ha]
    rw [List.foldl_cons, hr, ih]

theorem exchange_of_idle (ha : s.awaited = none) (e : Exchanged ρ α β) :
    s.exchange e = { s with channel := e.channel } :=
  foldl_receive_of_idle (s := { s with channel := e.channel }) ha _

/-- A resolution changes nothing but what the consumer waits for. -/
theorem receive_eq (s : Consumer ρ α) (r : Resolution ρ α) :
    s.receive r = { s with awaited := (s.receive r).awaited } := by
  cases r with
  | reader r o =>
    rw [receive]
    split
    · split <;> rfl
    · rfl
  | writer r o => rfl

theorem foldl_receive_eq (s : Consumer ρ α) (rs : List (Resolution ρ α)) :
    rs.foldl receive s = { s with awaited := (rs.foldl receive s).awaited } := by
  induction rs generalizing s with
  | nil => rfl
  | cons r rs ih =>
    rw [List.foldl_cons, ih, receive_eq]

/-- An operation changes the channel, and what the consumer waits for. -/
theorem exchange_eq (s : Consumer ρ α) (e : Exchanged ρ α β) :
    s.exchange e = { s with channel := e.channel, awaited := (s.exchange e).awaited } :=
  foldl_receive_eq _ _

theorem foldl_receive_writers (o : Outcome Unit) (rs : List ρ) (s : Consumer ρ α) :
    (rs.map (Resolution.writer · o)).foldl receive s = s := by
  induction rs with
  | nil => rfl
  | cons r rs ih => exact ih

theorem exchange_writers (s : Consumer ρ α) (c : Channel ρ α) (o : Outcome Unit) (rs : List ρ)
    (x : β) : s.exchange ⟨c, rs.map (Resolution.writer · o), x⟩ = { s with channel := c } :=
  foldl_receive_writers o rs _

/-- Whoever waits in the channel is answered, and that is the consumer. -/
theorem Sound.foldl_receive_readers {s : Consumer ρ α} (h : s.Sound) (c : Channel ρ α)
    (o : Outcome α) :
    (s.channel.waiting.map (Resolution.reader · o)).foldl receive { s with channel := c } =
      { s with channel := c }.answer o := by
  rw [h.waiting]
  obtain ⟨channel, turn, _ | ⟨p, _ | a⟩, cancelled⟩ := s <;>
    simp [parked, Consumer.answer, receive]

theorem Sound.write (h : s.Sound) (p : Option ρ) (a : α) :
    Wrote s p a (s.channel.write p a).result (s.exchange (s.channel.write p a)) := by
  cases h.channel.writing p a with
  | closed x hx he =>
    rw [he]
    exact .closed x hx
  | handed r rs c ho hw hq hs he =>
    have hp : s.parked = r :: rs := h.waiting.symm.trans hw
    -- The consumer alone reads, so the reader that was met is the consumer.
    obtain ⟨ha, rfl⟩ : s.awaited = some (r, none) ∧ rs = [] := by
      obtain ⟨channel, turn, _ | ⟨r', _ | o⟩, cancelled⟩ := s <;> simp_all [parked]
    have hx := h.foldl_receive_readers c (.ok a)
    rw [hw] at hx
    rw [List.map_cons, List.map_nil] at hx
    rw [he, exchange, hx, Consumer.answer, ha]
    exact .met r c ho ha hq hs
  | full ho hw hp hb he =>
    rw [he]
    exact .full ho (h.waiting.symm.trans hw) hp hb
  | queued c ho hw hb hs he =>
    rw [he]
    exact .queued c ho (h.waiting.symm.trans hw) hs

theorem Sound.close (h : s.Sound) (x : Completion) :
    Closed s x (s.channel.close x).result (s.exchange (s.channel.close x)) := by
  cases h.channel.closing x with
  | closed hx he =>
    rw [he]
    exact .before hx
  | closes c ho hs he =>
    rw [he, exchange, h.foldl_receive_readers]
    exact .now c ho hs

theorem Sound.withdraw (h : s.Sound) (f : Fault) :
    ∃ c : Channel ρ α, c.Shows s.channel.buffering (some (.failure f)) [] [] ∧
      (s.channel.cancel f).result = s.channel.values ∧
      s.exchange (s.channel.cancel f) = { s with channel := c }.answer (.error f) := by
  obtain ⟨c, hs, he⟩ := h.channel.cancel f
  refine ⟨c, hs, by rw [he], ?_⟩
  rw [he, exchange, List.foldl_append, h.foldl_receive_readers, ← List.map_flatMap,
    foldl_receive_writers]

theorem Sound.read (h : s.Sound) (ha : s.awaited = none) (p : ρ) : Reads s p (s.read p) := by
  have hw : s.channel.waiting = [] := by rw [h.waiting, parked, ha]
  cases h.channel.reading (some p) with
  | took r a ws c hq hw' hs he =>
    rw [Consumer.read, he, exchange_writers]
    exact .took r a ws c hq hs
  | closed x hx hq he =>
    rw [Consumer.read, he]
    exact .closed x hx hq
  | blocked ho hq hp he => cases hp
  | queued r c ho hq hp hs he =>
    obtain rfl := Option.some.inj hp
    rw [hw] at hs
    rw [Consumer.read, he]
    exact .parked c ho hq hs

theorem Sound.drain (h : s.Sound) :
    Drains s s.channel.tryRead.result (s.exchange s.channel.tryRead) := by
  obtain ⟨o, ho, hr⟩ := Channel.tryRead_eq_read h.channel
  rw [hr]
  cases h.channel.reading none with
  | took r a ws c hq hw hs he =>
    rw [he] at ho ⊢
    cases ho
    rw [exchange_writers]
    exact .took r a ws c hq hs
  | closed x hx hq he =>
    rw [he] at ho ⊢
    cases ho
    exact .empty _ hq
  | blocked hc hq hp he =>
    rw [he] at ho ⊢
    cases ho
    exact .empty _ hq
  | queued r c hc hq hp hs he => cases hp

end ResumeOnce.Fold.Consumer

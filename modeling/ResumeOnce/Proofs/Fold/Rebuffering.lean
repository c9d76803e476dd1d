import ResumeOnce.Proofs.Fold.Steps

/-!
# Another buffering

A channel asks its buffering only when a value is written without waiting. With another
buffering that has room for the value, everything goes on in the same way; the only
difference is a value that was refused because the channel was full.

* `Channel.rebuffer`, `Channel.Sound.write_rebuffer`: a channel with another buffering;
* `Consumer.rebuffer`, `Consumer.exchange_rebuffer`: the consumer of such a channel;
* `Consumer.Step.rebuffer`: it goes on in the same way.
-/

namespace ResumeOnce

variable {ρ α β : Type}

/-- A channel with another buffering. -/
def Channel.rebuffer (c : Channel ρ α) (b : Buffering) : Channel ρ α := { c with buffering := b }

/-- What an operation comes to on a channel with another buffering. -/
def Exchanged.rebuffer (e : Exchanged ρ α β) (b : Buffering) : Exchanged ρ α β :=
  { e with channel := e.channel.rebuffer b }

namespace Channel

variable {c : Channel ρ α}

theorem Sound.rebuffer (h : c.Sound) (b : Buffering) : (c.rebuffer b).Sound :=
  ⟨h.readers_balanced, h.writers_balanced, h.apart, h.closed, h.filled, h.counted⟩

theorem read_rebuffer (c : Channel ρ α) (b : Buffering) (p : Option ρ) :
    (c.rebuffer b).read p = (c.read p).rebuffer b := by
  have hc : (c.rebuffer b).cell = c.cell := rfl
  rw [Channel.read, Channel.read, hc]
  cases (c.cell.update (·.read p)).outcome <;> rfl

theorem tryRead_rebuffer (c : Channel ρ α) (b : Buffering) :
    (c.rebuffer b).tryRead = c.tryRead.rebuffer b := by
  have hr : ((c.read none).rebuffer b).result = (c.read none).result := rfl
  rw [tryRead, tryRead, read_rebuffer, hr]
  cases (c.read none).result <;> rfl

theorem close_rebuffer (c : Channel ρ α) (b : Buffering) (x : Completion) :
    (c.rebuffer b).close x = (c.close x).rebuffer b := by
  have hc : (c.rebuffer b).cell = c.cell := rfl
  rw [close, close, hc]
  cases (c.cell.update (·.close x)).outcome <;> rfl

/-- If the other buffering has room for a value, it is written in the same way, unless it was
    refused because the channel was full. -/
theorem Sound.write_rebuffer (h : c.Sound) {b : Buffering}
    (hb : b.admits (unattended c.queued) = true) (p : Option ρ) (a : α) :
    (c.rebuffer b).write p a = (c.write p a).rebuffer b ∨
      c.completion = none ∧ c.buffering.admits (unattended c.queued) = false ∧
        c.write p a = ⟨c, [], .refused ⟨Fault.ofKind .channelFull, a⟩⟩ := by
  rcases hx : c.snapshot.completion with _ | x
  · rcases hd : c.snapshot.readers.dequeue? with _ | ⟨r, readers⟩
    · by_cases hp : p = none → c.buffering.admits c.snapshot.buffered = true
      · rw [write_queued hx hd hp]
        exact .inl (write_queued (c := c.rebuffer b) hx hd fun _ => h.counted ▸ hb)
      · obtain ⟨rfl, hf⟩ := Classical.not_imp.1 hp
        rw [Bool.not_eq_true] at hf
        exact .inr ⟨hx, h.counted ▸ hf, write_full hx hd hf⟩
    · rw [write_handed hx hd]
      exact .inl (write_handed (c := c.rebuffer b) hx hd)
  · rw [write_closed hx]
    exact .inl (write_closed (c := c.rebuffer b) hx)

end Channel

namespace Fold.Consumer

variable {s s' : Consumer ρ α}

/-- A consumer whose channel has another buffering. -/
def rebuffer (s : Consumer ρ α) (b : Buffering) : Consumer ρ α :=
  { s with channel := s.channel.rebuffer b }

theorem Sound.rebuffer (h : s.Sound) (b : Buffering) : (s.rebuffer b).Sound :=
  ⟨h.channel.rebuffer b, h.waiting, h.reading⟩

variable [DecidableEq ρ]

theorem receive_rebuffer (s : Consumer ρ α) (b : Buffering) (r : Resolution ρ α) :
    (s.rebuffer b).receive r = (s.receive r).rebuffer b := by
  cases r with
  | writer r o => rfl
  | reader r o =>
    have ha : (s.rebuffer b).awaited = s.awaited := rfl
    rw [receive, receive, ha]
    rcases s.awaited with _ | ⟨p, _ | o'⟩
    · rfl
    · by_cases hp : p = r <;> simp [hp, rebuffer]
    · rfl

theorem foldl_receive_rebuffer (s : Consumer ρ α) (b : Buffering) (rs : List (Resolution ρ α)) :
    rs.foldl receive (s.rebuffer b) = (rs.foldl receive s).rebuffer b := by
  induction rs generalizing s with
  | nil => rfl
  | cons r rs ih => rw [List.foldl_cons, List.foldl_cons, receive_rebuffer, ih]

theorem exchange_rebuffer (s : Consumer ρ α) (b : Buffering) (e : Exchanged ρ α β) :
    (s.rebuffer b).exchange (e.rebuffer b) = (s.exchange e).rebuffer b :=
  foldl_receive_rebuffer { s with channel := e.channel } b e.resolutions

theorem close_rebuffer (s : Consumer ρ α) (b : Buffering) (x : Completion) :
    (s.rebuffer b).exchange ((s.rebuffer b).channel.close x) =
      (s.exchange (s.channel.close x)).rebuffer b := by
  rw [← exchange_rebuffer, ← Channel.close_rebuffer]
  rfl

theorem finish_rebuffer (s : Consumer ρ α) (b : Buffering) (x : Completion) :
    (s.rebuffer b).finish x = (s.finish x).rebuffer b :=
  congrArg (goOn · (Turn.next (.close x) ())) (s.close_rebuffer b x)

theorem read_rebuffer (s : Consumer ρ α) (b : Buffering) (p : ρ) :
    (s.rebuffer b).read p = (s.read p).rebuffer b := by
  have hr : (s.rebuffer b).channel.read (some p) = (s.channel.read (some p)).rebuffer b :=
    s.channel.read_rebuffer b (some p)
  have hx : ((s.channel.read (some p)).rebuffer b).result = (s.channel.read (some p)).result := rfl
  rw [Consumer.read, Consumer.read, hr, exchange_rebuffer, hx]
  cases (s.channel.read (some p)).result <;> rfl

/-- By itself a consumer goes on in the same way, whatever the buffering of its channel. -/
theorem Step.rebuffer (h : Step s .tacit s') (b : Buffering) :
    Step (s.rebuffer b) .tacit (s'.rebuffer b) := by
  cases h with
  | checkpoint ht => exact .checkpoint ht
  | read p ht ha =>
    rw [← read_rebuffer]
    exact .read p ht ha
  | resume ht ha => exact .resume ht ha
  | @drain c ht =>
    have hd := s.channel.tryRead_rebuffer b
    have hx : ((s.exchange s.channel.tryRead).goOn
        (Turn.next (.drain c) s.channel.tryRead.result)).rebuffer b =
        ((s.rebuffer b).exchange (s.rebuffer b).channel.tryRead).goOn
          (Turn.next (.drain c) (s.rebuffer b).channel.tryRead.result) := by
      change ((s.exchange s.channel.tryRead).rebuffer b).goOn
        (Turn.next (.drain c) (s.channel.tryRead.rebuffer b).result) = _
      rw [← exchange_rebuffer, ← hd]
      rfl
    rw [hx]
    exact .drain ht

end Fold.Consumer

end ResumeOnce

import ResumeOnce.Proofs.Fold.Steps

/-!
# A fold that nobody disturbs

As long as nobody closes the channel of a fold or cancels it, the loop ends only by what
the folder says: the consumer itself always finds a reason to go on.

* `Consumer.Undisturbed`: nothing tells the consumer to end the loop;
* `Consumer.Step.undisturbed`: only who closes the channel or cancels the fold disturbs it;
* `Consumer.Step.loops`: the consumer by itself does not end the loop.
-/

namespace ResumeOnce.Fold.Consumer

variable {ρ α : Type} {s s' : Consumer ρ α}

/-- Nothing tells the consumer to end the loop: the channel is open, the fold is not cancelled,
    and the read that it waits for has not failed. -/
structure Undisturbed (s : Consumer ρ α) : Prop where
  opened : s.channel.completion = none
  allowed : s.cancelled = false
  untold : ∀ p f, s.awaited ≠ some (p, some (.error f))

theorem undisturbed_new (b : Buffering) : (new b : Consumer ρ α).Undisturbed where
  opened := rfl
  allowed := rfl
  untold _ _ h := nomatch h

theorem Wrote.untold {p : Option ρ} {a : α} {w : Written α} (hw : Wrote s p a w s')
    (h : s.Undisturbed) (q : ρ) (f : Fault) : s'.awaited ≠ some (q, some (.error f)) := by
  cases hw with
  | closed x hx => exact h.untold q f
  | full ho hw hp hb => exact h.untold q f
  | met r c ho ha hq hs => simp
  | queued c ho hw hs => exact h.untold q f

theorem Closed.untold {x : Completion} {done : Bool} (hc : Closed s x done s')
    (ht : (Event.closed (α := α) x done).terminals = []) (h : s.Undisturbed) (q : ρ) (f : Fault) :
    s'.awaited ≠ some (q, some (.error f)) := by
  cases hc with
  | before hx => exact h.untold q f
  | now c ho hs => cases ht

theorem Reads.untold {p : ρ} (hr : Reads s p s') (h : s.Undisturbed) (q : ρ) (f : Fault) :
    s'.awaited ≠ some (q, some (.error f)) := by
  cases hr with
  | took r a ws c hq hs => exact h.untold q f
  | closed x hx hq => exact h.untold q f
  | parked c ho hq hs => simp

theorem Drains.untold {o : Outcome α} (hd : Drains s o s') (h : s.Undisturbed) (q : ρ)
    (f : Fault) : s'.awaited ≠ some (q, some (.error f)) := by
  cases hd with
  | took r a ws c hq hs => exact h.untold q f
  | empty f hq => exact h.untold q _

variable [DecidableEq ρ]

/-- Only who closes the channel or cancels the fold disturbs it. -/
theorem Step.undisturbed {e : Event α} (hs : Step s e s') (h : s.Sound) (hu : s.Undisturbed)
    (hx : e ≠ .cancelled) (ht : e.terminals = []) : s'.Undisturbed where
  opened := by
    refine ((hs.completion h).resolve_right ?_).trans hu.opened
    rintro ⟨c, hc, -⟩
    simp [ht] at hc
  allowed := ((hs.cancelled h).resolve_right hx).trans hu.allowed
  untold := by
    cases hs with
    | write p a => exact (h.write p a).untold hu
    | close c => exact (h.close c).untold ht hu
    | withdraw f => cases ht
    | cancel => exact absurd rfl hx
    | read p hr ha => exact (h.read ha p).untold hu
    | resume hr ha => simp
    | finish hc => exact (h.close _).untold ht hu
    | drain hd => exact h.drain.untold hu
    | _ => exact hu.untold

/-- The consumer by itself does not end the loop. -/
theorem Step.loops (hs : Step s .tacit s') (h : s.Sound) (hu : s.Undisturbed)
    (hn : s.turn.completion? = none) : s'.turn.completion? = none := by
  cases hs with
  | checkpoint ht =>
    rcases hc : s.checkpoint with f | _
    · simp [Consumer.checkpoint, hu.allowed] at hc
    · rfl
  | read p ht ha =>
    have hr := h.read ha p
    generalize s.read p = s' at hr ⊢
    cases hr with
    | took r a ws c hq hs => rfl
    | closed x hx hq => simp [hu.opened] at hx
    | parked c ho hq hs => exact hn
  | @resume p o ht ha =>
    rcases o with f | a
    · exact absurd ha (hu.untold p f)
    · rfl
  | drain ht => simp [ht, Turn.completion?] at hn

end ResumeOnce.Fold.Consumer

import ResumeOnce.Proofs.Fold.Steps

/-!
# The history of a folder

A folder is called in one order: it starts, reduces and emits in rounds, the loop ends in
one of four ways, it finalizes once, and it disposes of what is left. At each turn of the
consumer the calls so far are the begin of such a history, and whatever ends the loop
stands in the run.

* `Ending`, `History`: how a loop ends, and the calls of a folder from begin to end;
* `Reasons`, `Reasons.step`: why the loop may end;
* `Reached`, `Reached.step`: how far the calls are at a turn;
* `Reached.history`: that they are the begin of a history.
-/

namespace ResumeOnce.Fold

variable {ρ α : Type}

/-! ## Histories -/

/-- How the loop of a fold ends. -/
inductive Ending (α : Type) where
  /-- A reduction completes it. -/
  | reduced (action : α) (c : Completion)
  /-- An emission fails. -/
  | emitted (action : α) (f : Fault)
  /-- There is nothing left to read in a channel that was closed. -/
  | closed (x : Completion)
  /-- A checkpoint tells that the fold was cancelled. -/
  | cancelled

namespace Ending

/-- The completion that ends the loop. -/
def completion : Ending α → Completion
  | reduced _ c => c
  | emitted _ f => .ofFault f
  | closed x => .ofFault x.fault
  | cancelled => .failure Fault.cancelled

/-- The calls in the last round. -/
def calls : Ending α → List (Call α)
  | reduced a c => [.reduce a (.completion c)]
  | emitted a f => [.reduce a .none, .emit (.error f)]
  | closed _ => []
  | cancelled => []

/-- The actions that were reduced in the last round. -/
def actions : Ending α → List α
  | reduced a _ => [a]
  | emitted a _ => [a]
  | closed _ => []
  | cancelled => []

/-- Something in a run is the reason of the ending: the channel got the completion, or the fold
    was cancelled. -/
def Holds (t : List (Event α)) : Ending α → Prop
  | closed x => x ∈ terminals t
  | cancelled => .cancelled ∈ t
  | _ => True

theorem Holds.snoc {t : List (Event α)} {x : Ending α} (h : x.Holds t) (e : Event α) :
    x.Holds (t ++ [e]) := by
  cases x with
  | closed x =>
    rw [Holds, terminals_snoc]
    exact List.mem_append_left _ h
  | cancelled => exact List.mem_append_left _ h
  | _ => trivial

end Ending

/-- The calls of a folder that goes on after some rounds. -/
def looped (rounds : List α) : List (Call α) :=
  .start :: rounds.flatMap fun a => [.reduce a .none, .emit (.ok ())]

/-- What becomes of a fold: the actions of the rounds after which it went on, how its loop
    ended, and the actions that were disposed of. -/
structure History (α : Type) where
  rounds : List α
  ending : Ending α
  disposed : List α

namespace History

/-- The actions that were reduced, in order. -/
def reduced (h : History α) : List α := h.rounds ++ h.ending.actions

/-- The calls of the folder, in order. -/
def calls (h : History α) : List (Call α) :=
  looped h.rounds ++ h.ending.calls ++ .finalize h.ending.completion ::
    h.disposed.map (.dispose · h.ending.completion)

end History

@[simp]
theorem looped_snoc (rounds : List α) (a : α) :
    looped (rounds ++ [a]) = looped rounds ++ [.reduce a .none] ++ [.emit (.ok ())] := by
  simp [looped]

theorem taken_looped (rounds : List α) : taken (looped rounds) = rounds := by
  induction rounds with
  | nil => rfl
  | cons a rounds ih =>
    simp only [looped, taken, List.flatMap_cons, List.flatMap_append] at ih ⊢
    simpa [Call.taken] using ih

theorem taken_calls (h : History α) : taken h.calls = h.reduced ++ h.disposed := by
  have hd : taken (h.disposed.map (Call.dispose · h.ending.completion)) = h.disposed := by
    simp [taken, List.flatMap_map, Call.taken]
  have hf : taken [Call.finalize h.ending.completion] = ([] : List α) := rfl
  have he : taken h.ending.calls = h.ending.actions := by cases h.ending <;> rfl
  rw [History.calls, History.reduced, ← List.singleton_append, taken_append, taken_append,
    taken_append, taken_looped, he, hd, hf, List.nil_append]

/-! ## Why the loop ends -/

variable {t : List (Event α)} {e : Event α} {s s' : Consumer ρ α}

/-- Whatever tells the consumer to end the loop stands in the run. -/
structure Reasons (t : List (Event α)) (s : Consumer ρ α) : Prop where
  terminal : ∀ x, s.channel.completion = some x → x ∈ terminals t
  cancelled : s.cancelled = true → .cancelled ∈ t
  told : ∀ p f, s.awaited = some (p, some (.error f)) → ∃ x ∈ terminals t, x.fault = f

namespace Reasons

/-- The consumer goes on, and nobody else does anything. -/
theorem goOn (h : Reasons t s) (hc : s'.channel.completion = s.channel.completion)
    (hx : s'.cancelled = s.cancelled)
    (ha : ∀ p f, s'.awaited = some (p, some (.error f)) → s.awaited = some (p, some (.error f))) :
    Reasons (t ++ [e]) s' where
  terminal x hs := by
    rw [terminals_snoc]
    exact List.mem_append_left _ (h.terminal x (hc ▸ hs))
  cancelled hs := List.mem_append_left _ (h.cancelled (hx ▸ hs))
  told p f hs := by
    obtain ⟨x, hm, hf⟩ := h.told p f (ha p f hs)
    exact ⟨x, terminals_snoc t e ▸ List.mem_append_left _ hm, hf⟩

/-- The channel gets a completion, and a consumer that waits is told. -/
theorem ends (h : Reasons t s) {c : Channel ρ α} {x : Completion} (hc : c.completion = some x)
    (he : e.terminals = [x]) :
    Reasons (t ++ [e]) ({ s with channel := c }.answer (.error x.fault)) where
  terminal y hy := by
    obtain rfl : x = y := Option.some.inj (hc.symm.trans hy)
    simp [he]
  cancelled hs := List.mem_append_left _ (h.cancelled hs)
  told p f hs := by
    rw [terminals_snoc, he]
    -- Only a consumer that waits is told now; another one was told before, or nothing.
    obtain ⟨channel, turn, _ | ⟨r, _ | o⟩, cancelled⟩ := s
    · cases hs
    · cases hs
      exact ⟨x, by simp, rfl⟩
    · obtain ⟨y, hm, hf⟩ := h.told p f hs
      exact ⟨y, List.mem_append_left _ hm, hf⟩

theorem write (h : Reasons t s) {p : Option ρ} {a : α} {w : Written α} (hw : s.Wrote p a w s') :
    Reasons (t ++ [.wrote a w]) s' := by
  cases hw with
  | closed x hx => exact h.goOn rfl rfl fun _ _ => id
  | full ho hw hp hb => exact h.goOn rfl rfl fun _ _ => id
  | met r c ho ha hq hs => exact h.goOn (hs.completion.trans ho.symm) rfl (by simp)
  | queued c ho hw hs => exact h.goOn (hs.completion.trans ho.symm) rfl fun _ _ => id

theorem close (h : Reasons t s) {x : Completion} {done : Bool} (hc : s.Closed x done s') :
    Reasons (t ++ [.closed x done]) s' := by
  cases hc with
  | before hx => exact h.goOn rfl rfl fun _ _ => id
  | now c ho hs => exact h.ends hs.completion rfl

theorem read (h : Reasons t s) {p : ρ} (hr : s.Reads p s') : Reasons (t ++ [.tacit]) s' := by
  cases hr with
  | took r a ws c hq hs => exact h.goOn hs.completion rfl fun _ _ => id
  | closed x hx hq => exact h.goOn rfl rfl fun _ _ => id
  | parked c ho hq hs => exact h.goOn (hs.completion.trans ho.symm) rfl (by simp)

theorem drain (h : Reasons t s) {o : Outcome α} (hd : s.Drains o s') :
    Reasons (t ++ [.tacit]) s' := by
  cases hd with
  | took r a ws c hq hs => exact h.goOn hs.completion rfl fun _ _ => id
  | empty f hq => exact h.goOn rfl rfl fun _ _ => id

/-- Every step keeps the reasons. -/
theorem step [DecidableEq ρ] (h : Reasons t s) (hs : s.Sound) (he : Consumer.Step s e s') :
    Reasons (t ++ [e]) s' := by
  cases he with
  | write p a => exact h.write (hs.write p a)
  | close c => exact h.close (hs.close c)
  | withdraw f =>
    obtain ⟨c, hc, -, hx⟩ := hs.withdraw f
    rw [hx]
    exact h.ends hc.completion rfl
  | cancel =>
    have hk : Reasons (t ++ [.cancelled]) s := h.goOn rfl rfl fun _ _ => id
    exact ⟨hk.terminal, fun _ => by simp, hk.told⟩
  | read p ht ha => exact h.read (hs.read ha p)
  | resume ht ha => exact h.goOn rfl rfl (by simp)
  | @finish c ht =>
    have hk := h.close (hs.close c)
    exact ⟨hk.terminal, hk.cancelled, hk.told⟩
  | drain ht =>
    have hk := h.drain hs.drain
    exact ⟨hk.terminal, hk.cancelled, hk.told⟩
  | _ => exact h.goOn rfl rfl fun _ _ => id

end Reasons

/-! ## How far the calls are -/

/-- The calls that were made when the consumer is at a turn. -/
def Reached (t : List (Event α)) : Turn α → Prop
  | .start => calls t = []
  | .checkpoint | .read | .reduce _ => ∃ rounds, calls t = looped rounds
  | .emit => ∃ rounds a, calls t = looped rounds ++ [.reduce a .none]
  | .close c | .finalize c => ∃ rounds x, Ending.Holds t x ∧ x.completion = c ∧
      calls t = looped rounds ++ x.calls
  | .drain c | .dispose _ c | .stop c => ∃ h : History α, h.ending.Holds t ∧
      h.ending.completion = c ∧ calls t = h.calls

namespace Reached

/-- Whoever calls nothing changes nothing. -/
theorem snoc {turn : Turn α} (h : Reached t turn) (he : e.calls = []) :
    Reached (t ++ [e]) turn := by
  have hc : calls (t ++ [e]) = calls t := by rw [calls_snoc, he, List.append_nil]
  cases turn with
  | start | checkpoint | read | reduce | emit =>
    simpa only [Reached, hc] using h
  | close c | finalize c =>
    obtain ⟨rounds, x, hx, hxc, hcs⟩ := h
    exact ⟨rounds, x, hx.snoc e, hxc, hc.trans hcs⟩
  | drain c | dispose a c | stop c =>
    obtain ⟨y, hy, hyc, hcs⟩ := h
    exact ⟨y, hy.snoc e, hyc, hc.trans hcs⟩

/-- The loop ends before a round. -/
theorem close {rounds : List α} (h : calls t = looped rounds) {x : Ending α} (hx : x.Holds t)
    (hn : x.calls = []) : Reached t (.close x.completion) :=
  ⟨rounds, x, hx, rfl, by rw [h, hn, List.append_nil]⟩

/-- Something was read. -/
theorem read {o : Outcome α} (h : Reached t .read)
    (hf : ∀ f, o = .error f → ∃ x ∈ terminals t, x.fault = f) :
    Reached t (Turn.next .read o) := by
  obtain ⟨rounds, hr⟩ := h
  rcases o with f | a
  · obtain ⟨x, hx, rfl⟩ := hf f rfl
    exact close (x := .closed x) hr hx rfl
  · exact ⟨rounds, hr⟩

theorem checkpoint (h : Reached t .checkpoint) (hx : s.cancelled = true → .cancelled ∈ t) :
    Reached t (Turn.next .checkpoint s.checkpoint) := by
  obtain ⟨rounds, hr⟩ := h
  rw [Consumer.checkpoint]
  split
  · exact close (x := .cancelled) hr (hx ‹_›) rfl
  · exact ⟨rounds, hr⟩

theorem reduce {a : α} (h : Reached t (.reduce a)) (effect : Effect) :
    Reached (t ++ [.called (.reduce a effect)]) (Turn.next (.reduce a) effect) := by
  obtain ⟨rounds, hr⟩ := h
  cases effect with
  | none => exact ⟨rounds, a, by rw [calls_snoc, hr]; rfl⟩
  | completion c => exact ⟨rounds, .reduced a c, trivial, rfl, by rw [calls_snoc, hr]; rfl⟩

theorem emit (h : Reached t .emit) (o : Outcome Unit) :
    Reached (t ++ [.called (.emit o)]) (Turn.next .emit o) := by
  obtain ⟨rounds, a, hr⟩ := h
  rcases o with f | _
  · refine ⟨rounds, .emitted a f, trivial, rfl, ?_⟩
    rw [calls_snoc, hr, List.append_assoc]
    rfl
  · refine ⟨rounds ++ [a], ?_⟩
    rw [calls_snoc, hr, looped_snoc]
    rfl

theorem finalize {c : Completion} (h : Reached t (.finalize c)) :
    Reached (t ++ [.called (.finalize c)]) (.drain c) := by
  obtain ⟨rounds, x, hx, rfl, hr⟩ := h
  refine ⟨⟨rounds, x, []⟩, hx.snoc _, rfl, ?_⟩
  rw [calls_snoc, hr]
  rfl

theorem dispose {a : α} {c : Completion} (h : Reached t (.dispose a c)) :
    Reached (t ++ [.called (.dispose a c)]) (.drain c) := by
  obtain ⟨⟨rounds, x, ds⟩, hx, rfl, hr⟩ := h
  refine ⟨⟨rounds, x, ds ++ [a]⟩, hx.snoc _, rfl, ?_⟩
  rw [calls_snoc, hr]
  simp [History.calls, Event.calls]

theorem reads (h : Reached t .read) (hr : Reasons t s) (ht : s.turn = .read) {p : ρ}
    (hs : s.Reads p s') : Reached (t ++ [.tacit]) s'.turn := by
  have hread : Reached (t ++ [.tacit]) (.read : Turn α) := h.snoc rfl
  cases hs with
  | took r a ws c hq hc => exact hread.read (o := .ok a) (by simp)
  | closed x hx hq =>
    refine hread.read (o := .error x.fault) fun f hf => ⟨x, ?_, Except.error.inj hf⟩
    rw [terminals_snoc]
    exact List.mem_append_left _ (hr.terminal x hx)
  | parked c ho hq hc => exact ht ▸ hread

/-- Every step goes on with the calls. -/
theorem step [DecidableEq ρ] (h : Reached t s.turn) (hs : s.Sound) (hr : Reasons t s)
    (he : Consumer.Step s e s') : Reached (t ++ [e]) s'.turn := by
  cases he with
  | write p a => exact (hs.write p a).turn ▸ h.snoc rfl
  | close c => exact (hs.close c).turn ▸ h.snoc rfl
  | withdraw f =>
    obtain ⟨c, -, -, hx⟩ := hs.withdraw f
    rw [hx]
    exact h.snoc rfl
  | cancel => exact h.snoc rfl
  | start ht =>
    rw [ht] at h
    refine ⟨[], ?_⟩
    rw [calls_snoc, h]
    rfl
  | checkpoint ht => exact ((ht ▸ h).checkpoint hr.cancelled).snoc rfl
  | read p ht ha => exact (ht ▸ h).reads hr ht (hs.read ha p)
  | resume ht ha =>
    refine ((ht ▸ h).read fun f hf => ?_).snoc rfl
    rw [hf] at ha
    exact hr.told _ f ha
  | reduce effect ht => exact (ht ▸ h).reduce effect
  | emit o ht => exact (ht ▸ h).emit o
  | finish ht => exact (ht ▸ h).snoc rfl
  | finalize ht => exact (ht ▸ h).finalize
  | drain ht =>
    have hdrain := (ht ▸ h).snoc (e := .tacit) rfl
    rcases s.channel.tryRead.result with f | a
    · exact hdrain
    · exact hdrain
  | dispose ht => exact (ht ▸ h).dispose

end Reached

theorem finalize_not_mem_looped (rounds : List α) (c : Completion) :
    Call.finalize c ∉ looped rounds := by
  simp [looped]

theorem Ending.finalize_not_mem_calls (x : Ending α) (c : Completion) :
    Call.finalize c ∉ x.calls := by
  cases x <;> simp [calls]

/-- The calls so far are the begin of a history, and all of it once the fold is finalized. -/
theorem Reached.history {turn : Turn α} (h : Reached t turn) : ∃ y : History α,
    calls t <+: y.calls ∧
      ∀ c, Call.finalize c ∈ calls t → calls t = y.calls ∧ y.ending.Holds t := by
  -- As long as the loop goes on, some ending is made up to complete the history.
  cases turn with
  | start =>
    refine ⟨⟨[], .cancelled, []⟩, ?_, fun c hc => ?_⟩ <;> rw [Reached] at h
    · exact h ▸ List.nil_prefix
    · simp [h] at hc
  | checkpoint | read | reduce =>
    obtain ⟨rounds, hr⟩ := h
    refine ⟨⟨rounds, .cancelled, []⟩, ?_, fun c hc => ?_⟩ <;> rw [hr] at *
    · exact ⟨_, (List.append_assoc ..).symm⟩
    · exact absurd hc (finalize_not_mem_looped rounds c)
  | emit =>
    obtain ⟨rounds, a, hr⟩ := h
    refine ⟨⟨rounds, .emitted a Fault.cancelled, []⟩, ?_, fun c hc => ?_⟩ <;> rw [hr] at *
    · exact ⟨.emit (.error Fault.cancelled) :: [.finalize (.ofFault Fault.cancelled)], by
        simp [History.calls, Ending.calls, Ending.completion]⟩
    · rcases List.mem_append.1 hc with hc | hc
      · exact absurd hc (finalize_not_mem_looped rounds c)
      · simp at hc
  | close c | finalize c =>
    obtain ⟨rounds, x, -, -, hr⟩ := h
    refine ⟨⟨rounds, x, []⟩, ?_, fun c hc => ?_⟩ <;> rw [hr] at *
    · exact ⟨_, rfl⟩
    · rcases List.mem_append.1 hc with hc | hc
      · exact absurd hc (finalize_not_mem_looped rounds c)
      · exact absurd hc (x.finalize_not_mem_calls c)
  | drain c | dispose a c | stop c =>
    obtain ⟨y, hy, -, hc⟩ := h
    exact ⟨y, hc ▸ List.prefix_rfl, fun _ _ => ⟨hc, hy⟩⟩

end ResumeOnce.Fold

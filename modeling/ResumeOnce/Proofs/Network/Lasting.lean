import ResumeOnce.Proofs.Network.Discourse
import ResumeOnce.Proofs.Network.Enduring
import ResumeOnce.Proofs.Network.Staging

/-!
# Runs that only a cancellation ends

The downstream of a combination is kind, and its feeders send no completion as long as its channel
is open. Then nothing ends the combination but that its fold is cancelled, at whatever time that
comes and however long it takes to close the channel: the fold comes to the cancellation, the
combination says so to its downstream once, and it is over when its feeders are.

* `Lasting`: a run at which nothing but a cancellation ends the combination;
* `Lasting.spans`: how such a run goes on, and how many values it still pushes once the fold was
  cancelled;
* `Lasting.final`, `Lasting.completed`, `Lasting.finished`, `Lasting.feeders`: what is known then.
-/

namespace ResumeOnce.Streams.Combination

variable {C : Combiner} {s s' : Combination C} {e : Seen C}

/-- A feeder that has sent its completion has done so for good. -/
theorem Step.ended (hs : Step s e s') {i : C.Feeder} (hi : s.ended i = true) :
    s'.ended i = true := by
  cases hs with
  | send j x =>
    rw [(s.send_unanswered j x).2]
    exact Bool.or_eq_true_iff.2 (.inl hi)
  | _ => exact hi

end ResumeOnce.Streams.Combination

namespace ResumeOnce.Network

open Streams

variable {C : Combiner} {order : List C.Feeder} {T : List (Seen C)} {t : List (Act C.Output)}
  {x x' : Standing} {m : Mood}

section Stays

variable {S : (i : C.Feeder) → System (C.Input i)}

theorem Node.Step.ended {s s' : Node C S} {a : Move C.Output} (hs : Node.Step order s a s')
    (hn : s.started = true) {i : C.Feeder} (hi : s.fold.ended i = true) :
    s'.fold.ended i = true := by
  cases hs with
  | launch ha hs => cases hn.symm.trans hs
  | fold ha hs he | push ha ho hs | reply ha ho hp hs => exact hs.ended hi
  | @receive j e =>
    show (s.fold.send j e).1.ended i = true
    rw [(s.fold.send_unanswered j e).2]
    exact Bool.or_eq_true_iff.2 (.inl hi)
  | _ => exact hi

/-- What of a fold stays: that it was cancelled, and that its channel is closed. -/
structure Stays (f f' : Combination C) : Prop where
  cancelled : f.consumer.cancelled = true → f'.consumer.cancelled = true
  closed : f.consumer.channel.completion.isSome → f'.consumer.channel.completion.isSome

theorem Stays.refl (f : Combination C) : Stays f f := ⟨id, id⟩

theorem Stays.trans {f f' f'' : Combination C} (h : Stays f f') (h' : Stays f' f'') : Stays f f'' :=
  ⟨h'.cancelled ∘ h.cancelled, h'.closed ∘ h.closed⟩

namespace Staged

variable {s s' : Staged C S} {a : Move C.Output}

theorem Step.stays (hs : Step order s a s') (hk : s.node.fold.consumer.Sound) :
    Stays s.node.fold s'.node.fold := by
  cases hs with
  | launch | register | endFold | endDrive => exact .refl _
  | relay =>
    exact cancelFold_of (P := fun s' => Stays s.node.fold s'.node.fold) (fun _ => .refl _)
      fun _ => ⟨fun _ => rfl, id⟩
  | close =>
    have hc := hk.close (.failure Fault.cancelled)
    exact ⟨hc.cancelled.trans, fun _ => hc.closes⟩
  | work hn hs => exact ⟨hs.stays_cancelled hn hk, hs.stays_closed hn hk⟩

theorem Step.ended (hs : Step order s a s') {i : C.Feeder} (hi : s.node.fold.ended i = true) :
    s'.node.fold.ended i = true := by
  cases hs with
  | launch | register | close | endFold | endDrive => exact hi
  | relay =>
    exact cancelFold_of (P := fun s' => s'.node.fold.ended i = true) (fun _ => hi) fun _ => hi
  | work hn hs => exact hs.ended hn hi

/-- Who has not sent its completion yet had not sent it before. -/
theorem unended {e : Exposed (System.staged C S order)} (hr : Run Exposed.Step ⟨x, s⟩ t e)
    {i : C.Feeder} (hi : (node e.state).fold.ended i = false) : s.node.fold.ended i = false := by
  refine Bool.eq_false_iff.2 fun hn => ?_
  have he : (node e.state).fold.ended i = true := by
    refine hr.invariant (P := fun _ (e : Exposed (System.staged C S order)) =>
      (node e.state).fold.ended i = true) hn fun hn hs => ?_
    cases hs with
    | move hs => exact hs.ended hn
    | @answer x s o => exact (congrArg (·.ended i) (s.node.unmoved_answer o).fold).trans hn
    | cancel => exact cancel_of (P := fun s' => s'.node.fold.ended i = true) hn fun _ => hn
  cases hi.symm.trans he

theorem settled_of_finished (h : Reaches (System.staged C S order) x s) : s.node.Settles :=
  h.invariant (P := fun _ (s : Staged C S) => s.node.Settles) nofun
    (fun h hs => by
      cases hs with
      | launch | register | close | endFold | endDrive => exact h
      | relay => exact cancelFold_of (P := fun s => s.node.Settles) (fun _ => h) fun _ => h
      | work hn hs => exact hs.settles h)
    (fun o h _ => Node.settles_answer h o)
    fun h => cancel_of (P := fun s => s.node.Settles) h fun _ => h

end Staged

end Stays

variable {S : (i : C.Feeder) → System (C.Input i)} {s s' : Staged C (traced S)}

/-! ## Runs that nothing but a cancellation ends -/

/-- A run with a kind downstream, at which nothing but a cancellation ends the combination. -/
structure Lasting (order : List C.Feeder) (T : List (Seen C)) (t : List (Act C.Output))
    (x : Standing) (s : Staged C (traced S)) : Prop where
  run : Run Exposed.Step (.new (System.staged C (traced S) order)) t ⟨x, s⟩
  kind : Kind (words t)
  enduring : Node.Enduring order T s.node
  pushed : pushed T = values t

namespace Lasting

theorem new (C : Combiner) (S : (i : C.Feeder) → System (C.Input i)) (order : List C.Feeder) :
    Lasting order [] [] .new (Staged.new C (traced S)) :=
  ⟨.nil, .nil, .new C S order, rfl⟩

theorem mood (h : Lasting order T t x s) (hR : C.Remembers) :
    ∃ m, Run Mood.Step .free (words t) m ∧ x.calling = m.calling ∧ m ≠ .quit ∧
      Brittle.Utters m ⟨s.node, false⟩ :=
  let ⟨m, hw, hc, _, hu⟩ := (Staged.voice hR order).run h.run
  ⟨m, hw, hc, h.kind.ne_quit hw, hu⟩

theorem kept (h : Lasting order T t x s) (hR : C.Remembers) (hl : ∀ i, Polite (S i)) :
    s.Kept order x :=
  Staged.Kept.kept_reaches hR (fun i => (hl i).traced) ⟨t, h.run⟩

/-- What a combination does does not end it. -/
theorem endures (h : Lasting order T t x s) (hC : C.Records) (hR : C.Remembers)
    (hl : ∀ i, Polite (S i)) {a : Move C.Output} (hs : Staged.Step order s a s')
    (hv : s.node.fold.consumer.channel.completion = none →
      ∀ i, s'.node.fold.ended i = false) :
    ∃ T', Node.Enduring.Endures order T s.node a.value? T' s'.node := by
  obtain ⟨m, -, -, hm, hu⟩ := h.mood hR
  have hk := h.kept hR hl
  cases hs with
  | launch => exact ⟨_, Node.Enduring.rest { h.enduring with } rfl⟩
  | register | endFold | endDrive => exact ⟨_, h.enduring.rest rfl⟩
  | relay =>
    refine Staged.cancelFold_of (P := fun s' => ∃ T',
      Node.Enduring.Endures order T s.node none T' s'.node) (fun _ => ⟨_, h.enduring.rest rfl⟩)
      fun _ => ?_
    exact ⟨_, h.enduring.revoke hC .cancel trivial⟩
  | close hc => exact ⟨_, h.enduring.revoke hC (.close (hk.revoked hc).fold) trivial⟩
  | work hn hs => exact h.enduring.step hk.node hu hm hC hR hl hs hn hv

/-- A combination that is over comes to the cancellation. -/
theorem ends (h : Lasting order T t x s) {a : Act C.Output}
    {e : Exposed (System.staged C (traced S) order)} (hs : Exposed.Step ⟨x, s⟩ a e)
    (r : Outcome Demand) (hr : .moved (.ends r) ∈ [a]) : r = .error Fault.cancelled := by
  obtain rfl := List.mem_singleton.1 hr
  cases hs with
  | move hs =>
    cases hs with
    | work hn hs =>
      cases hs with
      | finish ha hs hd =>
        have hb := h.enduring.bound
        rw [hd] at hb
        exact hb.1

/-- What becomes of a run that goes on, of what its fold may still push, and of its end. -/
structure Lasts (order : List C.Feeder) (t t' : List (Act C.Output)) (s : Staged C (traced S))
    (e : Exposed (System.staged C (traced S) order)) : Prop where
  lasting : ∃ T, Lasting (S := S) order T (t ++ t') e.standing e.state
  stays : Stays s.node.fold (Staged.node e.state).fold
  spends : s.node.fold.consumer.cancelled = true →
    (Staged.node e.state).fold.allowance + (values t').length ≤ s.node.fold.allowance
  ends : ∀ r, .moved (.ends r) ∈ t' → r = .error Fault.cancelled

theorem Lasts.trans {t' t'' : List (Act C.Output)}
    {e : Exposed (System.staged C (traced S) order)} (h : Lasts order t t' s ⟨x', s'⟩)
    (h' : Lasts order (t ++ t') t'' s' e) : Lasts order t (t' ++ t'') s e where
  lasting := by
    rw [← List.append_assoc]
    exact h'.lasting
  stays := h.stays.trans h'.stays
  spends hc := by
    have hle : s'.node.fold.allowance + (values t').length ≤ _ := h.spends hc
    have hle' := h'.spends (h.stays.cancelled hc)
    rw [values_append, List.length_append]
    omega
  ends r hr := (List.mem_append.1 hr).elim (h.ends r) (h'.ends r)

/-- What others do leaves the fold as it is. -/
theorem rest (h : Lasting order T t x s) {a : Act C.Output}
    {e : Exposed (System.staged C (traced S) order)} (hs : Exposed.Step ⟨x, s⟩ a e)
    (hk : Kind (words (t ++ [a]))) (hn : values [a] = [])
    (he : Node.Enduring (S := S) order T (Staged.node e.state))
    (hf : (Staged.node e.state).fold = s.node.fold) : Lasts order t [a] s e where
  lasting := ⟨T, h.run.snoc hs, hk, he, by rw [values_append, hn, List.append_nil, h.pushed]⟩
  stays := hf ▸ .refl _
  spends _ := by rw [hf, hn]; exact Nat.le_refl _
  ends := h.ends hs

theorem step (h : Lasting order T t x s) (hC : C.Records) (hR : C.Remembers)
    (hl : ∀ i, Polite (S i)) {a : Act C.Output}
    {e : Exposed (System.staged C (traced S) order)} (hs : Exposed.Step ⟨x, s⟩ a e)
    (hk : Kind (words (t ++ [a])))
    (hv : s.node.fold.consumer.channel.completion = none →
      ∀ i, (Staged.node e.state).fold.ended i = false) : Lasts order t [a] s e := by
  obtain ⟨m, hw, hc, hm, hu⟩ := h.mood hR
  cases hs with
  | @move x s s' a hs =>
    obtain ⟨T', he, hp, ha⟩ := h.endures hC hR hl hs hv
    refine ⟨⟨T ++ T', h.run.snoc (.move hs), hk, he, ?_⟩, hs.stays hu.sound, ?_, h.ends (.move hs)⟩
    · rw [pushed_append, h.pushed, hp, values_move]
    · rw [show values [Act.moved a] = a.value?.toList from values_move [] a]
      exact ha
  | answer o hx =>
    refine h.rest (.answer o hx) hk rfl (h.enduring.answer hu (hc.symm.trans hx) ?_)
      (s.node.unmoved_answer o).fold
    -- The completion was the last word, so a kind downstream accepts it.
    rintro c rfl
    have ht := told_run hw
    generalize hws : words t = ws at ht
    cases ht with
    | last vs =>
      rw [words_append, hws] at hk
      exact hk.last
  | cancel =>
    have hn := Staged.cancel_of (P := fun s' =>
      Node.Enduring order T s'.node ∧ s'.node.fold = s.node.fold) ⟨h.enduring, rfl⟩
        fun _ => ⟨{ h.enduring with }, rfl⟩
    exact h.rest .cancel hk rfl hn.1 hn.2

/-- Nothing ends a combination but that its fold is cancelled, as long as no feeder sends its
    completion before the channel is closed. -/
theorem spans (h : Lasting order T t x s) (hC : C.Records) (hR : C.Remembers)
    (hl : ∀ i, Polite (S i)) {t' : List (Act C.Output)}
    {e : Exposed (System.staged C (traced S) order)} (hr : Run Exposed.Step ⟨x, s⟩ t' e)
    (hk : Kind (words (t ++ t')))
    (hv : s.node.fold.consumer.channel.completion.isSome ∨
      ∀ i, (Staged.node e.state).fold.ended i = false) : Lasts order t t' s e := by
  refine hr.invariant (P := fun t' (e : Exposed (System.staged C (traced S) order)) =>
    Kind (words (t ++ t')) → (s.node.fold.consumer.channel.completion.isSome ∨
      ∀ i, (Staged.node e.state).fold.ended i = false) → Lasts order t t' s e) ?_ ?_ hk hv
  · exact fun _ _ => ⟨⟨T, (List.append_nil t).symm ▸ h⟩, .refl _, fun _ => Nat.le_refl _, nofun⟩
  · intro t' e a e' ih hs hk hv
    rw [← List.append_assoc] at hk
    have hx := ih (words_append _ [a] ▸ hk).before
      (hv.imp_right fun hv i => Staged.unended (Run.nil.snoc hs) (hv i))
    obtain ⟨T', hT⟩ := hx.lasting
    exact hx.trans (hT.step hC hR hl hs hk fun ho =>
      hv.resolve_left fun hc => by simpa [ho] using hx.stays.closed hc)

/-! ## What is known of such a run -/

/-- A fold that has come to something was cancelled. -/
theorem final (h : Lasting order T t x s) (hR : C.Remembers) (hl : ∀ i, Polite (S i))
    (hf : s.node.final.isComplete = true) :
    s.node.fold.final = ⟨some (.failure Fault.cancelled), false⟩ := by
  obtain ⟨m, -, -, hm, hu⟩ := h.mood hR
  obtain ⟨c, hc⟩ := (h.kept hR hl).node.stopped hf
  obtain ⟨-, rfl⟩ := h.enduring.steady.consumer.stops c (by rw [hc]; rfl)
  have hx : s.node.fold.machine.completion = some (.failure Fault.cancelled) :=
    h.enduring.steady.recorded _ (by rw [hc]; rfl)
  have hd : s.node.fold.machine.downstreamEnded = false :=
    Bool.eq_false_iff.2 fun hn => hm ((hu.ended_iff hf).1 hn)
  rw [Combination.final, hx, hd]

/-- The completion of a combination tells of the cancellation. -/
theorem completed (h : Lasting order T t x s) (hR : C.Remembers) (hl : ∀ i, Polite (S i)) :
    completions t = [] ∨ completions t = [.failure Fault.cancelled] := by
  obtain ⟨m, hw, -, -, hu⟩ := h.mood hR
  rw [completions_of_run hw]
  rcases hc : m.completion? with _ | c
  · exact .inl rfl
  · obtain ⟨f, hf, -, rfl⟩ := hu.concluded c hc
    obtain ⟨hi, -, rfl⟩ := Brittle.final?_eq_some.1 hf
    rw [h.final hR hl hi]
    exact .inr rfl

/-- A combination that has sent its completion has a fold that has come to something. -/
theorem told (h : Lasting order T t x s) (hR : C.Remembers) (hn : completions t ≠ []) :
    s.node.final.isComplete = true := by
  obtain ⟨m, hw, -, -, hu⟩ := h.mood hR
  rw [completions_of_run hw] at hn
  obtain ⟨c, hc⟩ := Option.ne_none_iff_exists'.1 fun hc : m.completion? = none =>
    hn (by rw [hc]; rfl)
  obtain ⟨f, hf, -⟩ := hu.concluded c hc
  exact (Brittle.final?_eq_some.1 hf).1

/-- As long as its channel is open the fold has not come to anything. -/
theorem incomplete (h : Lasting order T t x s) (hR : C.Remembers) (hl : ∀ i, Polite (S i))
    (ho : s.node.fold.consumer.channel.completion = none) : s.node.final.isComplete = false := by
  refine Bool.eq_false_iff.2 fun hf => ?_
  obtain ⟨c, ht⟩ := (h.kept hR hl).node.stopped hf
  have hc := h.enduring.kept.held.left.closed (ht ▸ trivial)
  rw [ho] at hc
  cases hc

/-- Nor has the combination sent its completion. -/
theorem silent (h : Lasting order T t x s) (hR : C.Remembers) (hl : ∀ i, Polite (S i))
    (ho : s.node.fold.consumer.channel.completion = none) : completions t = [] := by
  by_contra hn
  cases (h.incomplete hR hl ho).symm.trans (h.told hR hn)

/-- A combination is not over before it has sent its completion, and its feeders are over. -/
theorem finished (h : Lasting order T t x s) (hR : C.Remembers) (hl : ∀ i, Polite (S i))
    (hf : s.node.finished = true) : s.node.final.isComplete = true ∧
      completions t = [.failure Fault.cancelled] ∧
      ∀ i ∈ order, (s.node.result i).isComplete = true := by
  obtain ⟨m, hw, -, hm, hu⟩ := h.mood hR
  have hc := (h.kept hR hl).node.last hf
  refine ⟨hc, (h.completed hR hl).resolve_left fun hn => ?_, ?_⟩
  · rw [completions_of_run hw] at hn
    obtain ⟨hr, -⟩ := hu.due hc hm (by simpa using hn) order
    cases hf.symm.trans hr.1
  · obtain ⟨r, hd⟩ := Staged.settled_of_finished ⟨t, h.run⟩ hf
    have hb := h.enduring.bound
    rw [hd] at hb
    exact hb.2

/-- When the fold has come to something, every feeder was cancelled, and has an answer to each of
    its events. -/
theorem feeders (h : Lasting order T t x s) (hR : C.Remembers) (hl : ∀ i, Polite (S i))
    (hf : s.node.final.isComplete = true) (i : C.Feeder) : .cancelled ∈ memory s.node.feeder i ∧
      (answered (memory s.node.feeder i)).length = (called (memory s.node.feeder i)).length := by
  obtain ⟨c, hc⟩ := (h.kept hR hl).node.stopped hf
  exact ⟨h.enduring.tracked.asked c (by rw [hc]; rfl) i,
    (h.enduring.tracked.attuned i).resolved h.enduring.kept hc⟩

/-- What is said comes in order. -/
theorem ordered (h : Lasting order T t x s) (hR : C.Remembers) :
    called t = (values t).map .value ++ (completions t).map .completion := by
  obtain ⟨m, hw, -⟩ := h.mood hR
  exact called_of_run hw

/-- Once a fold is cancelled the downstream gets one more value at most, or none if it has still to
    answer one. -/
theorem few (h : Lasting order T t x s) (hR : C.Remembers) (hl : ∀ i, Polite (S i))
    (ho : s.node.fold.consumer.channel.completion = none) :
    s.node.fold.allowance + x.calling.toNat ≤ 1 := by
  rcases hx : x.calling with _ | _
  · exact s.node.fold.allowance_le
  obtain ⟨m, hw, hm, -, hu⟩ := h.mood hR
  have hn := h.silent hR hl ho
  rw [completions_of_run hw] at hn
  have hs := hu.spoken
  have hcarried := hu.carried
  have hturn := hu.emitting
  simp only at hs hcarried hturn
  generalize s.node.outlet = outlet, s.node.fold.machine.downstreamEnded = ended at hs hcarried
  cases hs with
  | value ha =>
    -- The value that has still to be answered was pushed by an emit, which pushes no other one.
    have hd := hcarried.2 ⟨_, rfl⟩
    rw [Combination.allowance, hturn hd, hd]
    exact Nat.le_refl _
  | completion c ha =>
    rw [ha.completion?] at hn
    cases hn
  | free hf | quit hf | closed c hf =>
    rw [hx, hf] at hm
    cases hm

/-! ### The feeders -/

/-- A feeder has come to its state by what it remembers, and has left what it comes to if that tells
    of its end. -/
theorem feeder (h : Lasting order T t x s) (hR : C.Remembers) (hl : ∀ i, Polite (S i))
    (i : C.Feeder) :
    (∃ y, Run Exposed.Step (.new (S i)) (memory s.node.feeder i) ⟨y, states s.node.feeder i⟩) ∧
      ((s.node.result i).isComplete = true ↔ ∃ r, .moved (.ends r) ∈ memory s.node.feeder i) := by
  obtain ⟨y, hr, hf⟩ := (h.kept hR hl).node.fed.remembers i
  exact ⟨⟨y, hr⟩, hf⟩

/-- A feeder is told that more is wanted if its value went to the downstream, and learns of the
    cancellation otherwise. -/
theorem answers (h : Lasting order T t x s) {i : C.Feeder} {k : Nat} {o : Outcome Demand}
    (ho : (answered (memory s.node.feeder i))[k]? = some o) :
    o = .ok .more ∧ Combination.Delivered T (i, k) ∨
      o = .error Fault.cancelled ∧ ¬Combination.Delivered T (i, k) :=
  h.enduring.steady.reason h.enduring.kept h.enduring.harmless
    (((h.enduring.tracked.attuned i).got k o).1 ho)

end Lasting

end ResumeOnce.Network

import ResumeOnce.Proofs.Network.Node
import ResumeOnce.Proofs.Streams.Tally

/-!
# The feeders of a combination

A combination knows of each of its feeders whether it waits for an answer, whether it has sent
its completion, and whether it is over; and a feeder is told to stop only when it has nothing
more to send, or when the fold takes no more events. So a fold that waits for an event has a
feeder that goes on.

* `Combination.Shut`, `Combination.Step.dismissal`: when a feeder may be told to stop;
* `Attached`, `Tended`: what is known of a feeder, and of all of them;
* `Fed`: a fold and its feeders;
* `Fed.follow`, `Fed.receive`: the fold takes a step, a feeder sends an event;
* `Fed.speaks`, `Fed.rests`: who goes on, as the fold waits and when it is final.
-/

namespace ResumeOnce.Streams

/-- Whether something is done to a fold by whoever cancels it. -/
def Deed.Revokes {C : Combiner} : Deed C → Prop
  | .cancelled | .closed => True
  | _ => False

theorem Deed.Revokes.unsent {C : Combiner} {d : Deed C} (h : d.Revokes) (i : C.Feeder)
    (x : Event (C.Input i)) (k : Nat) (f : Option Fault) : d ≠ .sent i x k f := by
  rintro rfl
  cases h

namespace Combination

variable {C : Combiner} {t : List (Seen C)} {s s' : Combination C} {e : Seen C}

/-- Whoever cancels a fold answers nobody, and leaves its machine and its turn. -/
theorem Step.revokes (hs : Step s e s') (he : e.deed.Revokes) (h : s.consumer.Sound) :
    e.answers = [] ∧ s'.consumer.turn = s.consumer.turn ∧ s'.delivering = s.delivering ∧
      s'.machine = s.machine := by
  cases hs with
  | send i x hi hx =>
    rw [Combination.send] at he
    split at he <;> cases he
  | cancel => exact ⟨rfl, rfl, rfl, rfl⟩
  | close hc => exact ⟨rfl, (h.close _).turn, rfl, rfl⟩
  | _ => cases he

/-- Whether no event is reduced any more: the loop has ended, or the channel is closed. -/
def Shut (s : Combination C) : Prop :=
  s.consumer.turn.completion? ≠ none ∨ s.consumer.channel.completion ≠ none

theorem Step.shut (hs : Step s e s') (h : s.consumer.Sound) (hx : s.Shut) : s'.Shut := by
  rcases hx with hx | hx
  · obtain ⟨c, hc⟩ := Option.ne_none_iff_exists'.1 hx
    exact .inl (by simp [hs.completion? h hc])
  · rcases hs.consumer with he | ⟨e', he⟩
    · exact .inr (he ▸ hx)
    · exact .inr (Option.isSome_iff_ne_none.1 (he.closed h (Option.isSome_iff_ne_none.2 hx)))

/-- Only who sends an event begins to wait, and only a completion ends a feeder. -/
theorem Step.unsent (hs : Step s e s') (he : ∀ i x k f, e.deed ≠ .sent i x k f) :
    s'.unanswered = (s.tell e.answers).unanswered ∧ s'.ended = s.ended := by
  cases hs with
  | send i x hi hx =>
    rw [Combination.send] at he
    split at he
    · exact absurd rfl (he _ _ _ _)
    · exact absurd rfl (he _ _ _ _)
  | reduce | reply | finalize | dispose => exact ⟨rfl, rfl⟩
  | _ => exact ⟨by rw [tell_nil], rfl⟩

theorem send_unanswered (s : Combination C) (i : C.Feeder) (x : Event (C.Input i)) :
    (s.send i x).1.unanswered = ((s.count i x).tell (s.send i x).2.answers).unanswered ∧
      (s.send i x).1.ended = (s.count i x).ended := by
  rw [send]
  split
  · exact ⟨rfl, rfl⟩
  · exact ⟨by rw [tell_nil], rfl⟩

/-- An event is answered at once only when the channel is closed. -/
theorem Held.refusal (h : Held t s) {i : C.Feeder} {x : Event (C.Input i)}
    (hi : s.unanswered i = none) {r : C.Right} {o : Outcome Demand}
    (hm : (r, o) ∈ (s.send i x).2.answers) : (s.send i x).1.Shut := by
  have hx := h.send hi x
  generalize (s.send i x).1 = s', (s.send i x).2 = e at hx hm ⊢
  cases hx with
  | accepted f hf hc ht hx => cases hm
  | refused y hy => exact .inr (by simp [count, hy])

/-- A feeder is told to stop only when it has ended, or no event is reduced any more. -/
theorem Step.dismissal (hs : Step s e s') (h : Held t s) (hc : Completions t s) {r : C.Right}
    {o : Outcome Demand} (hm : (r, o) ∈ e.answers) (ho : Network.dismisses o = true) :
    s'.ended r.1 = true ∨ s'.Shut := by
  cases hs with
  | send i x hi hx => exact .inr (h.refusal hi hm)
  | @reduce x r' ht hr =>
    obtain ⟨i, y, k, r'', rfl, hd, hr', hx⟩ := h.reduces ht
    obtain rfl : r' = r'' := Except.ok.inj (hr.symm.trans hr')
    cases hx with
    | held a m hp hm' => cases hm
    | passed c m hp hm' =>
      obtain ⟨rfl, -⟩ := Prod.mk.inj (List.mem_singleton.1 hm)
      exact .inl (hc.ended i c k none hd)
    | ended c m hp => exact .inr (.inl (by simp [Fold.Turn.next, Fold.Turn.completion?]))
  | @reply v ps answer ht hd =>
    obtain ⟨q, -, hq⟩ := List.mem_map.1 hm
    obtain ⟨rfl, rfl⟩ := Prod.mk.inj hq
    rw [ofAnswer_reply] at ho
    refine .inr (.inl ?_)
    rcases answer with f | _ | _
    · simp [Delivery.ofAnswer, Fold.Turn.next, Fold.Turn.completion?]
    · cases ho
    · simp [Delivery.ofAnswer, Fold.Turn.next, Fold.Turn.completion?]
  | finalize ht => exact .inr (.inl (by simp [Fold.Turn.next, Fold.Turn.completion?]))
  | dispose ht => exact .inr (.inl (by simp [Fold.Turn.next, Fold.Turn.completion?]))
  | _ => cases hm

/-- No event is reduced any more once the fold is finalized. -/
theorem Step.finalized (hs : Step s e s') {c : Completion} (he : e.deed = .finalized c) :
    s'.Shut := by
  cases hs with
  | send i x hi hx =>
    rw [Combination.send] at he
    split at he
    · cases he
    · cases he
  | finalize ht => exact .inl (by simp [Fold.Turn.next, Fold.Turn.completion?])
  | _ => cases he

end Combination

end ResumeOnce.Streams

namespace ResumeOnce.Network

open Streams

/-! ## A feeder -/

section Attached

variable {α : Type} {S : System α} {s s' : S.State} {waits done gone : Bool} {shut shut' : Prop}

/-- What the downstream of a stream knows of it: whether it waits for an answer, whether it has
    sent its completion, and whether it is over. Only then was it told to stop, when it has ended
    or is shut out. -/
structure Linked (x : Standing) (waits done gone : Bool) (shut : Prop) : Prop where
  calling : x.calling = waits
  ended : x.ended = done
  finished : x.finished = gone
  dismissed : x.dismissed = true → done = true ∨ shut

/-- A stream that comes to a state of which that is known. -/
def Attached (S : System α) (s : S.State) (waits done gone : Bool) (shut : Prop) : Prop :=
  ∃ x, Reaches S x s ∧ Linked x waits done gone shut

namespace Attached

theorem start (S : System α) (shut : Prop) : Attached S S.start false false false shut :=
  ⟨.new, .start S, rfl, rfl, rfl, fun hn => nomatch hn⟩

theorem mono (h : Attached S s waits done gone shut) (hs : shut → shut') :
    Attached S s waits done gone shut' :=
  let ⟨x, hr, hx⟩ := h
  ⟨x, hr, hx.calling, hx.ended, hx.finished, fun hd => (hx.dismissed hd).imp_right hs⟩

theorem tacit (h : Attached S s waits done gone shut) (hs : S.Step s .tacit s') :
    Attached S s' waits done gone shut :=
  let ⟨x, hr, hx⟩ := h
  ⟨x, hr.move hs, hx⟩

/-- A stream calls its downstream, and waits for the answer. -/
theorem called (h : Attached S s waits done gone shut) {e : Event α}
    (hs : S.Step s (.calls e) s') : Attached S s' true (done || isCompletion e) gone shut := by
  obtain ⟨x, hr, rfl, rfl, rfl, hd⟩ := h
  refine ⟨_, hr.move hs, rfl, rfl, rfl, fun hx => ?_⟩
  exact (hd hx).imp_left fun hx => Bool.or_eq_true_iff.2 (.inl hx)

/-- A polite stream calls its downstream when it does not wait for an answer, and has not
    ended. -/
theorem calls (h : Attached S s waits done gone shut) (hl : Polite S) {e : Event α}
    (hs : S.Step s (.calls e) s') : waits = false ∧ (isCompletion e = true → done = false) := by
  obtain ⟨x, hr, rfl, rfl, rfl, hd⟩ := h
  exact hl hr hs

theorem ends (h : Attached S s waits done gone shut) {r : Outcome Demand}
    (hs : S.Step s (.ends r) s') : Attached S s' waits done true shut :=
  let ⟨_, hr, hx⟩ := h
  ⟨_, hr.move hs, hx.calling, hx.ended, rfl, hx.dismissed⟩

theorem answer (h : Attached S s true done gone shut) {o : Outcome Demand}
    (ho : dismisses o = true → done = true ∨ shut) :
    Attached S (S.answer o s) false done gone shut := by
  obtain ⟨x, hr, hc, he, hx, hd⟩ := h
  refine ⟨_, hr.answer hc o, rfl, he, hx, fun hy => ?_⟩
  exact (Bool.or_eq_true_iff.1 hy).elim hd ho

theorem cancel (h : Attached S s waits done gone shut) (hs : shut) :
    Attached S (S.cancel s) waits done gone shut :=
  let ⟨_, hr, hx⟩ := h
  ⟨_, hr.cancel, hx.calling, hx.ended, hx.finished, fun _ => .inr hs⟩

/-- A stream that has not ended, and is not shut out, is not over. -/
theorem not_finished (h : Attached S s waits false gone shut) (hl : Lively S) (hs : ¬shut) :
    gone = false := by
  obtain ⟨x, hr, -, he, rfl, hd⟩ := h
  by_contra ho
  rcases hl.finished hr (by simpa using ho) with hx | hx
  · exact absurd (he.symm.trans hx) (by simp)
  · exact absurd (hd hx) (by simp [hs])

/-- A stream goes on that does not wait for an answer, and is not over. -/
theorem live (h : Attached S s false done false shut) (hl : Lively S) : ∃ m s', S.Step s m s' := by
  obtain ⟨x, hr, hc, -, ho, -⟩ := h
  rcases hl.live hr with hx | hx | hx
  · exact absurd (ho.symm.trans hx) (by simp)
  · exact absurd (hc.symm.trans hx) (by simp)
  · exact hx

end Attached

end Attached

/-! ## The feeders -/

variable {C : Combiner} {S : (i : C.Feeder) → System (C.Input i)} {f f' : Combination C}
  {feeder : (i : C.Feeder) → (S i).State} {result : C.Feeder → Slot Agent Demand}

/-- Each feeder is what the fold knows of it. -/
def Tended (S : (i : C.Feeder) → System (C.Input i)) (f : Combination C)
    (feeder : (i : C.Feeder) → (S i).State) (result : C.Feeder → Slot Agent Demand)
    (shut : Prop) : Prop :=
  ∀ i, Attached (S i) (feeder i) (f.unanswered i).isSome (f.ended i) (result i).isComplete shut

/-- Nobody hears of no answers. -/
theorem heard_nil (waiting : C.Feeder → Option C.Right) (feeder : (i : C.Feeder) → (S i).State) :
    heard waiting [] feeder = feeder := by
  funext i
  cases hw : waiting i <;> simp [heard, hw]

/-- A feeder that is answered waits no more. -/
theorem attached_heard {i : C.Feeder} {waiting : C.Feeder → Option C.Right}
    {as : Answers C.Right} {done gone : Bool} {shut : Prop}
    (h : Attached (S i) (feeder i) (waiting i).isSome done gone shut)
    (hd : ∀ r o, waiting i = some r → (r, o) ∈ as → dismisses o = true → done = true ∨ shut) :
    Attached (S i) (heard waiting as feeder i)
      ((waiting i).filter fun r => r ∉ as.map Prod.fst).isSome done gone shut := by
  rw [heard]
  rcases hw : waiting i with _ | r
  · rwa [hw] at h
  · rw [hw] at h
    rw [Option.bind_some]
    rcases ho : List.lookup r as with _ | o
    · have hr : r ∉ as.map Prod.fst := by
        intro hm
        obtain ⟨q, hq, rfl⟩ := List.mem_map.1 hm
        simpa using List.lookup_eq_none_iff.1 ho q hq
      rw [Option.filter_some_pos (by simpa using hr)]
      exact h
    · obtain ⟨l, l', rfl, -⟩ := List.lookup_eq_some_iff.1 ho
      rw [Option.filter_some_neg (by simp)]
      exact h.answer (hd r o hw (by simp))

namespace Tended

variable {shut shut' : Prop} {i : C.Feeder} {state : (S i).State}

theorem start (S : (i : C.Feeder) → System (C.Input i)) (shut : Prop) :
    Tended S (.new C) (fun i => (S i).start) (fun _ => .new) shut := fun i => .start (S i) shut

theorem mono (h : Tended S f feeder result shut) (hs : shut → shut') :
    Tended S f feeder result shut' := fun i => (h i).mono hs

/-- Feeders are answered. -/
theorem told (h : Tended S f feeder result shut) {as : Answers C.Right}
    (hu : f'.unanswered = (f.tell as).unanswered) (hn : f'.ended = f.ended)
    (hd : ∀ i r o, f.unanswered i = some r → (r, o) ∈ as → dismisses o = true →
      f.ended i = true ∨ shut) :
    Tended S f' (heard f.unanswered as feeder) result shut := by
  intro i
  rw [hu, hn]
  exact attached_heard (h i) (hd i)

theorem cancel (h : Tended S f feeder result shut) (hs : shut) :
    Tended S f (fun i => (S i).cancel (feeder i)) result shut := fun i => (h i).cancel hs

/-- A feeder is cancelled. -/
theorem dismiss (h : Tended S f feeder result shut) (hs : shut) (i : C.Feeder) :
    Tended S f (Function.update feeder i ((S i).cancel (feeder i))) result shut := by
  intro j
  by_cases hj : j = i
  · subst hj
    rw [Function.update_self]
    exact (h j).cancel hs
  · rw [Function.update_of_ne hj]
    exact h j

/-- A feeder sends an event. -/
theorem called (h : Tended S f feeder result shut) {e : Event (C.Input i)}
    (hs : (S i).Step (feeder i) (.calls e) state) :
    Tended S (f.count i e) (Function.update feeder i state) result shut := by
  intro j
  have ha := (h i).called hs
  by_cases hj : j = i
  · subst hj
    rw [Function.update_self, Combination.count_unanswered_self]
    simpa [Combination.count] using ha
  · have hb : (j == i) = false := by simpa using hj
    rw [Function.update_of_ne hj, Combination.count_unanswered_ne _ hj]
    simpa [Combination.count, hb] using h j

/-- A polite feeder sends an event when it has an answer to the one before. -/
theorem calls (h : Tended S f feeder result shut) (hl : Polite (S i)) {e : Event (C.Input i)}
    (hs : (S i).Step (feeder i) (.calls e) state) :
    f.unanswered i = none ∧ (isCompletion e = true → f.ended i = false) :=
  have ⟨hc, hx⟩ := (h i).calls hl hs
  ⟨by simpa using hc, hx⟩

/-- A feeder sends an event, which comes into the channel or is refused. -/
theorem receive (h : Tended S f feeder result shut) {e : Event (C.Input i)}
    (hs : (S i).Step (feeder i) (.calls e) state)
    (hd : ∀ r o, (r, o) ∈ (f.send i e).2.answers → shut) :
    Tended S (f.send i e).1 (heard (f.count i e).unanswered (f.send i e).2.answers
      (Function.update feeder i state)) result shut :=
  have ⟨hu, hn⟩ := f.send_unanswered i e
  (h.called hs).told hu hn fun _ r o _ hm _ => .inr (hd r o hm)

theorem tacit (h : Tended S f feeder result shut) (hs : (S i).Step (feeder i) .tacit state) :
    Tended S f (Function.update feeder i state) result shut := by
  intro j
  by_cases hj : j = i
  · subst hj
    rw [Function.update_self]
    exact (h j).tacit hs
  · rw [Function.update_of_ne hj]
    exact h j

/-- A feeder is over, and has left what it comes to. -/
theorem release (h : Tended S f feeder result shut) {r : Outcome Demand}
    (hs : (S i).Step (feeder i) (.ends r) state) :
    Tended S f (Function.update feeder i state)
      (Function.update result i ((result i).complete r).1) shut := by
  intro j
  by_cases hj : j = i
  · subst hj
    rw [Function.update_self, Function.update_self, Slot.isComplete_complete]
    exact (h j).ends hs
  · rw [Function.update_of_ne hj, Function.update_of_ne hj]
    exact h j

/-- Who looks whether a feeder is over does not change that. -/
theorem poll (h : Tended S f feeder result shut) {slot : Slot Agent Demand} {a : Agent}
    {w : Option Agent} {p : Poll (Outcome Demand)} (hs : (result i).poll a = (slot, w, p)) :
    Tended S f feeder (Function.update result i slot) shut := by
  intro j
  by_cases hj : j = i
  · subst hj
    rw [Function.update_self, Slot.isComplete_poll hs]
    exact h j
  · rw [Function.update_of_ne hj]
    exact h j

end Tended

/-! ## The feeders of a fold that runs -/

/-- The feeders are what the fold knows of them, and are told to stop only when they have ended
    or the fold takes no more events. -/
structure Fed (S : (i : C.Feeder) → System (C.Input i)) (f : Combination C)
    (feeder : (i : C.Feeder) → (S i).State) (result : C.Feeder → Slot Agent Demand) : Prop where
  reached : ∃ t, Run Combination.Step (.new C) t f
  attached : Tended S f feeder result f.Shut

namespace Fed

theorem follow (h : Fed S f feeder result) {e : Seen C} (hs : Combination.Step f e f')
    (he : ∀ i x k y, e.deed ≠ .sent i x k y) :
    Fed S f' (heard f.unanswered e.answers feeder) result := by
  obtain ⟨t, hr⟩ := h.reached
  have hk := (Combination.kept_run hr).held
  obtain ⟨hu, hn⟩ := hs.unsent he
  refine ⟨⟨_, hr.snoc hs⟩, (h.attached.mono (hs.shut hk.sound)).told hu hn ?_⟩
  intro i r o hw hm ho
  obtain ⟨-, rfl⟩ := (hk.rights.waits i r).2 hw
  exact hn ▸ hs.dismissal hk (completions_run hr) hm ho

/-- The fold takes a step, and directs the feeders. -/
theorem direct (h : Fed S f feeder result) {e : Seen C} (hs : Combination.Step f e f')
    (he : ∀ i x k y, e.deed ≠ .sent i x k y) :
    Fed S f' (directed f.unanswered e feeder) result := by
  have hf := h.follow hs he
  rw [directed]
  split
  · rename_i c hd
    exact ⟨hf.reached, hf.attached.cancel (hs.finalized hd)⟩
  · exact hf

theorem receive (h : Fed S f feeder result) (hl : ∀ i, Polite (S i)) {i : C.Feeder}
    {e : Event (C.Input i)} {state : (S i).State} (hs : (S i).Step (feeder i) (.calls e) state) :
    Fed S (f.send i e).1 (heard (f.count i e).unanswered (f.send i e).2.answers
      (Function.update feeder i state)) result := by
  obtain ⟨t, hr⟩ := h.reached
  have hk := (Combination.kept_run hr).held
  obtain ⟨hi, hx⟩ := h.attached.calls (hl i) hs
  have hf := Combination.Step.send i e hi hx
  exact ⟨⟨_, hr.snoc hf⟩, (h.attached.mono (hf.shut hk.sound)).receive hs
    fun r o hm => hk.refusal hi hm⟩

/-- The feeders do not notice that the fold is cancelled. -/
theorem revoke (h : Fed S f feeder result) {e : Seen C} (hs : Combination.Step f e f')
    (he : e.deed.Revokes) : Fed S f' feeder result := by
  obtain ⟨t, hr⟩ := h.reached
  have hf := h.follow hs he.unsent
  rwa [(hs.revokes he (Combination.kept_run hr).held.sound).1, heard_nil] at hf

theorem quit (h : Fed S f feeder result) : Fed S f.quit feeder result :=
  (h.revoke .cancel trivial).revoke (.close rfl) trivial

theorem tacit (h : Fed S f feeder result) {i : C.Feeder} {state : (S i).State}
    (hs : (S i).Step (feeder i) .tacit state) :
    Fed S f (Function.update feeder i state) result := ⟨h.reached, h.attached.tacit hs⟩

/-- A feeder is over, and has left what it comes to. -/
theorem release (h : Fed S f feeder result) {i : C.Feeder} {r : Outcome Demand}
    {state : (S i).State} (hs : (S i).Step (feeder i) (.ends r) state) :
    Fed S f (Function.update feeder i state)
      (Function.update result i ((result i).complete r).1) := ⟨h.reached, h.attached.release hs⟩

/-- Who looks whether a feeder is over does not change that. -/
theorem poll (h : Fed S f feeder result) {i : C.Feeder} {slot : Slot Agent Demand} {a : Agent}
    {w : Option Agent} {p : Poll (Outcome Demand)} (hs : (result i).poll a = (slot, w, p)) :
    Fed S f feeder (Function.update result i slot) := ⟨h.reached, h.attached.poll hs⟩

/-- A fold that waits for an event has a feeder that goes on. -/
theorem speaks [Nonempty C.Feeder] (h : Fed S f feeder result) (T : Tally C)
    (hl : ∀ i, Lively (S i)) {p : Nat} (hp : f.consumer.awaited = some (p, none)) :
    ∃ i m state, (S i).Step (feeder i) m state := by
  obtain ⟨t, hr⟩ := h.reached
  have hk := (Combination.kept_run hr).held
  have hw := hk.waits hp
  have ht : f.consumer.turn.completion? = none := by
    rw [(hw.consumer.reading hk.sound).1]
    rfl
  obtain ⟨D, hD⟩ := tallied_run T hr ht
  obtain ⟨i, hu, he⟩ := hD.speaks hk hw
  have ha := h.attached i
  rw [hu, he] at ha
  rw [ha.not_finished (hl i) (by simp [Combination.Shut, ht, hw.consumer.opened])] at ha
  exact ⟨i, ha.live (hl i)⟩

/-- When the fold is final, every feeder that is not over goes on. -/
theorem rests (h : Fed S f feeder result) (hl : ∀ i, Lively (S i)) {c : Completion}
    (hf : f.consumer.turn = .stop c) {i : C.Feeder} (hi : (result i).isComplete = false) :
    ∃ m state, (S i).Step (feeder i) m state := by
  obtain ⟨t, hr⟩ := h.reached
  have hk := (Combination.kept_run hr).held
  have hu : f.unanswered i = none := by
    refine Option.eq_none_iff_forall_ne_some.2 fun r hr => ?_
    -- Nothing is owed to anybody any more.
    have ho := ((hk.rights.waits i r).2 hr).1
    rw [hk.owes_nothing hf] at ho
    cases ho
  have ha := h.attached i
  rw [hu, hi] at ha
  exact ha.live (hl i)

end Fed

end ResumeOnce.Network

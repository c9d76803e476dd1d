import ResumeOnce.Proofs.Network.Plan
import ResumeOnce.Proofs.Network.Uttering

/-!
# Every stream keeps to the grammar

Whatever is built of sources by zips, selections and merges keeps to the grammar, whatever its
downstream answers, whenever it is cancelled, and whatever breaks down in it. A combination whose
fold has come to something sends its completion, unless its downstream has told it to stop, and
only then. That goes for each stream in a stream as well, whose downstream is the channel of the
combination that it feeds.

* `Concludes`: when a combination sends its completion;
* `Brittle.tended`: the feeders of a combination are streams that go on for themselves;
* `Plan.brittle`: the stream that is built by a plan, which may break down;
* `Plan.Part`: the streams in a stream;
* `keeps_grammar`: what holds of all of them.
-/

namespace ResumeOnce.Network

open Streams

/-! ## When a combination sends its completion -/

section Concludes

variable {α β : Type} {S : System α} {f? : Option Final} {m : Mood} {x : Standing} {s : S.State}

/-- When a combination sends its completion, given what its fold has come to. -/
structure Concludes (S : System α) (f? : Option Final) (m : Mood) (x : Standing)
    (s : S.State) : Prop where
  said : ∀ c, m.completion? = some c → ∃ f, f? = some f ∧ f.completion.getD .finished = c
  ended : ∀ f, f? = some f → (f.downstreamEnded = true ↔ m = .quit)
  finished : x.finished = true → f?.isSome = true → m ≠ .quit → m.completion? ≠ none
  due : ∀ f, f? = some f → m ≠ .quit → m.completion? = none →
    ∃ s₁ s₂, (s₁ = s ∨ S.Step s .tacit s₁) ∧
      S.Step s₁ (.calls (.completion (f.completion.getD .finished))) s₂

theorem Concludes.map (h : Concludes S f? m x s) (g : α → β) :
    Concludes (S.map g) f? m x s where
  said := h.said
  ended := h.ended
  finished := h.finished
  due f hf hm hc :=
    have ⟨s₁, s₂, h₁, h₂⟩ := h.due f hf hm hc
    ⟨s₁, s₂, h₁.imp_right fun hs => ⟨.tacit, hs, rfl⟩, _, h₂, rfl⟩

end Concludes

namespace Brittle

variable {C : Combiner} {S : (i : C.Feeder) → System (C.Input i)} {order : List C.Feeder}
  {x : Standing} {m : Mood} {s s' : Node C S} {b : Bool}

/-- What the drive does when the fold has come to something: it has to learn so, or pushes the
    completion, or has nothing more to say. -/
inductive Ending (m : Mood) (s : Node C S) : Prop
  | learns (hd : s.drive = .awaitFold) (hr : s.final.result = some (.ok s.fold.final))
      (ha : s.Runs .drive) (ho : s.outlet = none)
  | pushes (hd : s.drive = .push (s.fold.final.completion.getD .finished))
      (ha : s.outlet = none → s.Runs .drive) (ho : ∀ slot, s.outlet ≠ some (.fold, slot))
  | done (ho : s.outlet = none) (hm : m ≠ .free)

namespace Utters

theorem ending (h : Utters m ⟨s, false⟩) (hf : s.final.isComplete = true) : Ending m s := by
  have hg := h.stage
  revert hg
  cases hd : s.drive with
  | awaitFold =>
    rintro ⟨-, hv, ht, hw, hr⟩
    replace ht : s.final.taken = false := ht
    have hs : s.final.result.isSome = true := by simpa [Slot.isComplete, ht] using hf
    obtain ⟨o, hs⟩ := Option.isSome_iff_exists.1 hs
    rcases hr o hs with ⟨hn, -⟩ | ⟨-, rfl, hn⟩
    · cases hn
    · refine .learns hd hs ⟨hv, hw.resolve_right fun hg => ?_⟩ hn
      cases hs.symm.trans hg.result
  | push c =>
    rintro ⟨f, hf, -, rfl, hn, hm⟩
    obtain ⟨-, -, rfl⟩ := final?_eq_some.1 hf
    exact .pushes hd (fun ho => (hm ho).2) hn
  | awaitFeeder k o c =>
    rintro ⟨-, hn, hm⟩
    exact .done hn hm
  | settled r =>
    rintro (⟨hn, -⟩ | ⟨-, hn, hm⟩)
    · cases hn
    · exact .done hn hm
  | cancelFeeder | awaitCancelled =>
    rintro ⟨hn, -⟩
    cases hn

/-- When the fold has come to something, nobody but the drive waits for an answer. -/
theorem silent (h : Utters m ⟨s, false⟩) (hf : s.final.isComplete = true)
    (slot : Slot Agent Demand) : s.outlet ≠ some (.fold, slot) := by
  cases h.ending hf with
  | learns hd hr ha ho => simp [ho]
  | pushes hd ha ho => exact ho slot
  | done ho hm => simp [ho]

/-- The fold knows whether it was told to stop. -/
theorem ended_iff (h : Utters m ⟨s, false⟩) (hf : s.final.isComplete = true) :
    s.fold.machine.downstreamEnded = true ↔ m = .quit := by
  have hn := h.silent hf
  have hs := h.spoken
  simp only at hs
  generalize s.fold.machine.downstreamEnded = ended, s.outlet = outlet at hs hn ⊢
  cases hs with
  | free hm | quit hm | closed c hm => simp [hm]
  | value ha => exact absurd rfl (hn _)
  | completion c ha =>
    have hc := ha.completion?
    refine ⟨nofun, ?_⟩
    rintro rfl
    cases hc

/-- Who was not told to stop and has not sent its completion is free. -/
theorem eq_free (h : Utters m ⟨s, false⟩) (ho : s.outlet = none) (hm : m ≠ .quit)
    (hc : m.completion? = none) : m = .free ∧ s.fold.machine.downstreamEnded = false := by
  have hs := h.spoken
  simp only [ho] at hs
  generalize s.fold.machine.downstreamEnded = ended at hs ⊢
  cases hs with
  | free hx => exact ⟨hx, rfl⟩
  | quit hx => exact absurd hx hm
  | closed c hx =>
    rw [hx] at hc
    cases hc

/-- Who waits for an answer when the fold has come to something has sent the completion. -/
theorem outlet_none (h : Utters m ⟨s, false⟩) (hf : s.final.isComplete = true)
    (hc : m.completion? = none) : s.outlet = none := by
  rcases ho : s.outlet with _ | ⟨_ | _, slot⟩
  · rfl
  · exact absurd ho (h.silent hf slot)
  · obtain ⟨-, c, -, ha⟩ := h.pushing ho
    cases hc.symm.trans ha.completion?

/-- The drive sends the completion, unless it has been sent, or the fold was told to stop. -/
theorem due (h : Utters m ⟨s, false⟩) (hf : s.final.isComplete = true) (hm : m ≠ .quit)
    (hc : m.completion? = none) (order : List C.Feeder) : s.Runs .drive ∧ ∃ s₁ s₂,
      (s₁ = s ∨ Node.Step order s .tacit s₁) ∧
      Node.Step order s₁ (.calls (.completion (s.fold.final.completion.getD .finished))) s₂ := by
  have ho := h.outlet_none hf hc
  obtain ⟨hx, he⟩ := h.eq_free ho hm hc
  cases h.ending hf with
  | learns hd hr ha =>
    have hp : s.final.poll .drive =
        (⟨none, true, none⟩, s.final.waker, .ready (.ok s.fold.final)) := by
      rw [Slot.poll, hr]
    have hn : Drive.next order.length .awaitFold (.ok s.fold.final) =
        .push (s.fold.final.completion.getD .finished) := if_neg (by simp [Combination.final, he])
    exact ⟨ha, _, _, .inr (.learn ha (h.started hf) hd hp), .complete ha (h.started hf) hn ho⟩
  | pushes hd ha hn => exact ⟨ha ho, s, _, .inl rfl, .complete (ha ho) (h.started hf) hd ho⟩
  | done hn hq => exact absurd hx hq

/-- A combination whose fold has come to something and was not told to stop sends its
    completion. -/
theorem concludes (h : Utters m ⟨s, b⟩) (hx : x.finished = s.finished) (order : List C.Feeder) :
    Concludes (System.brittle C S order) (⟨s, b⟩ : Brittle C S).final? m x ⟨s, b⟩ where
  said c hc := (h.concluded c hc).imp fun f hf => ⟨hf.1, hf.2.2⟩
  ended f hf := by
    obtain ⟨hc, rfl, rfl⟩ := final?_eq_some.1 hf
    exact h.ended_iff hc
  finished hv hf hm hc := by
    obtain ⟨hi, rfl⟩ := isSome_final?.1 hf
    obtain ⟨⟨hn, -⟩, -⟩ := h.due hi hm hc order
    cases hn.symm.trans (hx.symm.trans hv)
  due f hf hm hc := by
    obtain ⟨hi, rfl, rfl⟩ := final?_eq_some.1 hf
    obtain ⟨-, s₁, s₂, h₁, h₂⟩ := h.due hi hm hc order
    exact ⟨⟨s₁, false⟩, ⟨s₂, false⟩, h₁.imp (fun hs => by rw [hs]) .work, .work h₂⟩

end Utters

/-- A combination is over when others know it. -/
theorem finished_eq {s : Brittle C S} (h : Reaches (System.brittle C S order) x s) :
    x.finished = s.node.finished := by
  have hc : ∀ (x : Standing) (s : Node C S), x.finished = s.finished →
      x.finished = s.cancelFold.finished := fun x s h =>
    Node.cancelFold_of (P := fun s => x.finished = s.finished) h h
  refine h.invariant (P := fun x (s : Brittle C S) => x.finished = s.node.finished) rfl ?_ ?_ ?_
  · rintro x s m s' hx hs
    cases hs with
    | work hs =>
      cases hs with
      | launch => exact Node.launch_of (P := fun s => x.finished = s.finished) hx (hc x)
      | finish => rfl
      | _ => exact hx
    | collapse => rfl
    | crash | forget => exact hx
  · rintro x s o hx -
    refine hx.trans ?_
    show _ = (s.node.answer o).finished
    rw [Node.answer]
    split <;> rfl
  · exact fun hx => Node.cancel_of (P := fun s => _ = s.finished) hx hx (hc _)

/-- A combination keeps to the grammar, and sends its completion when it should. -/
theorem exists_voice (hC : C.Remembers) (S : (i : C.Feeder) → System (C.Input i))
    (order : List C.Feeder) :
    ∃ P, Voice (System.brittle C S order) P ∧
      ∀ {x m s}, Reaches (System.brittle C S order) x s → P m s →
        Concludes (System.brittle C S order) (final? s) m x s :=
  ⟨_, voice hC order, fun hr hp => hp.concludes (finished_eq hr) order⟩

/-! ## The feeders of a combination -/

/-- The fold takes a step, and directs the feeders. -/
theorem tended_direct {f f' : Combination C} {feeder : (i : C.Feeder) → (S i).State}
    {result : C.Feeder → Slot Agent Demand} (h : Tended S f feeder result True) {e : Seen C}
    (hs : Combination.Step f e f') (he : ∀ i x k y, e.deed ≠ .sent i x k y) :
    Tended S f' (directed f.unanswered e feeder) result True := by
  obtain ⟨hu, hn⟩ := hs.unsent he
  have hf := h.told hu hn fun _ _ _ _ _ _ => .inr trivial
  rw [directed]
  split
  · exact hf.cancel trivial
  · exact hf

/-- A combination that is cancelled leaves its feeders alone. -/
theorem tended_cancelFold (h : Tended S s.fold s.feeder s.result True) :
    Tended S s.cancelFold.fold s.cancelFold.feeder s.cancelFold.result True :=
  Node.cancelFold_of (P := fun s => Tended S s.fold s.feeder s.result True) h h

theorem tended_cancel (h : Tended S s.fold s.feeder s.result True) :
    Tended S s.cancel.fold s.cancel.feeder s.cancel.result True :=
  Node.cancel_of (P := fun s => Tended S s.fold s.feeder s.result True) h h
    fun _ => tended_cancelFold

theorem tended_answer (h : Tended S s.fold s.feeder s.result True) (o : Outcome Demand) :
    Tended S (s.answer o).fold (s.answer o).feeder (s.answer o).result True := by
  rw [Node.answer]
  split <;> exact h

theorem tended_step (hC : C.Remembers) {s s' : Brittle C S} {a : Move C.Output}
    (h : Tended S s.node.fold s.node.feeder s.node.result True) (hs : Step order s a s') :
    Tended S s'.node.fold s'.node.feeder s'.node.result True := by
  cases hs with
  | work hs =>
    cases hs with
    | launch =>
      exact Node.launch_of (P := fun s => Tended S s.fold s.feeder s.result True) h
        fun _ => tended_cancelFold
    | fold ha hs he => exact tended_direct h hs (hs.inward he hC).1
    | push ha ho hs => exact tended_direct h hs (by simp)
    | reply ha ho hp hs => exact tended_direct h hs (by simp)
    | dismiss => exact h.dismiss trivial _
    | linger ha hs hd hi hp | leave ha hs hd hi hp => exact h.poll hp
    | feeder hs hf => exact h.tacit hf
    | receive hs hf => exact h.receive hf fun _ _ _ => trivial
    | release hs hf => exact h.release hf
    | _ => exact h
  | forget r o hb => exact h.told rfl rfl fun _ _ _ _ _ _ => .inr trivial
  | crash | collapse => exact h

/-- The feeders of a combination are streams that go on for themselves, whatever breaks down. -/
theorem tended (hC : C.Remembers) {s : Brittle C S} (h : Reaches (System.brittle C S order) x s) :
    Tended S s.node.fold s.node.feeder s.node.result True :=
  h.invariant
    (P := fun _ (s : Brittle C S) => Tended S s.node.fold s.node.feeder s.node.result True)
    (.start S _) (fun h hs => tended_step hC h hs) (fun o h _ => tended_answer h o) tended_cancel

/-- A feeder of a combination comes to its state by itself. -/
theorem feeder_reaches (hC : C.Remembers) {s : Brittle C S}
    (h : Reaches (System.brittle C S order) x s) (i : C.Feeder) :
    ∃ y, Reaches (S i) y (s.node.feeder i) :=
  let ⟨y, hr, _⟩ := tended hC h i
  ⟨y, hr⟩

end Brittle

/-! ### Combinations that do not break down -/

section Spoken

variable {C : Combiner} {S : (i : C.Feeder) → System (C.Input i)} {order : List C.Feeder}
  {t : List (Act C.Output)} {x : Standing} {s s' : Node C S}

/-- A combination that does not break down is one that may break down. -/
theorem run_brittle {e : Exposed (System.combine C S order)}
    (h : Run Exposed.Step (.new (System.combine C S order)) t e) :
    Run Exposed.Step (.new (System.brittle C S order)) t ⟨e.standing, ⟨e.state, false⟩⟩ := by
  refine h.invariant (P := fun t e => Run Exposed.Step (.new (System.brittle C S order)) t
    ⟨e.standing, ⟨e.state, false⟩⟩) .nil fun hr hs => ?_
  cases hs with
  | move hs => exact hr.snoc (.move (.work hs))
  | answer o hx => exact hr.snoc (.answer o hx)
  | cancel => exact hr.snoc .cancel

/-- What a combination has said, and what holds of it then. -/
theorem utters (hR : C.Remembers)
    (h : Run Exposed.Step (.new (System.combine C S order)) t ⟨x, s⟩) :
    ∃ m, Run Mood.Step .free (words t) m ∧ x.calling = m.calling ∧
      Brittle.Utters m ⟨s, false⟩ :=
  let ⟨m, hw, hc, _, hu⟩ := (Brittle.voice hR order).run (run_brittle h)
  ⟨m, hw, hc, hu⟩

/-- Whether a combination that is over has a drive that has nothing more to do. -/
def Node.Settles (s : Node C S) : Prop := s.finished = true → ∃ r, s.drive = .settled r

theorem Node.settles_cancelFold (h : s.Settles) : s.cancelFold.Settles :=
  cancelFold_of (P := Settles) h h

theorem Node.Step.settles {a : Move C.Output} (hs : Step order s a s') (h : s.Settles) :
    s'.Settles := by
  cases hs with
  | launch => exact launch_of (P := Settles) h fun _ => settles_cancelFold
  | learn ha | completed ha | dismiss ha | leave ha => exact fun hn => nomatch ha.1.symm.trans hn
  | finish ha hs hd => exact fun _ => ⟨_, hd⟩
  | _ => exact h

theorem Node.settles_answer (h : s.Settles) (o : Outcome Demand) : (s.answer o).Settles := by
  rw [Node.answer]
  split <;> exact h

/-- A combination is over when its drive has nothing more to do. -/
theorem Node.settled_of_finished (h : Reaches (System.combine C S order) x s) :
    s.finished = true → ∃ r, s.drive = .settled r :=
  h.invariant (P := fun _ (s : Node C S) => s.Settles) nofun
    (fun h hs => Step.settles hs h) (fun o h _ => settles_answer h o) fun h =>
      cancel_of (P := Settles) h h fun _ => settles_cancelFold

end Spoken

/-! ## What a combination has said -/

section Closes

variable {α : Type} {S : System α} {f? : Option Final} {t : List (Act α)} {x : Standing}
  {s : S.State}

/-- When a combination has sent its completion, given what its fold has come to. -/
structure Closes (S : System α) (f? : Option Final) (t : List (Act α)) (x : Standing)
    (s : S.State) : Prop where
  /-- It is sent once, if at all, and only when the fold has come to something and the downstream
      has not told it to stop. -/
  once : completions t = [] ∨ ∃ f, f? = some f ∧ ¬Dismissed t ∧
    completions t = [f.completion.getD .finished]
  /-- The fold knows whether the downstream has told it to stop. -/
  ended : ∀ f, f? = some f → (f.downstreamEnded = true ↔ Dismissed t)
  /-- Then the combination is not over before it has sent it. -/
  finished : x.finished = true → f?.isSome = true → ¬Dismissed t → completions t ≠ []
  /-- Nor does it have to wait for anything before it sends it. -/
  due : ∀ f, f? = some f → ¬Dismissed t → completions t = [] →
    ∃ s₁ s₂, (s₁ = s ∨ S.Step s .tacit s₁) ∧
      S.Step s₁ (.calls (.completion (f.completion.getD .finished))) s₂

theorem Concludes.closes {m : Mood} (h : Concludes S f? m x s)
    (hw : Run Mood.Step .free (words t) m) : Closes S f? t x s := by
  have hd := dismissed_iff hw
  have hc := completions_of_run hw
  refine ⟨?_, ?_, ?_, ?_⟩
  · rcases hm : m.completion? with _ | c
    · exact .inl (by rw [hc, hm]; rfl)
    · obtain ⟨f, hf, rfl⟩ := h.said c hm
      refine .inr ⟨f, hf, fun hx => ?_, by rw [hc, hm]; rfl⟩
      rw [hd.1 hx] at hm
      cases hm
  · exact fun f hf => (h.ended f hf).trans hd.symm
  · intro hx hf hn he
    refine h.finished hx hf (mt hd.2 hn) ?_
    simpa [hc] using he
  · exact fun f hf hn he => h.due f hf (mt hd.2 hn) (by simpa [hc] using he)

end Closes

/-! ## Plans -/

section Combinations

variable {α β : Type}

/-- The zip of two streams, which may break down. -/
def System.brittleZip (left : System α) (right : System β) : System (α × β) :=
  brittle (.zip α β) (fun | .left => left | .right => right) [.left, .right]

/-- The selection of two streams, which may break down. -/
def System.brittleSelect (left : System α) (right : System β) : System (Either α β) :=
  brittle (.select α β) (fun | .left => left | .right => right) [.left, .right]

/-- The merge of some streams, which may break down. -/
def System.brittleMerge : {n : Nat} → (Fin n → System α) → System α
  | 0, _ => frail (.ofList []) .finished
  | n + 1, feeders => brittle (.merge α (n + 1)) feeders (List.finRange (n + 1))

/-- What the fold of a merge has come to, if there is a fold. -/
def System.mergeFold? : {n : Nat} → (feeders : Fin n → System α) →
    (brittleMerge feeders).State → Option (Option Final)
  | 0, _, _ => none
  | _ + 1, _, s => some (Brittle.final? s)

/-- A feeder of a merge. -/
def System.mergeFeeder : {n : Nat} → (feeders : Fin n → System α) →
    (brittleMerge feeders).State → (i : Fin n) → (feeders i).State
  | 0, _, _, i => i.elim0
  | _ + 1, _, s, i => (Brittle.node s).feeder i

end Combinations

namespace Plan

variable {α β γ : Type}

/-- The stream of a plan, which may break down. -/
def brittle : {α : Type} → Plan α → System α
  | _, values supply => .frail supply .finished
  | α, fail f => .frail (.ofList ([] : List α)) (.failure f)
  | _, map g plan => plan.brittle.map g
  | _, zip left right => left.brittle.brittleZip right.brittle
  | _, select left right => left.brittle.brittleSelect right.brittle
  | _, merge feeders => .brittleMerge fun i => (feeders i).brittle

/-- What the fold of a combination has come to; other streams have no fold. -/
def fold? : {α : Type} → (p : Plan α) → p.brittle.State → Option (Option Final)
  | _, values _, _ => none
  | _, fail _, _ => none
  | _, map _ p, s => p.fold? s
  | _, zip _ _, s => some (Brittle.final? s)
  | _, select _ _, s => some (Brittle.final? s)
  | _, merge feeders, s => System.mergeFold? (fun i => (feeders i).brittle) s

/-- The streams in a stream, at every depth. -/
inductive Part : {α β : Type} → (p : Plan α) → p.brittle.State → (q : Plan β) →
    q.brittle.State → Prop
  | self {α : Type} (p : Plan α) (s : p.brittle.State) : Part p s p s
  | map {α β γ : Type} {g : α → β} {p : Plan α} {s : p.brittle.State} {q : Plan γ}
      {s' : q.brittle.State} : Part p s q s' → Part (map g p) s q s'
  | zipLeft {α β γ : Type} {l : Plan α} {r : Plan β} {s : (zip l r).brittle.State} {q : Plan γ}
      {s' : q.brittle.State} :
      Part l ((Brittle.node s).feeder Side.left) q s' → Part (zip l r) s q s'
  | zipRight {α β γ : Type} {l : Plan α} {r : Plan β} {s : (zip l r).brittle.State} {q : Plan γ}
      {s' : q.brittle.State} :
      Part r ((Brittle.node s).feeder Side.right) q s' → Part (zip l r) s q s'
  | selectLeft {α β γ : Type} {l : Plan α} {r : Plan β} {s : (select l r).brittle.State}
      {q : Plan γ} {s' : q.brittle.State} :
      Part l ((Brittle.node s).feeder Side.left) q s' → Part (select l r) s q s'
  | selectRight {α β γ : Type} {l : Plan α} {r : Plan β} {s : (select l r).brittle.State}
      {q : Plan γ} {s' : q.brittle.State} :
      Part r ((Brittle.node s).feeder Side.right) q s' → Part (select l r) s q s'
  | merge {α γ : Type} {n : Nat} {feeders : Fin n → Plan α}
      {s : (Plan.merge feeders).brittle.State} {q : Plan γ} {s' : q.brittle.State} (i : Fin n) :
      Part (feeders i) (System.mergeFeeder (fun i => (feeders i).brittle) s i) q s' →
      Part (Plan.merge feeders) s q s'

/-- Whatever is built keeps to the grammar, and sends its completion when it should. -/
theorem exists_voice (p : Plan α) : ∃ P : Mood → p.brittle.State → Prop,
    Voice p.brittle P ∧ ∀ {x m s f?}, Reaches p.brittle x s → P m s → p.fold? s = some f? →
      Concludes p.brittle f? m x s := by
  induction p with
  | values supply => exact ⟨_, Sourcing.voice supply .finished, fun _ _ hn => nomatch hn⟩
  | fail f => exact ⟨_, Sourcing.voice _ (.failure f), fun _ _ hn => nomatch hn⟩
  | map g p ih =>
    obtain ⟨P, hv, hc⟩ := ih
    exact ⟨P, hv.map g, fun hr hp hf => (hc hr.of_map hp hf).map g⟩
  | zip l r =>
    obtain ⟨P, hv, hc⟩ := Brittle.exists_voice (remembers (.zip _ _))
      (fun | .left => l.brittle | .right => r.brittle) [.left, .right]
    refine ⟨P, hv, fun hr hp hf => ?_⟩
    cases hf
    exact hc hr hp
  | select l r =>
    obtain ⟨P, hv, hc⟩ := Brittle.exists_voice (remembers (.select _ _))
      (fun | .left => l.brittle | .right => r.brittle) [.left, .right]
    refine ⟨P, hv, fun hr hp hf => ?_⟩
    cases hf
    exact hc hr hp
  | @merge α n feeders ih =>
    cases n with
    | zero => exact ⟨_, Sourcing.voice _ .finished, fun _ _ hn => nomatch hn⟩
    | succ n =>
      obtain ⟨P, hv, hc⟩ := Brittle.exists_voice (remembers (.merge α (n + 1)))
        (fun i => (feeders i).brittle) (List.finRange (n + 1))
      refine ⟨P, hv, fun hr hp hf => ?_⟩
      cases hf
      exact hc hr hp

/-- A stream in a stream comes to its state by itself. -/
theorem Part.reaches {p : Plan α} {s : p.brittle.State} {q : Plan β} {s' : q.brittle.State}
    (h : Part p s q s') {x : Standing} (hr : Reaches p.brittle x s) :
    ∃ y, Reaches q.brittle y s' := by
  induction h generalizing x with
  | self p s => exact ⟨x, hr⟩
  | map _ ih => exact ih hr.of_map
  | @zipLeft _ _ _ l r s q s' _ ih =>
    obtain ⟨y, hy⟩ := Brittle.feeder_reaches (remembers (.zip _ _)) hr Side.left
    exact ih hy
  | @zipRight _ _ _ l r s q s' _ ih =>
    obtain ⟨y, hy⟩ := Brittle.feeder_reaches (remembers (.zip _ _)) hr Side.right
    exact ih hy
  | @selectLeft _ _ _ l r s q s' _ ih =>
    obtain ⟨y, hy⟩ := Brittle.feeder_reaches (remembers (.select _ _)) hr Side.left
    exact ih hy
  | @selectRight _ _ _ l r s q s' _ ih =>
    obtain ⟨y, hy⟩ := Brittle.feeder_reaches (remembers (.select _ _)) hr Side.right
    exact ih hy
  | @merge α _ n feeders s q s' i _ ih =>
    cases n with
    | zero => exact i.elim0
    | succ n =>
      obtain ⟨y, hy⟩ := Brittle.feeder_reaches (remembers (.merge α (n + 1))) hr i
      exact ih hy

/-- What a run of a stream has to keep to. -/
structure Keeps (p : Plan α) (t : List (Act α)) (x : Standing) (s : p.brittle.State) : Prop where
  grammatical : Grammatical t
  closes : ∀ f?, p.fold? s = some f? → Closes p.brittle f? t x s

theorem keeps_of_run (p : Plan α) {t : List (Act α)} {x : Standing} {s : p.brittle.State}
    (h : Run Exposed.Step (.new p.brittle) t ⟨x, s⟩) : p.Keeps t x s := by
  obtain ⟨P, hv, hc⟩ := p.exists_voice
  obtain ⟨m, hw, -, -, hp⟩ := hv.run h
  exact ⟨hv.grammatical h, fun f? hf => (hc ⟨t, h⟩ hp hf).closes hw⟩

end Plan

open Plan in
/-- Every stream keeps to the grammar of events, and a combination sends its completion once if its
    fold has come to something and its downstream has not told it to stop, and never otherwise;
    and so does every stream in it, at whatever depth, in the run that has brought it to where
    it is. -/
theorem keeps_grammar {α : Type} (p : Plan α) {t : List (Act α)} {x : Standing}
    {s : p.brittle.State} (h : Run Exposed.Step (.new p.brittle) t ⟨x, s⟩) :
    p.Keeps t x s ∧ ∀ {β : Type} {q : Plan β} {s' : q.brittle.State}, Part p s q s' →
      ∃ t' y, Run Exposed.Step (.new q.brittle) t' ⟨y, s'⟩ ∧ q.Keeps t' y s' := by
  refine ⟨p.keeps_of_run h, fun hq => ?_⟩
  obtain ⟨y, t', hr⟩ := hq.reaches ⟨t, h⟩
  exact ⟨t', y, hr, Plan.keeps_of_run _ hr⟩

/-- A selection whose one side fails tells its downstream so, while the other side has not yet
    begun. -/
theorem keeps_grammar_failed : ∃ (p : Plan (Either Nat Nat)) (t : List (Act (Either Nat Nat)))
    (x : Standing) (s : p.brittle.State),
    p = (Plan.fail Fault.cancelled).select (.just 1) ∧
      Run Exposed.Step (.new p.brittle) t ⟨x, s⟩ ∧
      called t = [.completion (.failure Fault.cancelled)] ∧ p.Keeps t x s ∧
      ∀ {β : Type} {q : Plan β} {s' : q.brittle.State}, Plan.Part p s q s' →
        ∃ t' y, Run Exposed.Step (.new q.brittle) t' ⟨y, s'⟩ ∧ q.Keeps t' y s' := by
  have start : Run Exposed.Step
      (.new ((Plan.fail Fault.cancelled).select (.just 1) : Plan (Either Nat Nat)).brittle) [] _ :=
    .nil
  have launched := start.snoc (.move (.work (.launch ⟨rfl, rfl⟩ rfl)))
  have begun := launched.snoc (.move (.work (.fold ⟨rfl, rfl, rfl⟩ (.start rfl) trivial)))
  have failed := begun.snoc (.move (.work (Node.Step.receive (C := .select Nat Nat)
    (i := Side.left) rfl (.work (.call ⟨rfl, rfl⟩ rfl rfl)))))
  have looked := failed.snoc
    (.move (.work (.fold ⟨rfl, rfl, rfl⟩ (.tacit (.checkpoint rfl)) trivial)))
  have read := looked.snoc
    (.move (.work (.fold ⟨rfl, rfl, rfl⟩ (.tacit (.read 0 rfl rfl)) trivial)))
  have reduced := read.snoc (.move (.work (.fold ⟨rfl, rfl, rfl⟩ (.reduce rfl rfl) trivial)))
  have closed := reduced.snoc (.move (.work (.fold ⟨rfl, rfl, rfl⟩ (.finish rfl) trivial)))
  have finalized := closed.snoc
    (.move (.work (.fold ⟨rfl, rfl, rfl⟩ (.finalize rfl) trivial)))
  have drained := finalized.snoc
    (.move (.work (.fold ⟨rfl, rfl, rfl⟩ (.tacit (.drain rfl)) trivial)))
  have stopped := drained.snoc (.move (.work (.stop ⟨rfl, rfl, rfl⟩ rfl)))
  have learnt := stopped.snoc (.move (.work (.learn ⟨rfl, rfl⟩ rfl rfl rfl)))
  have told := learnt.snoc (.move (.work (.complete ⟨rfl, rfl⟩ rfl rfl rfl)))
  exact ⟨_, _, _, _, rfl, told, rfl, keeps_grammar _ told⟩

end ResumeOnce.Network

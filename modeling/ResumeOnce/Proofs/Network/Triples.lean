import ResumeOnce.Proofs.Network.Supplying
import ResumeOnce.Proofs.Network.Zipping

/-!
# Triples

The values of three streams are put together by two zips, one of which is a side of the other one.
The outer zip may come to its end first. It lets go of the pair that it holds then, and cancels the
inner zip, which may be about to end as well. In which order ever the events come to the two folds,
the triples are those of the three scripts by their places, and nobody is left behind.

* `System.zip3`, `outerZip`, `innerZip`: the stream of the triples, and its two zips;
* `Tells`: a stream that tells a script to its end;
* `Exhausted`, `Tripled`: what is known of the triples of three streams;
* `tripled`: so it is in every run with a downstream that wants more.
-/

namespace ResumeOnce.Network

open Streams

variable {α β γ : Type} {A : System α} {B : System β} {C : System γ} {a : Script α} {b : Script β}
  {c : Script γ}

/-! ## Two zips -/

/-- The sides of a zip. -/
def both (A : System α) (B : System β) :
    (i : (Combiner.zip α β).Feeder) → System ((Combiner.zip α β).Input i)
  | .left => A
  | .right => B

theorem mem_sides (i : Side) : i ∈ [Side.left, Side.right] := by cases i <;> simp

/-- A pair and a value, as a triple. -/
def regroup (v : (α × β) × γ) : α × β × γ := (v.1.1, v.1.2, v.2)

/-- The stream of the triples of three streams. -/
def System.zip3 (A : System α) (B : System β) (C : System γ) : System (α × β × γ) :=
  ((A.zip B).zip C).map regroup

example (a : Plan α) (b : Plan β) (c : Plan γ) :
    (a.zip3 b c).system = .zip3 a.system b.system c.system := rfl

/-- The zip of the pairs with the values of the third stream. -/
def outerZip (s : (System.zip3 A B C).State) : Node (.zip (α × β) γ) (both (A.zip B) C) := s

/-- The zip of the first two streams, which is a side of the other one. -/
def innerZip (s : (System.zip3 A B C).State) : Node (.zip α β) (both A B) :=
  (outerZip s).feeder Side.left

/-- Whatever the outer zip does, is done by the stream of the triples. -/
theorem zip3_outer {s : (System.zip3 A B C).State} {m : Move ((α × β) × γ)}
    {s' : Node (.zip (α × β) γ) (both (A.zip B) C)}
    (hs : Node.Step [Side.left, Side.right] (outerZip s) m s') :
    (System.zip3 A B C).Step s (m.map regroup) s' := ⟨m, hs, rfl⟩

/-- So is what the inner zip does, once it was subscribed to. -/
theorem zip3_inner {s : (System.zip3 A B C).State} (hs : (outerZip s).started = true)
    {s' : Node (.zip α β) (both A B)}
    (hi : Node.Step [Side.left, Side.right] (innerZip s) .tacit s') :
    (System.zip3 A B C).Step s .tacit
      { outerZip s with feeder := Function.update (outerZip s).feeder Side.left s' } :=
  zip3_outer (Node.Step.feeder (C := .zip (α × β) γ) (i := Side.left) hs hi)

/-! ## Streams that tell a script -/

/-- Whether a stream keeps to the rules and is never stuck, follows a script as long as it may, and
    finishes. -/
structure Tells (A : System α) (a : Script α) : Prop where
  lively : Lively A
  recites : Recites A a
  finishes : a.Finishes

namespace Tells

/-- Both sides of a zip tell their scripts. -/
theorem each (hA : Tells A a) (hB : Tells B b) (i : (Combiner.zip α β).Feeder) :
    Lively (both A B i) ∧ Recites (both A B i) (sides a b i) := by
  cases i with
  | left => exact ⟨hA.lively, hA.recites⟩
  | right => exact ⟨hB.lively, hB.recites⟩

theorem zip (hA : Tells A a) (hB : Tells B b) : Tells (A.zip B) (a.zip b) where
  lively := lively_zip hA.lively hB.lively
  recites := recites_zip (S := both A B) (fun i => (hA.each hB i).1.polite)
    (fun i => (hA.each hB i).2) hA.finishes hB.finishes
  finishes := Script.finishes_zip a b

theorem ofList (values : List α) :
    Tells (.source (.ofList values) .finished) (.finite values .finished) where
  lively := lively_source _ .finished
  recites := recites_ofList values .finished
  finishes _ hc := (Option.some.inj hc).symm

theorem ofFn (values : Nat → α) : Tells (.source (.ofFn values) .finished) (.endless values) where
  lively := lively_source _ .finished
  recites := recites_ofFn values .finished
  finishes := nofun

end Tells

/-! ## Triples by their places -/

/-- What the two zips and the three streams went through by the end. -/
structure Exhausted (a : Script α) (b : Script β) (c : Script γ) (t : List (Act (α × β × γ)))
    (s : (System.zip3 A B C).State) (r : Outcome Demand)
    (T : List (Seen (Combiner.zip (α × β) γ)))
    (u : (i : (Combiner.zip (α × β) γ).Feeder) → List (Act ((Combiner.zip (α × β) γ).Input i)))
    (T' : List (Seen (Combiner.zip α β)))
    (u' : (i : (Combiner.zip α β).Feeder) → List (Act ((Combiner.zip α β).Input i))) : Prop where
  result : r = .ok .done
  completed : completions t = [.finished]
  /-- There is a triple for each value of the shortest one. -/
  length : ((values t).length : ℕ∞) = min a.length (min b.length c.length)
  outer : Underwent T u (outerZip s)
  inner : Underwent T' u' (innerZip s)
  /-- The pairs of the inner zip went to the outer one, and its pairs to the downstream. -/
  pushed : (pushed T).map regroup = values t
  handed : Streams.pushed T' = values (u Side.left)
  /-- Both folds have ended, the inner one by itself or because the outer one has. -/
  outer_stopped : (outerZip s).fold.consumer.turn = .stop .finished
  inner_stopped : (innerZip s).fold.consumer.turn = .stop .finished ∨
    (innerZip s).fold.consumer.turn = .stop (.failure Fault.cancelled)
  /-- Every stream is over, with an answer to each of its events, none of them a leak. -/
  outer_released : ∀ i, Released (u i)
  inner_released : ∀ i, Released (u' i)

/-- What is known of the triples of three streams behind a run. -/
structure Tripled (a : Script α) (b : Script β) (c : Script γ) (t : List (Act (α × β × γ)))
    (y : Standing) (s : (System.zip3 A B C).State) : Prop where
  /-- The first ones have been pushed, as many as there are by now. -/
  triples : values t = triples a b c (values t).length
  live : y.finished = true ∨ y.calling = true ∨ ∃ m s', (System.zip3 A B C).Step s m s'
  ends : ∀ r s', (System.zip3 A B C).Step s (.ends r) s' →
    ∃ T u T' u', Exhausted a b c t s r T u T' u'

/-- A downstream that is kind to the triples is kind to the pairs of which they are made. -/
theorem kind_of_map {α β : Type} {g : α → β} {t : List (Act α)}
    (h : Kind (words (t.map (Act.map g)))) : Kind (words t) := by
  intro ws₁ e o ws₂ hw
  have hx := h (ws₁.map (Word.map g)) (e.map g) o (ws₂.map (Word.map g))
    (by rw [words_map, hw, List.map_append]; rfl)
  cases e <;> exact hx

section Ends

variable {t : List (Act ((α × β) × γ))} {u : List (Act (α × β))} {y : Standing}
  {T : List (Seen (Combiner.zip (α × β) γ))}
  {s s' : Node (.zip (α × β) γ) (traced (both (A.zip B) C))} {r : Outcome Demand}

/-- The inner zip is over, and was not answered with a fault. -/
theorem inner_over (hA : Tells A a) (hB : Tells B b) {s : Node (.zip α β) (both A B)}
    (h : Run Exposed.Step (.new (System.combine (.zip α β) (both A B) [Side.left, Side.right])) u
      ⟨y, s⟩) (ho : ∃ r, .moved (.ends r) ∈ u)
    (hg : ∀ o ∈ answered u, ∃ d, o = .ok d) : ∃ T' u', Underwent T' u' s ∧
      pushed T' = values u ∧ (s.fold.consumer.turn = .stop .finished ∨
        s.fold.consumer.turn = .stop (.failure Fault.cancelled)) ∧ ∀ i, Released (u' i) := by
  have hR : (Combiner.zip α β).Remembers := remembers (.zip α β)
  have hl := fun i => (hA.each hB i).1.polite
  obtain ⟨s, rfl, hr⟩ := Node.run_remember (s := Node.new (.zip α β) (traced (both A B))) h
  obtain ⟨T', hT⟩ := chronicle_run (fun i => (hA.each hB i).2) hR hl hr
  have hkept := Node.Kept.kept_reaches hR (fun i => (hl i).traced) ⟨u, hr⟩
  have hf : s.finished = true := hkept.finished.symm.trans ((finished_iff h).2 (.inr ho))
  obtain ⟨ht, hx⟩ := hT.stops hl hA.finishes hB.finishes hr
    (fun v ps o hd => hg o (hT.replied v ps o hd)) hf
  exact ⟨T', _, hT.underwent hkept.fed, hT.pushed, ht, fun i => hx i (mem_sides i)⟩

/-- Both zips come to their ends, when nobody disturbs the outer one. -/
theorem exhausted (hA : Tells A a) (hB : Tells B b) (hC : Tells C c)
    (h : Run Exposed.Step
      (.new (System.combine (.zip (α × β) γ) (traced (both (A.zip B) C)) [Side.left, Side.right])) t
      ⟨y, s⟩)
    (hT : Chronicle (C := .zip (α × β) γ) (sides (a.zip b) c) T t s) (hk : Kind (words t))
    (hc : .cancelled ∉ t) (hs : Node.Step [Side.left, Side.right] s (.ends r) s') :
    ∃ T' u', Exhausted a b c (t.map (Act.map regroup)) s.forget r T (memory s.feeder) T' u' := by
  have hR : (Combiner.zip (α × β) γ).Remembers := remembers (.zip (α × β) γ)
  have hZ := hA.zip hB
  have hl := fun i => (hZ.each hC i).1.polite
  have hkept := Node.Kept.kept_reaches hR (fun i => (hl i).traced) ⟨t, h⟩
  obtain ⟨hx, hr⟩ := hT.undisturbed hl hZ.finishes hC.finishes h hk hc hs
  have hg : Gentle T := fun v ps o hd => ⟨_, hT.welcomed hk v ps o hd⟩
  have hrel := fun i => hT.released hkept.fed hZ.finishes hC.finishes hg hx.stopped
    (hr i (mem_sides i))
  -- The outer zip answers the inner one with no fault, as it was not cancelled.
  have hans : ∀ o ∈ answered (memory s.feeder Side.left), ∃ d, o = .ok d := by
    intro o ho
    obtain ⟨k, hk⟩ := List.getElem?_of_mem ho
    exact (gentle_answer hT.run hT.faithful hZ.finishes hC.finishes hg
      (((hT.tracked.attuned Side.left).got k o).1 hk)).resolve_right
      fun hd => hc (hT.cancelled hd.2)
  obtain ⟨y', hu, -⟩ := hkept.fed.remembers Side.left
  obtain ⟨T', u', hin, hp, ht, hrel'⟩ := inner_over hA hB hu (hrel Side.left).gone hans
  exact ⟨T', u', {
    result := hx.result
    completed := (completions_map regroup t).trans hx.completed
    length := by
      rw [values_map, List.length_map, ← min_assoc, ← Script.length_zip]
      exact hx.length
    outer := hT.underwent hkept.fed
    inner := hin
    pushed := (congrArg (List.map regroup) hT.pushed).trans (values_map regroup t).symm
    handed := hp
    outer_stopped := hx.stopped
    inner_stopped := ht
    outer_released := hrel
    inner_released := hrel' }⟩

end Ends

/-- The zip of three streams that finish, with a downstream that wants more of every triple and
    accepts the completion, pushes their values by their places. It is never stuck. When it ends, it
    has pushed as many triples as the shortest stream has values, and one completion behind them; it
    comes to no fault, both of its folds have ended, and every stream is released. Streams may go on
    without end, if only one of them does not. -/
theorem tripled (hA : Tells A a) (hB : Tells B b) (hC : Tells C c) {t : List (Act (α × β × γ))}
    {y : Standing} {s : (System.zip3 A B C).State}
    (h : Run Exposed.Step (.new (System.zip3 A B C)) t ⟨y, s⟩) (hk : Kind (words t))
    (hc : .cancelled ∉ t) : Tripled a b c t y s := by
  have hZ := hA.zip hB
  have hlive := (lively_map (lively_zip hZ.lively hC.lively) regroup).live ⟨t, h⟩
  obtain ⟨t, rfl, hr⟩ := run_of_map h
  replace hk := kind_of_map hk
  replace hc : .cancelled ∉ t := fun hm => hc (List.mem_map.2 ⟨_, hm, rfl⟩)
  -- The sides of the outer zip remember what they go through.
  obtain ⟨s, rfl, hr⟩ := Node.run_remember
    (s := Node.new (.zip (α × β) γ) (traced (both (A.zip B) C))) hr
  obtain ⟨T, hT⟩ := chronicle_run (fun i => (hZ.each hC i).2) (remembers (.zip (α × β) γ))
    (fun i => (hZ.each hC i).1.polite) hr
  refine ⟨?_, hlive, ?_⟩
  · rw [values_map, List.length_map, ← map_pairs]
    exact congrArg (List.map regroup) (hT.pairs_eq hk hc)
  · rintro r s' ⟨m, hs, hm⟩
    cases m with
    | ends r' =>
      cases hm
      obtain ⟨s', hs, -⟩ := Node.step_remember hs
      obtain ⟨T', u', hx⟩ := exhausted hA hB hC hr hT hk hc hs
      exact ⟨T, _, T', u', hx⟩
    | _ => cases hm

/-- The triples of all numbers, of one value and of another one. -/
theorem tripled_endless : ∃ (t : List (Act (Nat × Nat × Nat))) (y : Standing)
    (s s' : (System.zip3 (.source (.ofFn id) .finished) (.source (.ofList [7]) .finished)
      (.source (.ofList [5]) .finished)).State),
    values t = [(0, 7, 5)] ∧ System.Step _ s (.ends (.ok .done)) s' ∧
      Tripled (.endless id) (.finite [7] .finished) (.finite [5] .finished) t y s := by
  have start : Run Exposed.Step (.new (System.zip3 (.source (.ofFn id) .finished)
    (.source (.ofList [7]) .finished) (.source (.ofList [5]) .finished))) [] _ := .nil
  have sent := start
    |>.snoc (.move (zip3_outer (.launch ⟨rfl, rfl⟩ rfl)))
    |>.snoc (.move (zip3_inner rfl (.launch ⟨rfl, rfl⟩ rfl)))
    |>.snoc (.move (zip3_inner rfl
      (Node.Step.feeder (C := .zip Nat Nat) (i := Side.left) rfl
        (Sourcing.Step.look ⟨rfl, rfl⟩ rfl))))
    |>.snoc (.move (zip3_inner rfl
      (Node.Step.receive (C := .zip Nat Nat) (i := Side.left) rfl
        (Sourcing.Step.call ⟨rfl, rfl⟩ rfl rfl))))
    |>.snoc (.move (zip3_inner rfl
      (Node.Step.feeder (C := .zip Nat Nat) (i := Side.right) rfl
        (Sourcing.Step.look ⟨rfl, rfl⟩ rfl))))
    |>.snoc (.move (zip3_inner rfl
      (Node.Step.receive (C := .zip Nat Nat) (i := Side.right) rfl
        (Sourcing.Step.call ⟨rfl, rfl⟩ rfl rfl))))
  have paired := sent
    |>.snoc (.move (zip3_inner rfl (.fold ⟨rfl, rfl, rfl⟩ (.start rfl) trivial)))
    |>.snoc (.move (zip3_inner rfl (.fold ⟨rfl, rfl, rfl⟩ (.tacit (.checkpoint rfl)) trivial)))
    |>.snoc (.move (zip3_inner rfl (.fold ⟨rfl, rfl, rfl⟩ (.tacit (.read 0 rfl rfl)) trivial)))
    |>.snoc (.move (zip3_inner rfl (.fold ⟨rfl, rfl, rfl⟩ (.reduce rfl rfl) trivial)))
    |>.snoc (.move (zip3_inner rfl (.fold ⟨rfl, rfl, rfl⟩ (.idle rfl rfl rfl) trivial)))
    |>.snoc (.move (zip3_inner rfl (.fold ⟨rfl, rfl, rfl⟩ (.tacit (.checkpoint rfl)) trivial)))
    |>.snoc (.move (zip3_inner rfl (.fold ⟨rfl, rfl, rfl⟩ (.tacit (.read 0 rfl rfl)) trivial)))
    |>.snoc (.move (zip3_inner rfl (.fold ⟨rfl, rfl, rfl⟩ (.reduce rfl rfl) trivial)))
    |>.snoc (.move (zip3_outer
      (Node.Step.receive (C := .zip (Nat × Nat) Nat) (i := Side.left) rfl
        (Node.Step.push ⟨rfl, rfl, rfl⟩ rfl (.push rfl rfl rfl)))))
    |>.snoc (.move (zip3_outer
      (Node.Step.feeder (C := .zip (Nat × Nat) Nat) (i := Side.right) rfl
        (Sourcing.Step.look ⟨rfl, rfl⟩ rfl))))
    |>.snoc (.move (zip3_outer
      (Node.Step.receive (C := .zip (Nat × Nat) Nat) (i := Side.right) rfl
        (Sourcing.Step.call ⟨rfl, rfl⟩ rfl rfl))))
  -- The first triple goes to the downstream, which wants more.
  have pushed := paired
    |>.snoc (.move (zip3_outer (.fold ⟨rfl, rfl, rfl⟩ (.start rfl) trivial)))
    |>.snoc (.move (zip3_outer (.fold ⟨rfl, rfl, rfl⟩ (.tacit (.checkpoint rfl)) trivial)))
    |>.snoc (.move (zip3_outer (.fold ⟨rfl, rfl, rfl⟩ (.tacit (.read 0 rfl rfl)) trivial)))
    |>.snoc (.move (zip3_outer (.fold ⟨rfl, rfl, rfl⟩ (.reduce rfl rfl) trivial)))
    |>.snoc (.move (zip3_outer (.fold ⟨rfl, rfl, rfl⟩ (.idle rfl rfl rfl) trivial)))
    |>.snoc (.move (zip3_outer (.fold ⟨rfl, rfl, rfl⟩ (.tacit (.checkpoint rfl)) trivial)))
    |>.snoc (.move (zip3_outer (.fold ⟨rfl, rfl, rfl⟩ (.tacit (.read 0 rfl rfl)) trivial)))
    |>.snoc (.move (zip3_outer (.fold ⟨rfl, rfl, rfl⟩ (.reduce rfl rfl) trivial)))
    |>.snoc (.move (zip3_outer (.push ⟨rfl, rfl, rfl⟩ rfl (.push rfl rfl rfl))))
    |>.snoc (.answer (.ok .more) rfl)
    |>.snoc (.move (zip3_outer (.reply ⟨rfl, rfl, rfl⟩ rfl rfl (.reply _ rfl rfl))))
    |>.snoc (.move (zip3_outer
      (Node.Step.feeder (C := .zip (Nat × Nat) Nat) (i := Side.right) rfl
        (Sourcing.Step.take ⟨rfl, rfl⟩ rfl rfl))))
    |>.snoc (.move (zip3_outer
      (Node.Step.receive (C := .zip (Nat × Nat) Nat) (i := Side.right) rfl
        (Sourcing.Step.call ⟨rfl, rfl⟩ rfl rfl))))
  -- The third stream is finished, and with it the outer zip.
  have stopped := pushed
    |>.snoc (.move (zip3_outer (.fold ⟨rfl, rfl, rfl⟩ (.tacit (.checkpoint rfl)) trivial)))
    |>.snoc (.move (zip3_outer (.fold ⟨rfl, rfl, rfl⟩ (.tacit (.read 0 rfl rfl)) trivial)))
    |>.snoc (.move (zip3_outer (.fold ⟨rfl, rfl, rfl⟩ (.reduce rfl rfl) trivial)))
    |>.snoc (.move (zip3_outer (.fold ⟨rfl, rfl, rfl⟩ (.finish rfl) trivial)))
    |>.snoc (.move (zip3_outer (.fold ⟨rfl, rfl, rfl⟩ (.finalize rfl) trivial)))
    |>.snoc (.move (zip3_outer (.fold ⟨rfl, rfl, rfl⟩ (.tacit (.drain rfl)) trivial)))
    |>.snoc (.move (zip3_outer (.stop ⟨rfl, rfl, rfl⟩ rfl)))
    |>.snoc (.move (zip3_outer (.learn ⟨rfl, rfl⟩ rfl rfl rfl)))
    |>.snoc (.move (zip3_outer (.complete ⟨rfl, rfl⟩ rfl rfl rfl)))
    |>.snoc (.answer (.ok .done) rfl)
    |>.snoc (.move (zip3_outer (.completed ⟨rfl, rfl⟩ rfl rfl rfl rfl)))
  -- The inner zip had its answer before it was cancelled, and finds its completion refused.
  have inner := stopped
    |>.snoc (.move (zip3_inner rfl (.reply ⟨rfl, rfl, rfl⟩ rfl rfl (.reply _ rfl rfl))))
    |>.snoc (.move (zip3_inner rfl (.fold ⟨rfl, rfl, rfl⟩ (.tacit (.checkpoint rfl)) trivial)))
    |>.snoc (.move (zip3_inner rfl (.fold ⟨rfl, rfl, rfl⟩ (.finish rfl) trivial)))
    |>.snoc (.move (zip3_inner rfl (.fold ⟨rfl, rfl, rfl⟩ (.finalize rfl) trivial)))
    |>.snoc (.move (zip3_inner rfl (.fold ⟨rfl, rfl, rfl⟩ (.tacit (.drain rfl)) trivial)))
    |>.snoc (.move (zip3_inner rfl (.stop ⟨rfl, rfl, rfl⟩ rfl)))
    |>.snoc (.move (zip3_inner rfl (.learn ⟨rfl, rfl⟩ rfl rfl rfl)))
    |>.snoc (.move (zip3_outer
      (Node.Step.receive (C := .zip (Nat × Nat) Nat) (i := Side.left) rfl
        (Node.Step.complete ⟨rfl, rfl⟩ rfl rfl rfl))))
    |>.snoc (.move (zip3_inner rfl (.completed ⟨rfl, rfl⟩ rfl rfl rfl rfl)))
  -- The endless stream finds that it was cancelled.
  have sides := inner
    |>.snoc (.move (zip3_inner rfl
      (Node.Step.feeder (C := .zip Nat Nat) (i := Side.left) rfl
        (Sourcing.Step.take ⟨rfl, rfl⟩ rfl rfl))))
    |>.snoc (.move (zip3_inner rfl
      (Node.Step.feeder (C := .zip Nat Nat) (i := Side.left) rfl
        (Sourcing.Step.look ⟨rfl, rfl⟩ rfl))))
    |>.snoc (.move (zip3_inner rfl
      (Node.Step.release (C := .zip Nat Nat) (i := Side.left) rfl
        (Sourcing.Step.finish ⟨rfl, rfl⟩ rfl))))
    |>.snoc (.move (zip3_inner rfl
      (Node.Step.feeder (C := .zip Nat Nat) (i := Side.right) rfl
        (Sourcing.Step.take ⟨rfl, rfl⟩ rfl rfl))))
    |>.snoc (.move (zip3_inner rfl
      (Node.Step.receive (C := .zip Nat Nat) (i := Side.right) rfl
        (Sourcing.Step.call ⟨rfl, rfl⟩ rfl rfl))))
    |>.snoc (.move (zip3_inner rfl
      (Node.Step.feeder (C := .zip Nat Nat) (i := Side.right) rfl
        (Sourcing.Step.take ⟨rfl, rfl⟩ rfl rfl))))
    |>.snoc (.move (zip3_inner rfl
      (Node.Step.release (C := .zip Nat Nat) (i := Side.right) rfl
        (Sourcing.Step.finish ⟨rfl, rfl⟩ rfl))))
  have left := sides
    |>.snoc (.move (zip3_inner rfl (.leave ⟨rfl, rfl⟩ rfl rfl rfl rfl)))
    |>.snoc (.move (zip3_inner rfl (.leave ⟨rfl, rfl⟩ rfl rfl rfl rfl)))
    |>.snoc (.move (zip3_outer
      (Node.Step.release (C := .zip (Nat × Nat) Nat) (i := Side.left) rfl
        (Node.Step.finish ⟨rfl, rfl⟩ rfl rfl))))
    |>.snoc (.move (zip3_outer
      (Node.Step.feeder (C := .zip (Nat × Nat) Nat) (i := Side.right) rfl
        (Sourcing.Step.take ⟨rfl, rfl⟩ rfl rfl))))
    |>.snoc (.move (zip3_outer
      (Node.Step.release (C := .zip (Nat × Nat) Nat) (i := Side.right) rfl
        (Sourcing.Step.finish ⟨rfl, rfl⟩ rfl))))
    |>.snoc (.move (zip3_outer (.leave ⟨rfl, rfl⟩ rfl rfl rfl rfl)))
    |>.snoc (.move (zip3_outer (.leave ⟨rfl, rfl⟩ rfl rfl rfl rfl)))
  have kind := (((Kind.nil.event (.value (0, 7, 5))).answer rfl).event
    (.completion .finished)).answer ⟨.done, rfl⟩
  exact ⟨_, _, _, _, rfl, zip3_outer (m := .ends _) (.finish ⟨rfl, rfl⟩ rfl rfl),
    tripled (.ofFn id) (.ofList [7]) (.ofList [5]) left kind (by simp)⟩

end ResumeOnce.Network

import ResumeOnce.Proofs.Fold.Undisturbed
import ResumeOnce.Proofs.Streams.Answering
import ResumeOnce.Proofs.Streams.Script

/-!
# A zip pairs by position

Two feeders of a zip follow their scripts, each of them waiting for the answer to an event
before it sends the next. As long as the downstream wants more and nobody cancels the zip,
what is pushed are the pairs of their values, and the shorter one ends it; in which order
the events arrive does not matter.

* `Regular`: the feeders follow their scripts, and nobody disturbs them;
* `Looping`, `Looping.step`: both feeders are at the same position;
* `Ended`, `Ended.step`: the shorter feeder has ended the zip;
* `Paired`, `paired`: what every run comes to.
-/

namespace ResumeOnce.Streams

open Fold (Consumer Turn Effect)

section

variable {C : Combiner}

/-- The value that is pushed. -/
def Deed.pushes : Deed C → Option C.Output
  | .pushed v _ => some v
  | _ => none

/-- The completion that the channel accepts. -/
def Deed.arrives : Deed C → Option Completion
  | .sent _ (.completion c) _ none => some c
  | _ => none

/-- The values that were pushed, in order. -/
def pushed (t : List (Seen C)) : List C.Output := (deeds t).filterMap Deed.pushes

/-- The completions that the channel has accepted, in order. -/
def arrivals (t : List (Seen C)) : List Completion := (deeds t).filterMap Deed.arrives

theorem pushed_snoc (t : List (Seen C)) (e : Seen C) :
    pushed (t ++ [e]) = pushed t ++ e.deed.pushes.toList := by
  rw [pushed, deeds_snoc, List.filterMap_append, ← pushed]
  cases h : e.deed.pushes <;> simp [h]

theorem pushed_snoc_none {t : List (Seen C)} {e : Seen C} (h : e.deed.pushes = none) :
    pushed (t ++ [e]) = pushed t := by
  rw [pushed_snoc, h]
  exact List.append_nil _

theorem arrivals_snoc (t : List (Seen C)) (e : Seen C) :
    arrivals (t ++ [e]) = arrivals t ++ e.deed.arrives.toList := by
  rw [arrivals, deeds_snoc, List.filterMap_append, ← arrivals]
  cases h : e.deed.arrives <;> simp [h]

theorem arrivals_snoc_none {t : List (Seen C)} {e : Seen C} (h : e.deed.arrives = none) :
    arrivals (t ++ [e]) = arrivals t := by
  rw [arrivals_snoc, h]
  exact List.append_nil _

end

/-- Whether a deed of a zip is regular: an event is the one that the script of its feeder has at
    this position, the downstream wants more, and nobody cancels the zip. -/
def Deed.Regular (left : Script α) (right : Script β) : Deed (Combiner.zip α β) → Prop
  | .sent .left e k _ => left.event? k = some e
  | .sent .right e k _ => right.event? k = some e
  | .replied _ _ answer => answer = .ok .more
  | .cancelled => False
  | _ => True

/-- The feeders of a zip follow their scripts, and nobody disturbs them. -/
def Regular (left : Script α) (right : Script β) (t : List (Seen (Combiner.zip α β))) : Prop :=
  ∀ d ∈ deeds t, d.Regular left right

variable {α β : Type} {left : Script α} {right : Script β} {t : List (Seen (Combiner.zip α β))}
  {e : Seen (Combiner.zip α β)} {s s' : Combination (Combiner.zip α β)}

theorem Regular.of_snoc (h : Regular left right (t ++ [e])) : Regular left right t :=
  fun d hd => h d (mem_deeds_snoc hd e)

/-- The completion in an action of a zip. -/
def completed (x : (Combiner.zip α β).Action) : Option Completion :=
  match (x : Zip.Action α β (Side × Nat)) with
  | .left (.completion c) _ => some c
  | .right (.completion c) _ => some c
  | _ => none

theorem completed_value (i : (Combiner.zip α β).Feeder) (a : (Combiner.zip α β).Input i) (k : Nat) :
    completed ((Combiner.zip α β).inlet i (.value a) k) = none := by
  cases i <;> rfl

theorem completed_completion (i : (Combiner.zip α β).Feeder) (c : Completion) (k : Nat) :
    completed ((Combiner.zip α β).inlet i (.completion c) k) = some c := by
  cases i <;> rfl

/-! ## The pairs of a zip -/

/-- A pair that is ready is of a value of each side. -/
theorem Combination.Held.emission (h : Combination.Held t s)
    {m : Emission (Combiner.zip α β).State (Combiner.zip α β).Right (Combiner.zip α β).Output}
    (hm : (Combiner.zip α β).emission? s.machine.current = some m) : ∃ a k b l,
      (Combiner.zip α β).pending s.machine.current =
        [Zip.Action.left (.value a) (Side.left, k), Zip.Action.right (.value b) (Side.right, l)] ∧
      m = ⟨.nothing, (a, b), [(Side.left, k), (Side.right, l)]⟩ ∧
      Deed.sent Side.left (.value a) k none ∈ deeds t ∧
      Deed.sent Side.right (.value b) l none ∈ deeds t := by
  have hk := h.known.pending
  generalize s.machine.current = z at hm hk
  cases z with
  | hasBoth a ra b rb =>
    obtain rfl := Option.some.inj hm
    obtain ⟨i, a', k, he, ha⟩ := hk (.left (.value a) ra) (List.mem_cons_self ..)
    obtain ⟨j, b', l, he', hb⟩ :=
      hk (.right (.value b) rb) (List.mem_cons_of_mem _ (List.mem_cons_self ..))
    cases i with
    | right => cases he
    | left =>
      cases j with
      | left => cases he'
      | right =>
        cases he
        cases he'
        exact ⟨a, k, b, l, rfl, rfl, ha, hb⟩
  | _ => cases hm

/-- A pair that is pushed is of a value of each side, and then nothing else is on its way. -/
theorem Combination.Held.both (h : Combination.Held t s) {m : Emission (Combiner.zip α β).State
    (Combiner.zip α β).Right (Combiner.zip α β).Output}
    (hm : (Combiner.zip α β).emission? s.machine.current = some m) :
    s.consumer.load = [] ∧ ∃ k l, m.producers = [(Side.left, k), (Side.right, l)] ∧
      (Combiner.zip α β).pending s.machine.current =
        [Zip.Action.left (.value m.value.1) (Side.left, k),
          Zip.Action.right (.value m.value.2) (Side.right, l)] ∧
      Deed.sent Side.left (.value m.value.1) k none ∈ deeds t ∧
      Deed.sent Side.right (.value m.value.2) l none ∈ deeds t := by
  obtain ⟨a, k, b, l, hp, rfl, ha, hb⟩ := h.emission hm
  refine ⟨List.eq_nil_iff_forall_not_mem.2 fun x hx => ?_, k, l, rfl, hp, ha, hb⟩
  -- Whose event would be on its way has a value in the pair.
  have hn := h.rights.feeders_nodup
  rw [Combination.owed_eq, List.map_append, List.map_append] at hn
  have hi : ((Combiner.zip α β).sender x).1 ∈
      (((Combiner.zip α β).pending s.machine.current).map (Combiner.zip α β).sender).map
        Prod.fst := by
    rw [hp]
    rcases ((Combiner.zip α β).sender x).1 with _ | _
    · exact List.mem_cons_self
    · exact List.mem_cons_of_mem _ List.mem_cons_self
  have hd := (List.nodup_append.1 (List.nodup_append.1 hn).1).2.2
  exact hd _ (List.mem_map_of_mem (List.mem_map_of_mem hx)) _ hi rfl

/-! ## At the same position -/

/-- Both feeders are at the same position: what was pushed is behind them, and the event of a
    feeder that is on its way is the next one. -/
structure Looping (t : List (Seen (Combiner.zip α β))) (s : Combination (Combiner.zip α β)) :
    Prop where
  undisturbed : s.consumer.Undisturbed
  latest : ∀ i r, s.unanswered i = some r → s.sent i = r.2 + 1
  idle : ∀ i, s.unanswered i = none → s.sent i = (pushed t).length
  moving : ∀ r ∈ s.transit.map (Combiner.zip α β).sender, r.2 = (pushed t).length
  downstream : ∀ r ∈ s.producers, r.2 + 1 = (pushed t).length
  arrived : arrivals t = s.consumer.load.filterMap completed

/-- The feeder that is not longer than the other one has ended the zip with its completion, which
    was the first to arrive. -/
structure Ended (left : Script α) (right : Script β) (t : List (Seen (Combiner.zip α β)))
    (c : Completion) : Prop where
  shorter : left.length = (pushed t).length ∧ left.completion? = some c ∨
    right.length = (pushed t).length ∧ right.completion? = some c
  left : (pushed t).length ≤ left.length
  right : (pushed t).length ≤ right.length
  first : (arrivals t).head? = some c

namespace Looping

/-- Nothing moves but from the load into the machine. -/
theorem keep (h : Looping t s) (hu : s'.consumer.Undisturbed)
    {l : List (Combiner.zip α β).Action} (hl : s.consumer.load = l ++ s'.consumer.load)
    (hx : l.filterMap completed = [])
    (hm : (Combiner.zip α β).pending s'.machine.current ⊆
      l ++ (Combiner.zip α β).pending s.machine.current)
    (hd : s'.delivering = s.delivering) (hn : s'.sent = s.sent)
    (ha : s'.unanswered = s.unanswered) (hp : e.deed.pushes = none)
    (hr : e.deed.arrives = none) : Looping (t ++ [e]) s' := by
  -- What is on its way was on its way before, in the load or in the machine.
  have ht : s'.transit ⊆ s.transit := by
    rw [Combination.transit, Combination.transit, hl]
    intro y hy
    rcases List.mem_append.1 hy with hy | hy
    · simp [hy]
    · have hy' := hm hy
      rcases List.mem_append.1 hy' with hy | hy <;> simp [hy]
  have ho : s'.producers = s.producers := by
    rw [Combination.producers, hd, ← Combination.producers]
  have hpt : pushed (t ++ [e]) = pushed t := pushed_snoc_none hp
  have hrt : arrivals (t ++ [e]) = arrivals t := arrivals_snoc_none hr
  refine ⟨hu, ?_, ?_, ?_, ?_, ?_⟩
  · rw [hn, ha]
    exact h.latest
  · rw [hn, ha, hpt]
    exact h.idle
  · intro r hr
    rw [hpt]
    exact h.moving r (List.map_subset _ ht hr)
  · rw [ho, hpt]
    exact h.downstream
  · rw [hrt, h.arrived, hl, List.filterMap_append, hx, List.nil_append]

/-- The next event of a feeder is on its way. -/
theorem send (h : Looping t s) {i : (Combiner.zip α β).Feeder}
    {x : Event ((Combiner.zip α β).Input i)} (hi : s.unanswered i = none)
    (hs : Combination.Sends s i x e s') (hu : s'.consumer.Undisturbed) : Looping (t ++ [e]) s' := by
  cases hs with
  | refused y hy => simp [h.undisturbed.opened] at hy
  | accepted f hf hc ht hx =>
    have hp : pushed (t ++ [⟨.sent i x (s.sent i) none, []⟩]) = pushed t := pushed_snoc_none rfl
    refine ⟨hu, ?_, ?_, ?_, ?_, ?_⟩
    · intro j r hj
      change (s.count i x).unanswered j = _ at hj
      change (s.count i x).sent j = _
      by_cases hji : j = i
      · subst hji
        rw [Combination.count_unanswered_self] at hj
        obtain rfl := Option.some.inj hj
        exact s.count_sent_self j x
      · rw [s.count_unanswered_ne hji] at hj
        rw [s.count_sent_ne hji]
        exact h.latest j r hj
    · intro j hj
      change (s.count i x).unanswered j = _ at hj
      change (s.count i x).sent j = _
      by_cases hji : j = i
      · subst hji
        rw [Combination.count_unanswered_self] at hj
        cases hj
      · rw [s.count_unanswered_ne hji] at hj
        rw [s.count_sent_ne hji, hp]
        exact h.idle j hj
    · intro r hr
      rw [Combination.transit, hf, List.append_assoc] at hr
      rw [hp]
      obtain ⟨y, hy, rfl⟩ := List.mem_map.1 hr
      rcases List.mem_append.1 hy with hy | hy
      · exact h.moving _ (List.mem_map_of_mem (List.mem_append_left _ hy))
      · rcases List.mem_cons.1 hy with rfl | hy
        · rw [(Combiner.zip α β).sender_inlet]
          exact h.idle i hi
        · exact h.moving _ (List.mem_map_of_mem (List.mem_append_right _ hy))
    · intro r hr
      rw [hp]
      exact h.downstream r hr
    · -- A completion arrives as it enters the load.
      rw [arrivals_snoc, h.arrived, hf, List.filterMap_append]
      refine congrArg (_ ++ ·) ?_
      rcases x with a | c
      · simp [completed_value, Deed.arrives]
      · simp [completed_completion, Deed.arrives]

/-- A pair that is pushed is the next one. -/
theorem both (h : Looping t s) (hk : Combination.Held t s)
    {m : Emission (Combiner.zip α β).State (Combiner.zip α β).Right (Combiner.zip α β).Output}
    (hm : (Combiner.zip α β).emission? s.machine.current = some m) :
    s.transit.map (Combiner.zip α β).sender = m.producers ∧
      m.producers = [(Side.left, (pushed t).length), (Side.right, (pushed t).length)] ∧
      Deed.sent Side.left (.value m.value.1) (pushed t).length none ∈ deeds t ∧
      Deed.sent Side.right (.value m.value.2) (pushed t).length none ∈ deeds t := by
  obtain ⟨hl, k, l, hps, hp, ha, hb⟩ := hk.both hm
  have ht : s.transit.map (Combiner.zip α β).sender = m.producers := by
    rw [Combination.transit, hl, hp, hps]
    rfl
  have hk : k = (pushed t).length := by
    refine h.moving (Side.left, k) ?_
    rw [ht, hps]
    exact List.mem_cons_self
  have hl : l = (pushed t).length := by
    refine h.moving (Side.right, l) ?_
    rw [ht, hps]
    exact List.mem_cons_of_mem _ List.mem_cons_self
  subst hk
  subst hl
  exact ⟨ht, hps, ha, hb⟩

/-- The pair goes downstream, and both feeders wait for the answer to it. -/
theorem push (h : Looping t s) (hk : Combination.Held t s)
    {m : Emission (Combiner.zip α β).State (Combiner.zip α β).Right (Combiner.zip α β).Output}
    (hm : (Combiner.zip α β).emission? s.machine.current = some m)
    (hc : s'.consumer = s.consumer) (hm' : s'.machine.current = m.current)
    (hd : s'.delivering = some (m.value, m.producers)) (hn : s'.sent = s.sent)
    (ha : s'.unanswered = s.unanswered) (he : e.deed = .pushed m.value m.producers) :
    Looping (t ++ [e]) s' := by
  obtain ⟨ht, hps, -⟩ := h.both hk hm
  obtain ⟨hl, -⟩ := hk.both hm
  obtain ⟨-, hp, -⟩ := (Combiner.zip α β).emission?_some hm
  have hpt : (pushed (t ++ [e])).length = (pushed t).length + 1 := by
    rw [pushed_snoc, he, List.length_append]
    rfl
  have hrt : arrivals (t ++ [e]) = arrivals t := arrivals_snoc_none (by rw [he]; rfl)
  refine ⟨hc ▸ h.undisturbed, ?_, ?_, ?_, ?_, ?_⟩
  · rw [hn, ha]
    exact h.latest
  · -- There is no such feeder: both have produced the pair.
    intro i hi
    have hr : (i, (pushed t).length) ∈ s.owed := by
      rw [Combination.owed, ht, hps]
      cases i with
      | left => exact List.mem_cons_self
      | right => exact List.mem_cons_of_mem _ List.mem_cons_self
    rw [ha, (hk.rights.waits i _).1 ⟨hr, rfl⟩] at hi
    cases hi
  · intro r hr
    rw [Combination.transit, hc, hl, hm', hp] at hr
    cases hr
  · intro r hr
    rw [Combination.producers, hd] at hr
    rw [hpt, h.moving r (ht ▸ hr)]
  · rw [hrt, hc]
    exact h.arrived

/-- The downstream wants more. -/
theorem reply (h : Looping t s) {v : (Combiner.zip α β).Output}
    {ps : List (Combiner.zip α β).Right} (hd : s.delivering = some (v, ps))
    (hu : s'.consumer.Undisturbed) (hl : s'.consumer.load = s.consumer.load)
    (hm : s'.machine.current = s.machine.current) (hd' : s'.delivering = none)
    (hn : s'.sent = s.sent)
    (ha : s'.unanswered = (s.tell (ps.map (·, .ok .more))).unanswered) (hp : e.deed.pushes = none)
    (hr : e.deed.arrives = none) : Looping (t ++ [e]) s' := by
  have hpt : pushed (t ++ [e]) = pushed t := pushed_snoc_none hp
  have hrt : arrivals (t ++ [e]) = arrivals t := arrivals_snoc_none hr
  have hps : s.producers = ps := by rw [Combination.producers, hd]
  refine ⟨hu, ?_, ?_, ?_, ?_, ?_⟩
  · intro i r hi
    rw [ha] at hi
    rw [hn]
    exact h.latest i r (Option.filter_eq_some_iff.1 hi).1
  · intro i hi
    rw [ha] at hi
    rw [hn, hpt]
    rcases hi' : s.unanswered i with _ | r
    · exact h.idle i hi'
    · -- Its event went downstream, and was answered now.
      have hm : r ∈ ps := by simpa [Combination.tell, hi', Function.comp_def] using hi
      rw [h.latest i r hi']
      exact h.downstream r (hps ▸ hm)
  · rw [Combination.transit, hl, hm, hpt]
    exact h.moving
  · intro r hr
    rw [Combination.producers, hd'] at hr
    cases hr
  · rw [hrt, hl]
    exact h.arrived

end Looping

/-! ## The end -/

/-- The values that were pushed are the pairs at their positions. -/
def Positioned (left : Script α) (right : Script β) (t : List (Seen (Combiner.zip α β))) : Prop :=
  ∀ k (v : (Combiner.zip α β).Output), (pushed t)[k]? = some v → pair? left right k = some v

/-- The next pair comes to the next position. -/
theorem Positioned.push (h : Positioned left right t) {v : (Combiner.zip α β).Output}
    {ps : List (Combiner.zip α β).Right} {as : Answers (Combiner.zip α β).Right}
    (hd : Deed.sent Side.left (.value v.1) (pushed t).length none ∈ deeds t ∧
      Deed.sent Side.right (.value v.2) (pushed t).length none ∈ deeds t)
    (hr : Regular left right t) : Positioned left right (t ++ [⟨.pushed v ps, as⟩]) := by
  intro k w hw
  rw [pushed_snoc, List.getElem?_append] at hw
  split at hw
  · exact h k w hw
  · obtain ⟨hk, rfl⟩ : k - (pushed t).length = 0 ∧ v = w := by
      simpa [Deed.pushes, List.getElem?_singleton] using hw
    obtain rfl : k = (pushed t).length := by omega
    exact pair?_eq_some.2 ⟨Script.value?_of_event? (hr _ hd.1),
      Script.value?_of_event? (hr _ hd.2)⟩

/-- The first completion that is reduced ends the zip. -/
theorem Looping.ends (h : Looping t s) (hr : Regular left right t) (hp : Positioned left right t)
    {i : (Combiner.zip α β).Feeder} {c : Completion} {k : Nat} {l : List (Combiner.zip α β).Action}
    (hl : s.consumer.load = (Combiner.zip α β).inlet i (.completion c) k :: l)
    (hd : Deed.sent i (.completion c) k none ∈ deeds t) : Ended left right t c := by
  obtain ⟨hleft, hright⟩ := length_le_of_pairs hp
  -- Its number tells how many values came before it, and so how many pairs.
  have hk : k = (pushed t).length := by
    have hm : (i, k) ∈ s.transit.map (Combiner.zip α β).sender := by
      rw [Combination.transit, hl, List.cons_append, List.map_cons, (Combiner.zip α β).sender_inlet]
      exact List.mem_cons_self
    exact h.moving _ hm
  refine ⟨?_, hleft, hright, ?_⟩
  · rw [← hk]
    cases i with
    | left => exact .inl (Script.length_of_event? (hr _ hd))
    | right => exact .inr (Script.length_of_event? (hr _ hd))
  · rw [h.arrived, hl, List.filterMap_cons, completed_completion]
    rfl

/-- Nothing is pushed any more. -/
theorem Ended.snoc {c : Completion} (h : Ended left right t c) (hp : e.deed.pushes = none) :
    Ended left right (t ++ [e]) c := by
  have hpt : pushed (t ++ [e]) = pushed t := pushed_snoc_none hp
  refine ⟨?_, ?_, ?_, ?_⟩
  · rw [hpt]
    exact h.shorter
  · rw [hpt]
    exact h.left
  · rw [hpt]
    exact h.right
  · rw [arrivals_snoc, List.head?_append, h.first]
    rfl

/-- What holds all along a regular run. -/
structure Pairing (left : Script α) (right : Script β) (t : List (Seen (Combiner.zip α β)))
    (s : Combination (Combiner.zip α β)) : Prop where
  positioned : Positioned left right t
  looping : s.consumer.turn.completion? = none → Looping t s
  ended : ∀ c, s.consumer.turn.completion? = some c → Ended left right t c

namespace Pairing

theorem of_looping (hp : Positioned left right t) (he : e.deed.pushes = none)
    (hl : Looping (t ++ [e]) s') (hn : s'.consumer.turn.completion? = none) :
    Pairing left right (t ++ [e]) s' where
  positioned := by
    rw [Positioned, pushed_snoc_none he]
    exact hp
  looping _ := hl
  ended c hc := by simp [hn] at hc

/-- After the end, nothing changes. -/
theorem step_ended {c : Completion} (h : Pairing left right t s) (hk : Combination.Held t s)
    (hs : Combination.Step s e s') (hc : s.consumer.turn.completion? = some c) :
    Pairing left right (t ++ [e]) s' := by
  have he : e.deed.pushes = none := by
    cases hs with
    | send i x hi hx =>
      rw [Combination.send]
      split <;> rfl
    | push ht hd hm => simp [ht, Turn.completion?] at hc
    | _ => rfl
  have hc' := hk.completion? hs hc
  refine ⟨?_, ?_, ?_⟩
  · rw [Positioned, pushed_snoc_none he]
    exact h.positioned
  · intro hn
    simp [hc'] at hn
  · intro c' hx
    obtain rfl := Option.some.inj (hc'.symm.trans hx)
    exact (h.ended c hc).snoc he

/-- A completion that a zip reduces ends it. -/
theorem effect_completion {z : (Combiner.zip α β).State} {i : (Combiner.zip α β).Feeder}
    {c : Completion} {k : Nat} {r : Reduced (Combiner.zip α β).State (Combiner.zip α β).Right}
    (h : (Combiner.zip α β).reduce z ((Combiner.zip α β).inlet i (.completion c) k) = .ok r) :
    r.effect = .completion c := by
  cases z with
  | nothing | hasLeft | hasRight =>
    cases i with
    | left => first | cases h; rfl | cases h
    | right => first | cases h; rfl | cases h
  | hasBoth | finished | errored => cases i <;> cases h

/-- A value is held, and a completion ends the zip. -/
theorem step_reduce (h : Pairing left right t s) (hk : Combination.Held t s)
    (hr : Regular left right t) {x : (Combiner.zip α β).Action}
    {r : Reduced (Combiner.zip α β).State (Combiner.zip α β).Right}
    (ht : s.consumer.turn = .reduce x)
    (hm : (Combiner.zip α β).reduce s.machine.current x = .ok r) :
    Pairing left right (t ++ [⟨.reduced x r.effect, r.answers⟩]) (Combination.tell { s with
      consumer := s.consumer.goOn (Turn.next (.reduce x) r.effect)
      machine := { s.machine with current := r.current } } r.answers) := by
  have hl := h.looping (by rw [ht]; rfl)
  have hs := Consumer.Step.reduce r.effect ht
  have hu := hs.undisturbed hk.sound hl.undisturbed (by simp) rfl
  have hload := hk.load_reduce ht r.effect
  obtain ⟨i, y, k, r', rfl, hd, hr', hx⟩ := hk.reduces ht
  obtain rfl : r = r' := Except.ok.inj (hm.symm.trans hr')
  cases hx with
  | held a m hp hm' =>
    rw [Combination.tell_nil]
    refine of_looping h.positioned rfl ?_ rfl
    refine hl.keep (l := [_]) hu hload ?_ (fun y hy => hp.mem_iff.1 hy) rfl rfl rfl rfl rfl
    rw [List.filterMap_cons, completed_value, List.filterMap_nil]
  -- A zip has no completion that it does not end with.
  | passed c m hp hm' => cases effect_completion hm
  | ended c m hp =>
    refine ⟨?_, fun hn => (nomatch hn), ?_⟩
    · rw [Positioned, pushed_snoc_none rfl]
      exact h.positioned
    · intro c' hc
      obtain rfl : c = c' := Option.some.inj hc
      exact (hl.ends hr h.positioned hload hd).snoc rfl

theorem step_looping (h : Pairing left right t s) (hk : Combination.Held t s)
    (hr : Regular left right (t ++ [e])) (hs : Combination.Step s e s')
    (hn : s.consumer.turn.completion? = none) : Pairing left right (t ++ [e]) s' := by
  have hp := h.positioned
  have hl := h.looping hn
  have hu := hl.undisturbed
  have hself : ∀ xs : List (Combiner.zip α β).Action, xs ⊆ [] ++ xs := fun xs => List.Subset.refl xs
  cases hs with
  | send i x hi hx =>
    have hs := hk.send hi x
    have hu' := (Combination.send_step s i x).undisturbed hk.sound hu (by simp) rfl
    have he : (s.send i x).2.deed.pushes = none := by
      rw [Combination.send]
      split <;> rfl
    refine of_looping hp he (hl.send hi hs hu') ?_
    rw [Combination.send_consumer, (hk.sound.write none _).turn]
    exact hn
  | cancel => exact (hr .cancelled (by simp)).elim
  | close hc => simp [hu.allowed] at hc
  | start ht =>
    have hs := Consumer.Step.start ht
    refine of_looping hp rfl ?_ rfl
    refine hl.keep (l := []) (hs.undisturbed hk.sound hu (by simp) rfl) ?_ rfl
      (List.nil_subset _) rfl rfl rfl rfl rfl
    simpa using hs.load hk.sound
  | tacit hf =>
    refine of_looping hp rfl ?_ (hf.loops hk.sound hu hn)
    refine hl.keep (l := []) (hf.undisturbed hk.sound hu (by simp) rfl) ?_ rfl (hself _)
      rfl rfl rfl rfl rfl
    simpa using hf.load hk.sound
  | reduce ht hm => exact h.step_reduce hk hr.of_snoc ht hm
  | idle ht hd hm =>
    have hs := Consumer.Step.emit (.ok ()) ht
    refine of_looping hp rfl ?_ rfl
    refine hl.keep (l := []) (hs.undisturbed hk.sound hu (by simp) rfl) ?_ rfl (hself _)
      rfl rfl rfl rfl rfl
    simpa using hs.load hk.sound
  | @push m ht hd hm =>
    refine ⟨hp.push (hl.both hk hm).2.2 hr.of_snoc, fun _ => hl.push hk hm rfl rfl rfl rfl rfl rfl,
      ?_⟩
    intro c hc
    simp [hn] at hc
  | @reply v ps answer ht hd =>
    obtain rfl : answer = .ok .more := hr (.replied v ps answer) (by simp)
    have hs := Consumer.Step.emit (.ok ()) ht
    refine of_looping hp rfl ?_ rfl
    refine hl.reply hd (hs.undisturbed hk.sound hu (by simp) rfl) ?_ rfl rfl rfl rfl rfl rfl
    have hl' : s.consumer.load = (s.consumer.goOn (Turn.next .emit (.ok ()))).load := by
      simpa using hs.load hk.sound
    exact hl'.symm
  | finish ht => simp [ht, Turn.completion?] at hn
  | finalize ht => simp [ht, Turn.completion?] at hn
  | dispose ht => simp [ht, Turn.completion?] at hn

/-- Every step keeps this, as long as the run is regular. -/
theorem step (h : Pairing left right t s) (hk : Combination.Held t s)
    (hr : Regular left right (t ++ [e])) (hs : Combination.Step s e s') :
    Pairing left right (t ++ [e]) s' := by
  rcases hn : s.consumer.turn.completion? with _ | c
  · exact h.step_looping hk hr hs hn
  · exact h.step_ended hk hs hn

end Pairing

theorem looping_new : Looping [] (.new (Combiner.zip α β)) where
  undisturbed := Consumer.undisturbed_new _
  latest _ _ h := nomatch h
  idle _ _ := rfl
  moving _ h := nomatch h
  downstream _ h := nomatch h
  arrived := rfl

theorem pairing_new : Pairing left right [] (.new (Combiner.zip α β)) where
  positioned _ _ h := nomatch h
  looping _ := looping_new
  ended _ h := nomatch h

theorem pairing_run (h : Run Combination.Step (.new (Combiner.zip α β)) t s) :
    Regular left right t → Pairing left right t s := by
  -- What a regular run keeps needs what every run keeps.
  refine (h.invariant (P := fun t s => Combination.Kept t s ∧
    (Regular left right t → Pairing left right t s)) ⟨Combination.kept_new _, fun _ => pairing_new⟩
    fun ⟨hk, hp⟩ hs => ⟨hk.step hs, fun hr => ?_⟩).2
  exact (hp hr.of_snoc).step hk.held hr hs

/-- What a zip comes to, when its feeders follow their scripts, the downstream wants more of every
    value, and nobody cancels. -/
structure Paired (left : Script α) (right : Script β) (t : List (Seen (Combiner.zip α β)))
    (s : Combination (Combiner.zip α β)) : Prop where
  /-- At every moment, the first pairs were pushed. -/
  pairs : pushed t = pairs left right (pushed t).length
  /-- At the end, as many as the shorter feeder has values. -/
  complete : ∀ c, s.consumer.turn.completion? = some c →
    (pushed t).length = min left.length right.length
  /-- The shorter feeder ends the zip with its completion. -/
  left_ends : ∀ c, s.consumer.turn.completion? = some c → left.length < right.length →
    left.completion? = some c
  right_ends : ∀ c, s.consumer.turn.completion? = some c → right.length < left.length →
    right.completion? = some c
  /-- When none is shorter, the completion that came first ends it. -/
  first_ends : ∀ c, s.consumer.turn.completion? = some c → left.length = right.length →
    (arrivals t).head? = some c

/-- A zip pairs by position, in whatever order the events of its feeders come. -/
theorem paired (h : Run Combination.Step (.new (Combiner.zip α β)) t s)
    (hr : Regular left right t) : Paired left right t s := by
  have hp := pairing_run h hr
  refine ⟨eq_pairs hp.positioned, fun c hc => ?_, fun c hc hl => ?_, fun c hc hl => ?_,
    fun c hc _ => (hp.ended c hc).first⟩
  all_goals obtain ⟨hs, hleft, hright, -⟩ := hp.ended c hc
  · rcases hs with ⟨hs, -⟩ | ⟨hs, -⟩
    · rw [hs]
      exact (min_eq_left hright).symm
    · rw [hs]
      exact (min_eq_right hleft).symm
  · rcases hs with ⟨-, hs⟩ | ⟨hs, -⟩
    · exact hs
    · exact absurd hl (not_lt.2 (hs ▸ hleft))
  · rcases hs with ⟨hs, -⟩ | ⟨-, hs⟩
    · exact absurd hl (not_lt.2 (hs ▸ hright))
    · exact hs

/-- The left feeder has one value less than the right one, whose second value is settled. -/
theorem paired_shorter_left : ∃ (t : List (Seen (Combiner.zip Nat Nat)))
    (s : Combination (Combiner.zip Nat Nat)),
    Run Combination.Step (.new (Combiner.zip Nat Nat)) t s ∧
      Regular (.finite [1] .finished) (.finite [7, 8] (.failure Fault.cancelled)) t ∧
      Paired (.finite [1] .finished) (.finite [7, 8] (.failure Fault.cancelled)) t s ∧
      s.consumer.turn = .stop .finished ∧ pushed t = [(1, 7)] := by
  have new : Run Combination.Step (.new (Combiner.zip Nat Nat)) [] _ := .nil
  have sent := new.snoc (.send Side.right (.value (7 : Nat)) rfl (fun _ => rfl))
    |>.snoc (.send Side.left (.value (1 : Nat)) rfl (fun _ => rfl))
  have held := sent.snoc (.start rfl) |>.snoc (.tacit (.checkpoint rfl))
    |>.snoc (.tacit (.read 0 rfl rfl)) |>.snoc (.reduce rfl rfl) |>.snoc (.idle rfl rfl rfl)
  have pair := held.snoc (.tacit (.checkpoint rfl)) |>.snoc (.tacit (.read 1 rfl rfl))
    |>.snoc (.reduce rfl rfl) |>.snoc (.push rfl rfl rfl) |>.snoc (.reply (.ok .more) rfl rfl)
  have sent := pair.snoc (.send Side.right (.value (8 : Nat)) rfl (fun _ => rfl))
    |>.snoc (.send Side.left (.completion .finished) rfl (fun _ => rfl))
  have held := sent.snoc (.tacit (.checkpoint rfl)) |>.snoc (.tacit (.read 2 rfl rfl))
    |>.snoc (.reduce rfl rfl) |>.snoc (.idle rfl rfl rfl)
  have ended := held.snoc (.tacit (.checkpoint rfl)) |>.snoc (.tacit (.read 3 rfl rfl))
    |>.snoc (.reduce rfl rfl)
  have finalized := ended.snoc (.finish (c := .finished) rfl)
    |>.snoc (.finalize (c := .finished) rfl)
  have run := finalized.snoc (.tacit (.drain (c := .finished) rfl))
  obtain ⟨t, s, run, hd, ht⟩ : ∃ (t : List (Seen (Combiner.zip Nat Nat)))
      (s : Combination (Combiner.zip Nat Nat)),
      Run Combination.Step (.new (Combiner.zip Nat Nat)) t s ∧
        deeds t = [.sent Side.right (.value (7 : Nat)) 0 none,
          .sent Side.left (.value (1 : Nat)) 0 none, .tacit, .tacit, .tacit,
          .reduced (.right (.value 7) (.right, 0)) .none, .tacit, .tacit, .tacit,
          .reduced (.left (.value 1) (.left, 0)) .none,
          .pushed (1, 7) [(.left, 0), (.right, 0)],
          .replied (1, 7) [(.left, 0), (.right, 0)] (.ok .more),
          .sent Side.right (.value (8 : Nat)) 1 none,
          .sent Side.left (.completion .finished) 1 none, .tacit, .tacit,
          .reduced (.right (.value 8) (.right, 1)) .none, .tacit, .tacit, .tacit,
          .reduced (.left (.completion .finished) (.left, 1)) (.completion .finished), .tacit,
          .finalized .finished, .tacit] ∧
        s.consumer.turn = .stop .finished := ⟨_, _, run, rfl, rfl⟩
  have regular : Regular (.finite [1] .finished) (.finite [7, 8] (.failure Fault.cancelled)) t := by
    rw [Regular, hd]
    simp only [List.forall_mem_cons]
    exact ⟨rfl, rfl, trivial, trivial, trivial, trivial, trivial, trivial, trivial, trivial,
      trivial, rfl, rfl, rfl, trivial, trivial, trivial, trivial, trivial, trivial, trivial,
      trivial, trivial, trivial, List.forall_mem_nil _⟩
  refine ⟨t, s, run, regular, paired run regular, ht, ?_⟩
  rw [pushed, hd]
  rfl

end ResumeOnce.Streams

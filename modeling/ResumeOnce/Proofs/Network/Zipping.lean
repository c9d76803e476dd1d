import ResumeOnce.Leak
import ResumeOnce.Proofs.Network.Reciting
import ResumeOnce.Proofs.Network.Resolving

/-!
# Zips of streams that recite

As long as nobody disturbs a zip, it pairs the values of its sides by their places. So the zip of
two streams that recite their scripts recites the zip of these, and a zip can be a side of another
one. That one may come to its end first, and tells the inner zip so, which then finishes or is
cancelled; but nobody is left without an answer.

* `recites_zip`: the zip of two streams recites the zip of their scripts;
* `Underwent`, `Released`: what a combination and its feeders went through, and how a feeder is
  left behind;
* `Chronicle.undisturbed`: what a zip comes to that nobody disturbs;
* `Chronicle.stops`: what it comes to if others may stop it.
-/

namespace ResumeOnce.Network

open Streams

/-! ## Combinations that do not fail -/

section Plain

variable {C : Combiner} {S : (i : C.Feeder) → System (C.Input i)} {order : List C.Feeder}
  {t : List (Act C.Output)} {y : Standing} {s s' : Node C S}

/-- A combination whose fold does not fail is one whose fold may fail. -/
theorem run_fallible {e : Exposed (System.combine C S order)}
    (h : Run Exposed.Step (.new (System.combine C S order)) t e) :
    Run Exposed.Step (.new (System.fallible C S order C.buffering)) t
      ⟨e.standing, ⟨e.state, none⟩⟩ := by
  refine h.invariant (P := fun t e => Run Exposed.Step
    (.new (System.fallible C S order C.buffering)) t ⟨e.standing, ⟨e.state, none⟩⟩) .nil
    fun hr hs => ?_
  cases hs with
  | move hs => exact hr.snoc (.move (.work hs))
  | answer o hx => exact hr.snoc (.answer o hx)
  | cancel => exact hr.snoc .cancel

/-- When a combination is over, so are its feeders. -/
theorem gone_of_finished (hR : C.Remembers)
    (h : Run Exposed.Step (.new (System.combine C S order)) t ⟨y, s⟩) (hf : s.finished = true)
    {i : C.Feeder} (hi : i ∈ order) : (s.result i).isComplete = true := by
  obtain ⟨r, hd⟩ := Node.settled_of_finished ⟨t, h⟩ hf
  have hc := (Fallible.headed_run hR (run_fallible h)).course
  simp only [hd] at hc
  exact hc.2 i hi

end Plain

/-! ## A zip and its chronicle -/

variable {α β : Type} {S : (i : (Combiner.zip α β).Feeder) → System ((Combiner.zip α β).Input i)}
  {order : List (Combiner.zip α β).Feeder} {a : Script α} {b : Script β}
  {T : List (Seen (Combiner.zip α β))} {t : List (Act (Combiner.zip α β).Output)} {y : Standing}
  {s : Node (.zip α β) (traced S)}

/-- A downstream that wants more of everything is kind. -/
theorem kind_of_more {α : Type} {t : List (Act α)} (h : ∀ o ∈ answered t, o = .ok .more) :
    Kind (words t) := by
  intro ws₁ e o ws₂ hw
  obtain rfl : o = .ok .more := h o (by simp [answered, hw, Word.answer?])
  cases e with
  | value v => rfl
  | completion c => exact ⟨_, rfl⟩

namespace Chronicle

/-- A zip that nobody cancels, and whose downstream is kind, pairs by position. -/
theorem matched (h : Chronicle (C := .zip α β) (sides a b) T t s) (hk : Kind (words t))
    (hc : .cancelled ∉ t) : Matched a b T s.fold :=
  matched_run h.run h.faithful ⟨h.welcomed hk, fun hd => hc (h.cancelled hd)⟩

/-- What it has pushed are the first pairs. -/
theorem pairs_eq (h : Chronicle (C := .zip α β) (sides a b) T t s) (hk : Kind (words t))
    (hc : .cancelled ∉ t) : values t = pairs a b (values t).length :=
  eq_pairs fun k v hv => (h.matched hk hc).pairing.positioned k v (h.pushed ▸ hv)

/-- It comes to its end with the last value of the shorter one. -/
theorem final (h : Chronicle (C := .zip α β) (sides a b) T t s) (ha : a.Finishes) (hb : b.Finishes)
    (hk : Kind (words t)) (hc : .cancelled ∉ t) {c : Completion}
    (ht : s.fold.consumer.turn = .stop c) :
    c = .finished ∧ s.fold.machine.completion = some .finished ∧
      ((values t).length : ℕ∞) = min a.length b.length := by
  have he := (h.matched hk hc).pairing.ended c (by rw [ht]; rfl)
  obtain rfl := he.finished ha hb
  refine ⟨rfl, ((finalized_plain (.zip α β) h.run).kept _ (by rw [ht]; rfl)).1, ?_⟩
  rw [← h.pushed]
  exact he.length_eq

end Chronicle

/-- A zip of streams that recite their scripts recites the zip of these. -/
theorem recites_zip (hl : ∀ i, Polite (S i)) (hx : ∀ i, Recites (S i) (sides a b i))
    (ha : a.Finishes) (hb : b.Finishes) :
    Recites (System.combine (.zip α β) S order) (a.zip b) := by
  rintro t ⟨y, s₀⟩ h hm hc k (e : Event (Combiner.zip α β).Output) hk
  have hR : (Combiner.zip α β).Remembers := remembers (.zip α β)
  obtain ⟨s, rfl, hr⟩ := Node.run_remember (s := Node.new (.zip α β) (traced S)) h
  obtain ⟨T, hT⟩ := chronicle_run hx hR hl hr
  have hkind := kind_of_more hm
  obtain ⟨m, hw, -, hu⟩ := utters hR hr
  change (called t)[k]? = some e at hk
  rw [called_of_run hw, List.getElem?_append, List.length_map] at hk
  split at hk
  · -- A value is the pair at its place.
    rw [List.getElem?_map, Option.map_eq_some_iff] at hk
    obtain ⟨v, hv, rfl⟩ := hk
    rw [← hT.pushed] at hv
    refine Script.event?_of_value? ((Script.value?_zip a b k).trans ?_)
    exact (hT.matched hkind hc).pairing.positioned k v hv
  · -- The completion comes when as many pairs were pushed as there are.
    rename_i hlt
    rw [List.getElem?_map, Option.map_eq_some_iff, completions_of_run hw] at hk
    obtain ⟨c, hc', rfl⟩ := hk
    obtain ⟨hz, hm⟩ : k - (values t).length = 0 ∧ m.completion? = some c := by
      rcases hm : m.completion? with _ | c'
      · simp [hm] at hc'
      · simpa [hm, List.getElem?_singleton] using hc'
    obtain ⟨f, hf, -, rfl⟩ := hu.concluded c hm
    obtain ⟨hi, -, rfl⟩ := Brittle.final?_eq_some.1 hf
    have hkept := Node.Kept.kept_reaches hR (fun i => (hl i).traced) ⟨t, hr⟩
    obtain ⟨c, ht⟩ := hkept.stopped hi
    obtain ⟨-, hx, hn⟩ := hT.final ha hb hkind hc ht
    have hl : (a.zip b).length = k := by
      rw [Script.length_zip, ← hn]
      exact congrArg _ (by omega)
    obtain ⟨c', hc'⟩ := Script.completion?_of_length hl
    obtain rfl := Script.finishes_zip a b c' hc'
    rw [Combination.final, hx]
    exact Script.event?_of_length hl hc'

/-! ## What is left behind -/

/-- What the fold of a combination and its feeders went through: it was they who sent the events,
    and who got the answers. -/
structure Underwent {C : Combiner} {S : (i : C.Feeder) → System (C.Input i)} (T : List (Seen C))
    (u : (i : C.Feeder) → List (Act (C.Input i))) (s : Node C S) : Prop where
  folded : Run Combination.Step (.new C) T s.fold
  fed : ∀ i, ∃ y, Run Exposed.Step (.new (S i)) (u i) ⟨y, s.feeder i⟩
  attuned : ∀ i, Attuned T i (u i)

/-- Whether a stream that went through some acts was released: it is over, each of its events was
    answered, and none because the right to do so was dropped. -/
structure Released {α : Type} (u : List (Act α)) : Prop where
  gone : ∃ r, .moved (.ends r) ∈ u
  resolved : (answered u).length = (called u).length
  unleaked : .error Leak.fault ∉ answered u

namespace Chronicle

theorem underwent {C : Combiner} {S : (i : C.Feeder) → System (C.Input i)}
    {x : (i : C.Feeder) → Script (C.Input i)} {T : List (Seen C)} {t : List (Act C.Output)}
    {s : Node C (traced S)} (h : Chronicle x T t s)
    (hf : Fed (traced S) s.fold s.feeder s.result) : Underwent T (memory s.feeder) s.forget where
  folded := h.run
  fed i := (hf.remembers i).imp fun _ hr => hr.1
  attuned := h.tracked.attuned

/-- A zip that has come to its end releases the sides that are over, unless its downstream has
    answered with a fault. -/
theorem released (h : Chronicle (C := .zip α β) (sides a b) T t s)
    (hf : Fed (traced S) s.fold s.feeder s.result) (ha : a.Finishes) (hb : b.Finishes)
    (hg : Gentle T) {c : Completion} (ht : s.fold.consumer.turn = .stop c)
    {i : (Combiner.zip α β).Feeder} (hi : (s.result i).isComplete = true) :
    Released (memory s.feeder i) where
  gone :=
    let ⟨_, _, he⟩ := hf.remembers i
    he.1 hi
  resolved := (h.tracked.attuned i).resolved h.kept ht
  unleaked hm := by
    obtain ⟨k, hk⟩ := List.getElem?_of_mem hm
    rcases gentle_answer h.run h.faithful ha hb hg (((h.tracked.attuned i).got k _).1 hk) with
      ⟨d, hd⟩ | ⟨hd, -⟩ <;> cases hd

/-- What a zip comes to that nobody disturbs. -/
structure Settled (a : Script α) (b : Script β) (t : List (Act (Combiner.zip α β).Output))
    (s : Node (.zip α β) (traced S)) (r : Outcome Demand) : Prop where
  result : r = .ok .done
  completed : completions t = [.finished]
  length : ((values t).length : ℕ∞) = min a.length b.length
  stopped : s.fold.consumer.turn = .stop .finished

theorem undisturbed (hl : ∀ i, Polite (S i)) (ha : a.Finishes) (hb : b.Finishes)
    (hr : Run Exposed.Step (.new (System.combine (.zip α β) (traced S) order)) t ⟨y, s⟩)
    (h : Chronicle (C := .zip α β) (sides a b) T t s) (hk : Kind (words t)) (hc : .cancelled ∉ t)
    {r : Outcome Demand} {s' : Node (.zip α β) (traced S)} (hs : Node.Step order s (.ends r) s') :
    Settled a b t s r ∧ ∀ i ∈ order, (s.result i).isComplete = true := by
  have hR : (Combiner.zip α β).Remembers := remembers (.zip α β)
  obtain ⟨hd, hr', ho⟩ := Fallible.settles hR (run_fallible hr) (.work hs)
  have hkept := Node.Kept.kept_reaches hR (fun i => (hl i).traced) ⟨t, hr⟩
  -- The drive has awaited the fold, which so has come to its end, and has not failed.
  have hp := hkept.place
  rw [show s.drive = .settled r from hd] at hp
  obtain ⟨c, ht⟩ := hkept.stopped hp.2
  obtain ⟨rfl, hx, hn⟩ := h.final ha hb hk hc ht
  obtain ⟨f, hf, -⟩ | ⟨delivered, c, hv, rfl⟩ := hr'
  · cases hf
  obtain ⟨T', hA⟩ := Fallible.agrees (.zip α β) (run_fallible hr) hp.2 hv
  obtain rfl : .finished = c := Option.some.inj (hx.symm.trans hA.kept)
  -- A kind downstream neither stops the zip nor refuses the completion.
  obtain ⟨m, hw, -⟩ := utters hR hr
  have hq : ¬Dismissed t := fun hq => hk.ne_quit hw ((dismissed_iff hw).1 hq)
  have hj : ∀ f, ¬Rejected t f := by
    rintro f ⟨ws, c, ws', hw⟩
    obtain ⟨d, hd⟩ := hk ws _ _ ws' hw
    cases hd
  exact ⟨⟨hA.done.2 ⟨rfl, hj⟩, hA.sent hq, hn, ht⟩, ho⟩

/-- A zip that is over has finished or was cancelled, unless its downstream has answered with a
    fault; its sides are released. -/
theorem stops (hl : ∀ i, Polite (S i)) (ha : a.Finishes) (hb : b.Finishes)
    (hr : Run Exposed.Step (.new (System.combine (.zip α β) (traced S) order)) t ⟨y, s⟩)
    (h : Chronicle (C := .zip α β) (sides a b) T t s) (hg : Gentle T) (hf : s.finished = true) :
    (s.fold.consumer.turn = .stop .finished ∨
      s.fold.consumer.turn = .stop (.failure Fault.cancelled)) ∧
      ∀ i ∈ order, Released (memory s.feeder i) := by
  have hR : (Combiner.zip α β).Remembers := remembers (.zip α β)
  have hkept := Node.Kept.kept_reaches hR (fun i => (hl i).traced) ⟨t, hr⟩
  obtain ⟨c, ht⟩ := hkept.stopped (hkept.last hf)
  refine ⟨?_, fun i hi => h.released hkept.fed ha hb hg ht (gone_of_finished hR hr hf hi)⟩
  rw [ht]
  refine (gentle_end h.run h.faithful ha hb hg (c := c) (by rw [ht]; rfl)).imp ?_ ?_
  · rintro rfl
    rfl
  · rintro ⟨rfl, -⟩
    rfl

end Chronicle

end ResumeOnce.Network

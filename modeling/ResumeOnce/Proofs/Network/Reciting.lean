import ResumeOnce.Proofs.Network.Discourse
import ResumeOnce.Proofs.Network.Enduring
import ResumeOnce.Proofs.Streams.Faithful

/-!
# Streams that recite

A stream recites a script if it follows it as long as more is wanted of its values, and nobody
cancels it. The feeders of a combination are told to stop when its fold is finalized at the
earliest, so as long as the fold has answered them with nothing but a demand for more they follow
their scripts.

* `Recites`: what a stream sends, as long as it may;
* `Chronicle`: what a combination, its fold and its feeders went through;
* `Chronicle.step`, `Chronicle.answer`, `Chronicle.cancel`: whatever happens goes down there;
* `chronicle_run`: so every run of a combination has its chronicle.
-/

namespace ResumeOnce.Network

open Streams

/-- Whether a stream follows a script, as long as more is wanted of its values and nobody cancels
    it. -/
def Recites {α : Type} (S : System α) (x : Script α) : Prop :=
  ∀ t e, Run Exposed.Step (.new S) t e → (∀ o ∈ answered t, o = .ok .more) → .cancelled ∉ t →
    ∀ k y, (called t)[k]? = some y → x.event? k = some y

variable {C : Combiner} {S : (i : C.Feeder) → System (C.Input i)} {order : List C.Feeder}
  {x : (i : C.Feeder) → Script (C.Input i)} {T : List (Seen C)} {t : List (Act C.Output)}
  {y : Standing} {s s' : Node C (traced S)}

/-- What a combination, its fold and its feeders went through. -/
structure Chronicle (x : (i : C.Feeder) → Script (C.Input i)) (T : List (Seen C))
    (t : List (Act C.Output)) (s : Node C (traced S)) : Prop where
  run : Run Combination.Step (.new C) T s.fold
  tracked : Tracked T s.fold s.feeder
  pushed : pushed T = values t
  /-- The fold is cancelled only by who cancels the combination, and finalized before its feeders
      are. -/
  owned : s.cancelled = true → .cancelled ∈ t
  cancelled : .cancelled ∈ deeds T → .cancelled ∈ t
  spared : finalizations T = [] → ∀ i, .cancelled ∉ memory s.feeder i
  /-- What the fold is answered is what the downstream has said. -/
  heard : ∀ a slot o, s.outlet = some (a, slot) → slot.result = some o → o ∈ answered t
  replied : ∀ v ps o, .replied v ps o ∈ deeds T → o ∈ answered t
  welcomed : Kind (words t) → ∀ v ps o, .replied v ps o ∈ deeds T → o = .ok .more
  faithful : Faithful x T

namespace Chronicle

theorem kept (h : Chronicle x T t s) : Combination.Kept T s.fold := Combination.kept_run h.run

theorem new (S : (i : C.Feeder) → System (C.Input i)) (x : (i : C.Feeder) → Script (C.Input i)) :
    Chronicle x [] [] (Node.new C (traced S)) where
  run := .nil
  tracked := .start C S
  pushed := rfl
  owned hc := nomatch hc
  cancelled hd := nomatch hd
  spared _ i hm := nomatch (hm : Act.cancelled ∈ ([] : List (Act (C.Input i))))
  heard _ _ _ ho := nomatch ho
  replied _ _ _ hd := nomatch hd
  welcomed _ _ _ _ hd := nomatch hd
  faithful := .nil x

/-- Something happens that pushes no value. -/
theorem extend (h : Chronicle x T t s) {a : Act C.Output} (ha : values [a] = []) :
    Chronicle x T (t ++ [a]) s where
  run := h.run
  tracked := h.tracked
  pushed := by rw [values_append, ha, List.append_nil, h.pushed]
  owned hc := List.mem_append_left _ (h.owned hc)
  cancelled hd := List.mem_append_left _ (h.cancelled hd)
  spared := h.spared
  heard b slot o ho hr := by
    rw [answered_append]
    exact List.mem_append_left _ (h.heard b slot o ho hr)
  replied v ps o hd := by
    rw [answered_append]
    exact List.mem_append_left _ (h.replied v ps o hd)
  welcomed hk := h.welcomed (words_append t _ ▸ hk).before
  faithful := h.faithful

/-! ### Who was not cancelled -/

theorem spared_update {feeder : (i : C.Feeder) → (traced S i).State} {i j : C.Feeder}
    {m : Move (C.Input i)} {state : (traced S i).State}
    (hs : (traced S i).Step (feeder i) m state) (h : .cancelled ∉ memory feeder j) :
    .cancelled ∉ memory (Function.update feeder i state) j := by
  by_cases hj : j = i
  · subst hj
    rw [memory_update_self feeder hs, List.mem_append, List.mem_singleton]
    exact fun hm => hm.elim h nofun
  · rwa [memory_update_ne feeder hj]

theorem spared_heard {feeder : (i : C.Feeder) → (traced S i).State}
    {waiting : C.Feeder → Option C.Right} {as : Answers C.Right} {i : C.Feeder}
    (h : .cancelled ∉ memory feeder i) :
    .cancelled ∉ memory (Network.heard waiting as feeder) i := by
  rw [memory_heard, List.mem_append, not_or]
  refine ⟨h, fun hm => ?_⟩
  obtain ⟨o, -, ho⟩ := Option.map_eq_some_iff.1 (Option.mem_toList.1 hm)
  cases ho

/-- The feeders are cancelled only as the fold is finalized. -/
theorem spared_directed {feeder : (i : C.Feeder) → (traced S i).State}
    {waiting : C.Feeder → Option C.Right} {e : Seen C}
    (h : finalizations T = [] → ∀ i, .cancelled ∉ memory feeder i)
    (hn : finalizations (T ++ [e]) = []) (i : C.Feeder) :
    .cancelled ∉ memory (directed waiting e feeder) i := by
  rw [finalizations, deeds_snoc, List.filterMap_append, List.append_eq_nil_iff] at hn
  rw [directed]
  split
  · -- This would be a finalization.
    rename_i c hd
    rw [hd] at hn
    exact absurd hn.2 (by simp [Deed.finalizes])
  · exact spared_heard (h hn.1 i)

/-! ### The fold -/

/-- The fold takes a step, with its downstream or without it. -/
theorem follow (h : Chronicle x T t s) {a : Move C.Output} {e : Seen C} {f : Combination C}
    (hs : Combination.Step s.fold e f) (he : ∀ i z k y, e.deed ≠ .sent i z k y)
    (hc : e.deed ≠ .cancelled) (hp : e.deed.pushes = a.value?)
    {outlet : Option (Agent × Slot Agent Demand)}
    (ho : ∀ a slot o, outlet = some (a, slot) → slot.result = some o → o ∈ answered t)
    (hr : ∀ v ps o, e.deed = .replied v ps o →
      o ∈ answered t ∧ (Kind (words t) → o = .ok .more)) :
    Chronicle x (T ++ [e]) (t ++ [.moved a]) ({ s with outlet := outlet }.follow e f) where
  run := h.run.snoc hs
  tracked := h.tracked.direct h.kept hs he
  pushed := by rw [pushed_snoc, hp, h.pushed, values_move]
  owned hc := List.mem_append_left _ (h.owned hc)
  cancelled hd := by
    rw [deeds_snoc, List.mem_append, List.mem_singleton] at hd
    exact List.mem_append_left _ (h.cancelled (hd.resolve_right hc.symm))
  spared hn i := spared_directed h.spared hn i
  heard b slot o ho' hr := by
    rw [answered_append]
    exact List.mem_append_left _ (ho b slot o ho' hr)
  replied v ps o hd := by
    rw [deeds_snoc, List.mem_append, List.mem_singleton] at hd
    rw [answered_append]
    exact List.mem_append_left _ (hd.elim (h.replied v ps o) fun hd => (hr v ps o hd.symm).1)
  welcomed hk v ps o hd := by
    have hk := (words_append t _ ▸ hk).before
    rw [deeds_snoc, List.mem_append, List.mem_singleton] at hd
    exact hd.elim (h.welcomed hk v ps o) fun hd => (hr v ps o hd.symm).2 hk
  faithful := h.faithful.snoc fun i z k y hd => absurd hd (he i z k y)

/-- The fold is cancelled when the combination was. -/
theorem cancelFold (h : Chronicle x T t s) (hc : .cancelled ∈ t) :
    ∃ T', Chronicle x T' t s.cancelFold := by
  refine Node.cancelFold_of (P := fun s => ∃ T', Chronicle x T' t s) ⟨T, h⟩ ?_
  refine ⟨T ++ [⟨.cancelled, []⟩, ⟨.closed, []⟩], {
    run := by
      rw [show [⟨.cancelled, []⟩, ⟨.closed, []⟩] = [⟨.cancelled, []⟩] ++ [(⟨.closed, []⟩ : Seen C)]
        from rfl, ← List.append_assoc]
      exact (h.run.snoc .cancel).snoc (.close rfl)
    tracked := h.tracked.quit h.kept
    pushed := by
      rw [pushed_append, h.pushed]
      exact List.append_nil _
    owned := h.owned
    cancelled := fun _ => hc
    spared := fun hn => h.spared (by simpa [finalizations, deeds, Deed.finalizes] using hn)
    heard := h.heard
    replied := fun v ps o hd => h.replied v ps o (by simpa [deeds] using hd)
    welcomed := fun hk v ps o hd => h.welcomed hk v ps o (by simpa [deeds] using hd)
    faithful := ?_ }⟩
  have hf : Faithful x (T ++ [⟨.cancelled, []⟩] ++ [⟨.closed, []⟩]) :=
    (h.faithful.snoc (by simp)).snoc (by simp)
  simpa using hf

/-- The next event of a feeder that recites its script is on its script, as long as the feeder was
    told nothing but to go on. -/
theorem recited (h : Chronicle x T t s) (hx : ∀ i, Recites (S i) (x i))
    {result : C.Feeder → Slot Agent Demand} (hf : Fed (traced S) s.fold s.feeder result)
    {i : C.Feeder} {e : Event (C.Input i)} {state : (traced S i).State}
    (hs : (traced S i).Step (s.feeder i) (.calls e) state) (hi : Encouraged T i) :
    (x i).event? (s.fold.sent i) = some e := by
  obtain ⟨y, hr, -⟩ := hf.remembers i
  have ha := h.tracked.attuned i
  -- The feeder has a run of its own, in which it was encouraged; the event is the next one there.
  refine hx i _ _ (hr.snoc (.move hs.1)) (fun o ho => ?_) (fun hm => ?_) _ e ?_
  · rw [answered_append, answered_calls, List.append_nil] at ho
    obtain ⟨k, hk⟩ := List.getElem?_of_mem ho
    exact hi.1 k o ((ha.got k o).1 hk)
  · rw [List.mem_append, List.mem_singleton] at hm
    exact hm.elim (h.spared hi.2 i) nofun
  · rw [called_append, called_calls, getElem?_snoc]
    exact .inr ⟨(ha.length_called h.kept).symm, rfl⟩

/-- A feeder sends an event, which comes into the channel or is refused. -/
theorem receive (h : Chronicle x T t s) (hx : ∀ i, Recites (S i) (x i))
    (hk : Node.Kept order y s) (hl : ∀ i, Polite (S i)) {i : C.Feeder} {e : Event (C.Input i)}
    {state : (traced S i).State} (hs : (traced S i).Step (s.feeder i) (.calls e) state) :
    Chronicle x (T ++ [(s.fold.send i e).2]) t (s.receive i e state) := by
  obtain ⟨hi, hy⟩ := hk.fed.attached.calls (hl i).traced hs
  obtain ⟨z, hd, -⟩ := send_seen s.fold i e
  refine {
    run := h.run.snoc (.send i e hi hy)
    tracked := h.tracked.receive h.kept hi hs
    pushed := by rw [pushed_snoc_none (by rw [hd]; rfl), h.pushed]
    owned := h.owned
    cancelled := fun hm => h.cancelled (by simpa [hd] using hm)
    spared := fun hz j => spared_heard (spared_update hs (h.spared ?_ j))
    heard := h.heard
    replied := fun v ps o hm => h.replied v ps o (by simpa [hd] using hm)
    welcomed := fun hk v ps o hm => h.welcomed hk v ps o (by simpa [hd] using hm)
    faithful := h.faithful.snoc fun j w k f hw hj => ?_ }
  · simpa [finalizations, hd, Deed.finalizes] using hz
  · rw [hd] at hw
    cases hw
    exact h.recited hx hk.fed hs hj

/-- A feeder does something without a word. -/
theorem mute (h : Chronicle x T t s) {i : C.Feeder} {m : Move (C.Input i)}
    (hm : (Act.moved m).word? = none) {state : (traced S i).State}
    (hs : (traced S i).Step (s.feeder i) m state) :
    Chronicle x T t { s with feeder := Function.update s.feeder i state } := {
  h with
  tracked := h.tracked.mute hm hs
  spared := fun hn j => spared_update hs (h.spared hn j) }

/-! ### Every step -/

/-- The tasks of a combination and its feeders go on. -/
theorem step (h : Chronicle x T t s) (hx : ∀ i, Recites (S i) (x i)) (hR : C.Remembers)
    (hl : ∀ i, Polite (S i))
    (hr : Run Exposed.Step (.new (System.combine C (traced S) order)) t ⟨y, s⟩) {a : Move C.Output}
    (hs : Node.Step order s a s') : ∃ T', Chronicle x T' (t ++ [.moved a]) s' := by
  have hk := Node.Kept.kept_reaches hR (fun i => (hl i).traced) ⟨t, hr⟩
  cases hs with
  | launch ha hs =>
    have hg : Chronicle x T (t ++ [.moved .tacit]) { s with started := true } :=
      { h.extend rfl with }
    rw [Node.launch]
    split
    · exact hg.cancelFold (hg.owned ‹_›)
    · exact ⟨T, hg⟩
  | fold ha hs he =>
    obtain ⟨hd, hc, hp⟩ := he.harmless
    refine ⟨_, h.follow (a := .tacit) hs (hs.inward he hR).1 hc.1 hp h.heard fun v ps o hd => ?_⟩
    rw [hd] at he
    cases he
  | push ha ho hs =>
    refine ⟨_, h.follow hs (by simp) (by simp) rfl ?_ (by simp)⟩
    rintro b slot o ⟨⟩ hr
    cases hr
  | @reply slot slot' w o v ps as f ha ho hp hs =>
    refine ⟨_, h.follow hs (by simp) (by simp) rfl (by simp) ?_⟩
    rintro _ _ _ ⟨⟩
    obtain ⟨m, hw, -, hu⟩ := utters hR hr
    have hq := hk.called
    rw [ho] at hq
    refine ⟨h.heard _ slot o ho (Slot.poll_ready hp (hq.untaken slot rfl)).1, fun hkind => ?_⟩
    exact Node.Enduring.hears hu (hkind.ne_quit hw) ho hp
  | @wait a slot slot' w ha hs ho hp =>
    refine ⟨T, { h.extend rfl with heard := ?_ }⟩
    rintro b _ o ⟨⟩ hn
    cases (Slot.poll_pending hp).2.result.symm.trans hn
  | complete ha hs hd ho =>
    refine ⟨T, { h.extend rfl with heard := ?_ }⟩
    rintro b _ o ⟨⟩ hn
    cases hn
  | completed ha hs hd ho hp =>
    exact ⟨T, { h.extend rfl with heard := fun _ _ _ hn => by cases hn }⟩
  | dismiss ha hs hd hi =>
    -- The fold does not fail.
    have hp := hk.place
    rw [hd] at hp
    cases hp
  | feeder hs hf | release hs hf => exact ⟨T, { (h.extend rfl).mute rfl hf with }⟩
  | receive hs hf => exact ⟨_, (h.extend rfl).receive hx hk hl hf⟩
  | _ => exact ⟨T, { h.extend rfl with }⟩

/-- The downstream answers. -/
theorem answer (h : Chronicle x T t s) (o : Outcome Demand) :
    Chronicle x T (t ++ [.answered o]) (s.answer o) := by
  have hg := h.extend (a := .answered o) rfl
  rw [Node.answer]
  rcases ho : s.outlet with _ | ⟨a, slot⟩
  · exact hg
  · refine { hg with heard := ?_ }
    rintro b _ o' ⟨⟩ hr
    rw [answered_append]
    rcases hn : slot.result with _ | o₀
    · simp [Slot.complete, Slot.takeWaker, hn] at hr
      simp [hr]
    · simp [Slot.complete, Slot.takeWaker, hn] at hr
      exact List.mem_append_left _ (h.heard a slot o' ho (hr ▸ hn))

/-- The owner cancels the combination. -/
theorem cancel (h : Chronicle x T t s) : ∃ T', Chronicle x T' (t ++ [.cancelled]) s.cancel := by
  have hg := h.extend (a := .cancelled) rfl
  have hm : .cancelled ∈ t ++ [.cancelled] := by simp
  have hc : Chronicle x T (t ++ [.cancelled]) { s with cancelled := true } :=
    { hg with owned := fun _ => hm }
  exact Node.cancel_of (P := fun s => ∃ T', Chronicle x T' (t ++ [.cancelled]) s) ⟨T, hg⟩ ⟨T, hc⟩
    fun _ ⟨_, h⟩ => h.cancelFold hm

end Chronicle

/-- Every run of a combination whose feeders recite their scripts has its chronicle. -/
theorem chronicle_run (hx : ∀ i, Recites (S i) (x i)) (hR : C.Remembers) (hl : ∀ i, Polite (S i))
    (h : Run Exposed.Step (.new (System.combine C (traced S) order)) t ⟨y, s⟩) :
    ∃ T, Chronicle x T t s := by
  refine (h.invariant (P := fun t (e : Exposed (System.combine C (traced S) order)) =>
    Run Exposed.Step (.new (System.combine C (traced S) order)) t e ∧
      ∃ T, Chronicle x T t e.state) ⟨.nil, [], .new S x⟩ ?_).2
  rintro t e a e' ⟨hr, T, hT⟩ hs
  refine ⟨hr.snoc hs, ?_⟩
  cases hs with
  | move hs => exact hT.step hx hR hl hr hs
  | answer o hc => exact ⟨T, hT.answer o⟩
  | cancel => exact hT.cancel

end ResumeOnce.Network

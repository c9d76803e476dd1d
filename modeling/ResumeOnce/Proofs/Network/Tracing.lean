import ResumeOnce.Proofs.Network.Conduct
import ResumeOnce.Proofs.Network.Grammar
import ResumeOnce.Proofs.Network.Remembering
import ResumeOnce.Proofs.Streams.Ceasing

/-!
# What the feeders of a combination go through

A feeder is a stream of its own, and what was done by it and to it is told by its acts. The fold
that it feeds knows its events by their numbers, and answers each of them. Both tell the same: the
event with a number is the one that the feeder has called with at that place, and its answer is the
one that the feeder got there.

* `Attuned`: the acts of a feeder are what the fold knows of it;
* `Attuned.waiting`, `Attuned.idle`: which event a feeder waits for;
* `Tracked`: the feeders of a fold, with all that they went through;
* `Tracked.direct`, `Tracked.receive`: the fold takes a step, a feeder sends an event.
-/

namespace ResumeOnce.Network

open Streams

/-! ## Words at their places -/

section Words

variable {α : Type}

@[simp]
theorem called_calls (e : Event α) : called [.moved (.calls e)] = [e] := rfl

@[simp]
theorem called_answered (o : Outcome Demand) : called [(.answered o : Act α)] = [] := rfl

@[simp]
theorem answered_answered (o : Outcome Demand) : answered [(.answered o : Act α)] = [o] := rfl

@[simp]
theorem answered_calls (e : Event α) : answered [.moved (.calls e)] = [] := rfl

theorem lt_length_iff {β : Type} {l : List β} {k : Nat} :
    k < l.length ↔ ∃ b, l[k]? = some b := by
  simp [List.getElem?_eq_some_iff]

end Words

/-! ## A feeder and the fold -/

variable {C : Combiner} {T T' : List (Seen C)} {f f' : Combination C} {i : C.Feeder}
  {u : List (Act (C.Input i))}

/-- The acts of a feeder are what the fold knows of it: its events by their numbers, and the
    answers to them. -/
structure Attuned (T : List (Seen C)) (i : C.Feeder) (u : List (Act (C.Input i))) : Prop where
  sent : ∀ k e, (called u)[k]? = some e ↔ ∃ y, .sent i e k y ∈ deeds T
  got : ∀ k o, (answered u)[k]? = some o ↔ ((i, k), o) ∈ answers T

namespace Attuned

theorem new (i : C.Feeder) : Attuned [] i [] where
  sent k e := by simp [called, words, deeds]
  got k o := by simp [answered, words, answers]

/-- What is not said does not matter. -/
theorem mute (h : Attuned T i u) {a : Act (C.Input i)} (ha : a.word? = none) :
    Attuned T i (u ++ [a]) where
  sent k e := by
    rw [called, words_mute u ha]
    exact h.sent k e
  got k o := by
    rw [answered, words_mute u ha]
    exact h.got k o

/-- The fold does something that does not concern its feeders. -/
theorem keep (h : Attuned T i u) (hd : ∀ e k y, .sent i e k y ∈ deeds T' ↔ .sent i e k y ∈ deeds T)
    (ha : answers T' = answers T) : Attuned T' i u where
  sent k e := (h.sent k e).trans (exists_congr fun y => (hd e k y).symm)
  got k o := ha ▸ h.got k o

/-- A feeder has sent the events with the numbers that are given out. -/
theorem length_called (h : Attuned T i u) (hk : Combination.Kept T f) :
    (called u).length = f.sent i := by
  refine eq_of_forall_lt_iff fun k => ?_
  rw [hk.numbered.sent, lt_length_iff]
  exact exists_congr fun e => h.sent k e

theorem mem_used (h : Attuned T i u) (k : Nat) :
    (i, k) ∈ used T ↔ k < (answered u).length := by
  rw [lt_length_iff, used, List.mem_map]
  constructor
  · rintro ⟨⟨r, o⟩, hm, rfl⟩
    exact ⟨o, (h.got k o).2 hm⟩
  · rintro ⟨o, ho⟩
    exact ⟨_, (h.got k o).1 ho, rfl⟩

/-- A feeder waits for the answer to the first event that has none. -/
theorem waiting (h : Attuned T i u) (hk : Combination.Kept T f) {r : C.Right}
    (hr : f.unanswered i = some r) : r = (i, (answered u).length) := by
  have hw := hk.held.rights
  obtain ⟨hm, rfl⟩ := (hw.waits i r).2 hr
  obtain ⟨i, k⟩ := r
  have hle : (answered u).length ≤ k := by
    refine Nat.le_of_not_lt fun hlt => ?_
    exact (List.nodup_append.1 hw.nodup).2.2 _ ((h.mem_used k).2 hlt) _ hm rfl
  rcases hle.lt_or_eq with hlt | he
  · -- An event before it would have no answer either, but a feeder waits for one at a time.
    have hs : k < f.sent i := (hw.given (i, k)).1 (List.mem_append_right _ hm)
    have hg := (hw.given (i, (answered u).length)).2 (hlt.trans hs)
    have ho := (List.mem_append.1 hg).resolve_left fun hu => (h.mem_used _).1 hu |>.ne rfl
    exact Option.some.inj (hr.symm.trans ((hw.waits i _).1 ⟨ho, rfl⟩))
  · rw [he]

/-- A feeder that waits for nothing has an answer to each of its events. -/
theorem idle (h : Attuned T i u) (hk : Combination.Kept T f) (hi : f.unanswered i = none) :
    (answered u).length = f.sent i := by
  have hw := hk.held.rights
  refine eq_of_forall_lt_iff fun k => ?_
  rw [← h.mem_used, ← hw.given (i, k), List.mem_append]
  refine ⟨.inl, fun hm => hm.resolve_right fun ho => ?_⟩
  cases hi.symm.trans ((hw.waits i _).1 ⟨ho, rfl⟩)

/-- A fold that has come to its end owes no answer. -/
theorem resolved (h : Attuned T i u) (hk : Combination.Kept T f) {c : Completion}
    (hc : f.consumer.turn = .stop c) : (answered u).length = (called u).length := by
  have hu : f.unanswered i = none := by
    refine Option.eq_none_iff_forall_ne_some.2 fun r hr => ?_
    have ho := ((hk.held.rights.waits i r).2 hr).1
    rw [hk.held.owes_nothing hc] at ho
    cases ho
  rw [h.idle hk hu, h.length_called hk]

/-- What a feeder hears of some answers. -/
def hears (waiting : C.Feeder → Option C.Right) (as : Answers C.Right) (i : C.Feeder) :
    List (Act (C.Input i)) :=
  (((waiting i).bind fun r => List.lookup r as).map Act.answered).toList

/-- A feeder is answered, if it waits for that. -/
theorem heard {waiting : C.Feeder → Option C.Right} {as : Answers C.Right}
    (hc : ∀ k e, (called u)[k]? = some e ↔ ∃ y, .sent i e k y ∈ deeds T')
    (ha : ∀ k o, (answered u)[k]? = some o ↔ ((i, k), o) ∈ answers T)
    (hT : answers T' = answers T ++ as) (hn : (as.map Prod.fst).Nodup)
    (hw : ∀ r ∈ as.map Prod.fst, waiting r.1 = some r)
    (hl : ∀ r, waiting i = some r → r = (i, (answered u).length)) :
    Attuned T' i (u ++ hears waiting as i) := by
  have hm : ∀ {k o}, ((i, k), o) ∈ as → waiting i = some (i, k) := fun hm =>
    hw _ (List.mem_map_of_mem hm)
  rw [hears]
  rcases ho : (waiting i).bind fun r => List.lookup r as with _ | o'
  · -- Whoever is answered waits for it, and would have found its answer.
    have hx : ∀ k o, ((i, k), o) ∉ as := by
      intro k o hx
      rw [hm hx, Option.bind_some, List.lookup_eq_none_iff] at ho
      simpa using ho _ hx
    refine ⟨by simpa using hc, fun k o => ?_⟩
    rw [hT, List.mem_append, ← ha, or_iff_left (hx k o)]
    simp
  · obtain ⟨r, hr, hlook⟩ := Option.bind_eq_some_iff.1 ho
    obtain rfl := hl r hr
    obtain ⟨l, l', rfl, -⟩ := List.lookup_eq_some_iff.1 hlook
    refine ⟨by simpa using hc, fun k o => ?_⟩
    rw [Option.map_some, Option.toList_some, answered_append, answered_answered, getElem?_snoc, hT,
      List.mem_append, ha]
    refine or_congr_right ⟨?_, fun hx => ?_⟩
    · rintro ⟨rfl, rfl⟩
      exact List.mem_append_right _ List.mem_cons_self
    · have hk := Option.some.inj (hr.symm.trans (hm hx))
      have he := List.inj_on_of_nodup_map hn hx
        (List.mem_append_right _ List.mem_cons_self) hk.symm
      cases he
      exact ⟨rfl, rfl⟩

end Attuned

/-! ## The feeders of a fold -/

variable {S : (i : C.Feeder) → System (C.Input i)}

/-- What a feeder remembers. -/
def memory (feeder : (i : C.Feeder) → (traced S i).State) (i : C.Feeder) :
    List (Act (C.Input i)) := Traced.acts (feeder i)

variable {feeder feeder' : (i : C.Feeder) → (traced S i).State}

/-- A feeder has come to its state by what it remembers, and has left what it comes to if that tells
    of its end. -/
theorem Fed.remembers {result : C.Feeder → Slot Agent Demand}
    (h : Fed (traced S) f feeder result) (i : C.Feeder) :
    ∃ y, Run Exposed.Step (.new (S i)) (memory feeder i) ⟨y, states feeder i⟩ ∧
      ((result i).isComplete = true ↔ ∃ r, .moved (.ends r) ∈ memory feeder i) := by
  obtain ⟨y, hy, hl⟩ := h.attached i
  have hr := run_traced hy
  have hf := finished_iff hr
  rw [hl.finished] at hf
  exact ⟨y, hr, hf.trans (or_iff_right nofun)⟩

/-- The feeders of a fold, with all that they went through: they were cancelled when it was
    finalized. -/
structure Tracked (T : List (Seen C)) (f : Combination C)
    (feeder : (i : C.Feeder) → (traced S i).State) : Prop where
  attuned : ∀ i, Attuned T i (memory feeder i)
  asked : ∀ c, f.consumer.turn.finalized? = some c → ∀ i, .cancelled ∈ memory feeder i

theorem memory_heard (waiting : C.Feeder → Option C.Right) (as : Answers C.Right)
    (feeder : (i : C.Feeder) → (traced S i).State) (i : C.Feeder) :
    memory (heard waiting as feeder) i = memory feeder i ++ Attuned.hears waiting as i := by
  rw [memory, Network.heard, Attuned.hears]
  split
  · rename_i o ho
    rw [ho]
    rfl
  · rename_i ho
    rw [ho]
    exact (List.append_nil _).symm

theorem memory_update_self (feeder : (i : C.Feeder) → (traced S i).State) {m : Move (C.Input i)}
    {state : (traced S i).State} (hs : (traced S i).Step (feeder i) m state) :
    memory (Function.update feeder i state) i = memory feeder i ++ [.moved m] := by
  rw [memory, Function.update_self]
  exact hs.2

theorem memory_update_ne (feeder : (i : C.Feeder) → (traced S i).State) {j : C.Feeder} (hj : j ≠ i)
    (state : (traced S i).State) :
    memory (Function.update feeder i state) j = memory feeder j := by
  rw [memory, Function.update_of_ne hj, memory]

theorem memory_subset_update (feeder : (i : C.Feeder) → (traced S i).State)
    {m : Move (C.Input i)} {state : (traced S i).State} (hs : (traced S i).Step (feeder i) m state)
    (j : C.Feeder) : memory feeder j ⊆ memory (Function.update feeder i state) j := by
  by_cases hj : j = i
  · subst hj
    rw [memory_update_self feeder hs]
    exact List.subset_append_left _ _
  · rw [memory_update_ne feeder hj]
    exact List.Subset.refl _

/-- What is seen of an event that is sent, and who is answered at once. -/
theorem send_seen (f : Combination C) (i : C.Feeder) (e : Event (C.Input i)) :
    ∃ y, (f.send i e).2.deed = .sent i e (f.sent i) y ∧
      ((f.send i e).2.answers = [] ∨ ∃ o, (f.send i e).2.answers = [((i, f.sent i), o)]) := by
  rw [Combination.send]
  split
  · exact ⟨_, rfl, .inr ⟨_, rfl⟩⟩
  · exact ⟨_, rfl, .inl rfl⟩

namespace Tracked

theorem start (C : Combiner) (S : (i : C.Feeder) → System (C.Input i)) :
    Tracked [] (.new C) fun i => (traced S i).start where
  attuned i := .new i
  asked _ hc := nomatch hc

/-- The fold takes a step, and answers feeders. -/
theorem follow (h : Tracked T f feeder) (hk : Combination.Kept T f) {e : Seen C}
    (hs : Combination.Step f e f') (he : ∀ i x k y, e.deed ≠ .sent i x k y) (i : C.Feeder) :
    Attuned (T ++ [e]) i (memory (heard f.unanswered e.answers feeder) i) := by
  have hk' := hk.step hs
  have ha := h.attuned i
  have hd : ∀ j x k y, .sent j x k y ∈ deeds (T ++ [e]) ↔ .sent j x k y ∈ deeds T := by
    intro j x k y
    simp [(he j x k y).symm]
  have hu := (List.nodup_append.1 hk'.held.rights.nodup).1
  rw [used_snoc] at hu
  rw [memory_heard]
  refine Attuned.heard (fun k x => (ha.sent k x).trans (exists_congr fun y => (hd i x k y).symm))
    ha.got (answers_snoc T e) (List.nodup_append.1 hu).2.1 ?_ fun r => ha.waiting hk
  -- Whoever is answered was owed the answer.
  rintro ⟨j, k⟩ hr
  have hm : (j, k) ∈ used (T ++ [e]) := by
    rw [used_snoc]
    exact List.mem_append_right _ hr
  obtain ⟨x, y, hx⟩ := (hk'.numbered.sent j k).1
    ((hk'.held.rights.given _).1 (List.mem_append_left _ hm))
  have hg := (hk.held.rights.given (j, k)).2
    ((hk.numbered.sent j k).2 ⟨x, y, (hd j x k y).1 hx⟩)
  refine (hk.held.rights.waits j _).1 ⟨(List.mem_append.1 hg).resolve_left fun hx => ?_, rfl⟩
  exact (List.nodup_append.1 hu).2.2 _ hx _ hr rfl

/-- What was done to the feeders stays done, as they go through more. -/
theorem grow (h : Tracked T f feeder) (ha : ∀ i, Attuned T' i (memory feeder' i))
    (hf : ∀ i, memory feeder i ⊆ memory feeder' i)
    (ht : ∀ c, f'.consumer.turn.finalized? = some c → f.consumer.turn.finalized? = some c) :
    Tracked T' f' feeder' where
  attuned := ha
  asked c hc i := hf i (h.asked c (ht c hc) i)

/-- The fold takes a step, and directs the feeders. -/
theorem direct (h : Tracked T f feeder) (hk : Combination.Kept T f) {e : Seen C}
    (hs : Combination.Step f e f') (he : ∀ i x k y, e.deed ≠ .sent i x k y) :
    Tracked (T ++ [e]) f' (directed f.unanswered e feeder) := by
  have ha := h.follow hk hs he
  have hf : ∀ i, memory feeder i ⊆ memory (heard f.unanswered e.answers feeder) i := by
    intro i
    rw [memory_heard]
    exact List.subset_append_left _ _
  have ht := fun c hc => hs.finalized? hk.held.sound (c := c) hc
  rw [directed]
  split
  · have hc : ∀ i, memory (fun i => (traced S i).cancel (heard f.unanswered e.answers feeder i)) i =
        memory (heard f.unanswered e.answers feeder) i ++ [.cancelled] := fun i => rfl
    refine ⟨fun i => ?_, fun c hc' i => ?_⟩
    · exact hc i ▸ (ha i).mute rfl
    · exact hc i ▸ List.mem_append_right _ List.mem_cons_self
  · rename_i hd
    exact h.grow ha hf fun c hc => (ht c hc).resolve_right (hd c)

/-- A feeder sends an event, which comes into the channel or is refused. -/
theorem receive (h : Tracked T f feeder) (hk : Combination.Kept T f)
    {e : Event (C.Input i)} {state : (traced S i).State} (hi : f.unanswered i = none)
    (hs : (traced S i).Step (feeder i) (.calls e) state) :
    Tracked (T ++ [(f.send i e).2]) (f.send i e).1 (heard (f.count i e).unanswered
      (f.send i e).2.answers (Function.update feeder i state)) := by
  refine h.grow (fun j => ?_) (fun j => ?_) fun c hc => ?_
  · obtain ⟨y, hd, has⟩ := send_seen f i e
    have hn : ((f.send i e).2.answers.map Prod.fst).Nodup := by
      rcases has with has | ⟨o, has⟩ <;> simp [has]
    have hw : ∀ r ∈ (f.send i e).2.answers.map Prod.fst,
        (f.count i e).unanswered r.1 = some r := by
      rcases has with has | ⟨o, has⟩ <;> simp [has, Combination.count_unanswered_self]
    have ha := h.attuned j
    rw [memory_heard]
    by_cases hj : j = i
    · subst hj
      rw [memory_update_self feeder hs]
      -- The event gets the number that is next, and the feeder waits for the answer to it.
      refine Attuned.heard (fun k x => ?_) (by simpa using ha.got) (answers_snoc T _) hn hw ?_
      · rw [called_append, called_calls, getElem?_snoc, ha.sent, ha.length_called hk]
        simp [hd, exists_or, eq_comm, and_comm]
      · intro r hr
        rw [Combination.count_unanswered_self] at hr
        rw [← Option.some.inj hr, answered_append, answered_calls, List.append_nil, ha.idle hk hi]
    · rw [memory_update_ne feeder hj]
      refine Attuned.heard (fun k x => ?_) ha.got (answers_snoc T _) hn hw ?_
      · rw [ha.sent]
        simp [hd, hj]
      · intro r hr
        rw [Combination.count_unanswered_ne _ hj] at hr
        exact ha.waiting hk hr
  · rw [memory_heard]
    exact List.Subset.trans (memory_subset_update feeder hs j) (List.subset_append_left _ _)
  · rwa [Combination.send_turn hk.held.sound] at hc

/-- Whoever cancels a fold answers no feeder. -/
theorem revoke (h : Tracked T f feeder) (hk : Combination.Kept T f) {e : Seen C}
    (hs : Combination.Step f e f') (he : e.deed.Revokes) : Tracked (T ++ [e]) f' feeder := by
  obtain ⟨ha, ht, -⟩ := hs.revokes he hk.held.sound
  refine h.grow (fun i => (h.attuned i).keep (fun x k y => ?_) ?_) (fun i => List.Subset.refl _)
    fun c hc => ht ▸ hc
  · simp [(he.unsent i x k y).symm]
  · rw [answers_snoc, ha, List.append_nil]

theorem quit (h : Tracked T f feeder) (hk : Combination.Kept T f) :
    Tracked (T ++ [⟨.cancelled, []⟩, ⟨.closed, []⟩]) f.quit feeder := by
  have hq := (h.revoke hk .cancel trivial).revoke (hk.step .cancel) (.close rfl) trivial
  rwa [List.append_assoc] at hq

/-- A feeder does something without a word. -/
theorem mute (h : Tracked T f feeder) {m : Move (C.Input i)} (hm : (Act.moved m).word? = none)
    {state : (traced S i).State} (hs : (traced S i).Step (feeder i) m state) :
    Tracked T f (Function.update feeder i state) := by
  refine h.grow (fun j => ?_) (memory_subset_update feeder hs) fun _ => id
  by_cases hj : j = i
  · subst hj
    rw [memory_update_self feeder hs]
    exact (h.attuned j).mute hm
  · rw [memory_update_ne feeder hj]
    exact h.attuned j

end Tracked

end ResumeOnce.Network

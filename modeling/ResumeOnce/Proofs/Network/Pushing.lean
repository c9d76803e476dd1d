import ResumeOnce.Proofs.Network.Supplying

/-!
# What a source pushes

Before each value a source looks whether it was cancelled; then it pushes the value and waits
for the answer. So it pushes the longest part of its supply that is asked for: every value but
the last was answered with more, and no checkpoint saw the cancellation. A cancellation that
comes behind the last checkpoint changes nothing.

* `Deed`, `Watched`: a source, with what its checkpoints tell it;
* `Asked`: how many values are asked for;
* `Course`: where a source stands, by what has been done;
* `Exact`: what a source pushes, and what comes of it;
* `pushes_exactly`: it holds for every run.
-/

namespace ResumeOnce.Network.Sourcing

open Streams

variable {σ α : Type}

/-! ## What is seen of a source -/

/-- Something that is done by a source, or to it, and what a checkpoint told it by that. -/
structure Deed (α : Type) where
  act : Act α
  told : Option (Outcome Unit)

/-- What was done. -/
def acts (t : List (Deed α)) : List (Act α) := t.map Deed.act

/-- What the checkpoints told. -/
def checks (t : List (Deed α)) : List (Outcome Unit) := t.filterMap Deed.told

theorem acts_snoc (t : List (Deed α)) (d : Deed α) : acts (t ++ [d]) = acts t ++ [d.act] :=
  List.map_append

theorem checks_snoc (t : List (Deed α)) (d : Deed α) :
    checks (t ++ [d]) = checks t ++ d.told.toList := by
  rw [checks, List.filterMap_append]
  rcases d with ⟨_, _ | _⟩ <;> rfl

/-- What a checkpoint tells a source by an act. Only who is there looks. -/
def seen (s : Sourcing σ α) : Act α → Option (Outcome Unit)
  | .moved .tacit =>
    match s.source with
    | .checkpoint _ _ => some s.checkpoint
    | _ => none
  | _ => none

/-- What can happen to a source, with what its checkpoint tells. -/
inductive Watched (supply : Supply σ α) (c : Completion) :
    Exposed (System.source supply c) → Deed α → Exposed (System.source supply c) → Prop
  | step {e e' : Exposed (System.source supply c)} {a : Act α} : Exposed.Step e a e' →
      Watched supply c e ⟨a, seen e.state a⟩ e'

section Watched

variable {supply : Supply σ α} {c : Completion} {t : List (Deed α)}
  {e e' : Exposed (System.source supply c)}

/-- Who watches a source does not change what it does. -/
theorem Watched.run (h : Run (Watched supply c) e t e') : Run Exposed.Step e (acts t) e' := by
  induction h with
  | nil => exact .nil
  | snoc _ hs ih =>
    obtain ⟨hs⟩ := hs
    rw [acts_snoc]
    exact ih.snoc hs

/-- Whatever a source does can be watched. -/
theorem Watched.exists_run {u : List (Act α)} (h : Run Exposed.Step e u e') :
    ∃ t, acts t = u ∧ Run (Watched supply c) e t e' := by
  induction h with
  | nil => exact ⟨[], rfl, .nil⟩
  | snoc _ hs ih =>
    obtain ⟨t, rfl, hr⟩ := ih
    exact ⟨_, acts_snoc t _, hr.snoc (.step hs)⟩

end Watched

/-! ## Where a source stands -/

/-- What was done: how many values were pushed, what the checkpoints told, what the downstream
    answered, and which completions it was sent. -/
structure Account where
  pushed : Nat
  checks : List (Outcome Unit)
  answers : List (Outcome Demand)
  ends : List Completion

/-- What was done in a run. -/
def account (t : List (Deed α)) : Account where
  pushed := (values (acts t)).length
  checks := checks t
  answers := answered (acts t)
  ends := completions (acts t)

/-- What was done behind one deed more. -/
def Account.after (y : Account) (d : Deed α) : Account where
  pushed := y.pushed + (values [d.act]).length
  checks := y.checks ++ d.told.toList
  answers := y.answers ++ answered [d.act]
  ends := y.ends ++ completions [d.act]

theorem account_snoc (t : List (Deed α)) (d : Deed α) :
    account (t ++ [d]) = (account t).after d := by
  rw [account, acts_snoc, checks_snoc, values_append, List.length_append, answered_append,
    completions_append]
  rfl

/-- What nobody notices, and tells nothing, is not accounted for. -/
theorem Account.after_mute (y : Account) {d : Deed α} (ha : d.act.word? = none)
    (hd : d.told = none) : y.after d = y := by
  have hw : words [d.act] = [] := words_mute [] ha
  rw [after, hd, values, completions, answered, called, hw]
  simp

/-- A checkpoint told something. -/
theorem Account.after_checked (y : Account) (o : Outcome Unit) :
    y.after (⟨.moved .tacit, some o⟩ : Deed α) = { y with checks := y.checks ++ [o] } := by
  rw [after, show answered [(.moved .tacit : Act α)] = [] from rfl,
    show completions [(.moved .tacit : Act α)] = [] from rfl, List.append_nil, List.append_nil]
  rfl

/-- A value was pushed. -/
theorem Account.after_value (y : Account) (a : α) :
    y.after ⟨.moved (.calls (.value a)), none⟩ = { y with pushed := y.pushed + 1 } := by
  rw [after, show answered [(.moved (.calls (.value a)) : Act α)] = [] from rfl,
    show completions [(.moved (.calls (.value a)) : Act α)] = [] from rfl, Option.toList_none,
    List.append_nil, List.append_nil, List.append_nil]
  rfl

/-- A completion was sent. -/
theorem Account.after_completion (y : Account) (c : Completion) :
    y.after (⟨.moved (.calls (.completion c)), none⟩ : Deed α) =
      { y with ends := y.ends ++ [c] } := by
  rw [after, show answered [(.moved (.calls (.completion c)) : Act α)] = [] from rfl,
    Option.toList_none, List.append_nil, List.append_nil]
  rfl

/-- The downstream answered. -/
theorem Account.after_answered (y : Account) (o : Outcome Demand) :
    y.after (⟨.answered o, none⟩ : Deed α) = { y with answers := y.answers ++ [o] } := by
  rw [after, show completions [(.answered o : Act α)] = [] from rfl, Option.toList_none,
    List.append_nil, List.append_nil]
  rfl

/-- So many checkpoints were passed. -/
abbrev passed (n : Nat) : List (Outcome Unit) := List.replicate n (.ok ())

/-- So many answers asked for more. -/
abbrev welcomed (n : Nat) : List (Outcome Demand) := List.replicate n (.ok .more)

theorem passed_succ (n : Nat) : passed (n + 1) = passed n ++ [.ok ()] := List.replicate_succ'

theorem welcomed_succ (n : Nat) : welcomed (n + 1) = welcomed n ++ [.ok .more] :=
  List.replicate_succ'

/-- How a source came to its end. -/
inductive Settled (supply : Supply σ α) (c : Completion) : Account → Outcome Demand → Prop
  /-- The last value was not answered with more. -/
  | dismissed {n : Nat} {r : Outcome Demand} : r ≠ .ok .more →
      Settled supply c ⟨n + 1, passed (n + 1), welcomed n ++ [r], []⟩ r
  /-- A checkpoint saw the cancellation. -/
  | cancelled {n : Nat} {v : α × σ} : supply.drawn n = some v →
      Settled supply c ⟨n, passed n ++ [.error Fault.cancelled], welcomed n, []⟩
        (.error Fault.cancelled)
  /-- The completion was answered. -/
  | completed {n : Nat} {r : Outcome Demand} : supply.drawn n = none →
      Settled supply c ⟨n, passed n, welcomed n ++ [r], [c]⟩ r

/-- Where a source stands, with the slot at which it waits, by what was done. -/
def Course (supply : Supply σ α) (c : Completion) (y : Account) :
    Source σ α → Option (Slot Unit Demand) → Prop
  | .checkpoint a rest, call => call = none ∧ ∃ n, supply.drawn n = some (a, rest) ∧
      y = ⟨n, passed n, welcomed n, []⟩
  | .push a rest, none => ∃ n, supply.drawn n = some (a, rest) ∧
      y = ⟨n, passed (n + 1), welcomed n, []⟩
  | .push a rest, some slot => ∃ n, supply.drawn n = some (a, rest) ∧
      y = ⟨n + 1, passed (n + 1), welcomed n ++ slot.result.toList, []⟩
  | .complete, none => ∃ n, supply.drawn n = none ∧ y = ⟨n, passed n, welcomed n, []⟩
  | .complete, some slot => ∃ n, supply.drawn n = none ∧
      y = ⟨n, passed n, welcomed n ++ slot.result.toList, [c]⟩
  | .settled r, call => call = none ∧ Settled supply c y r

section Course

variable {supply : Supply σ α} {c : Completion} {y : Account} {x : Standing}
  {s s' : Sourcing σ α} {m : Move α}

/-- A source that goes on draws the next value, or comes to its completion. -/
theorem course_draw {n : Nat} {st : σ} (hd : supply.drawn n = supply.draw st) :
    Course supply c ⟨n, passed n, welcomed n, []⟩ (Source.draw supply.draw st) none := by
  rw [Source.draw]
  rcases hs : supply.draw st with _ | ⟨a, rest⟩
  · exact ⟨n, hd.trans hs, rfl⟩
  · exact ⟨rfl, n, hd.trans hs, rfl⟩

/-- The answer takes a source on. -/
theorem course_told {source : Source σ α} {slot : Slot Unit Demand} {o : Outcome Demand}
    (h : Course supply c y source (some slot)) (ho : slot.result = some o) :
    Course supply c y (told supply.draw source o) none := by
  rcases source with ⟨a, rest⟩ | ⟨a, rest⟩ | _ | r
  · cases h.1
  · obtain ⟨n, hd, rfl⟩ := h
    rw [ho, Option.toList_some]
    by_cases hm : o = .ok .more
    · -- More is wanted, so the next value is drawn.
      subst hm
      rw [told, Source.next, ← welcomed_succ]
      exact course_draw (by rw [Supply.drawn, hd]; rfl)
    · have hn : told supply.draw (.push a rest) o = .settled o := by
        rcases o with f | _ | _
        · rfl
        · exact absurd rfl hm
        · rfl
      rw [hn]
      exact ⟨rfl, .dismissed hm⟩
  · obtain ⟨n, hd, rfl⟩ := h
    rw [ho, Option.toList_some]
    exact ⟨rfl, .completed hd⟩
  · cases h.1

/-- Whoever waits stands where it does at any slot with the same answer in it. -/
theorem Course.slot {source : Source σ α} {slot slot' : Slot Unit Demand}
    (h : Course supply c y source (some slot)) (hr : slot.result = slot'.result) :
    Course supply c y source (some slot') := by
  cases source with
  | checkpoint | settled => cases h.1
  | push | complete =>
    rw [Course, ← hr]
    exact h

/-- Only a source without a call is at its checkpoint, so who waits sees nothing. -/
theorem Course.seen_none {slot : Slot Unit Demand}
    (h : Course supply c y s.source (some slot)) : seen s (.moved .tacit) = none := by
  rw [seen]
  cases hs : s.source with
  | checkpoint a rest =>
    rw [hs] at h
    cases h.1
  | _ => rfl

/-- A step takes a source on in its course. -/
theorem Course.step (h : Course supply c y s.source s.call) (hk : Kept x s)
    (hs : Step supply.draw c s m s') :
    Course supply c (y.after ⟨.moved m, seen s (.moved m)⟩) s'.source s'.call := by
  cases hs with
  | @look a rest ha hsource =>
    rw [hsource] at h
    obtain ⟨hc, n, hd, rfl⟩ := h
    rw [seen, hsource, hc, Account.after_checked]
    rcases hx : s.cancelled with _ | _
    · rw [checkpoint, hx]
      exact ⟨n, hd, by rw [passed_succ]; rfl⟩
    · rw [checkpoint, hx]
      exact ⟨rfl, .cancelled hd⟩
  | @call e ha hc he =>
    rw [hc] at h
    change Course supply c (y.after ⟨.moved (.calls e), none⟩) s.source (some .new)
    rcases hsource : s.source with ⟨a, rest⟩ | ⟨a, rest⟩ | _ | r <;>
      rw [hsource] at h he <;> cases he
    · obtain ⟨n, hd, rfl⟩ := h
      rw [Account.after_value]
      exact ⟨n, hd, by rw [Slot.new, Option.toList_none, List.append_nil]⟩
    · obtain ⟨n, hd, rfl⟩ := h
      rw [Account.after_completion]
      exact ⟨n, hd, by rw [Slot.new, Option.toList_none, List.append_nil]; rfl⟩
  | @wait slot slot' w ha hc hp =>
    obtain ⟨hr, hg⟩ := Slot.poll_pending hp
    rw [hc] at h
    rw [y.after_mute rfl h.seen_none]
    exact h.slot (hr.trans hg.result.symm)
  | @take slot slot' w o ha hc hp =>
    have hu := hk.called.untaken slot hc
    rw [hc] at h
    rw [y.after_mute rfl h.seen_none]
    exact course_told h (Slot.poll_ready hp hu).1
  | @finish r ha hsource =>
    rw [y.after_mute rfl rfl]
    exact h

/-- The answer comes to a source that waits. -/
theorem Course.answer (h : Course supply c y s.source s.call) (hk : Kept x s)
    (hx : x.calling = true) (o : Outcome Demand) :
    Course supply c (y.after (⟨.answered o, none⟩ : Deed α)) (s.answer o).source
      (s.answer o).call := by
  have hcalled := hk.called
  rw [hx] at hcalled
  obtain ⟨slot, hc, -⟩ := hcalled.answer o
  have hr : slot.result = none := by
    have hn := hcalled.calling
    rw [hc] at hn
    exact Option.isNone_iff_eq_none.1 hn.symm
  have ho : (slot.complete o).1.result = some o := by
    rw [Slot.complete, Slot.takeWaker, hr, hcalled.untaken slot hc]
    rfl
  rw [Sourcing.answer, hc, Account.after_answered]
  rw [hc] at h
  change Course supply c _ s.source (some (slot.complete o).1)
  rcases hsource : s.source with ⟨a, rest⟩ | ⟨a, rest⟩ | _ | r <;> rw [hsource] at h
  · cases h.1
  · obtain ⟨n, hd, rfl⟩ := h
    exact ⟨n, hd, by rw [hr, ho, Option.toList_none, List.append_nil]; rfl⟩
  · obtain ⟨n, hd, rfl⟩ := h
    exact ⟨n, hd, by rw [hr, ho, Option.toList_none, List.append_nil]; rfl⟩
  · cases h.1

end Course

/-! ## What holds all along -/

/-- What holds of a source, by what was done. -/
structure Tale (supply : Supply σ α) (c : Completion) (t : List (Deed α)) (x : Standing)
    (s : Sourcing σ α) : Prop where
  kept : Kept x s
  course : Course supply c (account t) s.source s.call
  numbered : ∀ k a, (values (acts t))[k]? = some a → (supply.drawn k).map Prod.fst = some a
  cancelled : s.finished = false → (s.cancelled = true ↔ .cancelled ∈ acts t)
  ended : ∀ r, .moved (.ends r) ∈ acts t ↔ s.finished = true ∧ s.source = .settled r

/-- Which values were pushed behind one deed more. -/
theorem getElem?_values_snoc {t : List (Deed α)} {d : Deed α} {k : Nat} {a : α}
    (h : (values (acts (t ++ [d])))[k]? = some a) :
    (values (acts t))[k]? = some a ∨
      k = (values (acts t)).length ∧ d.act = .moved (.calls (.value a)) := by
  rw [acts_snoc, values_append] at h
  by_cases hd : ∃ v, d.act = .moved (.calls (.value v))
  · obtain ⟨v, hv⟩ := hd
    rw [hv] at h ⊢
    rcases getElem?_snoc.1 h with h | ⟨rfl, rfl⟩
    · exact .inl h
    · exact .inr ⟨rfl, rfl⟩
  · have hn : values [d.act] = [] := by
      rcases d with ⟨(_ | (v | c) | r) | o | _, _⟩
      case moved.calls.value => exact absurd ⟨v, rfl⟩ hd
      all_goals rfl
    rw [hn, List.append_nil] at h
    exact .inl h

namespace Tale

variable {supply : Supply σ α} {c : Completion} {t : List (Deed α)} {x : Standing}
  {s s' : Sourcing σ α} {m : Move α}

theorem new (supply : Supply σ α) (c : Completion) : Tale supply c [] .new (.new supply) where
  kept := kept_new supply
  course := course_draw rfl
  numbered _ _ hk := nomatch hk
  cancelled _ := ⟨nofun, nofun⟩
  ended _ := ⟨nofun, nofun⟩

/-- A source that pushes a value has drawn it with the next number; a checkpoint was passed
    before each value so far, and every value before was answered with more. -/
theorem pushes (h : Tale supply c t x s) {a : α}
    (hs : Step supply.draw c s (.calls (.value a)) s') :
    ∃ n rest, supply.drawn n = some (a, rest) ∧ account t = ⟨n, passed (n + 1), welcomed n, []⟩ := by
  have hd := h.course
  cases hs with
  | call ha hc he =>
    rcases hsource : s.source with _ | ⟨b, rest⟩ | _ | _ <;> rw [hsource] at he <;> cases he
    rw [hsource, hc] at hd
    obtain ⟨n, hd, hy⟩ := hd
    exact ⟨n, rest, hd, hy⟩

/-- A source that looks is at a checkpoint, and not over. -/
theorem looks (h : Tale supply c t x s) {o : Outcome Unit} (hs : Step supply.draw c s m s')
    (ho : seen s (.moved m) = some o) :
    o = .error Fault.cancelled ∧ .cancelled ∈ acts t ∨ o = .ok () ∧ .cancelled ∉ acts t := by
  have hrun : s.finished = false := by cases hs <;> exact And.left ‹s.Runs›
  rw [← h.cancelled hrun]
  have ho : o = s.checkpoint := by
    rcases m with _ | e | r
    · rw [seen] at ho
      cases hs : s.source <;> rw [hs] at ho <;> cases ho
      rfl
    · cases ho
    · cases ho
  rw [ho, checkpoint]
  cases s.cancelled <;> simp

theorem step (h : Tale supply c t x s) (hs : Step supply.draw c s m s') :
    Tale supply c (t ++ [⟨.moved m, seen s (.moved m)⟩]) (x.after (.moved m)) s' := by
  have hrun : s.finished = false := by cases hs <;> exact And.left ‹s.Runs›
  refine ⟨h.kept.step hs, ?_, fun k a hk => ?_, fun hf => ?_, fun r => ?_⟩
  · rw [account_snoc]
    exact h.course.step h.kept hs
  · rcases getElem?_values_snoc hk with hk | ⟨rfl, ha⟩
    · exact h.numbered k a hk
    · cases ha
      obtain ⟨n, rest, hd, hy⟩ := h.pushes hs
      rw [show (values (acts t)).length = n from congrArg Account.pushed hy, hd]
      rfl
  · have hc : s'.cancelled = s.cancelled := by cases hs <;> rfl
    rw [hc, h.cancelled hrun, acts_snoc]
    simp
  · have hn : .moved (.ends r) ∉ acts t := fun hr =>
      Bool.false_ne_true (hrun.symm.trans ((h.ended r).1 hr).1)
    rw [acts_snoc, List.mem_append, or_iff_right hn, List.mem_singleton]
    cases hs with
    | finish ha hsource => simp [hsource, eq_comm]
    | _ => simp [hrun]

theorem answer (h : Tale supply c t x s) (hx : x.calling = true) (o : Outcome Demand) :
    Tale supply c (t ++ [⟨.answered o, none⟩]) (x.after (α := α) (.answered o)) (s.answer o) := by
  have hf : (s.answer o).finished = s.finished ∧ (s.answer o).cancelled = s.cancelled := by
    rw [Sourcing.answer]
    cases s.call <;> exact ⟨rfl, rfl⟩
  obtain ⟨hf, hc⟩ := hf
  refine ⟨h.kept.answer o hx, ?_, fun k a hk => ?_, fun hn => ?_, fun r => ?_⟩
  · rw [account_snoc]
    exact h.course.answer h.kept hx o
  · rcases getElem?_values_snoc hk with hk | ⟨-, ha⟩
    · exact h.numbered k a hk
    · cases ha
  · rw [hc, h.cancelled (hf ▸ hn), acts_snoc]
    simp
  · rw [hf, Sourcing.source_answer, ← h.ended r, acts_snoc]
    simp

theorem cancel (h : Tale supply c t x s) :
    Tale supply c (t ++ [⟨.cancelled, none⟩]) (x.after (α := α) .cancelled) s.cancel := by
  have hs : s.cancel.finished = s.finished ∧ s.cancel.source = s.source ∧
      s.cancel.call = s.call ∧ (s.finished = false → s.cancel.cancelled = true) := by
    rw [Sourcing.cancel]
    split
    · rename_i hf
      exact ⟨rfl, rfl, rfl, fun hn => absurd (hf.symm.trans hn) Bool.false_ne_true.symm⟩
    · exact ⟨rfl, rfl, rfl, fun _ => rfl⟩
  obtain ⟨hf, hs, hc, hx⟩ := hs
  refine ⟨h.kept.cancel, ?_, fun k a hk => ?_, fun hn => ?_, fun r => ?_⟩
  · rw [account_snoc, (account t).after_mute rfl rfl, hs, hc]
    exact h.course
  · rcases getElem?_values_snoc hk with hk | ⟨-, ha⟩
    · exact h.numbered k a hk
    · cases ha
  · rw [hx (hf ▸ hn), acts_snoc]
    simp
  · rw [hf, hs, ← h.ended r, acts_snoc]
    simp

end Tale

section Run

variable {supply : Supply σ α} {c : Completion} {t : List (Deed α)}
  {e : Exposed (System.source supply c)}

/-- It holds all along every run. -/
theorem tale_run (h : Run (Watched supply c) (.new (System.source supply c)) t e) :
    Tale supply c t e.standing e.state := by
  refine h.invariant (P := fun t e => Tale supply c t e.standing e.state) (.new supply c) ?_
  intro t e d e' ih hs
  obtain ⟨hs⟩ := hs
  cases hs with
  | move hs => exact ih.step hs
  | answer o hx => exact ih.answer hx o
  | cancel => exact ih.cancel

/-- When a value is pushed, a checkpoint was passed before each value so far, and every value
    before was answered with more. -/
theorem account_pushing (h : Run (Watched supply c) (.new (System.source supply c)) t e)
    {t₁ t₂ : List (Deed α)} {d : Deed α} {a : α} (ht : t = t₁ ++ d :: t₂)
    (hd : d.act = .moved (.calls (.value a))) :
    ∃ n, account t₁ = ⟨n, passed (n + 1), welcomed n, []⟩ := by
  obtain ⟨e₁, e₂, h₁, ⟨hs⟩, -⟩ := h.split ht
  cases hd
  cases hs with
  | move hs =>
    obtain ⟨n, -, -, hy⟩ := (tale_run h₁).pushes hs
    exact ⟨n, hy⟩

/-- A checkpoint tells whether the source was cancelled by then. -/
theorem told_iff (h : Run (Watched supply c) (.new (System.source supply c)) t e)
    {t₁ t₂ : List (Deed α)} {d : Deed α} {o : Outcome Unit} (ht : t = t₁ ++ d :: t₂)
    (hd : d.told = some o) :
    o = .error Fault.cancelled ∧ .cancelled ∈ acts t₁ ∨ o = .ok () ∧ .cancelled ∉ acts t₁ := by
  obtain ⟨e₁, e₂, h₁, ⟨hs⟩, -⟩ := h.split ht
  cases hs with
  | move hs => exact (tale_run h₁).looks hs hd
  | answer | cancel => cases hd

end Run

/-! ## What is asked for -/

/-- So many values of a supply are asked for: there are so many, every one but the last was
    answered with more, and no checkpoint before one of them saw the cancellation. -/
structure Asked (supply : Supply σ α) (y : Account) (n : Nat) : Prop where
  drawn : ∀ k < n, ∃ v, supply.drawn k = some v
  welcome : ∀ k, k + 1 < n → y.answers[k]? = some (.ok .more)
  unseen : ∀ k < n, y.checks[k]? ≠ some (.error Fault.cancelled)

/-- All values of a supply were pushed, and every one was answered with more. -/
def Exhausted (supply : Supply σ α) (y : Account) : Prop :=
  supply.drawn y.pushed = none ∧ ∀ k < y.pushed, y.answers[k]? = some (.ok .more)

/-- What becomes of a source. -/
structure Resolves (y : Account) (r : Outcome Demand) : Prop where
  /-- If a value is answered with an end or a fault, that is the result. -/
  dismissed : ∀ k < y.pushed, ∀ o, y.answers[k]? = some o → o ≠ .ok .more → r = o
  /-- If a checkpoint sees the cancellation, that is the result. -/
  cancelled : .error Fault.cancelled ∈ y.checks → r = .error Fault.cancelled
  /-- Otherwise it is what the completion is answered with. -/
  completed : (∀ k < y.pushed, y.answers[k]? = some (.ok .more)) →
    .error Fault.cancelled ∉ y.checks → y.ends = [.finished] ∧ y.answers[y.pushed]? = some r

/-- What a source pushes, and what becomes of it. -/
structure Exact (supply : Supply σ α) (t : List (Deed α))
    (e : Exposed (System.source supply .finished)) : Prop where
  /-- It pushes the values of its supply, one after the other. -/
  values : ∀ k a, (values (acts t))[k]? = some a → (supply.drawn k).map Prod.fst = some a
  /-- A checkpoint is passed before each value, and every value before is answered with more. -/
  pushes : ∀ t₁ d t₂ a, t = t₁ ++ d :: t₂ → d.act = .moved (.calls (.value a)) →
    ∃ n, account t₁ = ⟨n, passed (n + 1), welcomed n, []⟩
  /-- A checkpoint sees the cancellation when it came before. -/
  sees : ∀ t₁ d t₂ o, t = t₁ ++ d :: t₂ → d.told = some o →
    o = .error Fault.cancelled ∧ .cancelled ∈ acts t₁ ∨ o = .ok () ∧ .cancelled ∉ acts t₁
  /-- What it pushes is asked for. -/
  asked : Asked supply (account t) (account t).pushed
  /-- All that is asked for is pushed, once the source waits for its downstream or is over. -/
  longest : e.standing.calling = true ∨ e.standing.finished = true →
    ∀ n, Asked supply (account t) n → n ≤ (account t).pushed
  /-- It sends nothing but the regular completion, when there is no value left. -/
  completes : (account t).ends = [] ∨
    (account t).ends = [.finished] ∧ Exhausted supply (account t)
  /-- The completion is sent when there is no value left, whether or not it was cancelled. -/
  exhausts : e.standing.calling = true ∨ e.standing.finished = true →
    Exhausted supply (account t) → (account t).ends = [.finished]
  /-- What becomes of it. -/
  resolved : ∀ r, .moved (.ends r) ∈ acts t → Resolves (account t) r
  /-- By itself it takes a few steps at most. -/
  soon : ∀ u s', Run (Step supply.draw .finished) e.state u s' → u.length ≤ 5
  /-- It stands still only when it waits for its downstream or is over. -/
  live : (∃ r, .moved (.ends r) ∈ acts t) ∨ e.standing.calling = true ∨
    ∃ m s', Step supply.draw .finished e.state m s'

section Rest

variable {supply : Supply σ α} {c : Completion} {y : Account} {x : Standing} {k n : Nat}
  {s s' : Sourcing σ α} {r : Outcome Demand} {source : Source σ α}
  {call : Option (Slot Unit Demand)}

/-- What stands in a list that begins with so many of the same. -/
theorem getElem?_replicate_of_le {β : Type} {b : β} {l : List β}
    (h : List.replicate n b <+: l) (hk : k < n) : l[k]? = some b := by
  obtain ⟨l', rfl⟩ := h
  rw [List.getElem?_append_left (by simpa using hk), List.getElem?_replicate_of_lt hk]

theorem not_mem_passed (n : Nat) : .error Fault.cancelled ∉ passed n := fun h =>
  nomatch List.eq_of_mem_replicate h

/-- A checkpoint was passed before every value that was pushed, and every one but the last was
    answered with more. -/
structure Account.Smooth (y : Account) : Prop where
  welcome : ∀ k, k + 1 < y.pushed → y.answers[k]? = some (.ok .more)
  passed : ∀ k < y.pushed, y.checks[k]? = some (.ok ())

theorem Account.smooth {n m : Nat} (hn : y.pushed ≤ n + 1) (ha : welcomed n <+: y.answers)
    (hm : y.pushed ≤ m) (hc : Sourcing.passed m <+: y.checks) : y.Smooth where
  welcome _ hk := getElem?_replicate_of_le ha (by omega)
  passed _ hk := getElem?_replicate_of_le hc (by omega)

theorem Settled.smooth (h : Settled supply c y r) : y.Smooth := by
  cases h with
  | dismissed =>
    exact Account.smooth (le_refl _) (List.prefix_append ..) (le_refl _) List.prefix_rfl
  | cancelled =>
    exact Account.smooth (Nat.le_succ _) List.prefix_rfl (le_refl _) (List.prefix_append ..)
  | completed =>
    exact Account.smooth (Nat.le_succ _) (List.prefix_append ..) (le_refl _) List.prefix_rfl

theorem Course.smooth (h : Course supply c y source call) : y.Smooth := by
  rcases source with ⟨a, rest⟩ | ⟨a, rest⟩ | _ | r
  · obtain ⟨-, n, -, rfl⟩ := h
    exact Account.smooth (Nat.le_succ _) List.prefix_rfl (le_refl _) List.prefix_rfl
  · rcases call with _ | slot
    · obtain ⟨n, -, rfl⟩ := h
      exact Account.smooth (Nat.le_succ _) List.prefix_rfl (Nat.le_succ _) List.prefix_rfl
    · obtain ⟨n, -, rfl⟩ := h
      exact Account.smooth (le_refl _) (List.prefix_append ..) (le_refl _) List.prefix_rfl
  · rcases call with _ | slot
    · obtain ⟨n, -, rfl⟩ := h
      exact Account.smooth (Nat.le_succ _) List.prefix_rfl (le_refl _) List.prefix_rfl
    · obtain ⟨n, -, rfl⟩ := h
      exact Account.smooth (Nat.le_succ _) (List.prefix_append ..) (le_refl _) List.prefix_rfl
  · exact h.2.smooth

/-- What keeps a source from pushing one value more: there is none, the last one was not answered
    with more, or a checkpoint saw the cancellation. -/
inductive Barred (supply : Supply σ α) (y : Account) : Prop
  | exhausted : supply.drawn y.pushed = none → Barred supply y
  | dismissed {n : Nat} : y.pushed = n + 1 → y.answers[n]? ≠ some (.ok .more) → Barred supply y
  | cancelled : y.checks[y.pushed]? = some (.error Fault.cancelled) → Barred supply y

/-- No more is asked for than what a source has pushed that is kept from more. -/
theorem Barred.longest (h : Barred supply y) (ha : Asked supply y n) : n ≤ y.pushed := by
  by_contra hn
  rw [Nat.not_le] at hn
  cases h with
  | exhausted hd =>
    obtain ⟨v, hv⟩ := ha.drawn _ hn
    cases hd.symm.trans hv
  | dismissed hp hm => exact hm (ha.welcome _ (by omega))
  | cancelled hc => exact ha.unseen _ hn hc

/-- What stands behind so many of the same. -/
theorem getElem?_replicate_append {β : Type} (b : β) (n : Nat) (l : List β) :
    (List.replicate n b ++ l)[n]? = l[0]? := by
  rw [List.getElem?_append_right (by simp), List.length_replicate, Nat.sub_self]

theorem Settled.barred (h : Settled supply c y r) : Barred supply y := by
  cases h with
  | dismissed hr =>
    refine .dismissed rfl ?_
    rw [getElem?_replicate_append]
    exact fun hn => hr (Option.some.inj hn)
  | cancelled =>
    refine .cancelled ?_
    rw [getElem?_replicate_append]
    rfl
  | completed hd => exact .exhausted hd

/-- A source that waits for its downstream is kept from more. -/
theorem Course.barred {slot : Slot Unit Demand} (h : Course supply c y source (some slot))
    (hr : slot.result = none) : Barred supply y := by
  rcases source with ⟨a, rest⟩ | ⟨a, rest⟩ | _ | r
  · cases h.1
  · obtain ⟨n, -, rfl⟩ := h
    refine .dismissed rfl ?_
    rw [getElem?_replicate_append, hr]
    exact nofun
  · obtain ⟨n, hd, rfl⟩ := h
    exact .exhausted hd
  · cases h.1

/-- What becomes of a source that has come to its end. -/
theorem Settled.outcome (h : Settled supply .finished y r) : Resolves y r := by
  cases h with
  | @dismissed n _ hr =>
    refine ⟨fun k hk o ho hm => ?_, fun hn => absurd hn (not_mem_passed _), fun hm => ?_⟩
    · rcases Nat.lt_succ_iff_lt_or_eq.1 hk with hk | rfl
      · cases (getElem?_replicate_of_le (List.prefix_append ..) hk).symm.trans ho
        exact absurd rfl hm
      · rw [getElem?_replicate_append] at ho
        exact Option.some.inj ho
    · have hm := hm n (Nat.lt_succ_self n)
      rw [getElem?_replicate_append] at hm
      exact absurd (Option.some.inj hm) hr
  | @cancelled n v hd =>
    refine ⟨fun k hk o ho hm => ?_, fun _ => rfl, fun _ hn => ?_⟩
    · cases (getElem?_replicate_of_le List.prefix_rfl hk).symm.trans ho
      exact absurd rfl hm
    · exact absurd (List.mem_append_right _ (List.mem_singleton_self _)) hn
  | @completed n _ hd =>
    refine ⟨fun k hk o ho hm => ?_, fun hn => absurd hn (not_mem_passed _), fun _ _ => ⟨rfl, ?_⟩⟩
    · cases (getElem?_replicate_of_le (List.prefix_append ..) hk).symm.trans ho
      exact absurd rfl hm
    · exact getElem?_replicate_append ..

/-- A source sends its completion when there is no value left. -/
theorem Settled.completes (h : Settled supply c y r) :
    y.ends = [] ∨ y.ends = [c] ∧ Exhausted supply y := by
  cases h with
  | dismissed | cancelled => exact .inl rfl
  | completed hd =>
    exact .inr ⟨rfl, hd, fun _ hk => getElem?_replicate_of_le (List.prefix_append ..) hk⟩

theorem Course.completes (h : Course supply c y source call) :
    y.ends = [] ∨ y.ends = [c] ∧ Exhausted supply y := by
  rcases source with ⟨a, rest⟩ | ⟨a, rest⟩ | _ | r
  · obtain ⟨-, n, -, rfl⟩ := h
    exact .inl rfl
  · rcases call with _ | slot <;> obtain ⟨n, -, rfl⟩ := h <;> exact .inl rfl
  · rcases call with _ | slot
    · obtain ⟨n, -, rfl⟩ := h
      exact .inl rfl
    · obtain ⟨n, hd, rfl⟩ := h
      exact .inr ⟨rfl, hd, fun _ hk => getElem?_replicate_of_le (List.prefix_append ..) hk⟩
  · exact h.2.completes

/-- A source that is over has sent its completion if no value was left. -/
theorem Settled.exhausts (h : Settled supply c y r) (hx : Exhausted supply y) : y.ends = [c] := by
  cases h with
  | @dismissed n _ hr =>
    have hm := hx.2 n (Nat.lt_succ_self n)
    rw [getElem?_replicate_append] at hm
    exact absurd (Option.some.inj hm) hr
  | cancelled hd => cases hx.1.symm.trans hd
  | completed => rfl

/-- A source that waits for its downstream has sent its completion if no value is left. -/
theorem Course.exhausts {slot : Slot Unit Demand} (h : Course supply c y source (some slot))
    (hr : slot.result = none) (hx : Exhausted supply y) : y.ends = [c] := by
  rcases source with ⟨a, rest⟩ | ⟨a, rest⟩ | _ | r
  · cases h.1
  · obtain ⟨n, -, rfl⟩ := h
    have hm := hx.2 n (Nat.lt_succ_self n)
    rw [getElem?_replicate_append, hr] at hm
    cases hm
  · obtain ⟨n, -, rfl⟩ := h
    rfl
  · cases h.1

end Rest

/-! ## By itself a source soon comes to rest -/

/-- A bound on the steps that a source without a call takes before it waits for its downstream, or
    is over. -/
def stepsAhead (finished : Bool) : Source σ α → Nat
  | .checkpoint _ _ => 4
  | .push _ _ | .complete => 3
  | .settled _ => if finished then 0 else 1

/-- A bound on the steps that a source takes before it waits for its downstream, or is over. -/
def effort (s : Sourcing σ α) : Nat :=
  match s.call with
  | some slot => if slot.result.isSome then 5 else if s.awake then 1 else 0
  | none => stepsAhead s.finished s.source

section Effort

variable {supply : Supply σ α} {c : Completion} {x : Standing} {s s' : Sourcing σ α}
  {m : Move α}

theorem stepsAhead_le (finished : Bool) (source : Source σ α) :
    stepsAhead finished source ≤ 4 := by
  rw [stepsAhead.eq_def]
  split
  · exact le_refl _
  · decide
  · decide
  · split <;> decide

theorem effort_le (s : Sourcing σ α) : effort s ≤ 5 := by
  rw [effort]
  split
  · split
    · exact le_refl _
    · split <;> decide
  · exact Nat.le_succ_of_le (stepsAhead_le ..)

/-- Every step of a source takes it nearer to where it rests. -/
theorem effort_step (hk : Kept x s) (hs : Step supply.draw c s m s') : effort s' < effort s := by
  have hp := hk.place
  cases hs with
  | @look a rest ha hsource =>
    rw [hsource] at hp
    have hc : s.call = none := by simpa using hp.1
    rw [effort, effort, hc, hsource, checkpoint]
    rcases s.cancelled with _ | _
    · exact Nat.lt_succ_self 3
    · simp [Source.next, stepsAhead, ha.1]
  | @call e ha hc he =>
    rw [effort, effort, hc]
    rcases hsource : s.source with _ | _ | _ | _ <;> rw [hsource] at he <;> cases he <;>
      simp [Slot.new, ha.2, stepsAhead]
  | @wait slot slot' w ha hc hp =>
    obtain ⟨hr, hg⟩ := Slot.poll_pending hp
    simp [effort, hc, hr, hg.result, ha.2]
  | @take slot slot' w o ha hc hp =>
    have ho := (Slot.poll_ready hp (hk.called.untaken slot hc)).1
    rw [effort, effort, hc]
    simp only [ho, Option.isSome_some, if_true]
    exact Nat.lt_succ_of_le (stepsAhead_le ..)
  | @finish r ha hsource =>
    rw [hsource] at hp
    have hc : s.call = none := by simpa using hp.1
    simp [effort, hc, hsource, stepsAhead, ha.1]

/-- By itself a source takes a few steps at most. -/
theorem length_run_le (hk : Kept x s) {u : List (Move α)} (h : Run (Step supply.draw c) s u s') :
    u.length ≤ 5 := by
  have he : ∃ x', Kept x' s' ∧ u.length + effort s' ≤ effort s := by
    refine h.invariant (P := fun u s' => ∃ x', Kept x' s' ∧ u.length + effort s' ≤ effort s)
      ⟨x, hk, by simp⟩ ?_
    rintro u s₁ m s₂ ⟨x', hk, hle⟩ hs
    have hlt := effort_step hk hs
    refine ⟨_, hk.step hs, ?_⟩
    rw [List.length_append, List.length_singleton]
    omega
  obtain ⟨-, -, hle⟩ := he
  have := effort_le s
  omega

end Effort

/-! ## What a source pushes -/

section Exact

variable {supply : Supply σ α} {t : List (Deed α)} {e : Exposed (System.source supply .finished)}

/-- A source that waits for its downstream has no answer, and one that is over is settled. -/
theorem course_rest (h : Run (Watched supply .finished) (.new (System.source supply .finished)) t e)
    (hr : e.standing.calling = true ∨ e.standing.finished = true) :
    (∃ source slot, Course supply .finished (account t) source (some slot) ∧ slot.result = none) ∨
      ∃ r, Settled supply .finished (account t) r := by
  have ht := tale_run h
  have hc := ht.course
  rcases hr with hx | hf
  · have hn := ht.kept.called.calling
    rw [hx] at hn
    cases hs : Sourcing.call e.state with
    | none =>
      rw [hs] at hn
      cases hn
    | some slot =>
      rw [hs] at hn hc
      exact .inl ⟨_, slot, hc, Option.isNone_iff_eq_none.1 hn.symm⟩
  · rcases (finished_iff (Watched.run h)).1 hf with hn | ⟨r, hr⟩
    · cases hn
    · rw [((ht.ended r).1 hr).2] at hc
      exact .inr ⟨r, hc.2⟩

/-- A source pushes exactly what is asked for of its supply, and its completion if nothing is left
    behind it. -/
theorem pushes_exactly
    (h : Run (Watched supply .finished) (.new (System.source supply .finished)) t e) :
    Exact supply t e := by
  have ht := tale_run h
  have hs := ht.course.smooth
  refine ⟨ht.numbered, fun _ _ _ _ => account_pushing h, fun _ _ _ _ => told_iff h,
    ⟨fun k hk => ?_, hs.welcome, fun k hk => ?_⟩, fun hr n ha => ?_, ht.course.completes,
    fun hr hx => ?_, fun r hr => ?_, fun u s' hu => length_run_le ht.kept hu, ?_⟩
  · have hd := ht.numbered k _ (List.getElem?_eq_getElem hk)
    rcases hv : supply.drawn k with _ | v
    · rw [hv] at hd
      cases hd
    · exact ⟨v, rfl⟩
  · rw [hs.passed k hk]
    exact nofun
  · rcases course_rest h hr with ⟨source, slot, hc, hn⟩ | ⟨r, hc⟩
    · exact (hc.barred hn).longest ha
    · exact hc.barred.longest ha
  · rcases course_rest h hr with ⟨source, slot, hc, hn⟩ | ⟨r, hc⟩
    · exact hc.exhausts hn hx
    · exact hc.exhausts hx
  · have hc := ht.course
    rw [((ht.ended r).1 hr).2] at hc
    exact hc.2.outcome
  · rcases ht.kept.live supply.draw .finished with hf | hx | hm
    · exact .inl (((finished_iff (Watched.run h)).1 hf).resolve_left nofun)
    · exact .inr (.inl hx)
    · exact .inr (.inr hm)

/-- A source without end that is cancelled while its first value is not yet answered pushes no
    second one, and is over with the cancellation. -/
theorem pushes_exactly_until_cancelled :
    ∃ (t : List (Deed Nat)) (e : Exposed (System.source (.ofFn id) .finished)),
      Run (Watched (.ofFn id) .finished) (.new (System.source (.ofFn id) .finished)) t e ∧
      values (acts t) = [0] ∧ .moved (.ends (.error Fault.cancelled)) ∈ acts t ∧
      Exact (.ofFn id) t e := by
  have h₁ : Run Exposed.Step (.new (System.source (.ofFn id) .finished))
      [.moved .tacit, .moved (.calls (.value 0))] _ :=
    (Run.nil.snoc (.move (.look ⟨rfl, rfl⟩ rfl))).snoc (.move (.call ⟨rfl, rfl⟩ rfl rfl))
  have h₂ := (h₁.snoc .cancel).snoc (.answer (.ok .more) rfl)
  have h₃ := (h₂.snoc (.move (.take ⟨rfl, rfl⟩ rfl rfl))).snoc (.move (.look ⟨rfl, rfl⟩ rfl))
  obtain ⟨t, ht, hr⟩ := Watched.exists_run (h₃.snoc (.move (.finish ⟨rfl, rfl⟩ rfl)))
  exact ⟨t, _, hr, by rw [ht]; rfl, by rw [ht]; simp, pushes_exactly hr⟩

end Exact

end ResumeOnce.Network.Sourcing

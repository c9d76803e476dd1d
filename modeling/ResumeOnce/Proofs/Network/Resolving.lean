import ResumeOnce.Proofs.Network.Fallible
import ResumeOnce.Proofs.Network.Plan

/-!
# What a combination resolves to

When a combination ends, it has awaited each of its feeders, be it because its fold came to
something or because its fold failed. The completion goes four ways: the machine keeps it, the last
state tells of it, the downstream is called with it, and the result is made of it. They all agree,
whatever has ended the fold.

* `Rejected`: the downstream has answered a completion with a fault;
* `Verdict`, `Course`: what the drive has learnt by then;
* `Headed`, `headed_run`: it is so in every run;
* `Resolves`, `resolves`: what is known of a plain combination that ends.
-/

namespace ResumeOnce.Network

open Streams

/-! ## The answer to a completion -/

section Words

variable {α : Type} {ws : List (Word α)} {m : Mood} {c : Completion} {o : Outcome Demand}

/-- The downstream has answered a completion with a fault. -/
def Rejected (t : List (Act α)) (f : Fault) : Prop :=
  ∃ ws c ws', words t = ws ++ .event (.completion c) :: .answer (.error f) :: ws'

/-- What was said when a completion was sent: the completion comes last, or the answer to it. -/
def Replied (c : Completion) (ws : List (Word α)) : Option (Outcome Demand) → Prop
  | none => ∃ ws', ws = ws' ++ [.event (.completion c)]
  | some o => ∃ ws', ws = ws' ++ [.event (.completion c), .answer o]

/-- Behind the answer to a completion nothing is said. -/
theorem silent_of_completion (h : Run Mood.Step .free ws m) {ws₁ ws₂ : List (Word α)}
    (hw : ws = ws₁ ++ .event (.completion c) :: .answer o :: ws₂) : ws₂ = [] := by
  obtain ⟨_, m₁, -, hs, h₁⟩ := h.split hw
  cases hs with
  | event e =>
    obtain ⟨m₀, m₂, h₀, hs, h₂⟩ := h₁.split (List.nil_append _).symm
    obtain rfl := h₀.eq_of_nil
    cases hs with
    | answer o hx => exact (Mood.silent (by simp [Mood.behind, Mood.hears]) rfl h₂).1

/-- The answer to a completion is the only one. -/
theorem rejected_iff {t : List (Act α)} (h : Run Mood.Step .free (words t) m)
    (hr : Replied c (words t) (some o)) {f : Fault} : Rejected t f ↔ o = .error f := by
  obtain ⟨ws', hw⟩ := hr
  constructor
  · rintro ⟨ws, c', ws₂, hx⟩
    obtain rfl := silent_of_completion h hx
    have hl : (words t).getLast? = some (.answer o) := by simp [hw]
    have hl' : (words t).getLast? = some (.answer (.error f)) := by simp [hx]
    cases hl.symm.trans hl'
    rfl
  · rintro rfl
    exact ⟨ws', c, [], hw⟩

/-- Whoever was told to stop has sent no completion that could have been rejected. -/
theorem not_rejected {t : List (Act α)} (hn : completions t = []) (f : Fault) :
    ¬Rejected t f := by
  rintro ⟨ws, c, ws', hw⟩
  simp [completions, called, hw, Word.event?] at hn

end Words

/-! ## The drive -/

variable {C : Combiner} {S : (i : C.Feeder) → System (C.Input i)} {order : List C.Feeder}
  {b : Buffering} {m : Mood} {ws : List (Word C.Output)} {fault : Option Fault}

/-- What a drive has learnt of the end: the completion is that of the machine, and was delivered,
    unless the downstream had told the fold to stop. -/
structure Verdict (fault : Option Fault) (machine : Machine C.State) (ws : List (Word C.Output))
    (delivered : Outcome Demand) (c : Completion) : Prop where
  unfailed : fault = none
  completion : machine.completion.getD .finished = c
  delivered : machine.downstreamEnded = true ∧ delivered = .ok .done ∨
    machine.downstreamEnded = false ∧ Replied c ws (some delivered)

/-- What holds according to what a drive is about to do: the feeders before the one that it awaits
    are over. -/
def Course (order : List C.Feeder) (fault : Option Fault) (machine : Machine C.State)
    (ws : List (Word C.Output)) (result : C.Feeder → Slot Agent Demand) : Drive → Prop
  | .awaitFold | .push _ => True
  | .cancelFeeder k f | .awaitCancelled k f =>
    fault = some f ∧ ∀ i ∈ order.take k, (result i).isComplete = true
  | .awaitFeeder k delivered c => Verdict fault machine ws delivered c ∧
      ∀ i ∈ order.take k, (result i).isComplete = true
  | .settled r => ((∃ f, fault = some f ∧ r = .error f) ∨
      ∃ delivered c, Verdict fault machine ws delivered c ∧ r = Drive.conclusion delivered c) ∧
      ∀ i ∈ order, (result i).isComplete = true

section Course

variable {machine : Machine C.State} {result result' : C.Feeder → Slot Agent Demand} {k : Nat}

theorem Course.mono {d : Drive} (h : Course order fault machine ws result d)
    (hr : ∀ i, (result i).isComplete = true → (result' i).isComplete = true) :
    Course order fault machine ws result' d := by
  cases d with
  | awaitFold | push => trivial
  | cancelFeeder | awaitCancelled | awaitFeeder | settled =>
    exact ⟨h.1, fun i hi => hr i (h.2 i hi)⟩

theorem course_awaitFrom {delivered : Outcome Demand} {c : Completion}
    (hv : Verdict fault machine ws delivered c)
    (h : ∀ i ∈ order.take k, (result i).isComplete = true) :
    Course order fault machine ws result (.awaitFrom order.length k delivered c) := by
  rw [Drive.awaitFrom]
  split
  · exact ⟨hv, h⟩
  · rename_i hk
    rw [List.take_of_length_le (Nat.le_of_not_lt hk)] at h
    exact ⟨.inr ⟨_, _, hv, rfl⟩, h⟩

theorem course_cancelFrom {f : Fault} (hf : fault = some f)
    (h : ∀ i ∈ order.take k, (result i).isComplete = true) :
    Course order fault machine ws result (.cancelFrom order.length k f) := by
  rw [Drive.cancelFrom]
  split
  · exact ⟨hf, h⟩
  · rename_i hk
    rw [List.take_of_length_le (Nat.le_of_not_lt hk)] at h
    exact ⟨.inl ⟨f, hf, rfl⟩, h⟩

/-- Who finds that the feeder it awaits is over goes on with the next one. -/
theorem Course.passed {d : Drive} (h : Course order fault machine ws result d)
    (hd : d.awaits = some k) {i : C.Feeder} (hk : order[k]? = some i)
    (hi : (result i).isComplete = true) :
    Course order fault machine ws result (d.passed order.length) := by
  cases d with
  | awaitFold | push | settled | cancelFeeder => simp [Drive.awaits] at hd
  | awaitCancelled k' f =>
    obtain rfl := Option.some.inj hd
    exact course_cancelFrom h.1 (complete_take_succ h.2 hk hi)
  | awaitFeeder k' delivered c =>
    obtain rfl := Option.some.inj hd
    exact course_awaitFrom h.1 (complete_take_succ h.2 hk hi)

end Course

/-- What holds of a combination, given what was said and the fault of its fold. -/
structure Headed (order : List C.Feeder) (ws : List (Word C.Output)) (s : Node C S)
    (fault : Option Fault) : Prop where
  left : ∀ f, s.final.result = some (.error f) → fault = some f
  replied : ∀ slot, s.outlet = some (.drive, slot) →
    ∃ c, s.drive = .push c ∧ Replied c ws slot.result
  course : Course order fault s.fold.machine ws s.result s.drive
  stopped : fault = none → s.final.isComplete = true → ∃ c, s.fold.consumer.turn = .stop c

namespace Headed

variable {s s' : Node C S}

theorem new (order : List C.Feeder) (S : (i : C.Feeder) → System (C.Input i)) (b : Buffering) :
    Headed order [] (Fallible.new C S b).node none where
  left _ h := nomatch h
  replied _ h := nomatch h
  course := trivial
  stopped _ h := nomatch h

/-- A step that leaves what the drive is about to do. -/
theorem keep (h : Headed order ws s fault) (hu : Brittle.Utters m ⟨s, fault.isSome⟩)
    (hk : s.final.isComplete = true → Node.Rested s s')
    (hc : s'.final.isComplete = true → s.final.isComplete = true)
    (hl : ∀ f, s'.final.result = some (.error f) → s.final.result = some (.error f))
    (ho : ∀ slot, s'.outlet = some (.drive, slot) →
      ∃ slot₀, s.outlet = some (.drive, slot₀) ∧ slot₀.result = slot.result)
    (hd : s'.drive = s.drive)
    (hr : ∀ i, (s.result i).isComplete = true → (s'.result i).isComplete = true) :
    Headed order ws s' fault where
  left f hf := h.left f (hl f hf)
  replied slot hs := by
    obtain ⟨slot₀, hs₀, he⟩ := ho slot hs
    rw [hd, ← he]
    exact h.replied slot₀ hs₀
  course := by
    rw [hd]
    rcases hf : s.final.isComplete with _ | _
    · rw [(hu.awaits hf).1]
      trivial
    · rw [(hk hf).machine]
      exact h.course.mono hr
  stopped hn hf := (h.stopped hn (hc hf)).imp fun c ht => (hk (hc hf)).turn.trans ht

/-- The fold is cancelled. -/
theorem cancelFold (h : Brittle.Utters m ⟨s, fault.isSome⟩ ∧ Headed order ws s fault) :
    Brittle.Utters m ⟨s.cancelFold, fault.isSome⟩ ∧ Headed order ws s.cancelFold fault :=
  ⟨h.1.cancelFold, Node.cancelFold_of (P := fun s => Headed order ws s fault) h.2
    (h.2.keep h.1 (fun hf => ⟨rfl, Combination.quit_turn h.1.sound, hf⟩) id (fun _ => id)
      (fun slot ho => ⟨slot, ho, rfl⟩) rfl fun _ => id)⟩

/-- The fold ends or fails, and leaves what it has come to. -/
theorem ends (h : Headed order ws s none) (hu : Brittle.Utters m ⟨s, false⟩)
    (hf : s.final.isComplete = false) {r : Outcome Final}
    (hr : ∀ f, r = .error f → fault = some f)
    (ht : fault = none → ∃ c, s.fold.consumer.turn = .stop c) :
    Headed order ws (({ s with final := (s.final.complete r).1 }.wake
      (s.final.complete r).2).sleep .fold) fault where
  left f hl := by
    obtain ⟨-, -, -, -, hx, -⟩ := hu.awaits hf
    have hn : s.final.result = none := by
      rw [Slot.isComplete, hx, Bool.or_false] at hf
      simpa using hf
    refine hr f ?_
    have he : (s.final.complete r).1.result = some r := by
      rw [Slot.complete, Slot.takeWaker, hn]
      rfl
    exact Option.some.inj (he.symm.trans hl)
  replied slot ho := by
    obtain ⟨c, hd, -⟩ := h.replied slot ho
    cases hd.symm.trans (hu.awaits hf).1
  course := by
    show Course order fault s.fold.machine ws s.result s.drive
    rw [(hu.awaits hf).1]
    trivial
  stopped hn _ := ht hn

/-- Who awaits the fold learns what it has come to, or that it failed. -/
theorem learn (h : Headed order ws s fault) (hu : Brittle.Utters m ⟨s, fault.isSome⟩)
    {slot : Slot Agent Final} {w : Option Agent} {o : Outcome Final} (hd : s.drive = .awaitFold)
    (hp : s.final.poll .drive = (slot, w, .ready o)) :
    Headed order ws
      { s with final := slot, drive := Drive.next order.length .awaitFold o } fault := by
  have hq := hu.stage
  simp only [hd, Brittle.Stage] at hq
  obtain ⟨-, -, ht, -, hr⟩ := hq
  have hc := Slot.isComplete_poll hp
  obtain ⟨hres, rfl⟩ := Slot.poll_ready hp ht
  refine ⟨fun _ hf => (by cases hf), fun slot ho => ?_, ?_,
    fun hn hf => h.stopped hn (hc.symm.trans hf)⟩
  · obtain ⟨c, hx, -⟩ := h.replied slot ho
    cases hd.symm.trans hx
  · rcases hr o hres with ⟨-, f, rfl⟩ | ⟨hn, rfl, -⟩
    · exact course_cancelFrom (h.left f hres) (by simp)
    · have hn : fault = none := by simpa using hn
      show Course _ _ _ _ _ (Drive.next order.length .awaitFold (.ok s.fold.final))
      rw [Drive.next]
      split
      · rename_i he
        exact course_awaitFrom ⟨hn, rfl, .inl ⟨he, rfl⟩⟩ (by simp)
      · trivial

/-- The completion is answered. -/
theorem completed (h : Headed order ws s fault) (hu : Brittle.Utters m ⟨s, fault.isSome⟩)
    {c : Completion} {slot slot' : Slot Agent Demand} {w : Option Agent} {o : Outcome Demand}
    (hd : s.drive = .push c) (ho : s.outlet = some (.drive, slot))
    (hp : slot.poll .drive = (slot', w, .ready o)) :
    Headed order ws
      { s with outlet := none, drive := Drive.next order.length (.push c) o } fault := by
  refine ⟨h.left, nofun, course_awaitFrom ?_ (by simp), h.stopped⟩
  have hq := hu.stage
  simp only [hd, Brittle.Stage] at hq
  obtain ⟨f, hf, he, hc, -⟩ := hq
  obtain ⟨-, hn, rfl⟩ := Brittle.final?_eq_some.1 hf
  obtain ⟨-, _, -, ha⟩ := hu.pushing ho
  obtain ⟨c', hx, hr⟩ := h.replied slot ho
  cases hd.symm.trans hx
  rw [(Slot.poll_ready hp ha.untaken).1] at hr
  exact ⟨by simpa using hn, hc, .inr ⟨he, hr⟩⟩

/-- The tasks of a combination and its feeders go on, and nobody calls the downstream. -/
theorem step (h : Headed order ws s fault) (hu : Brittle.Utters m ⟨s, fault.isSome⟩)
    {a : Move C.Output} (hs : Node.Step order s a s') (ha : ∀ e, a ≠ .calls e) :
    Headed order ws s' fault := by
  have hk := hs.rested hu.sound
  cases hs with
  | launch hr hs =>
    have hv : Brittle.Utters m ⟨{ s with started := true }, fault.isSome⟩ :=
      hu.alike ⟨id, rfl, rfl, rfl, rfl, rfl, rfl, rfl, fun _ => rfl, id⟩
    exact (Node.launch_of (P := fun s => Brittle.Utters m ⟨s, fault.isSome⟩ ∧
      Headed order ws s fault) ⟨hv, ⟨h.left, h.replied, h.course, h.stopped⟩⟩
      fun _ => cancelFold).2
  | push | complete => exact absurd rfl (ha _)
  | reply hr ho hp hs =>
    exact h.keep hu hk id (fun _ => id) (fun _ hn => nomatch hn) rfl fun _ => id
  | stop hr hc =>
    have hn : fault = none := by simpa using (hu.awaits hr.2.1).2.1
    subst hn
    exact h.ends hu hr.2.1 (fun _ hx => nomatch hx) fun _ => ⟨_, hc⟩
  | @wait a slot slot' w hr hs ho hp =>
    obtain ⟨hn, hg⟩ := Slot.poll_pending hp
    refine h.keep hu hk id (fun _ => id) ?_ rfl fun _ => id
    rintro _ ⟨⟩
    exact ⟨slot, ho, hn.trans hg.result.symm⟩
  | attend hr hs hd hp =>
    obtain ⟨-, hg⟩ := Slot.poll_pending hp
    exact h.keep hu hk (Slot.isComplete_poll hp).symm.trans
      (fun _ hx => nomatch hg.result.symm.trans hx) (fun slot ho => ⟨slot, ho, rfl⟩) rfl fun _ => id
  | learn hr hs hd hp => exact h.learn hu hd hp
  | completed hr hs hd ho hp => exact h.completed hu hd ho hp
  | dismiss hr hs hd hi =>
    have hc := h.course
    rw [hd] at hc
    refine ⟨h.left, fun slot ho => ?_, hc, h.stopped⟩
    obtain ⟨c, hx, -⟩ := h.replied slot ho
    cases hd.symm.trans hx
  | linger hr hs hd hi hp =>
    exact h.keep hu hk id (fun _ => id) (fun slot ho => ⟨slot, ho, rfl⟩) rfl fun j =>
      Slot.isComplete_update fun hc => (Slot.isComplete_poll hp).trans hc
  | leave hr hs hd hi hp =>
    refine ⟨h.left, fun slot ho => ?_, ?_, h.stopped⟩
    · obtain ⟨c, hx, -⟩ := h.replied slot ho
      rw [hx] at hd
      cases hd
    · exact (h.course.passed hd hi (Slot.isComplete_ready hp)).mono fun j =>
        Slot.isComplete_update fun hc => (Slot.isComplete_poll hp).trans hc
  | release hs hf =>
    exact h.keep hu hk id (fun _ => id) (fun slot ho => ⟨slot, ho, rfl⟩) rfl fun j =>
      Slot.isComplete_update fun _ => Slot.isComplete_complete ..
  | _ => exact h.keep hu hk id (fun _ => id) (fun slot ho => ⟨slot, ho, rfl⟩) rfl fun _ => id

/-- The downstream is called with a value, or with the completion. -/
theorem calls (h : Headed order ws s fault) (hu : Brittle.Utters m ⟨s, fault.isSome⟩)
    {e : Event C.Output} (hs : Node.Step order s (.calls e) s') :
    Headed order (ws ++ [.event e]) s' fault := by
  cases hs with
  | push hr ho hs =>
    have hd := (hu.awaits hr.2.1).1
    refine ⟨h.left, nofun, ?_, fun _ hf => nomatch hf.symm.trans hr.2.1⟩
    show Course order fault _ _ s.result s.drive
    rw [hd]
    trivial
  | @complete c hr hs hd ho =>
    refine ⟨h.left, ?_, ?_, h.stopped⟩
    · rintro _ ⟨⟩
      exact ⟨c, hd, ws, rfl⟩
    · show Course order fault s.fold.machine _ s.result s.drive
      rw [hd]
      trivial

/-- The downstream answers. -/
theorem answer (h : Headed order ws s fault) (hu : Brittle.Utters m ⟨s, fault.isSome⟩)
    (hm : m.calling = true) (o : Outcome Demand) :
    Headed order (ws ++ [.answer o]) (s.answer o) fault := by
  have hp := hu.spoken
  simp only at hp
  rcases ho : s.outlet with _ | ⟨a, slot⟩
  · -- Whoever has nothing to answer does not answer.
    rw [ho] at hp
    generalize s.fold.machine.downstreamEnded = ended at hp
    cases hp with
    | free hx | quit hx | closed c hx =>
      rw [hx] at hm
      cases hm
  · rw [Node.answer, ho]
    have hg := hu.stage
    refine ⟨h.left, ?_, ?_, h.stopped⟩
    · rintro _ ⟨⟩
      obtain ⟨c, hd, hr⟩ := h.replied slot ho
      refine ⟨c, hd, ?_⟩
      obtain ⟨-, c', -, hq⟩ := hu.pushing ho
      have hmood := hq.mood
      rw [Mood.upon] at hmood
      split at hmood
      · rename_i hn
        rw [hn] at hr
        obtain ⟨ws', rfl⟩ := hr
        rw [Slot.complete, Slot.takeWaker, hn]
        exact ⟨ws', by simp⟩
      · rw [hmood, Mood.calling_hears] at hm
        cases hm
    · have hc := h.course
      show Course order fault s.fold.machine _ s.result s.drive
      revert hc hg
      cases hd : s.drive with
      | awaitFold | push => exact fun _ _ => trivial
      | cancelFeeder | awaitCancelled => exact fun _ hc => hc
      | awaitFeeder k delivered c =>
        rintro ⟨-, hn, -⟩
        cases ho.symm.trans hn
      | settled r =>
        rintro (⟨hb, -⟩ | ⟨-, hn, -⟩) hc
        · refine ⟨hc.1.imp_right ?_, hc.2⟩
          rintro ⟨_, _, hv, -⟩
          simp [hv.unfailed] at hb
        · cases ho.symm.trans hn

end Headed

namespace Fallible

variable {s s' : Fallible C S} {t : List (Act C.Output)} {x : Standing}

theorem headed_run (hC : C.Remembers)
    (h : Run Exposed.Step (.new (System.fallible C S order b)) t ⟨x, s⟩) :
    Headed order (words t) s.node s.fault := by
  refine (h.invariant (P := fun t e => Run Exposed.Step (.new (System.fallible C S order b)) t e ∧
    Headed order (words t) e.state.node e.state.fault) ⟨.nil, .new order S b⟩ ?_).2
  rintro t e a e' ⟨hr, hh⟩ hs
  refine ⟨hr.snoc hs, ?_⟩
  obtain ⟨m, -, hx, -, hu⟩ := (voice hC S order b).run hr
  cases hs with
  | @move x s s' a hs =>
    cases hs with
    | work hs =>
      cases a with
      | tacit | ends =>
        rw [words_mute t rfl]
        exact hh.step hu hs (by simp)
      | calls e => exact words_append t _ ▸ hh.calls hu hs
    | fail f hs hf =>
      rw [words_mute t rfl]
      have hn : s.fault = none := by simpa [brittle] using (hu.awaits hf).2.1
      simp only [brittle, hn] at hh hu
      exact hh.ends hu hf (fun _ hx => by cases hx; rfl) nofun
    | forget r o hb =>
      rw [words_mute t rfl]
      exact ⟨hh.left, hh.replied, hh.course, hh.stopped⟩
  | answer o hc => exact words_append t _ ▸ hh.answer hu (hx.symm.trans hc) o
  | @cancel x s =>
    rw [words_mute t rfl]
    have hv : Brittle.Utters m ⟨{ s.node with cancelled := true }, s.fault.isSome⟩ :=
      hu.alike ⟨id, rfl, rfl, rfl, rfl, rfl, rfl, rfl, id, id⟩
    exact (Node.cancel_of (P := fun n => Brittle.Utters m ⟨n, s.fault.isSome⟩ ∧
      Headed order (words t) n s.fault) ⟨hu, hh⟩
      ⟨hv, ⟨hh.left, hh.replied, hh.course, hh.stopped⟩⟩ fun _ => Headed.cancelFold).2

/-! ## What a plain combination resolves to -/

/-- The completion that a plain combination comes to when its fold has not failed, and the result
    that is made of it. -/
structure Agrees (p : Plain) (b : Buffering) {S : (i : p.combiner.Feeder) →
    System (p.combiner.Input i)} (t : List (Act p.combiner.Output)) (s : Fallible p.combiner S)
    (r : Outcome Demand) (T : List (Seen p.combiner)) (c : Completion) : Prop where
  /-- The fold went through that, and was finalized with the completion, once. -/
  folded : Folded b T t s
  finalized : finalizations T = [c]
  /-- The machine keeps it, and its last state tells of it. -/
  kept : s.node.fold.machine.completion = some c
  current : s.node.fold.machine.current = p.terminal c
  /-- It is pushed, once, unless the downstream has told the fold to stop. -/
  sent : ¬Dismissed t → completions t = [c]
  unsent : Dismissed t → completions t = []
  /-- The result is made of it, unless the downstream has answered it with a fault. -/
  done : r = .ok .done ↔ c = .finished ∧ ∀ f, ¬Rejected t f
  rejected : ∀ f, Rejected t f → r = .error f
  failed : ∀ f, c = .failure f → (∀ g, ¬Rejected t g) → r = .error f

/-- What is known of a plain combination that is about to end, behind a run. -/
structure Resolves (p : Plain) (b : Buffering) {S : (i : p.combiner.Feeder) →
    System (p.combiner.Input i)} (t : List (Act p.combiner.Output)) (s : Fallible p.combiner S)
    (r : Outcome Demand) : Prop where
  /-- Every feeder is over, and has left its result. -/
  gone : ∀ i, (s.node.result i).isComplete = true ∧
    ∃ y, Reaches (S i) y (s.node.feeder i) ∧ y.finished = true
  /-- A fold that has failed makes the result, and no completion is pushed. -/
  broken : ∀ f, s.fault = some f → r = .error f ∧ completions t = []
  agrees : s.fault = none → ∃ T c, Agrees p b t s r T c

/-- A completion that was answered was sent, and is the only one. -/
theorem completions_of_replied {α : Type} {m : Mood} {t : List (Act α)} {c : Completion}
    {o : Outcome Demand} (h : Run Mood.Step .free (words t) m)
    (hr : Replied c (words t) (some o)) : completions t = [c] ∧ m.completion? = some c := by
  obtain ⟨ws', hw⟩ := hr
  have hc := completions_of_run h
  have hm : c ∈ completions t := by simp [completions, called, hw, Word.event?]
  rw [hc, Option.mem_toList] at hm
  rw [hc, hm]
  exact ⟨rfl, rfl⟩

variable {r : Outcome Demand}

/-- The drive comes to its end, and all feeders are over. -/
theorem settles (hC : C.Remembers)
    (h : Run Exposed.Step (.new (System.fallible C S order b)) t ⟨x, s⟩)
    (hs : Step order s (.ends r) s') : s.node.drive = .settled r ∧
      ((∃ f, s.fault = some f ∧ r = .error f) ∨ ∃ delivered c,
        Verdict s.fault s.node.fold.machine (words t) delivered c ∧
          r = Drive.conclusion delivered c) ∧
      ∀ i ∈ order, (s.node.result i).isComplete = true := by
  cases hs with
  | work hs =>
    cases hs with
    | finish hr hs hd =>
      have hc := (headed_run hC h).course
      rw [hd] at hc
      exact ⟨hd, hc⟩

/-- A combination whose fold has not failed comes to one completion. -/
theorem agrees (p : Plain) {S : (i : p.combiner.Feeder) → System (p.combiner.Input i)}
    {order : List p.combiner.Feeder} {t : List (Act p.combiner.Output)}
    {s : Fallible p.combiner S} {delivered : Outcome Demand} {c : Completion}
    (h : Run Exposed.Step (.new (System.fallible p.combiner S order b)) t ⟨x, s⟩)
    (hf : s.node.final.isComplete = true)
    (hv : Verdict s.fault s.node.fold.machine (words t) delivered c) :
    ∃ T, Agrees p b t s (Drive.conclusion delivered c) T c := by
  obtain ⟨m, hw, -, -, hu⟩ := (voice (remembers p) S order b).run h
  rw [brittle, hv.unfailed] at hu
  obtain ⟨T, hT⟩ := folded_run h hv.unfailed
  obtain ⟨c', ht⟩ := (headed_run (remembers p) h).stopped hv.unfailed hf
  have hz := Combination.finalized_run (records p) (terminates p) hT.run
  have ho := hz.once
  obtain ⟨hk, hl⟩ := hz.kept c' (by rw [ht]; rfl)
  obtain rfl : c' = c := by simpa [hk] using hv.completion
  rw [ht] at ho
  rcases hv.delivered with ⟨he, rfl⟩ | ⟨he, hr⟩
  · -- The fold was told to stop, and no completion was sent.
    have hq : m = .quit := (hu.ended_iff hf).1 he
    have hd : Dismissed t := (dismissed_iff hw).2 hq
    have hn : completions t = [] := by
      rw [completions_of_run hw, hq]
      rfl
    refine ⟨T, hT, ho, hk, hl, fun hx => absurd hd hx, fun _ => hn, ?_,
      fun f hx => absurd hx (not_rejected hn f), fun f hx _ => by rw [hx]; rfl⟩
    cases c' with
    | finished => simp [Drive.conclusion, Completion.toOutcome, Except.map, not_rejected hn]
    | failure f => simp [Drive.conclusion, Completion.toOutcome, Except.map]
  · obtain ⟨hn, hm⟩ := completions_of_replied hw hr
    have hj := fun f => rejected_iff (f := f) hw hr
    refine ⟨T, hT, ho, hk, hl, fun _ => hn, fun hd => ?_, ?_, fun f hx => ?_, fun f hx hy => ?_⟩
    · rw [(dismissed_iff hw).1 hd] at hm
      cases hm
    · simp only [hj]
      rcases delivered with g | d
      · simp [Drive.conclusion]
      · cases c' <;> simp [Drive.conclusion, Completion.toOutcome, Except.map]
    · rw [(hj f).1 hx]
      rfl
    · rcases delivered with g | d
      · exact absurd ((hj g).2 rfl) (hy g)
      · rw [hx]
        rfl

end Fallible

/-- When a plain combination ends, each of its feeders is over, whatever they sent, whatever the
    downstream answered, whenever it was cancelled, and even if its fold has failed. The fault of
    the fold is the result then, and no completion was pushed. If the fold has not failed, the
    completion that it was finalized with is what the machine keeps, what the downstream gets, and
    what the result says, but for a fault of the downstream itself. -/
theorem resolves (p : Plain) {S : (i : p.combiner.Feeder) → System (p.combiner.Input i)}
    {order : List p.combiner.Feeder} (ho : ∀ i, i ∈ order) {b : Buffering}
    {t : List (Act p.combiner.Output)} {x : Standing} {s s' : Fallible p.combiner S}
    {r : Outcome Demand}
    (h : Run Exposed.Step (.new (System.fallible p.combiner S order b)) t ⟨x, s⟩)
    (hs : (System.fallible p.combiner S order b).Step s (.ends r) s') :
    Fallible.Resolves p b t s r := by
  have hR := remembers p
  obtain ⟨hd, hr, hc⟩ := Fallible.settles hR h hs
  obtain ⟨m, hw, -, -, hu⟩ := (Fallible.voice hR S order b).run h
  refine ⟨fun i => ⟨hc i (ho i), ?_⟩, fun f hf => ⟨?_, ?_⟩, fun hf => ?_⟩
  · obtain ⟨y, hy, hl⟩ := Fallible.tended_run hR ⟨t, h⟩ i
    exact ⟨y, hy, hl.finished.trans (hc i (ho i))⟩
  · rcases hr with ⟨g, hg, rfl⟩ | ⟨_, _, hv, -⟩
    · cases hf.symm.trans hg
      rfl
    · cases hf.symm.trans hv.unfailed
  · have hm : m.completion? = none := by
      by_contra hm
      obtain ⟨c, hc⟩ := Option.ne_none_iff_exists'.1 hm
      obtain ⟨g, hg, -⟩ := hu.concluded c hc
      simp [Fallible.brittle, Brittle.final?, hf] at hg
    rw [completions_of_run hw, hm]
    rfl
  · rcases hr with ⟨g, hg, -⟩ | ⟨delivered, c, hv, rfl⟩
    · cases hf.symm.trans hg
    · have hq := hu.stage
      simp only [Fallible.brittle, hd, hf, Brittle.Stage] at hq
      obtain ⟨hi, -⟩ := Brittle.isSome_final?.1 (hq.resolve_left (by simp)).1
      obtain ⟨T, hT⟩ := Fallible.agrees p h hi hv
      exact ⟨T, c, hT⟩

/-- The left one of two streams fails at once, and the downstream of their zip answers that with a
    fault of its own. The downstream of a selection panics on its first value. -/
theorem resolves_rejected_or_failed :
    (∃ (S : (i : (Plain.zip Nat Nat).combiner.Feeder) →
        System ((Plain.zip Nat Nat).combiner.Input i)) (t : List (Act (Nat × Nat))) (x : Standing)
      (s : Fallible (Plain.zip Nat Nat).combiner S),
      Run Exposed.Step (.new (System.fallible _ S [Side.left, Side.right] (.oldest 2))) t ⟨x, s⟩ ∧
        completions t = [.failure (Fault.ofKind .internal)] ∧ s.fault = none ∧
        Fallible.Resolves (.zip Nat Nat) (.oldest 2) t s (.error (Fault.ofKind .user))) ∧
    (∃ (S : (i : (Plain.select Nat Nat).combiner.Feeder) →
        System ((Plain.select Nat Nat).combiner.Input i)) (t : List (Act (Either Nat Nat)))
      (x : Standing) (s : Fallible (Plain.select Nat Nat).combiner S),
      Run Exposed.Step (.new (System.fallible _ S [Side.left, Side.right] .unbounded)) t ⟨x, s⟩ ∧
        values t = [.left 1] ∧ s.fault = some (Fault.ofKind .panicked) ∧
        Fallible.Resolves (.select Nat Nat) .unbounded t s
          (.error (Fault.ofKind .panicked))) := by
  have all : ∀ i, i ∈ [Side.left, Side.right] := by
    rintro (_ | _)
    exacts [.head _, .tail _ (.head _)]
  constructor
  · have start : Run Exposed.Step (.new (System.fallible (.zip Nat Nat) (fun i => Side.rec
      (.source (.ofList ([] : List Nat)) (.failure (Fault.ofKind .internal)))
      (.source (.ofList ([1] : List Nat)) .finished) i)
      [Side.left, Side.right] (.oldest 2))) [] _ := .nil
    have sent := start.snoc (.move (.work (.launch ⟨rfl, rfl⟩ rfl)))
      |>.snoc (.move (.work (Node.Step.receive (C := .zip Nat Nat) (i := Side.left) rfl
        (Sourcing.Step.call ⟨rfl, rfl⟩ rfl rfl))))
    have reduced := sent.snoc (.move (.work (.fold ⟨rfl, rfl, rfl⟩ (.start rfl) trivial)))
      |>.snoc (.move (.work (.fold ⟨rfl, rfl, rfl⟩ (.tacit (.checkpoint rfl)) trivial)))
      |>.snoc (.move (.work (.fold ⟨rfl, rfl, rfl⟩ (.tacit (.read 0 rfl rfl)) trivial)))
      |>.snoc (.move (.work (.fold ⟨rfl, rfl, rfl⟩ (.reduce rfl rfl) trivial)))
    have stopped := reduced.snoc (.move (.work (.fold ⟨rfl, rfl, rfl⟩ (.finish rfl) trivial)))
      |>.snoc (.move (.work (.fold ⟨rfl, rfl, rfl⟩ (.finalize rfl) trivial)))
      |>.snoc (.move (.work (.fold ⟨rfl, rfl, rfl⟩ (.tacit (.drain rfl)) trivial)))
      |>.snoc (.move (.work (.stop ⟨rfl, rfl, rfl⟩ rfl)))
    have told := stopped.snoc (.move (.work (.learn ⟨rfl, rfl⟩ rfl rfl rfl)))
      |>.snoc (.move (.work (.complete ⟨rfl, rfl⟩ rfl rfl rfl)))
      |>.snoc (.answer (.error (Fault.ofKind .user)) rfl)
      |>.snoc (.move (.work (.completed ⟨rfl, rfl⟩ rfl rfl rfl rfl)))
    -- The left side has its answer, and the right one finds that it was cancelled.
    have left := told.snoc (.move (.work
        (Node.Step.feeder (C := .zip Nat Nat) (i := Side.left) rfl
          (Sourcing.Step.take ⟨rfl, rfl⟩ rfl rfl))))
      |>.snoc (.move (.work (Node.Step.release (C := .zip Nat Nat) (i := Side.left) rfl
        (Sourcing.Step.finish ⟨rfl, rfl⟩ rfl))))
    have right := left.snoc (.move (.work
        (Node.Step.feeder (C := .zip Nat Nat) (i := Side.right) rfl
          (Sourcing.Step.look ⟨rfl, rfl⟩ rfl))))
      |>.snoc (.move (.work (Node.Step.release (C := .zip Nat Nat) (i := Side.right) rfl
        (Sourcing.Step.finish ⟨rfl, rfl⟩ rfl))))
    have awaited := right.snoc (.move (.work (.leave ⟨rfl, rfl⟩ rfl rfl rfl rfl)))
      |>.snoc (.move (.work (.leave ⟨rfl, rfl⟩ rfl rfl rfl rfl)))
    exact ⟨_, _, _, _, awaited, rfl, rfl,
      resolves (.zip Nat Nat) all awaited (.work (.finish ⟨rfl, rfl⟩ rfl rfl))⟩
  · have start : Run Exposed.Step (.new (System.fallible (.select Nat Nat) (fun i => Side.rec
      (.source (.ofList ([1] : List Nat)) .finished)
      (.source (.ofList ([2] : List Nat)) .finished) i)
      [Side.left, Side.right] .unbounded)) [] _ := .nil
    have sent := start.snoc (.move (.work (.launch ⟨rfl, rfl⟩ rfl)))
      |>.snoc (.move (.work (Node.Step.feeder (C := .select Nat Nat) (i := Side.left) rfl
        (Sourcing.Step.look ⟨rfl, rfl⟩ rfl))))
      |>.snoc (.move (.work (Node.Step.receive (C := .select Nat Nat) (i := Side.left) rfl
        (Sourcing.Step.call ⟨rfl, rfl⟩ rfl rfl))))
    have pushed := sent.snoc (.move (.work (.fold ⟨rfl, rfl, rfl⟩ (.start rfl) trivial)))
      |>.snoc (.move (.work (.fold ⟨rfl, rfl, rfl⟩ (.tacit (.checkpoint rfl)) trivial)))
      |>.snoc (.move (.work (.fold ⟨rfl, rfl, rfl⟩ (.tacit (.read 0 rfl rfl)) trivial)))
      |>.snoc (.move (.work (.fold ⟨rfl, rfl, rfl⟩ (.reduce rfl rfl) trivial)))
      |>.snoc (.move (.work (.push ⟨rfl, rfl, rfl⟩ rfl (.push rfl rfl rfl))))
    -- The right to answer the left side goes down with the fold.
    have failed := pushed.snoc (.move (.fail (Fault.ofKind .panicked) rfl rfl))
      |>.snoc (.move (.forget (Side.left, 0) (.error Leak.fault) rfl))
      |>.snoc (.move (.work (.learn ⟨rfl, rfl⟩ rfl rfl rfl)))
    have left := failed.snoc (.move (.work (.dismiss ⟨rfl, rfl⟩ rfl rfl rfl)))
      |>.snoc (.move (.work (Node.Step.feeder (C := .select Nat Nat) (i := Side.left) rfl
        (Sourcing.Step.take ⟨rfl, rfl⟩ rfl rfl))))
      |>.snoc (.move (.work (Node.Step.release (C := .select Nat Nat) (i := Side.left) rfl
        (Sourcing.Step.finish ⟨rfl, rfl⟩ rfl))))
      |>.snoc (.move (.work (.leave ⟨rfl, rfl⟩ rfl rfl rfl rfl)))
    have right := left.snoc (.move (.work (.dismiss ⟨rfl, rfl⟩ rfl rfl rfl)))
      |>.snoc (.move (.work (Node.Step.feeder (C := .select Nat Nat) (i := Side.right) rfl
        (Sourcing.Step.look ⟨rfl, rfl⟩ rfl))))
      |>.snoc (.move (.work (Node.Step.release (C := .select Nat Nat) (i := Side.right) rfl
        (Sourcing.Step.finish ⟨rfl, rfl⟩ rfl))))
      |>.snoc (.move (.work (.leave ⟨rfl, rfl⟩ rfl rfl rfl rfl)))
    exact ⟨_, _, _, _, right, rfl, rfl,
      resolves (.select Nat Nat) all right (.work (.finish ⟨rfl, rfl⟩ rfl rfl))⟩

end ResumeOnce.Network

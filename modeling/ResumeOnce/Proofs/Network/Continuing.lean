import ResumeOnce.Proofs.Network.Lasting

/-!
# A cancelled combination goes on to its end

A combination whose fold was cancelled, and whose channel is closed, is not over at once. Its fold
has an emit to finish, or an event to reduce, then a folder to finalize and a channel to drain; its
drive has a completion to push and feeders to wait for. Each of these steps can be taken, and brings
the end nearer: whoever is called answers, and whoever sleeps at a call is woken by that. So the
downstream learns of the cancellation, and the combination is over when its feeders are.

* `Drive.ahead`: how far a drive is from the end;
* `Staged.Closed`: a combination whose fold was cancelled, and whose channel is closed;
* `Lasting.Continues`: how a run goes on;
* `Lasting.approaches`: what can be brought nearer at each moment comes;
* `Lasting.advances`, `Lasting.finalizes`: so does the end of the fold;
* `Lasting.comes`: then the downstream gets the completion;
* `Lasting.leaves`, `Lasting.settles`: and so does the end of the drive.
-/

namespace ResumeOnce.Streams.Drive

/-- How many steps a drive that has pushed its completion has still to take. -/
def ahead (feeders : Nat) : Drive → Nat
  | push _ => feeders + 2
  | awaitFeeder k _ _ => feeders - k + 1
  | _ => 0

theorem ahead_awaitFrom (feeders k : Nat) (delivered : Outcome Demand) (c : Completion) :
    (awaitFrom feeders k delivered c).ahead feeders ≤ feeders - k + 1 := by
  rw [awaitFrom]
  split
  · exact Nat.le_refl _
  · exact Nat.zero_le _

end ResumeOnce.Streams.Drive

namespace ResumeOnce.Network

open Streams

variable {C : Combiner} {order : List C.Feeder} {T : List (Seen C)} {t : List (Act C.Output)}
  {x x' : Standing} {m : Mood} {S : (i : C.Feeder) → System (C.Input i)}
  {s s' : Staged C (traced S)}

/-! ## Kind downstreams -/

section Kind

variable {α : Type} {t : List (Act α)}

theorem kind_move (h : Kind (words t)) (a : Move α) : Kind (words (t ++ [.moved a])) := by
  cases a with
  | tacit | ends => rwa [words_mute t rfl]
  | calls e => exact words_append t _ ▸ h.event e

/-- A downstream is kind if it wants more of a value, and if it accepts a completion. -/
theorem kind_answer (h : Kind (words t)) (hw : Run Mood.Step .free (words t) m) {o : Outcome Demand}
    (hm : m = .waits ∧ o = .ok .more ∨ (∃ c, m = .last c) ∧ ∃ d, o = .ok d) :
    Kind (words (t ++ [.answered o])) := by
  have ht := told_run hw
  rw [words_append]
  generalize words t = ws at h ht
  rcases hm with ⟨rfl, rfl⟩ | ⟨⟨c, rfl⟩, d, rfl⟩
  · cases ht with
    | waits vs v => exact h.answer rfl
  · cases ht with
    | last vs => exact h.answer ⟨d, rfl⟩

end Kind

/-! ## Answers that have come -/

namespace Node.Kept

variable {s : Node C S} {a : Agent} {slot : Slot Agent Demand}

/-- Nobody sleeps at a call that was answered. -/
theorem unguarded (h : Kept order x s) (hx : x.calling = false) (ho : s.outlet = some (a, slot)) :
    ¬slot.Guards a := by
  intro hg
  have hk := h.called
  rw [ho] at hk
  cases hx.symm.trans (hk.guarded hg)

/-- Whoever looks for the answer to its call finds it, once it has come. -/
theorem polls (h : Kept order x s) (hx : x.calling = false) (ho : s.outlet = some (a, slot)) :
    ∃ slot' w o, slot.poll a = (slot', w, .ready o) := by
  have hk := h.called
  rw [ho] at hk
  refine (slot.poll_cases a).resolve_left ?_
  rintro ⟨slot', w, hp⟩
  obtain ⟨hk, hg⟩ := hk.wait hp
  cases hx.symm.trans (hk.guarded hg)

end Node.Kept

/-! ## A combination whose fold was cancelled -/

namespace Staged

/-- A fold was cancelled, and its channel is closed. -/
structure Closed (s : Staged C S) : Prop where
  revoked : s.folder.status = .cancelled
  channel : s.node.fold.consumer.channel.completion.isSome

variable {s s' : Staged C S}

/-- A fold that was cancelled stays so. -/
theorem Step.folder_cancelled {a : Move C.Output} (hs : Step order s a s')
    (hc : s.folder.status = .cancelled) : s'.folder.status = .cancelled := by
  cases hs with
  | launch | register | endDrive | work => exact hc
  | relay =>
    exact cancelFold_of (P := fun s' => s'.folder.status = .cancelled) (fun _ => hc) fun _ => rfl
  | close _ ht => exact (Lifecycle.takeHook_eq_some.1 ht).2.trans hc
  | endFold =>
    rcases s.folder.finish_cases with ⟨-, he⟩ | ⟨hn, -⟩
    · exact he.symm ▸ hc
    · exact absurd hc hn

theorem folder_cancelled {x x' : Standing} {t : List (Act C.Output)}
    (hr : Run (Exposed.Step (S := System.staged C S order)) ⟨x, s⟩ t ⟨x', s'⟩)
    (hc : s.folder.status = .cancelled) : s'.folder.status = .cancelled := by
  refine hr.invariant (P := fun _ (e : Exposed (System.staged C S order)) =>
    (folder e.state).status = .cancelled) hc fun hc hs => ?_
  cases hs with
  | move hs => exact hs.folder_cancelled hc
  | answer => exact hc
  | cancel => exact cancel_of (P := fun s' => s'.folder.status = .cancelled) hc fun _ => hc

theorem Closed.step {x x' : Standing} {a : Act C.Output} (h : s.Closed)
    (hk : s.node.fold.consumer.Sound)
    (hs : Exposed.Step (S := System.staged C S order) ⟨x, s⟩ a ⟨x', s'⟩) : s'.Closed := by
  cases hs with
  | move hs => exact ⟨hs.folder_cancelled h.revoked, (hs.stays hk).closed h.channel⟩
  | answer o =>
    exact ⟨h.revoked, (congrArg (·.consumer.channel.completion.isSome = true)
      (s.node.unmoved_answer o).fold).mpr h.channel⟩
  | cancel => exact cancel_of h fun _ => ⟨h.revoked, h.channel⟩

end Staged

namespace Lasting

/-- A combination whose fold was cancelled goes on. -/
theorem goes (h : Lasting order T t x s) (hC : C.Records) (hR : C.Remembers)
    (hl : ∀ i, Polite (S i)) (hc : s.Closed) {a : Act C.Output}
    (hs : Exposed.Step (S := System.staged C (traced S) order) ⟨x, s⟩ a ⟨x', s'⟩)
    (hk : Kind (words (t ++ [a]))) :
    (∃ T', Lasting order T' (t ++ [a]) x' s') ∧ s'.Closed :=
  ⟨(h.step hC hR hl hs hk fun ho => by simpa [ho] using hc.channel).lasting,
    hc.step (h.kept hR hl).node.sound hs⟩

/-- How a run of a combination goes on whose fold was cancelled. -/
structure Continues (order : List C.Feeder) (t : List (Act C.Output)) (x : Standing)
    (s : Staged C (traced S)) (t' : List (Act C.Output)) (x' : Standing)
    (s' : Staged C (traced S)) : Prop where
  run : Run (Exposed.Step (S := System.staged C (traced S) order)) ⟨x, s⟩ t' ⟨x', s'⟩
  lasting : ∃ T', Lasting order T' (t ++ t') x' s'
  closed : s'.Closed

namespace Continues

variable {t' t'' : List (Act C.Output)} {x'' : Standing} {s'' : Staged C (traced S)}

theorem nil (h : Lasting order T t x s) (hc : s.Closed) :
    Continues order t x s [] x s :=
  ⟨.nil, ⟨T, (List.append_nil t).symm ▸ h⟩, hc⟩

theorem trans (h : Continues order t x s t' x' s')
    (h' : Continues order (t ++ t') x' s' t'' x'' s'') :
    Continues order t x s (t' ++ t'') x'' s'' :=
  ⟨h.run.append h'.run, by rw [← List.append_assoc]; exact h'.lasting, h'.closed⟩

end Continues

/-- The tasks of the combination take a step: nobody has still to register a hook, or to change a
    status. -/
theorem moves (h : Lasting order T t x s) (hC : C.Records) (hR : C.Remembers)
    (hl : ∀ i, Polite (S i)) (hc : s.Closed) {a : Move C.Output} {n : Node C (traced S)}
    (hs : Node.Step order s.node a n) :
    Continues order t x s [.moved a] (x.after (.moved a)) { s with node := n } := by
  have hk := h.kept hR hl
  have hr := hk.revoked hc.revoked
  have hw : Staged.Step order s a { s with node := n } := .work (hk.started hr.hooked) hs {
    waits := fun hn => nomatch hr.hooked.symm.trans hn
    folded := fun _ hn => nomatch hc.revoked.symm.trans hn
    driven := fun _ hn => nomatch hr.driver.symm.trans hn }
  have hm := Exposed.Step.move (S := System.staged C (traced S) order) (x := x) hw
  have ⟨hT, hc'⟩ := h.goes hC hR hl hc hm (kind_move h.kind a)
  exact ⟨Run.nil.snoc hm, hT, hc'⟩

/-- Whoever has called the downstream is answered, and nothing else happens. -/
theorem hears (h : Lasting order T t x s) (hC : C.Records) (hR : C.Remembers)
    (hl : ∀ i, Polite (S i)) (hc : s.Closed) : ∃ t' x' s',
      Continues order t x s t' x' s' ∧ x'.calling = false ∧ completions t' = [] ∧
      Node.Unmoved s.node s'.node := by
  rcases hx : x.calling with _ | _
  · exact ⟨[], x, s, .nil h hc, hx, rfl, .refl s.node⟩
  · obtain ⟨m, hw, hm, -, -⟩ := h.mood hR
    have ho : ∃ o : Outcome Demand,
        m = .waits ∧ o = .ok .more ∨ (∃ c, m = .last c) ∧ ∃ d, o = .ok d := by
      rw [hx] at hm
      cases m with
      | waits => exact ⟨_, .inl ⟨rfl, rfl⟩⟩
      | last c => exact ⟨_, .inr ⟨⟨c, rfl⟩, .done, rfl⟩⟩
      | _ => cases hm
    obtain ⟨o, ho⟩ := ho
    have hs := Exposed.Step.answer (S := System.staged C (traced S) order) (s := s) o hx
    obtain ⟨hT, hc'⟩ := h.goes hC hR hl hc hs (kind_answer h.kind hw ho)
    exact ⟨_, _, _, ⟨Run.nil.snoc hs, hT, hc'⟩, rfl, rfl, s.node.unmoved_answer o⟩

theorem completions_moved {a : Move C.Output} (ha : ∀ c, a ≠ .calls (.completion c)) :
    completions [Act.moved a] = [] := by
  rcases a with _ | ⟨v | c⟩ | r
  · rfl
  · rfl
  · exact absurd rfl (ha c)
  · rfl

/-- What a combination that was cancelled can be brought nearer to at each moment, it comes to. -/
theorem approaches (P : List (Act C.Output) → Node C (traced S) → Prop)
    (G : Move C.Output → Node C (traced S) → Prop) (far : Node C (traced S) → Nat)
    (hu : ∀ {t t' s s'}, P t s → completions t' = [] → Node.Unmoved s s' →
      P (t ++ t') s' ∧ far s' = far s)
    (hn : ∀ {T t x} {s : Staged C (traced S)}, Lasting order T t x s → s.Closed →
      x.calling = false → P t s.node → ∃ a n, Node.Step order s.node a n ∧
        (∀ c, a ≠ .calls (.completion c)) ∧
        (G a n ∨ P (t ++ [.moved a]) n ∧ far n < far s.node))
    (h : Lasting order T t x s) (hC : C.Records) (hR : C.Remembers) (hl : ∀ i, Polite (S i))
    (hc : s.Closed) (hp : P t s.node) :
    ∃ t' x' s', Continues order t x s t' x' s' ∧ completions t' = [] ∧
      ∃ a, .moved a ∈ t' ∧ G a s'.node := by
  -- By induction on how far it is; before each step the downstream answers if it was called.
  induction hd : far s.node using Nat.strongRecOn generalizing T t x s with
  | _ n ih =>
    obtain ⟨t₁, x₁, s₁, h₁, hx₁, hv₁, hu₁⟩ := h.hears hC hR hl hc
    obtain ⟨T₁, hT₁⟩ := h₁.lasting
    obtain ⟨hp₁, hd₁⟩ := hu hp hv₁ hu₁
    obtain ⟨a, n, hs, ha, hg⟩ := hn hT₁ h₁.closed hx₁ hp₁
    have h₂ := h₁.trans (hT₁.moves hC hR hl h₁.closed hs)
    have hv₂ : completions (t₁ ++ [.moved a]) = [] := by
      rw [completions_append, hv₁, completions_moved ha]
      rfl
    rcases hg with hg | ⟨hp₂, hd₂⟩
    · exact ⟨_, _, _, h₂, hv₂, a, by simp, hg⟩
    · obtain ⟨T₂, hT₂⟩ := h₂.lasting
      rw [hd₁, hd] at hd₂
      rw [List.append_assoc] at hp₂
      obtain ⟨t₃, x₃, s₃, h₃, hv₃, a', ha', hg₃⟩ := ih _ hd₂ hT₂ h₂.closed hp₂ rfl
      refine ⟨_, x₃, s₃, h₂.trans h₃, ?_, a', List.mem_append_right _ ha', hg₃⟩
      rw [completions_append, hv₂, hv₃]
      rfl

/-! ### The end of the fold -/

/-- A fold that was cancelled goes on, unless the downstream has still to answer a value. -/
theorem advances (h : Lasting order T t x s) (hR : C.Remembers) (hl : ∀ i, Polite (S i))
    (hc : s.Closed) (hx : x.calling = false) (hf : s.node.final.isComplete = false) :
    ∃ a n, Node.Step order s.node a n ∧ (∀ c, a ≠ .calls (.completion c)) ∧
      (n.final.isComplete = true ∨
        n.final.isComplete = false ∧ n.fold.ahead < s.node.fold.ahead) := by
  obtain ⟨m, -, hm, hq, hu⟩ := h.mood hR
  have hkept := h.kept hR hl
  have hrev := hkept.revoked hc.revoked
  have hs := hkept.started hrev.hooked
  have hk := h.enduring.kept.held
  have hsteady := h.enduring.steady
  -- The channel is closed, so the fold does not wait for an event.
  have hn : ¬s.node.fold.consumer.Waits := fun hw => by simpa [hw.opened] using hc.channel
  have ha : s.node.Runs .fold := by
    refine ⟨hs, hf, (hkept.node.sleeps .fold).resolve_right fun hr => ?_⟩
    cases hr with
    | called ho hg => exact hkept.node.unguarded hx ho hg
    | parked hp hw =>
      obtain ⟨p, hp⟩ := Fold.Consumer.exists_awaited hw
      exact hn (hk.sound.waits hp)
    | stopped hn => cases hf.symm.trans hn
  by_cases ht : ∃ c, s.node.fold.consumer.turn = .stop c
  · obtain ⟨c, ht⟩ := ht
    exact ⟨_, _, .stop ha ht, nofun, .inl (Slot.isComplete_complete ..)⟩
  · obtain ⟨⟨d, as⟩, f, hstep, ho⟩ := (hk.live fun c hc => ht ⟨c, hc⟩).resolve_left fun hw =>
      hn hw.consumer
    have hnears := hsteady.nears hrev.fold hk hstep
    cases d with
    | sent | cancelled | closed => cases ho
    | reduced | finalized | disposed | tacit =>
      exact ⟨_, _, .fold ha hstep trivial, nofun, .inr ⟨hf, (hnears trivial).ahead hc.channel ho⟩⟩
    | pushed v ps =>
      have hn : s.node.outlet = none := hu.outlet_fold (hu.awaits hf).2.2.1 hstep.pushed.1
      exact ⟨_, _, .push ha hn hstep, nofun, .inr ⟨hf, (hnears trivial).ahead hc.channel ho⟩⟩
    | replied v ps o =>
      -- The downstream has answered, and it is kind.
      obtain ⟨ht, hd, -⟩ := hstep.replied
      obtain ⟨slot, hn⟩ := hkept.node.carried.1 (by simp [hd])
      obtain ⟨slot', w, o, hp⟩ := hkept.node.polls hx hn
      obtain rfl := Node.Enduring.hears hu hq hn hp
      have hstep := Combination.Step.reply (.ok .more) ht hd
      have hd := (hsteady.nears hrev.fold hk hstep rfl).ahead hc.channel trivial
      exact ⟨_, _, .reply ha hn hp hstep, nofun, .inr ⟨hf, hd⟩⟩

/-- A fold that was cancelled comes to its end. -/
theorem finalizes (h : Lasting order T t x s) (hC : C.Records) (hR : C.Remembers)
    (hl : ∀ i, Polite (S i)) (hc : s.Closed) :
    ∃ t' x' s', Continues order t x s t' x' s' ∧ completions t' = [] ∧
      s'.node.final.isComplete = true := by
  rcases hf : s.node.final.isComplete with _ | _
  · obtain ⟨t', x', s', hx, hv, a, -, hg⟩ := approaches
      (fun _ n => n.final.isComplete = false) (fun _ n => n.final.isComplete = true)
      (fun n => n.fold.ahead) (fun hp _ hu => ⟨hu.final ▸ hp, by rw [hu.fold]⟩)
      (fun h hc hx hp => h.advances hR hl hc hx hp) h hC hR hl hc hf
    exact ⟨t', x', s', hx, hv, hg⟩
  · exact ⟨[], x, s, .nil h hc, rfl, hf⟩

/-- A combination whose fold was cancelled has told its downstream so, or can do so. -/
theorem comes (h : Lasting order T t x s) (hC : C.Records) (hR : C.Remembers)
    (hl : ∀ i, Polite (S i)) (hc : s.Closed) (hn : completions t = []) :
    ∃ t' x' s', Continues order t x s t' x' s' ∧
      completions t' = [.failure Fault.cancelled] := by
  obtain ⟨t₁, x₁, s₁, h₁, hn₁, hf₁⟩ := h.finalizes hC hR hl hc
  obtain ⟨T₁, hT₁⟩ := h₁.lasting
  obtain ⟨m, hw, -, hm, hu⟩ := hT₁.mood hR
  have hv : completions (t ++ t₁) = [] := by
    simp only [completions_append, hn, hn₁, List.append_nil]
  rw [completions_of_run hw] at hv
  -- The drive has to call with the completion, and may have to learn of it first.
  obtain ⟨-, n, n', hs, hcalls⟩ := hu.due hf₁ hm (by simpa using hv) order
  rw [hT₁.final hR hl hf₁] at hcalls
  rcases hs with rfl | hs
  · refine ⟨_, _, _, h₁.trans (hT₁.moves hC hR hl h₁.closed hcalls), ?_⟩
    rw [completions_append, hn₁]
    rfl
  · have h₂ := h₁.trans (hT₁.moves hC hR hl h₁.closed hs)
    obtain ⟨T₂, hT₂⟩ := h₂.lasting
    refine ⟨_, _, _, h₂.trans (hT₂.moves hC hR hl h₂.closed hcalls), ?_⟩
    rw [completions_append, completions_append, hn₁]
    rfl

/-! ### The end of the drive -/

/-- Whether the downstream has been told, and the feeders are over, and nothing is left but to end
    the combination. -/
structure Ends (t : List (Act C.Output)) (n : Node C (traced S)) : Prop where
  told : completions t ≠ []
  unfinished : n.finished = false
  feeders : ∀ i, (n.result i).isComplete = true

theorem Ends.append {t' : List (Act C.Output)} {n : Node C (traced S)} (ht : completions t ≠ [])
    (hf : n.finished = false) (hr : ∀ i, (n.result i).isComplete = true) : Ends (t ++ t') n := by
  refine ⟨fun hz => ht ?_, hf, hr⟩
  rw [completions_append] at hz
  exact (List.append_eq_nil_iff.1 hz).1

/-- A drive that has pushed its completion goes on when its feeders are over. -/
theorem leaves (h : Lasting order T t x s) (hR : C.Remembers) (hl : ∀ i, Polite (S i))
    (hx : x.calling = false) (he : Ends t s.node) : ∃ a n, Node.Step order s.node a n ∧
      (∀ c, a ≠ .calls (.completion c)) ∧ (a = .ends (.error Fault.cancelled) ∨
        Ends (t ++ [.moved a]) n ∧
          n.drive.ahead order.length < s.node.drive.ahead order.length) := by
  obtain ⟨hn, hf, hr⟩ := he
  obtain ⟨m, hw, -, -, hu⟩ := h.mood hR
  have hkept := h.kept hR hl
  have hcomplete := h.told hR hn
  have hs := hu.started hcomplete
  -- Whatever the drive would sleep at has come.
  have ha : s.node.Runs .drive := by
    refine ⟨hf, (hkept.node.sleeps .drive).resolve_right fun hrest => ?_⟩
    cases hrest with
    | called ho hg => exact hkept.node.unguarded hx ho hg
    | attending hd hg => cases hcomplete.symm.trans hg.isComplete
    | lingering hd hi hg => cases (hr _).symm.trans hg.isComplete
    | finished ho => cases hf.symm.trans ho
  have hb := h.enduring.bound
  have hg := hu.stage
  have hv := completions_of_run hw
  cases hd : s.node.drive with
  | awaitFold =>
    simp only [hd, Brittle.Stage] at hg
    exact absurd (by rw [hv, hg.1]; rfl) hn
  | push c' =>
    rcases ho : s.node.outlet with _ | ⟨a, slot⟩
    · simp only [hd, Brittle.Stage] at hg
      obtain ⟨f, -, -, -, -, hm⟩ := hg
      exact absurd (by rw [hv, (hm ho).1]; rfl) hn
    · obtain rfl := hkept.node.outlet_drive hcomplete ho
      obtain ⟨slot', w, o, hp⟩ := hkept.node.polls hx ho
      refine ⟨_, _, .completed ha hs hd ho hp, fun c hx => (by cases hx),
        .inr ⟨.append hn hf hr, ?_⟩⟩
      exact Nat.lt_of_le_of_lt (Drive.ahead_awaitFrom _ 0 o c') (Nat.lt_succ_self _)
  | awaitFeeder k o c' =>
    have hk : s.node.drive.awaits = some k := by rw [hd]; rfl
    obtain ⟨hlt, -⟩ := hkept.node.awaits_feeder hk
    have hi : order[k]? = some order[k] := List.getElem?_eq_getElem hlt
    rcases (s.node.result order[k]).poll_cases .drive with ⟨slot', w, hp⟩ | ⟨slot', w, o', hp⟩
    · have hz := (Slot.poll_pending hp).2.isComplete
      cases ((Slot.isComplete_poll hp).trans (hr _)).symm.trans hz
    · refine ⟨_, _, .leave ha hs hk hi hp, fun c hx => (by cases hx),
        .inr ⟨.append hn hf fun j => ?_, ?_⟩⟩
      · exact Slot.isComplete_update (fun hc => (Slot.isComplete_poll hp).trans hc) (hr j)
      · show (s.node.drive.passed order.length).ahead order.length < _
        rw [hd]
        have hle := Drive.ahead_awaitFrom order.length (k + 1) o c'
        simp only [Drive.passed, Drive.next, Drive.ahead] at hle ⊢
        omega
  | settled r =>
    rw [hd] at hb
    obtain rfl := hb.1
    exact ⟨_, _, .finish ha hs hd, fun c hx => (by cases hx), .inl rfl⟩
  | cancelFeeder | awaitCancelled =>
    rw [hd] at hb
    exact hb.elim

/-- A combination that has told its downstream of the cancellation can come to its end when its
    feeders are over. -/
theorem settles (h : Lasting order T t x s) (hC : C.Records) (hR : C.Remembers)
    (hl : ∀ i, Polite (S i)) (hc : s.Closed) (he : Ends t s.node) :
    ∃ t' x' s', Continues order t x s t' x' s' ∧
      .moved (.ends (.error Fault.cancelled)) ∈ t' := by
  obtain ⟨t', x', s', hx, -, _, hm, rfl⟩ := approaches Ends
    (fun a _ => a = .ends (.error Fault.cancelled)) (fun s => s.drive.ahead order.length)
    (fun he _ hu => ⟨.append he.told (hu.finished.trans he.unfinished)
      (by rw [hu.result]; exact he.feeders), by rw [hu.drive]⟩)
    (fun h _ hx he => h.leaves hR hl hx he) h hC hR hl hc he
  exact ⟨t', x', s', hx, hm⟩

end Lasting

end ResumeOnce.Network

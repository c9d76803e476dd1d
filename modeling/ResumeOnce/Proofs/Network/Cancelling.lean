import ResumeOnce.Leak
import ResumeOnce.Proofs.Network.Continuing
import ResumeOnce.Proofs.Network.Plan

/-!
# What a cancellation comes to

A plain combination is cancelled while it goes on, and its downstream wants more of every value and
accepts a completion. A cancellation that comes to the fold before the fold has ended, and closes
the channel before a feeder has sent its completion, settles everything. The fold may wait for an
event then, hold values, or be emitting one, and events of the feeders may be in the channel or
still come. In which order ever the tasks go on, it all comes to the same.

Not every cancellation comes to the fold in time. The drive starts the fold before it registers the
hook that is to cancel it. Whoever cancels the combination before that has cancelled it, but nothing
keeps the feeders from sending their completions, and the fold from coming to its end, until the
hook is there. Then the hook finds a fold that has ended, and the combination ends as if nobody had
cancelled it.

* `Onward`: how a run may go on;
* `Ceases`: what is known of a run in which a fold is cancelled;
* `ceases`: so it is with every plain combination;
* `raced_zip`: a zip that was cancelled, and finishes;
* `merge_of_none`: so does a merge of no streams, which has no fold.
-/

namespace ResumeOnce.Network

open Streams

variable {C : Combiner} {S : (i : C.Feeder) → System (C.Input i)} {order : List C.Feeder}
  {T : List (Seen C)} {t t' : List (Act C.Output)} {x x' : Standing}

/-- Whether a run may go on so, with a downstream that stays kind. -/
def Onward (order : List C.Feeder) (t : List (Act C.Output)) (x : Standing) (s : Staged C S)
    (t' : List (Act C.Output)) : Prop :=
  Kind (words (t ++ t')) ∧ ∃ e, Run (Exposed.Step (S := System.staged C S order)) ⟨x, s⟩ t' e

/-- What is known of a combination whose fold is cancelled behind `t₁`, when `t₂` has followed: its
    fold went through `T`, and its feeders through `u`. -/
structure Ceases (order : List C.Feeder) (T : List (Seen C))
    (u : (i : C.Feeder) → List (Act (C.Input i))) (t₁ t₂ : List (Act C.Output))
    (x₁ x₂ : Standing) (s : Staged C S) : Prop where
  /-- Somebody has cancelled the combination, and nothing else cancels its fold. -/
  caused : .cancelled ∈ t₁
  /-- The fold went through that; it has pushed what was called. -/
  folded : Run Combination.Step (.new C) T s.node.fold
  pushed : pushed T = values (t₁ ++ t₂)
  /-- So did the feeders; it was they who sent the events, and who got the answers. -/
  fed : ∀ i, ∃ y, Run Exposed.Step (.new (S i)) (u i) ⟨y, s.node.feeder i⟩
  attuned : ∀ i, Attuned T i (u i)
  /-- The fold comes to the cancellation. -/
  final : s.node.final.isComplete = true →
    s.node.fold.final = ⟨some (.failure Fault.cancelled), false⟩
  /-- At most one value is pushed behind the cancellation of the fold, and none behind one that has
      still to be answered then. -/
  few : (values t₂).length + x₁.calling.toNat ≤ 1
  /-- Behind the values comes one completion, which tells of the cancellation. -/
  ordered : called (t₁ ++ t₂) =
    (values (t₁ ++ t₂)).map .value ++ (completions t₂).map .completion
  completed : completions t₂ = [] ∨
    completions t₂ = [.failure Fault.cancelled] ∧ s.node.final.isComplete = true
  comes : completions t₂ = [] → ∃ t₃, Onward order (t₁ ++ t₂) x₂ s t₃ ∧
    completions t₃ = [.failure Fault.cancelled]
  /-- An event whose value went to the downstream is answered by that, and any other one learns of
      the cancellation. None is left without an answer, and no right to give one is dropped. -/
  answers : ∀ i k o, (answered (u i))[k]? = some o →
    o = .ok .more ∧ Combination.Delivered T (i, k) ∨
      o = .error Fault.cancelled ∧ ¬Combination.Delivered T (i, k)
  resolved : s.node.final.isComplete = true →
    ∀ i, (answered (u i)).length = (called (u i)).length
  unleaked : ∀ i, .error Leak.fault ∉ answered (u i)
  /-- Every feeder is cancelled, and over before the combination. -/
  asked : s.node.final.isComplete = true → ∀ i, .cancelled ∈ u i
  finished : x₂.finished = true → completions t₂ = [.failure Fault.cancelled] ∧
    .moved (.ends (.error Fault.cancelled)) ∈ t₂ ∧ ∀ i, ∃ r, .moved (.ends r) ∈ u i
  /-- The combination comes to the cancellation, once its feeders are over. -/
  ends : ∀ r, .moved (.ends r) ∈ t₂ → r = .error Fault.cancelled
  settles : completions t₂ ≠ [] → (∀ i, ∃ r, .moved (.ends r) ∈ u i) → x₂.finished = false →
    ∃ t₃, Onward order (t₁ ++ t₂) x₂ s t₃ ∧ .moved (.ends (.error Fault.cancelled)) ∈ t₃

namespace Lasting

variable {s s' : Staged C (traced S)}

theorem Continues.onward (h : Continues order t x s t' x' s') :
    Onward order t x s.forget t' :=
  have ⟨_, hT⟩ := h.lasting
  ⟨hT.kind, _, Staged.run_forget h.run⟩

/-- So it is with a combination whose feeders remember what they go through. -/
theorem ceasing (hC : C.Records) (hR : C.Remembers) (hl : ∀ i, Polite (S i))
    (ho : ∀ i, i ∈ order) {t₁ t₂ : List (Act C.Output)} {x₁ x₂ : Standing}
    {s₁ s₂ : Staged C (traced S)} (h : Lasting order T t₁ x₁ s₁)
    (hc : s₁.folder.status = .cancelled)
    (hn : s₁.node.fold.consumer.channel.completion = none)
    (h₂ : Run (Exposed.Step (S := System.staged C (traced S) order)) ⟨x₁, s₁⟩ t₂ ⟨x₂, s₂⟩)
    (ht : Lasts order t₁ t₂ s₁ ⟨x₂, s₂⟩) (hc₂ : s₂.Closed) :
    ∃ T, Ceases order T (memory s₂.node.feeder) t₁ t₂ x₁ x₂ s₂.forget := by
  have hr := (h.kept hR hl).revoked hc
  obtain ⟨T, hT⟩ : ∃ T, Lasting order T (t₁ ++ t₂) x₂ s₂ := ht.lasting
  have hv : completions (t₁ ++ t₂) = completions t₂ := by
    rw [completions_append, h.silent hR hl hn, List.nil_append]
  have hcompleted := hT.completed hR hl
  have hx₁ : x₁.finished = false := by
    rw [(h.kept hR hl).node.finished]
    refine Bool.eq_false_iff.2 fun hf => ?_
    cases (h.incomplete hR hl hn).symm.trans (h.finished hR hl hf).1
  have hx₂ : x₂.finished = s₂.node.finished := (hT.kept hR hl).node.finished
  rw [hv] at hcompleted
  refine ⟨T, {
    caused := Staged.cancelled_mem h.run hr.driver
    folded := hT.enduring.run
    pushed := hT.pushed
    fed := fun i => (hT.feeder hR hl i).1
    attuned := hT.enduring.tracked.attuned
    final := hT.final hR hl
    few := ?_
    ordered := hv ▸ hT.ordered hR
    completed := ?_
    comes := fun hz => ?_
    answers := fun i k o => hT.answers
    resolved := fun hf i => (hT.feeders hR hl hf i).2
    unleaked := fun i hm => ?_
    asked := fun hf i => (hT.feeders hR hl hf i).1
    finished := fun hf => ?_
    ends := ht.ends
    settles := fun hz hr hf => ?_ }⟩
  · have hle := h.few hR hl hn
    have : (values t₂).length ≤ s₁.node.fold.allowance := Nat.le_of_add_left_le (ht.spends hr.fold)
    omega
  · refine hcompleted.imp_right fun hz => ⟨hz, hT.told hR ?_⟩
    rw [hv, hz]
    exact List.cons_ne_nil _ _
  · obtain ⟨t₃, x₃, s₃, h₃, hz⟩ := hT.comes hC hR hl hc₂ (hv.trans hz)
    exact ⟨t₃, h₃.onward, hz⟩
  · obtain ⟨k, hk⟩ := List.getElem?_of_mem hm
    rcases hT.answers hk with ⟨ho, -⟩ | ⟨ho, -⟩ <;> cases ho
  · obtain ⟨-, hz, hr⟩ := hT.finished hR hl (hx₂ ▸ hf)
    refine ⟨hv ▸ hz, ?_, fun i => (hT.feeder hR hl i).2.1 (hr i (ho i))⟩
    obtain ⟨r, hm⟩ := ((finished_iff h₂).1 hf).resolve_left (by simp [hx₁])
    exact ht.ends r hm ▸ hm
  · obtain ⟨t₃, x₃, s₃, h₃, hz⟩ := hT.settles hC hR hl hc₂
      ⟨hv ▸ hz, hx₂ ▸ hf, fun i => (hT.feeder hR hl i).2.2 (hr i)⟩
    exact ⟨t₃, h₃.onward, hz⟩

end Lasting

/-- A plain combination whose fold is cancelled before it has ended, and whose channel is closed by
    that before a feeder has sent its completion, and whose downstream wants more of every value and
    accepts the completion, ends by the cancellation: so says its fold, its downstream gets that as
    its completion behind one more value at most, its feeders are cancelled and their events
    answered, and it is over when they are. -/
theorem ceases (p : Plain) {S : (i : p.combiner.Feeder) → System (p.combiner.Input i)}
    (hl : ∀ i, Polite (S i)) {order : List p.combiner.Feeder} (ho : ∀ i, i ∈ order)
    {t₁ t₂ t₃ : List (Act p.combiner.Output)} {x₁ x₂ x₃ : Standing}
    {s₁ s₂ s₃ : Staged p.combiner S}
    (h₁ : Run Exposed.Step (.new (System.staged p.combiner S order)) t₁ ⟨x₁, s₁⟩)
    (hc : s₁.folder.status = .cancelled)
    (hn : s₁.node.fold.consumer.channel.completion = none)
    (h₂ : Run (Exposed.Step (S := System.staged p.combiner S order)) ⟨x₁, s₁⟩ t₂ ⟨x₂, s₂⟩)
    (hs : s₂.node.fold.consumer.channel.completion.isSome)
    (he : ∀ i, s₂.node.fold.ended i = false)
    (h₃ : Run (Exposed.Step (S := System.staged p.combiner S order)) ⟨x₂, s₂⟩ t₃ ⟨x₃, s₃⟩)
    (hk : Kind (words (t₁ ++ (t₂ ++ t₃)))) :
    ∃ T u, Ceases order T u t₁ (t₂ ++ t₃) x₁ x₃ s₃ := by
  -- The feeders remember what they go through.
  obtain ⟨s₁, rfl, hr₁⟩ := Staged.run_remember (s := Staged.new p.combiner (traced S)) h₁
  obtain ⟨s₂, rfl, hr₂⟩ := Staged.run_remember h₂
  obtain ⟨s₃, rfl, hr₃⟩ := Staged.run_remember h₃
  have hk₂ : Kind (words (t₁ ++ t₂)) := by
    rw [← List.append_assoc, words_append] at hk
    exact hk.before
  have hk₁ : Kind (words t₁) := (words_append t₁ t₂ ▸ hk₂).before
  -- No feeder has sent its completion when the channel is closed, and what comes then is refused.
  obtain ⟨T₁, hT₁⟩ := ((Lasting.new p.combiner S order).spans (records p) (remembers p) hl hr₁ hk₁
    (.inr fun i => Staged.unended hr₂ (he i))).lasting
  have ht₂ := Lasting.spans hT₁ (records p) (remembers p) hl hr₂ hk₂ (.inr he)
  obtain ⟨T₂, hT₂⟩ := ht₂.lasting
  have ht₃ := Lasting.spans hT₂ (records p) (remembers p) hl hr₃
    (by rwa [List.append_assoc]) (.inl hs)
  have hc₃ : s₃.folder.status = .cancelled :=
    Staged.folder_cancelled hr₃ (Staged.folder_cancelled hr₂ hc)
  obtain ⟨T, hT⟩ := Lasting.ceasing (records p) (remembers p) hl ho hT₁ hc hn (hr₂.append hr₃)
    (ht₂.trans ht₃) ⟨hc₃, ht₃.stays.closed hs⟩
  exact ⟨T, _, hT⟩

/-- A selection of two sources is cancelled while the value of the one is on its way to the
    downstream, and the value of the other is in the channel. -/
theorem ceases_select : ∃ (S : (i : (Combiner.select Nat Nat).Feeder) →
      System ((Combiner.select Nat Nat).Input i)) (t₁ t₂ : List (Act (Either Nat Nat)))
    (x₁ x₂ : Standing) (s₂ : Staged (.select Nat Nat) S) (T : List (Seen (.select Nat Nat)))
    (u : (i : (Combiner.select Nat Nat).Feeder) → List (Act ((Combiner.select Nat Nat).Input i))),
    words t₁ = [.event (.value (.left 1))] ∧
      words t₂ = [.answer (.ok .more), .event (.completion (.failure Fault.cancelled)),
        .answer (.ok .done)] ∧
      x₂.finished = true ∧
      Ceases (C := .select Nat Nat) [Side.left, Side.right] T u t₁ t₂ x₁ x₂ s₂ := by
  have start : Run Exposed.Step (.new (System.stagedSelect (.source (.ofList [1]) .finished)
    (.source (.ofList [2]) .finished))) [] _ := .nil
  have reading := start.snoc (.move (.launch ⟨rfl, rfl⟩ rfl))
    |>.snoc (.move (.register ⟨rfl, rfl⟩ rfl rfl))
    |>.snoc (.move (.work rfl (.fold ⟨rfl, rfl, rfl⟩ (.start rfl) trivial) ⟨nofun, nofun, nofun⟩))
    |>.snoc (.move (.work rfl (.fold ⟨rfl, rfl, rfl⟩ (.tacit (.checkpoint rfl)) trivial)
      ⟨nofun, nofun, nofun⟩))
    |>.snoc (.move (.work rfl (.fold ⟨rfl, rfl, rfl⟩ (.tacit (.read 0 rfl rfl)) trivial)
      ⟨nofun, nofun, nofun⟩))
  have sent := reading
    |>.snoc (.move (.work rfl (Node.Step.feeder (C := .select Nat Nat) (i := Side.left) rfl
      (Sourcing.Step.look ⟨rfl, rfl⟩ rfl)) ⟨nofun, nofun, nofun⟩))
    |>.snoc (.move (.work rfl (Node.Step.receive (C := .select Nat Nat) (i := Side.left) rfl
      (Sourcing.Step.call ⟨rfl, rfl⟩ rfl rfl)) ⟨nofun, nofun, nofun⟩))
    |>.snoc (.move (.work rfl (Node.Step.feeder (C := .select Nat Nat) (i := Side.right) rfl
      (Sourcing.Step.look ⟨rfl, rfl⟩ rfl)) ⟨nofun, nofun, nofun⟩))
    |>.snoc (.move (.work rfl (Node.Step.receive (C := .select Nat Nat) (i := Side.right) rfl
      (Sourcing.Step.call ⟨rfl, rfl⟩ rfl rfl)) ⟨nofun, nofun, nofun⟩))
  have pushed := sent
    |>.snoc (.move (.work rfl (.fold ⟨rfl, rfl, rfl⟩ (.tacit (.resume rfl rfl)) trivial)
      ⟨nofun, nofun, nofun⟩))
    |>.snoc (.move (.work rfl (.fold ⟨rfl, rfl, rfl⟩ (.reduce rfl rfl) trivial)
      ⟨nofun, nofun, nofun⟩))
    |>.snoc (.move (.work rfl (.push ⟨rfl, rfl, rfl⟩ rfl (.push rfl rfl rfl))
      ⟨nofun, nofun, nofun⟩))
  have behind {S : System (Either Nat Nat)} {t} {e₀ e : Exposed S} (_ : Run Exposed.Step e₀ t e) :
      Run Exposed.Step (⟨e.standing, e.state⟩ : Exposed S) [] e := .nil
  -- The cancellation comes to the fold at once, and closes its channel.
  have revoked := pushed.snoc .cancel |>.snoc (.move (.relay rfl rfl))
  have closed := (behind revoked).snoc (.move (.close rfl rfl))
  -- The downstream wants more of the value, and then the fold finds that it was cancelled.
  have finalized := (behind closed).snoc (.answer (.ok .more) rfl)
    |>.snoc (.move (.work rfl (.reply ⟨rfl, rfl, rfl⟩ rfl rfl (.reply (.ok .more) rfl rfl))
      ⟨nofun, nofun, nofun⟩))
    |>.snoc (.move (.work rfl (.fold ⟨rfl, rfl, rfl⟩ (.tacit (.checkpoint rfl)) trivial)
      ⟨nofun, nofun, nofun⟩))
    |>.snoc (.move (.work rfl (.fold ⟨rfl, rfl, rfl⟩ (.finish rfl) trivial) ⟨nofun, nofun, nofun⟩))
    |>.snoc (.move (.work rfl (.fold ⟨rfl, rfl, rfl⟩ (.finalize rfl) trivial)
      ⟨nofun, nofun, nofun⟩))
  have drained := finalized
    |>.snoc (.move (.work rfl (.fold ⟨rfl, rfl, rfl⟩ (.tacit (.drain rfl)) trivial)
      ⟨nofun, nofun, nofun⟩))
    |>.snoc (.move (.work rfl (.fold ⟨rfl, rfl, rfl⟩ (.dispose rfl) trivial)
      ⟨nofun, nofun, nofun⟩))
    |>.snoc (.move (.work rfl (.fold ⟨rfl, rfl, rfl⟩ (.tacit (.drain rfl)) trivial)
      ⟨nofun, nofun, nofun⟩))
    |>.snoc (.move (.endFold ⟨rfl, rfl, rfl⟩ rfl))
    |>.snoc (.move (.work rfl (.stop ⟨rfl, rfl, rfl⟩ rfl) ⟨nofun, fun _ => nofun, nofun⟩))
  have told := drained
    |>.snoc (.move (.work rfl (.learn ⟨rfl, rfl⟩ rfl rfl rfl) ⟨nofun, fun _ => nofun, nofun⟩))
    |>.snoc (.move (.work rfl (.complete ⟨rfl, rfl⟩ rfl rfl rfl) ⟨nofun, fun _ => nofun, nofun⟩))
    |>.snoc (.answer (.ok .done) rfl)
    |>.snoc (.move (.work rfl (.completed ⟨rfl, rfl⟩ rfl rfl rfl rfl)
      ⟨nofun, fun _ => nofun, nofun⟩))
  -- The completion of the one source is refused, and so was the value of the other.
  have left := told
    |>.snoc (.move (.work rfl (Node.Step.feeder (C := .select Nat Nat) (i := Side.left) rfl
      (Sourcing.Step.take ⟨rfl, rfl⟩ rfl rfl)) ⟨nofun, fun _ => nofun, nofun⟩))
    |>.snoc (.move (.work rfl (Node.Step.receive (C := .select Nat Nat) (i := Side.left) rfl
      (Sourcing.Step.call ⟨rfl, rfl⟩ rfl rfl)) ⟨nofun, fun _ => nofun, nofun⟩))
    |>.snoc (.move (.work rfl (Node.Step.feeder (C := .select Nat Nat) (i := Side.left) rfl
      (Sourcing.Step.take ⟨rfl, rfl⟩ rfl rfl)) ⟨nofun, fun _ => nofun, nofun⟩))
    |>.snoc (.move (.work rfl (Node.Step.release (C := .select Nat Nat) (i := Side.left) rfl
      (Sourcing.Step.finish ⟨rfl, rfl⟩ rfl)) ⟨nofun, fun _ => nofun, nofun⟩))
  have right := left
    |>.snoc (.move (.work rfl (Node.Step.feeder (C := .select Nat Nat) (i := Side.right) rfl
      (Sourcing.Step.take ⟨rfl, rfl⟩ rfl rfl)) ⟨nofun, fun _ => nofun, nofun⟩))
    |>.snoc (.move (.work rfl (Node.Step.release (C := .select Nat Nat) (i := Side.right) rfl
      (Sourcing.Step.finish ⟨rfl, rfl⟩ rfl)) ⟨nofun, fun _ => nofun, nofun⟩))
  have ended := right
    |>.snoc (.move (.work rfl (.leave ⟨rfl, rfl⟩ rfl rfl rfl rfl) ⟨nofun, fun _ => nofun, nofun⟩))
    |>.snoc (.move (.work rfl (.leave ⟨rfl, rfl⟩ rfl rfl rfl rfl) ⟨nofun, fun _ => nofun, nofun⟩))
    |>.snoc (.move (.endDrive ⟨rfl, rfl⟩ rfl rfl))
    |>.snoc (.move (.work rfl (.finish ⟨rfl, rfl⟩ rfl rfl) ⟨nofun, fun _ => nofun, fun _ => nofun⟩))
  have kind := (((Kind.nil.event (.value (Either.left 1 : Either Nat Nat))).answer rfl).event
    (.completion (.failure Fault.cancelled))).answer ⟨.done, rfl⟩
  obtain ⟨T, u, h⟩ := ceases (.select Nat Nat)
    (fun i => by cases i <;> exact (lively_source _ _).polite)
    (by rintro (_ | _); exacts [.head _, .tail _ (.head _)])
    revoked rfl rfl closed rfl (fun i => by cases i <;> rfl) ended kind
  exact ⟨_, _, _, _, _, _, T, u, rfl, rfl, rfl, h⟩

/-- The zip of two empty sources is cancelled before its drive has begun, and nobody else cancels
    it. Yet it sends its downstream that it has finished, and so it ends: when the hook is
    registered the fold has come to its end already. -/
theorem raced_zip : ∃ (S : (i : (Combiner.zip Nat Nat).Feeder) →
      System ((Combiner.zip Nat Nat).Input i)) (t : List (Act (Nat × Nat))) (x : Standing)
    (s : Staged (.zip Nat Nat) S),
    Run (Exposed.Step (S := System.staged (.zip Nat Nat) S [Side.left, Side.right])) (.new _)
        (.cancelled :: t) ⟨x, s⟩ ∧
      (Staged.new (.zip Nat Nat) S).cancel.driver.status = .cancelled ∧
      s.driver.status = .cancelled ∧ s.folder.status = .finished ∧
      words t = [.event (.completion .finished), .answer (.ok .done)] ∧ Kind (words t) ∧
      .moved (.ends (.ok .done)) ∈ t ∧ x.finished = true := by
  have cancelled : Exposed.Step (.new (System.stagedZip
    (.source (.ofList ([] : List Nat)) .finished)
    (.source (.ofList ([] : List Nat)) .finished))) .cancelled _ := .cancel
  have behind {S : System (Nat × Nat)} {a} {e₀ e : Exposed S} (_ : Exposed.Step e₀ a e) :
      Run Exposed.Step e [] e := .nil
  -- Whoever cancels finds no hook. The drive begins, but does not register one yet.
  have reading := (behind cancelled).snoc (.move (.launch ⟨rfl, rfl⟩ rfl))
    |>.snoc (.move (.work rfl (.fold ⟨rfl, rfl, rfl⟩ (.start rfl) trivial)
      ⟨fun _ => ⟨rfl, rfl⟩, nofun, nofun⟩))
    |>.snoc (.move (.work rfl (.fold ⟨rfl, rfl, rfl⟩ (.tacit (.checkpoint rfl)) trivial)
      ⟨fun _ => ⟨rfl, rfl⟩, nofun, nofun⟩))
    |>.snoc (.move (.work rfl (.fold ⟨rfl, rfl, rfl⟩ (.tacit (.read 0 rfl rfl)) trivial)
      ⟨fun _ => ⟨rfl, rfl⟩, nofun, nofun⟩))
  have finished := reading
    |>.snoc (.move (.work rfl (Node.Step.receive (C := .zip Nat Nat) (i := Side.left) rfl
      (Sourcing.Step.call ⟨rfl, rfl⟩ rfl rfl)) ⟨fun _ => ⟨rfl, rfl⟩, nofun, nofun⟩))
    |>.snoc (.move (.work rfl (.fold ⟨rfl, rfl, rfl⟩ (.tacit (.resume rfl rfl)) trivial)
      ⟨fun _ => ⟨rfl, rfl⟩, nofun, nofun⟩))
    |>.snoc (.move (.work rfl (.fold ⟨rfl, rfl, rfl⟩ (.reduce rfl rfl) trivial)
      ⟨fun _ => ⟨rfl, rfl⟩, nofun, nofun⟩))
    |>.snoc (.move (.work rfl (.fold ⟨rfl, rfl, rfl⟩ (.finish rfl) trivial)
      ⟨fun _ => ⟨rfl, rfl⟩, nofun, nofun⟩))
    |>.snoc (.move (.work rfl (.fold ⟨rfl, rfl, rfl⟩ (.finalize rfl) trivial)
      ⟨fun _ => ⟨rfl, rfl⟩, nofun, nofun⟩))
    |>.snoc (.move (.work rfl (.fold ⟨rfl, rfl, rfl⟩ (.tacit (.drain rfl)) trivial)
      ⟨fun _ => ⟨rfl, rfl⟩, nofun, nofun⟩))
    |>.snoc (.move (.endFold ⟨rfl, rfl, rfl⟩ rfl))
    |>.snoc (.move (.work rfl (.stop ⟨rfl, rfl, rfl⟩ rfl)
      ⟨fun _ => ⟨rfl, rfl⟩, fun _ => nofun, nofun⟩))
  -- Now it does, and the hook cannot cancel a fold that has ended.
  have missed := finished.snoc (.move (.register ⟨rfl, rfl⟩ rfl rfl))
    |>.snoc (.move (.relay rfl rfl))
  have told := missed
    |>.snoc (.move (.work rfl (.learn ⟨rfl, rfl⟩ rfl rfl rfl) ⟨nofun, fun _ => nofun, nofun⟩))
    |>.snoc (.move (.work rfl (.complete ⟨rfl, rfl⟩ rfl rfl rfl) ⟨nofun, fun _ => nofun, nofun⟩))
    |>.snoc (.answer (.ok .done) rfl)
    |>.snoc (.move (.work rfl (.completed ⟨rfl, rfl⟩ rfl rfl rfl rfl)
      ⟨nofun, fun _ => nofun, nofun⟩))
  have left := told
    |>.snoc (.move (.work rfl (Node.Step.feeder (C := .zip Nat Nat) (i := Side.left) rfl
      (Sourcing.Step.take ⟨rfl, rfl⟩ rfl rfl)) ⟨nofun, fun _ => nofun, nofun⟩))
    |>.snoc (.move (.work rfl (Node.Step.release (C := .zip Nat Nat) (i := Side.left) rfl
      (Sourcing.Step.finish ⟨rfl, rfl⟩ rfl)) ⟨nofun, fun _ => nofun, nofun⟩))
  have right := left
    |>.snoc (.move (.work rfl (Node.Step.receive (C := .zip Nat Nat) (i := Side.right) rfl
      (Sourcing.Step.call ⟨rfl, rfl⟩ rfl rfl)) ⟨nofun, fun _ => nofun, nofun⟩))
    |>.snoc (.move (.work rfl (Node.Step.feeder (C := .zip Nat Nat) (i := Side.right) rfl
      (Sourcing.Step.take ⟨rfl, rfl⟩ rfl rfl)) ⟨nofun, fun _ => nofun, nofun⟩))
    |>.snoc (.move (.work rfl (Node.Step.release (C := .zip Nat Nat) (i := Side.right) rfl
      (Sourcing.Step.finish ⟨rfl, rfl⟩ rfl)) ⟨nofun, fun _ => nofun, nofun⟩))
  have ended := right
    |>.snoc (.move (.work rfl (.leave ⟨rfl, rfl⟩ rfl rfl rfl rfl) ⟨nofun, fun _ => nofun, nofun⟩))
    |>.snoc (.move (.work rfl (.leave ⟨rfl, rfl⟩ rfl rfl rfl rfl) ⟨nofun, fun _ => nofun, nofun⟩))
    |>.snoc (.move (.endDrive ⟨rfl, rfl⟩ rfl rfl))
    |>.snoc (.move (.work rfl (.finish ⟨rfl, rfl⟩ rfl rfl) ⟨nofun, fun _ => nofun, fun _ => nofun⟩))
  have kind : Kind [.event (.completion .finished), .answer (.ok .done)] :=
    ((Kind.nil (α := Nat × Nat)).event (.completion .finished)).answer ⟨.done, rfl⟩
  exact ⟨_, _, _, _, .cons cancelled ended, rfl, rfl, rfl, rfl, kind,
    List.mem_append_right _ (List.mem_singleton_self _), rfl⟩

/-- A merge of no streams has nothing to drive, and its end is the one of an empty source: whenever
    it is cancelled, it tells its downstream that it has finished. -/
theorem merge_of_none {α : Type} {t : List (Act α)} {x : Standing}
    {s : (System.merge (nofun : Fin 0 → System α)).State}
    (h : Run Exposed.Step (.new (System.merge (nofun : Fin 0 → System α))) t ⟨x, s⟩) :
    ∀ c ∈ completions t, c = .finished := by
  -- An empty source has no value to look before, so it never learns of a cancellation.
  refine (h.invariant (P := fun t (e : Exposed (System.source (.ofList ([] : List α)) .finished)) =>
    (Sourcing.source e.state = .complete ∨ ∃ r, Sourcing.source e.state = .settled r) ∧
      ∀ c ∈ completions t, c = .finished) ⟨.inl rfl, nofun⟩ ?_).2
  rintro t e a e' ⟨hp, hc⟩ hs
  have silent {a : Act α} (ha : completions [a] = []) :
      ∀ c ∈ completions (t ++ [a]), c = .finished := by
    rwa [completions_append, ha, List.append_nil]
  cases hs with
  | move hs =>
    cases hs with
    | look hr hs => rcases hp with hp | ⟨r, hp⟩ <;> cases hs.symm.trans hp
    | call hr hn he =>
      refine ⟨hp, fun c hm => ?_⟩
      rcases hp with hp | ⟨r, hp⟩ <;> rw [hp] at he <;> cases he
      rw [completions_append] at hm
      exact (List.mem_append.1 hm).elim (hc c) List.eq_of_mem_singleton
    | wait | finish => exact ⟨hp, silent rfl⟩
    | take =>
      refine ⟨.inr ?_, silent rfl⟩
      rcases hp with hp | ⟨r, hp⟩ <;> rw [hp] <;> exact ⟨_, rfl⟩
  | @answer x s o => exact ⟨(Sourcing.source_answer s o).symm ▸ hp, silent rfl⟩
  | @cancel x s => exact ⟨(Sourcing.source_cancel s).symm ▸ hp, silent rfl⟩

end ResumeOnce.Network

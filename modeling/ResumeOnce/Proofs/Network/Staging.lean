import ResumeOnce.Proofs.Contest.Basic
import ResumeOnce.Proofs.Fold.Cancelling
import ResumeOnce.Proofs.Network.Remembering
import ResumeOnce.Proofs.Network.Uttering

/-!
# Cancellations in stages

A combination and its fold are operations, each with a lifecycle of its own. Whoever cancels the
combination changes its status, and then runs its hook. That cancels the fold: once more a status
changes, and then the hook of the fold runs, which closes the channel. In between the tasks and the
feeders go on.

The drive registers the hook of the combination only when it has started the fold. A combination
that is cancelled before that goes on as it would have done, until the hook is registered and runs.
By then the fold may have ended, and is not cancelled any more. So it is with every task that ends:
its status changes before it leaves what it comes to, and whoever cancels it then comes too late.

* `Staged`: a combination whose cancellation comes in stages;
* `Staged.Step`: what its tasks and its feeders do, and whoever has cancelled it;
* `System.staged`: such a combination as a stream;
* `Staged.voice`, `polite_staged`: it keeps to the grammar;
* `Staged.Kept`: what holds whatever is done to it;
* `Staged.Kept.lands`, `Staged.cancelled_mem`: a cancellation comes to the fold if that still runs,
  and nobody else cancels it;
* `Staged.run_remember`: its feeders may remember what is done by them and to them.
-/

namespace ResumeOnce.Streams.Combination

variable {C : Combiner}

/-- The fold is cancelled: its status changes. -/
def revoke (s : Combination C) : Combination C := { s with consumer := s.consumer.revoke }

/-- Whoever has cancelled the fold closes its channel. -/
def shutOff (s : Combination C) : Combination C := { s with consumer := s.consumer.shutOff }

end ResumeOnce.Streams.Combination

namespace ResumeOnce.Network

open Streams

variable {C : Combiner} {S : (i : C.Feeder) → System (C.Input i)} {order : List C.Feeder}

/-- A combination whose cancellation comes in stages. -/
structure Staged (C : Combiner) (S : (i : C.Feeder) → System (C.Input i)) where
  node : Node C S
  /-- The lifecycle of the combination, whose hook cancels the fold. -/
  driver : Lifecycle Unit
  /-- The lifecycle of the fold, whose hook closes the channel. -/
  folder : Lifecycle Unit
  /-- Whether the drive has registered the hook of the combination. -/
  hooked : Bool

namespace Staged

/-- A combination at its begin. The fold will have its hook when it is started. -/
def new (C : Combiner) (S : (i : C.Feeder) → System (C.Input i)) : Staged C S :=
  ⟨.new C S, .new, Lifecycle.new.register (), false⟩

/-- The combination is cancelled, unless it was before, or is over. -/
def cancel (s : Staged C S) : Staged C S :=
  match s.driver.move .cancelled with
  | .ok l => { s with driver := l, node := { s.node with cancelled := true } }
  | .error _ => s

/-- The fold is cancelled, unless it was before, or is over. -/
def cancelFold (s : Staged C S) : Staged C S :=
  match s.folder.move .cancelled with
  | .ok l => { s with folder := l, node := s.node.change s.node.fold.revoke }
  | .error _ => s

/-- The downstream answers, and whoever waits for it is woken. -/
def answer (o : Outcome Demand) (s : Staged C S) : Staged C S :=
  { s with node := s.node.answer o }

/-- Whether the lifecycles allow what is done: the drive does not wait for the fold before its hook
    is registered, and whoever ends has changed its status before. -/
structure Permits (s : Staged C S) (n : Node C S) : Prop where
  waits : s.hooked = false → n.drive = s.node.drive ∧ n.awake .drive = s.node.awake .drive
  folded : n.final.isComplete = true → s.folder.status ≠ .running
  driven : n.finished = true → s.driver.status ≠ .running

/-- What happens in a combination whose feeders are awaited in some order: its tasks and its feeders
    do what they are about to do, and so does whoever has cancelled it. -/
inductive Step (order : List C.Feeder) : Staged C S → Move C.Output → Staged C S → Prop
  -- The drive, before it waits for the fold.
  | launch {s : Staged C S} : s.node.Runs .drive → s.node.started = false →
      Step order s .tacit { s with node := { s.node with started := true } }
  | register {s : Staged C S} : s.node.Runs .drive → s.node.started = true → s.hooked = false →
      Step order s .tacit { s with driver := s.driver.register (), hooked := true }
  -- The hooks.
  | relay {s : Staged C S} {l : Lifecycle Unit} : s.driver.status = .cancelled →
      s.driver.takeHook = (some (), l) → Step order s .tacit { s with driver := l }.cancelFold
  | close {s : Staged C S} {l : Lifecycle Unit} : s.folder.status = .cancelled →
      s.folder.takeHook = (some (), l) →
      Step order s .tacit { s with folder := l, node := s.node.change s.node.fold.shutOff }
  -- The status of a task that ends.
  | endFold {s : Staged C S} {c : Completion} : s.node.Runs .fold →
      s.node.fold.consumer.turn = .stop c →
      Step order s .tacit { s with folder := s.folder.finish.1 }
  | endDrive {s : Staged C S} {r : Outcome Demand} : s.node.Runs .drive →
      s.node.started = true → s.node.drive = .settled r →
      Step order s .tacit { s with driver := s.driver.finish.1 }
  -- Whatever else is done.
  | work {s : Staged C S} {a : Move C.Output} {n : Node C S} : s.node.started = true →
      Node.Step order s.node a n → s.Permits n → Step order s a { s with node := n }

end Staged

/-- The stream of a combination whose cancellation comes in stages, and whose feeders are awaited in
    some order. -/
def System.staged (C : Combiner) (S : (i : C.Feeder) → System (C.Input i))
    (order : List C.Feeder) : System C.Output where
  State := Staged C S
  start := .new C S
  Step := Staged.Step order
  answer := Staged.answer
  cancel := Staged.cancel
  Runnable s := (∃ a, s.node.Runs a) ∨ s.node.started = true ∧ ∃ i, (S i).Runnable (s.node.feeder i)

/-- The zip of two streams, whose cancellation comes in stages. -/
def System.stagedZip {α β : Type} (left : System α) (right : System β) : System (α × β) :=
  staged (.zip α β) (fun | .left => left | .right => right) [.left, .right]

/-- The selection of two streams, whose cancellation comes in stages. -/
def System.stagedSelect {α β : Type} (left : System α) (right : System β) : System (Either α β) :=
  staged (.select α β) (fun | .left => left | .right => right) [.left, .right]

namespace Node

variable {s s' : Node C S} {a : Move C.Output}

/-! ## What the tasks and the feeders leave -/

/-- Combinations that differ only in what they wait for. -/
structure Unmoved (s s' : Node C S) : Prop where
  started : s'.started = s.started
  finished : s'.finished = s.finished
  drive : s'.drive = s.drive
  fold : s'.fold = s.fold
  final : s'.final = s.final
  result : s'.result = s.result

theorem Unmoved.refl (s : Node C S) : Unmoved s s := ⟨rfl, rfl, rfl, rfl, rfl, rfl⟩

/-- An answer waits to be found. -/
theorem unmoved_answer (s : Node C S) (o : Outcome Demand) : Unmoved s (s.answer o) := by
  rw [Node.answer]
  split <;> exact ⟨rfl, rfl, rfl, rfl, rfl, rfl⟩

theorem Step.started (hs : Step order s a s') (h : s.started = true) : s'.started = true := by
  cases hs with
  | launch ha hn => cases h.symm.trans hn
  | _ => exact h

/-- In a combination that was started the fold goes on, or gets an event. -/
theorem Step.consumer (hs : Step order s a s') (h : s.started = true) :
    s'.fold.consumer = s.fold.consumer ∨
      ∃ e, Fold.Consumer.Step s.fold.consumer e s'.fold.consumer := by
  cases hs with
  | launch ha hn => cases h.symm.trans hn
  | fold ha hs | push ha ho hs | reply ha ho hp hs => exact hs.consumer
  | @receive i e => exact .inr ⟨_, Combination.send_step s.fold i e⟩
  | _ => exact .inl rfl

theorem Step.stays_cancelled (hs : Step order s a s') (h : s.started = true)
    (hk : s.fold.consumer.Sound) (hc : s.fold.consumer.cancelled = true) :
    s'.fold.consumer.cancelled = true := by
  rcases hs.consumer h with he | ⟨e, he⟩
  · exact he ▸ hc
  · exact he.stays_cancelled hk hc

theorem Step.stays_closed (hs : Step order s a s') (h : s.started = true)
    (hk : s.fold.consumer.Sound) (hc : s.fold.consumer.channel.completion.isSome) :
    s'.fold.consumer.channel.completion.isSome := by
  rcases hs.consumer h with he | ⟨e, he⟩
  · exact he ▸ hc
  · exact he.closed hk hc

end Node

namespace Staged

variable {s s' : Staged C S} {a : Move C.Output}

/-! ## What a cancellation does -/

/-- Whatever holds when the status of a combination changes, or stays. -/
theorem cancel_of {P : Staged C S → Prop} (h : P s)
    (hc : s.driver.status = .running → P { s with
      driver := { s.driver with status := .cancelled }
      node := { s.node with cancelled := true } }) : P s.cancel := by
  rw [cancel]
  split
  · rename_i l hl
    obtain ⟨hr, rfl⟩ := Lifecycle.move_eq_ok.1 hl
    exact hc hr
  · exact h

/-- Whatever holds when the status of a fold changes, or stays. -/
theorem cancelFold_of {P : Staged C S → Prop} (h : s.folder.status ≠ .running → P s)
    (hc : s.folder.status = .running → P { s with
      folder := { s.folder with status := .cancelled }
      node := s.node.change s.node.fold.revoke }) : P s.cancelFold := by
  rw [cancelFold]
  split
  · rename_i l hl
    obtain ⟨hr, rfl⟩ := Lifecycle.move_eq_ok.1 hl
    exact hc hr
  · rename_i f hf
    exact h (Lifecycle.move_eq_error.1 hf).1

/-! ## The grammar -/

/-- A combination keeps to the grammar, in whichever stage a cancellation is. -/
theorem voice (hC : C.Remembers) (order : List C.Feeder) :
    Voice (System.staged C S order) fun m s => Brittle.Utters m ⟨s.node, false⟩ where
  start := .new C S
  silent {m s a s'} h hs ha := by
    cases hs with
    | launch => exact h.alike ⟨id, rfl, rfl, rfl, rfl, rfl, rfl, rfl, fun _ => rfl, id⟩
    | register | endFold | endDrive => exact h
    | relay =>
      refine cancelFold_of (P := fun s => Brittle.Utters m ⟨s.node, false⟩) (fun _ => h) fun _ => ?_
      exact h.alike (Brittle.Utters.alike_change Fold.Consumer.Step.cancel.sound rfl rfl rfl)
    | close =>
      have hc := h.sound.close (.failure Fault.cancelled)
      exact h.alike (Brittle.Utters.alike_change hc.sound hc.turn rfl rfl)
    | work _ hs => exact h.step hC hs ha
  calls {m s e s'} h hs := by
    cases hs with
    | work _ hs => exact (Brittle.voice hC order).calls h (.work hs)
  answer {m s} o h hm := h.answer hm o
  cancel {m s} h := cancel_of (P := fun s => Brittle.Utters m ⟨s.node, false⟩) h
    fun _ => h.alike ⟨id, rfl, rfl, rfl, rfl, rfl, rfl, rfl, id, id⟩

end Staged

/-- A combination calls its downstream when it may, in whichever stage a cancellation is. -/
theorem polite_staged (hC : C.Remembers) (S : (i : C.Feeder) → System (C.Input i))
    (order : List C.Feeder) : Polite (System.staged C S order) :=
  (Staged.voice hC order).polite

namespace Staged

variable {s s' : Staged C S} {a : Move C.Output} {x : Standing}

/-! ## Who cancels the fold -/

/-- A fold was cancelled, and its channel is closed or about to be. -/
structure Revoked (s : Staged C S) : Prop where
  hooked : s.hooked = true
  driver : s.driver.status = .cancelled
  fold : s.node.fold.consumer.cancelled = true
  closes : s.folder.hooks ≠ [] ∨ s.node.fold.consumer.channel.completion.isSome

/-- What holds whatever is done to a combination. -/
structure Kept (order : List C.Feeder) (x : Standing) (s : Staged C S) : Prop where
  node : Node.Kept order x s.node
  started : s.hooked = true → s.node.started = true
  hooks : s.driver.hooks ≠ [] → s.hooked = true
  told : s.hooked = true → s.driver.status = .running ∨ s.driver.status = .cancelled →
    s.driver.hooks ≠ [] ∨ s.folder.status ≠ .running
  armed : s.folder.status = .running → s.folder.hooks ≠ []
  revoked : s.folder.status = .cancelled → s.Revoked

namespace Kept

theorem kept_new (C : Combiner) (S : (i : C.Feeder) → System (C.Input i))
    (order : List C.Feeder) : Kept order .new (.new C S) where
  node := Node.Kept.kept_new order
  started := nofun
  hooks hn := absurd rfl hn
  told := nofun
  armed _ := List.cons_ne_nil _ _
  revoked := nofun

/-- The hook of the combination runs. -/
theorem relay (h : Kept order x s) (hc : s.driver.status = .cancelled) {l : Lifecycle Unit}
    (ht : s.driver.takeHook = (some (), l)) : Kept order x { s with driver := l }.cancelFold := by
  obtain ⟨hl, hs⟩ := Lifecycle.takeHook_eq_some.1 ht
  have hk : s.hooked = true := h.hooks (by simp [hl])
  have hd : l.status = .cancelled := hs.trans hc
  refine cancelFold_of (fun hn => ?_) fun hr => ?_
  · exact {
      h with
      hooks := fun _ => hk
      told := fun _ _ => .inr hn
      revoked := fun hf => { h.revoked hf with driver := hd } }
  · exact {
      node := h.node.revoke .cancel trivial
      started := h.started
      hooks := fun _ => hk
      told := fun _ _ => .inr nofun
      armed := nofun
      revoked := fun _ => ⟨hk, hd, rfl, .inl (h.armed hr)⟩ }

/-- The hook of the fold runs. -/
theorem close (h : Kept order x s) (hc : s.folder.status = .cancelled) {l : Lifecycle Unit}
    (ht : s.folder.takeHook = (some (), l)) :
    Kept order x { s with folder := l, node := s.node.change s.node.fold.shutOff } := by
  obtain ⟨-, hs⟩ := Lifecycle.takeHook_eq_some.1 ht
  have hr := h.revoked hc
  exact {
    node := h.node.revoke (.close hr.fold) trivial
    started := h.started
    hooks := h.hooks
    told := fun hk hd => (h.told hk hd).imp_right fun hn hr => hn (hs.symm.trans hr)
    armed := fun hn => nomatch hc.symm.trans (hs.symm.trans hn)
    revoked := fun _ => {
      hooked := hr.hooked
      driver := hr.driver
      fold := (h.node.sound.close _).cancelled.trans hr.fold
      closes := .inr (h.node.sound.close _).closes } }

/-- The tasks of a combination and its feeders go on. -/
theorem work (h : Kept order x s) (hC : C.Remembers) (hl : ∀ i, Polite (S i))
    (hn : s.node.started = true) {n : Node C S} (hs : Node.Step order s.node a n) :
    Kept order (x.after (.moved a)) { s with node := n } where
  node := h.node.step hC hl hs
  started _ := hs.started hn
  hooks := h.hooks
  told := h.told
  armed := h.armed
  revoked hf :=
    have hr := h.revoked hf
    { hr with
      fold := hs.stays_cancelled hn h.node.sound hr.fold
      closes := hr.closes.imp_right (hs.stays_closed hn h.node.sound) }

theorem step (h : Kept order x s) (hC : C.Remembers) (hl : ∀ i, Polite (S i))
    (hs : Step order s a s') : Kept order (x.after (.moved a)) s' := by
  cases hs with
  | launch =>
    exact {
      h with
      node := h.node.start
      started := fun _ => rfl
      revoked := fun hf => { h.revoked hf with } }
  | register hr hn =>
    exact {
      h with
      started := fun _ => hn
      hooks := fun _ => rfl
      told := fun _ _ => .inl (by simp [Lifecycle.register])
      revoked := fun hf => { h.revoked hf with hooked := rfl } }
  | relay hc ht => exact h.relay hc ht
  | close hc ht => exact h.close hc ht
  | endFold =>
    refine {
      h with
      told := fun _ _ => .inr (Lifecycle.status_finish _)
      armed := fun hn => absurd hn (Lifecycle.status_finish _)
      revoked := ?_ }
    intro (hf : s.folder.finish.1.status = .cancelled)
    rcases s.folder.finish_cases with ⟨hc, he⟩ | ⟨-, hn, -⟩
    · have hr := h.revoked hc
      exact { hr with closes := hr.closes.imp_left fun hk => he.symm ▸ hk }
    · exact absurd hf hn
  | endDrive =>
    rcases s.driver.finish_cases with ⟨-, he⟩ | ⟨hn, hc, he⟩
    · rw [he]
      exact h
    · exact {
        h with
        hooks := fun hk => absurd he hk
        told := fun _ hd => absurd hd (not_or.2 ⟨Lifecycle.status_finish _, hc⟩)
        revoked := fun hf => absurd (h.revoked hf).driver hn }
  | work hn hs => exact h.work hC hl hn hs

/-- The downstream answers. -/
theorem answer (h : Kept order x s) (o : Outcome Demand) (hx : x.calling = true) :
    Kept order (x.after (α := C.Output) (.answered o)) (s.answer o) := by
  have hu := s.node.unmoved_answer o
  exact {
    h with
    node := h.node.answer o hx
    started := fun hk => hu.started.trans (h.started hk)
    revoked := fun hf =>
      have hr := h.revoked hf
      { hr with
        fold := hu.fold ▸ hr.fold
        closes := hu.fold ▸ hr.closes } }

/-- Somebody cancels the combination. -/
theorem cancel (h : Kept order x s) :
    Kept order (x.after (α := C.Output) .cancelled) s.cancel := by
  have hd : Kept order (x.after (α := C.Output) .cancelled) s := { h with node := h.node.dismiss }
  refine cancel_of hd fun hr => {
    hd with
    node := hd.node.mark
    told := fun hk _ => h.told hk (.inl hr)
    revoked := fun hf => ?_ }
  cases hr.symm.trans (h.revoked hf).driver

theorem kept_reaches (hC : C.Remembers) (hl : ∀ i, Polite (S i))
    (h : Reaches (System.staged C S order) x s) : Kept order x s :=
  h.invariant (kept_new C S order) (fun h hs => h.step hC hl hs) (fun o h hx => h.answer o hx)
    fun h => h.cancel

end Kept

/-- A cancellation comes to the fold as long as that runs, once the hook is registered. -/
theorem Kept.lands (h : Kept order x s) (hk : s.hooked = true) (hc : s.driver.status = .cancelled)
    (hr : s.folder.status = .running) : ∃ s₁ s₂, Step order s .tacit s₁ ∧
      Step order s₁ .tacit s₂ ∧ s₂.folder.status = .cancelled ∧
      s₂.node.fold.consumer.channel.completion.isSome := by
  obtain ⟨⟨⟩, l, hl⟩ := Lifecycle.exists_takeHook
    ((h.told hk (.inr hc)).resolve_right fun hn => hn hr)
  have h₁ := h.relay hc hl
  have hf : ({ s with driver := l } : Staged C S).cancelFold.folder.status = .cancelled :=
    cancelFold_of (P := fun s => s.folder.status = .cancelled) (fun hn => absurd hr hn) fun _ => rfl
  have hn : ({ s with driver := l } : Staged C S).cancelFold.folder.hooks ≠ [] :=
    cancelFold_of (P := fun s => s.folder.hooks ≠ []) (fun hn => absurd hr hn) fun _ => h.armed hr
  obtain ⟨⟨⟩, l', hl'⟩ := Lifecycle.exists_takeHook hn
  exact ⟨_, _, .relay hc hl, .close hf hl', (Lifecycle.takeHook_eq_some.1 hl').2.trans hf,
    (h₁.node.sound.close _).closes⟩

/-- Nothing that a combination does cancels it. -/
theorem Step.driver_cancelled (hs : Step order s a s') (hc : s'.driver.status = .cancelled) :
    s.driver.status = .cancelled := by
  cases hs with
  | launch | register | close | endFold | work => exact hc
  | relay hd => exact hd
  | endDrive =>
    rcases s.driver.finish_cases with ⟨hd, -⟩ | ⟨-, hn, -⟩
    · exact hd
    · exact absurd hc hn

theorem cancelled_mem {t : List (Act C.Output)}
    (h : Run Exposed.Step (.new (System.staged C S order)) t ⟨x, s⟩) :
    s.driver.status = .cancelled → .cancelled ∈ t := by
  refine h.invariant (P := fun t (e : Exposed (System.staged C S order)) =>
    (Staged.driver e.state).status = .cancelled → .cancelled ∈ t) (fun hc => by cases hc) ?_
  intro t e a e' ih hs
  cases hs with
  | move hs => exact fun hc => List.mem_append_left _ (ih (hs.driver_cancelled hc))
  | answer o hx => exact fun hc => List.mem_append_left _ (ih hc)
  | cancel => exact fun _ => List.mem_append_right _ (List.mem_singleton_self _)

/-! ## Feeders that remember -/

section Remembering

variable {s s' : Staged C (traced S)} {s₀ : Staged C S} {t : List (Act C.Output)} {x' : Standing}

/-- A combination, without what its feeders remember. -/
def forget (s : Staged C (traced S)) : Staged C S := ⟨s.node.forget, s.driver, s.folder, s.hooked⟩

theorem forget_cancel : s.cancel.forget = s.forget.cancel := by
  rw [cancel, cancel, show s.forget.driver = s.driver from rfl]
  split <;> rfl

theorem forget_cancelFold : s.cancelFold.forget = s.forget.cancelFold := by
  rw [cancelFold, cancelFold, show s.forget.folder = s.folder from rfl]
  split <;> rfl

theorem forget_answer (o : Outcome Demand) : (s.answer o).forget = s.forget.answer o :=
  congrArg (fun n => ({ s.forget with node := n } : Staged C S)) (Node.forget_answer o)

theorem Permits.forget {n : Node C (traced S)} (h : s.Permits n) : s.forget.Permits n.forget :=
  ⟨h.waits, h.folded, h.driven⟩

theorem step_forget (hs : Step order s a s') : Step order s.forget a s'.forget := by
  cases hs with
  | launch hr hn => exact .launch (Node.runs_forget.2 hr) hn
  | register hr hn hk => exact .register (Node.runs_forget.2 hr) hn hk
  | relay hc ht => exact forget_cancelFold ▸ .relay hc ht
  | close hc ht => exact .close hc ht
  | endFold hr ht => exact .endFold (Node.runs_forget.2 hr) ht
  | endDrive hr hn hd => exact .endDrive (Node.runs_forget.2 hr) hn hd
  | work hn hs hp => exact .work hn (Node.step_forget hs) hp.forget

theorem step_remember (hs : Step order s.forget a s₀) :
    ∃ s', Step order s a s' ∧ s'.forget = s₀ := by
  cases hs with
  | launch hr hn => exact ⟨_, .launch (Node.runs_forget.1 hr) hn, rfl⟩
  | register hr hn hk => exact ⟨_, .register (Node.runs_forget.1 hr) hn hk, rfl⟩
  | relay hc ht => exact ⟨_, .relay hc ht, forget_cancelFold⟩
  | close hc ht => exact ⟨_, .close hc ht, rfl⟩
  | endFold hr ht => exact ⟨_, .endFold (Node.runs_forget.1 hr) ht, rfl⟩
  | endDrive hr hn hd => exact ⟨_, .endDrive (Node.runs_forget.1 hr) hn hd, rfl⟩
  | work hn hs hp =>
    obtain ⟨n, hn', rfl⟩ := Node.step_remember hs
    exact ⟨_, .work hn hn' ⟨hp.waits, hp.folded, hp.driven⟩, rfl⟩

/-- A run of a combination whose feeders remember is one of the same combination otherwise. -/
theorem run_forget
    (h : Run (Exposed.Step (S := System.staged C (traced S) order)) ⟨x, s⟩ t ⟨x', s'⟩) :
    Run (Exposed.Step (S := System.staged C S order)) ⟨x, s.forget⟩ t ⟨x', s'.forget⟩ := by
  refine h.invariant (P := fun t (e : Exposed (System.staged C (traced S) order)) =>
    Run (Exposed.Step (S := System.staged C S order)) ⟨x, s.forget⟩ t
      ⟨e.standing, forget e.state⟩) .nil fun hr hs => ?_
  cases hs with
  | move hs => exact hr.snoc (.move (step_forget hs))
  | answer o hx => exact forget_answer o ▸ hr.snoc (.answer o hx)
  | cancel => exact forget_cancel ▸ hr.snoc .cancel

/-- In every run of a combination the feeders may remember what is done by them and to them. -/
theorem run_remember
    (h : Run (Exposed.Step (S := System.staged C S order)) ⟨x, s.forget⟩ t ⟨x', s₀⟩) :
    ∃ s' : Staged C (traced S), s'.forget = s₀ ∧
      Run (Exposed.Step (S := System.staged C (traced S) order)) ⟨x, s⟩ t ⟨x', s'⟩ := by
  refine h.invariant (P := fun t (e : Exposed (System.staged C S order)) =>
    ∃ s' : Staged C (traced S), s'.forget = e.state ∧
      Run (Exposed.Step (S := System.staged C (traced S) order)) ⟨x, s⟩ t ⟨e.standing, s'⟩)
    ⟨s, rfl, .nil⟩ ?_
  rintro t ⟨y, _⟩ a e ⟨s', rfl, hr⟩ hs
  cases hs with
  | move hs =>
    obtain ⟨s'', hs, hf⟩ := step_remember hs
    exact ⟨s'', hf, hr.snoc (.move hs)⟩
  | answer o hx => exact ⟨_, forget_answer o, hr.snoc (.answer o hx)⟩
  | cancel => exact ⟨_, forget_cancel, hr.snoc .cancel⟩

end Remembering

end Staged

end ResumeOnce.Network

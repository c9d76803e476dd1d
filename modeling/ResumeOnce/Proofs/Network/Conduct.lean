import ResumeOnce.Proofs.Network.Feeding

/-!
# How a combination behaves

Each task of a combination is awake, or sleeps where somebody will wake it: the fold at its
channel, which a feeder fills; both tasks at the answer of the downstream; the drive at the
result of the fold, and at the result of a feeder. What others know of a combination tells
what its drive is about to do.

* `Combination.Step.inward`, `Combination.Step.pushed`, `Combination.Step.replied`: what the
  downstream gets of a step of the fold;
* `Node.Rests`: where a task sleeps;
* `Node.Place`: what others know of a combination;
* `Node.Kept`, `Node.Kept.step`: what holds whatever is done to a combination;
* `Node.Kept.kept_reaches`: it holds whenever a combination comes to a state.
-/

namespace ResumeOnce.Streams

variable {C : Combiner}

/-- The end of a combination does not make forget whether the downstream has ended it. -/
def Combiner.Remembers (C : Combiner) : Prop :=
  ∀ m c, (C.finalize m c).1.downstreamEnded = m.downstreamEnded

namespace Combination

variable {t : List (Seen C)} {s s' : Combination C} {e : Seen C} {v : C.Output}
  {ps : List C.Right} {as : Answers C.Right} {o : Outcome Demand}

/-- Without its downstream, a fold does not begin or end a delivery. -/
theorem Step.inward (hs : Step s e s') (he : e.deed.Inward) (hC : C.Remembers) :
    (∀ i x k f, e.deed ≠ .sent i x k f) ∧ s'.delivering = s.delivering ∧
      (s'.machine.downstreamEnded = true → s.machine.downstreamEnded = true) := by
  cases hs with
  | send i x hi hx =>
    rw [Combination.send] at he
    split at he <;> cases he
  | cancel | close | push | reply => cases he
  | start ht =>
    refine ⟨by simp, rfl, fun hn => ?_⟩
    cases hn
  | finalize ht =>
    exact ⟨by simp, rfl, fun hn => (hC _ _).symm.trans hn⟩
  | _ => exact ⟨by simp, rfl, id⟩

/-- A value goes downstream when nothing else is there. -/
theorem Step.pushed (hs : Step s ⟨.pushed v ps, as⟩ s') : s.delivering = none ∧
    s'.delivering = some (v, ps) ∧
      s'.machine.downstreamEnded = s.machine.downstreamEnded := by
  generalize he : (⟨.pushed v ps, as⟩ : Seen C) = e at hs
  cases hs with
  | send i x hi hx =>
    rw [Combination.send] at he
    split at he <;> cases he
  | push ht hd hm =>
    cases he
    exact ⟨hd, rfl, rfl⟩
  | _ => cases he

/-- The answer to a value is that to the value that is downstream. -/
theorem Step.replied (hs : Step s ⟨.replied v ps o, as⟩ s') : s.consumer.turn = .emit ∧
    s.delivering = some (v, ps) ∧ s'.delivering = none ∧
      (s'.machine.downstreamEnded = true →
        s.machine.downstreamEnded = true ∨ Network.dismisses o = true) := by
  generalize he : (⟨.replied v ps o, as⟩ : Seen C) = e at hs
  cases hs with
  | send i x hi hx =>
    rw [Combination.send] at he
    split at he <;> cases he
  | reply answer ht hd =>
    cases he
    refine ⟨ht, hd, rfl, fun hm => ?_⟩
    refine (Bool.or_eq_true_iff.1 hm).imp_right fun ho => ?_
    rcases o with f | _ | _
    · rfl
    · cases ho
    · rfl
  | _ => cases he

theorem send_turn (h : s.consumer.Sound) (i : C.Feeder) (x : Event (C.Input i)) :
    (s.send i x).1.consumer.turn = s.consumer.turn := by
  rw [send_consumer]
  exact (h.write none _).turn

theorem quit_turn (h : s.consumer.Sound) : s.quit.consumer.turn = s.consumer.turn :=
  (Fold.Consumer.Sound.close (Fold.Consumer.Step.cancel.sound h) _).turn

end Combination

end ResumeOnce.Streams

namespace ResumeOnce.Network

open Streams

variable {C : Combiner} {S : (i : C.Feeder) → System (C.Input i)} {order : List C.Feeder}

namespace Node

/-- Where a task sleeps: it has ended, or has left its waker where somebody will wake it. -/
inductive Rests (order : List C.Feeder) (s : Node C S) : Agent → Prop
  | called {a : Agent} {slot : Slot Agent Demand} (hc : s.outlet = some (a, slot))
      (hg : slot.Guards a) : Rests order s a
  | parked (hp : s.parked = true) (hw : s.fold.consumer.parked ≠ []) : Rests order s .fold
  | stopped (hf : s.final.isComplete = true) : Rests order s .fold
  | attending (hd : s.drive = .awaitFold) (hg : s.final.Guards .drive) : Rests order s .drive
  | lingering {k : Nat} {i : C.Feeder} (hd : s.drive.awaits = some k) (hi : order[k]? = some i)
      (hg : (s.result i).Guards .drive) : Rests order s .drive
  | finished (ho : s.finished = true) : Rests order s .drive

variable {s s' : Node C S}

/-- Who sleeps is not woken by what happens elsewhere. -/
theorem Rests.congr {a : Agent} (h : s.Rests order a) (ho : s'.outlet = s.outlet)
    (hp : s'.parked = s.parked) (hk : s'.fold = s.fold) (hf : s'.final = s.final)
    (hr : s'.result = s.result) (hd : s'.drive = s.drive) (hv : s'.finished = s.finished) :
    s'.Rests order a := by
  cases h with
  | called hc hg => exact .called (ho.trans hc) hg
  | parked hq hw => exact .parked (hp.trans hq) (hk ▸ hw)
  | stopped hc => exact .stopped (hf ▸ hc)
  | attending hq hg => exact .attending (hd.trans hq) (hf ▸ hg)
  | lingering hq hi hg => exact .lingering (hd ▸ hq) hi (hr ▸ hg)
  | finished hq => exact .finished (hv.trans hq)

/-- A fold sleeps on, as long as it is not woken. -/
theorem Rests.fold_of (h : s.Rests order .fold)
    (ho : ∀ slot, s.outlet = some (.fold, slot) → s'.outlet = some (.fold, slot))
    (hp : s.parked = true → s.fold.consumer.parked ≠ [] →
      s'.parked = true ∧ s'.fold.consumer.parked ≠ [])
    (hf : s.final.isComplete = true → s'.final.isComplete = true) : s'.Rests order .fold := by
  cases h with
  | called hc hg => exact .called (ho _ hc) hg
  | parked hq hw => exact .parked (hp hq hw).1 (hp hq hw).2
  | stopped hc => exact .stopped (hf hc)

/-- A drive sleeps on, as long as it is not woken. -/
theorem Rests.drive_of (h : s.Rests order .drive)
    (ho : ∀ slot, s.outlet = some (.drive, slot) → s'.outlet = some (.drive, slot))
    (hf : s'.final = s.final) (hr : s'.result = s.result) (hd : s'.drive = s.drive)
    (hv : s'.finished = s.finished) : s'.Rests order .drive := by
  cases h with
  | called hc hg => exact .called (ho _ hc) hg
  | attending hq hg => exact .attending (hd.trans hq) (hf ▸ hg)
  | lingering hq hi hg => exact .lingering (hd ▸ hq) hi (hr ▸ hg)
  | finished hq => exact .finished (hv.trans hq)

/-- What others know of a combination, according to what it is about to do, and whether it has an
    event on its way. -/
def Place (feeders : Nat) (x : Standing) (calls : Bool) (final : Slot Agent Final) :
    Drive → Prop
  | .awaitFold => x.ended = false ∧ final.taken = false
  | .push _ => x.ended = calls ∧ final.isComplete = true
  | .awaitFeeder k _ _ => k < feeders ∧ (x.ended = true ∨ x.dismissed = true) ∧
      final.isComplete = true
  | .settled _ => (x.ended = true ∨ x.dismissed = true) ∧ final.isComplete = true
  | .cancelFeeder _ _ | .awaitCancelled _ _ => False

/-- What holds whatever is done to a combination. -/
structure Kept (order : List C.Feeder) (x : Standing) (s : Node C S) : Prop where
  fed : Fed S s.fold s.feeder s.result
  place : Place order.length x s.outlet.isSome s.final s.drive
  called : Called x.calling x.dismissed (s.outlet.map Prod.snd)
  carried : s.fold.delivering.isSome = true ↔ ∃ slot, s.outlet = some (.fold, slot)
  pushing : ∀ slot, s.outlet = some (.drive, slot) → ∃ c, s.drive = .push c
  stopped : s.final.isComplete = true → ∃ c, s.fold.consumer.turn = .stop c
  left : ∀ o, s.final.result = some o →
    ∃ m, o = .ok m ∧ (m.downstreamEnded = true → x.dismissed = true)
  dismissed : s.fold.machine.downstreamEnded = true → x.dismissed = true
  finished : x.finished = s.finished
  last : s.finished = true → s.final.isComplete = true
  fresh : s.started = false → ∀ a, s.awake a = true
  sleeps : ∀ a, s.awake a = true ∨ s.Rests order a

variable {x y : Standing} {m : Move C.Output}

theorem Place.dismiss {n : Nat} {calls : Bool} {final : Slot Agent Final} {d : Drive}
    (h : Place n x calls final d) (he : y.ended = x.ended)
    (hd : x.dismissed = true → y.dismissed = true) : Place n y calls final d := by
  cases d with
  | awaitFold => exact ⟨he.trans h.1, h.2⟩
  | push c => exact ⟨he.trans h.1, h.2⟩
  | awaitFeeder k o c => exact ⟨h.1, h.2.1.imp he.trans hd, h.2.2⟩
  | settled r => exact ⟨h.1.imp he.trans hd, h.2⟩
  | cancelFeeder | awaitCancelled => exact h

/-- Whoever awaits the feeders has pushed its completion, or was told to stop. -/
theorem place_awaitFrom {n k : Nat} {calls : Bool} {final : Slot Agent Final}
    {delivered : Outcome Demand} {c : Completion} (hx : x.ended = true ∨ x.dismissed = true)
    (hf : final.isComplete = true) : Place n x calls final (.awaitFrom n k delivered c) := by
  rw [Drive.awaitFrom]
  split
  · rename_i hk
    exact ⟨hk, hx, hf⟩
  · exact ⟨hx, hf⟩

namespace Kept

/-! ## The fold -/

/-- A fold that has changed is awake, or sleeps where it slept. -/
theorem sleeps_change (h : ∀ a, s.awake a = true ∨ s.Rests order a)
    (feeder : (i : C.Feeder) → (S i).State) (f : Combination C) (a : Agent) :
    ({ s with feeder := feeder }.change f).awake a = true ∨
      ({ s with feeder := feeder }.change f).Rests order a := by
  rcases h a with ha | ha
  · exact .inl (by simp [Node.change, wake, ha])
  · cases a with
    | drive => exact .inr (ha.drive_of (fun _ => id) rfl rfl rfl rfl)
    | fold =>
      by_cases hw : s.parked = true ∧ f.consumer.parked = []
      · exact .inl (by simp [Node.change, wake, hw])
      · refine .inr (ha.fold_of (fun _ => id) (fun hp _ => ?_) id)
        have hf : f.consumer.parked ≠ [] := fun hf => hw ⟨hp, hf⟩
        exact ⟨by simp [Node.change, wake, hp, hf], hf⟩

/-- The fold changes, without its downstream. -/
theorem change (h : Kept order x s) {f : Combination C} {feeder : (i : C.Feeder) → (S i).State}
    (hf : Fed S f feeder s.result) (hd : f.delivering = s.fold.delivering)
    (ht : s.final.isComplete = true → f.consumer.turn = s.fold.consumer.turn)
    (hm : f.machine.downstreamEnded = true → s.fold.machine.downstreamEnded = true) :
    Kept order x ({ s with feeder := feeder }.change f) where
  fed := hf
  place := h.place
  called := h.called
  carried := (congrArg (Option.isSome · = true) hd).to_iff.trans h.carried
  pushing := h.pushing
  stopped hc := (h.stopped hc).imp fun c hc' => (ht hc).trans hc'
  left := h.left
  dismissed hn := h.dismissed (hm hn)
  finished := h.finished
  last := h.last
  fresh hn a := by simp [Node.change, wake, h.fresh hn a]
  sleeps := sleeps_change h.sleeps feeder f

theorem sound (h : Kept order x s) : s.fold.consumer.Sound :=
  let ⟨_, hr⟩ := h.fed.reached
  (Combination.kept_run hr).held.sound

/-- The fold takes a step without its downstream. -/
theorem follow (h : Kept order x s) (hC : C.Remembers) (ha : s.Runs .fold) {e : Seen C}
    {f : Combination C} (hs : Combination.Step s.fold e f) (he : e.deed.Inward) :
    Kept order x (s.follow e f) := by
  obtain ⟨hu, hd, hm⟩ := hs.inward he hC
  exact h.change (h.fed.direct hs hu) hd (fun hf => nomatch hf.symm.trans ha.2.1) hm

/-- Something is done to the fold by whoever cancels it. -/
theorem revoke (h : Kept order x s) {e : Seen C} {f : Combination C}
    (hs : Combination.Step s.fold e f) (he : e.deed.Revokes) : Kept order x (s.change f) := by
  obtain ⟨-, ht, hd, hm⟩ := hs.revokes he h.sound
  exact h.change (h.fed.revoke hs he) hd (fun _ => ht) fun hn => hm ▸ hn

/-- The fold is cancelled. -/
theorem cancelFold (h : Kept order x s) : Kept order x s.cancelFold :=
  cancelFold_of h (h.change h.fed.quit rfl (fun _ => Combination.quit_turn h.sound) id)

/-- A feeder sends an event. -/
theorem receive (h : Kept order x s) (hl : ∀ i, Polite (S i)) {i : C.Feeder}
    {e : Event (C.Input i)} {state : (S i).State} (hs : (S i).Step (s.feeder i) (.calls e) state) :
    Kept order x (s.receive i e state) := by
  obtain ⟨hd, hm⟩ := s.fold.send_delivering i e
  exact h.change (h.fed.receive hl hs) hd (fun _ => Combination.send_turn h.sound i e)
    fun hn => hm ▸ hn

/-- The feeders are subscribed to, and the fold is started. -/
theorem start (h : Kept order x s) : Kept order x { s with started := true } := {
  h with
  fresh := fun hn => nomatch hn
  sleeps := fun a => (h.sleeps a).imp_right fun hr => hr.congr rfl rfl rfl rfl rfl rfl rfl }

/-- If the combination was cancelled before, so is the fold. -/
theorem launch (h : Kept order x s) : Kept order x s.launch :=
  launch_of h.start fun _ => cancelFold

/-- Who finds nothing to read leaves its waker. -/
theorem park (h : Kept order x s) (ha : s.Runs .fold) {p : Nat}
    (hp : s.fold.consumer.awaited = some (p, none)) :
    Kept order x ({ s with parked := true }.sleep .fold) := {
  h with
  fresh := fun hn => nomatch ha.1.symm.trans hn
  sleeps := fun a => by
    cases a with
    | fold => exact .inr (.parked rfl (by simp [Fold.Consumer.parked, sleep, hp]))
    | drive =>
      exact (h.sleeps .drive).imp (by simp [sleep]) fun hr =>
        hr.drive_of (fun _ => id) rfl rfl rfl rfl }

/-- When the fold is final, nobody but the drive has called the downstream. -/
theorem outlet_drive (h : Kept order x s) (hf : s.final.isComplete = true) {a : Agent}
    {slot : Slot Agent Demand} (ho : s.outlet = some (a, slot)) : a = .drive := by
  obtain ⟨c, hc⟩ := h.stopped hf
  obtain ⟨t, hr⟩ := h.fed.reached
  have hp := (Combination.kept_run hr).held.phase
  rw [Combination.Phase, hc] at hp
  cases a with
  | drive => rfl
  | fold =>
    have hd := h.carried.2 ⟨slot, ho⟩
    simp [hp.2] at hd

/-- As long as the fold goes on, nobody but the fold has called the downstream. -/
theorem outlet_fold (h : Kept order x s) (hf : s.final.isComplete = false) {a : Agent}
    {slot : Slot Agent Demand} (ho : s.outlet = some (a, slot)) : a = .fold := by
  cases a with
  | fold => rfl
  | drive =>
    obtain ⟨c, hc⟩ := h.pushing slot ho
    have hp := h.place
    rw [hc] at hp
    exact absurd hp.2 (by simp [hf])

/-- Who has called its downstream finds no answer, and leaves its waker. -/
theorem wait (h : Kept order x s) (hs : s.started = true) {a : Agent}
    {slot slot' : Slot Agent Demand} {w : Option Agent} (ho : s.outlet = some (a, slot))
    (hp : slot.poll a = (slot', w, .pending)) :
    Kept order x ({ s with outlet := some (a, slot') }.sleep a) := by
  have hk := h.called
  rw [ho] at hk
  obtain ⟨hk, hg⟩ := hk.wait hp
  refine {
    h with
    place := (congrArg Option.isSome ho).symm ▸ h.place
    called := hk
    carried := h.carried.trans (by simp [ho, sleep])
    pushing := ?_
    fresh := fun hn => nomatch hs.symm.trans hn
    sleeps := fun b => ?_ }
  · rintro _ ⟨⟩
    exact h.pushing slot ho
  · by_cases hb : b = a
    · subst hb
      exact .inr (.called rfl hg)
    · refine (h.sleeps b).imp (by simp [sleep, hb]) fun hr => ?_
      have hn : ∀ slot, s.outlet ≠ some (b, slot) := by
        rintro slot hc
        cases ho.symm.trans hc
        exact hb rfl
      cases b with
      | fold =>
        exact hr.fold_of (fun slot hc => absurd hc (hn slot)) (fun hp hw => ⟨hp, hw⟩) id
      | drive => exact hr.drive_of (fun slot hc => absurd hc (hn slot)) rfl rfl rfl rfl

/-- As long as the fold goes on, it is awaited. -/
theorem awaits_fold (h : Kept order x s) (hf : s.final.isComplete = false) :
    s.drive = .awaitFold := by
  have hp := h.place
  cases hd : s.drive with
  | awaitFold => rfl
  | push | awaitFeeder | settled | cancelFeeder | awaitCancelled =>
    rw [hd] at hp
    simp [Place, hf] at hp

/-- The fold takes a step with its downstream. -/
theorem exchange (h : Kept order x s) (ha : s.Runs .fold) {e : Seen C} {f : Combination C}
    (hs : Combination.Step s.fold e f) (he : ∀ i x k y, e.deed ≠ .sent i x k y)
    {outlet : Option (Agent × Slot Agent Demand)}
    (hk : Called y.calling y.dismissed (outlet.map Prod.snd))
    (hc : f.delivering.isSome = true ↔ ∃ slot, outlet = some (.fold, slot))
    (ho : ∀ slot, outlet ≠ some (.drive, slot)) (hx : y.ended = x.ended ∧ y.finished = x.finished)
    (hd : x.dismissed = true → y.dismissed = true)
    (hm : f.machine.downstreamEnded = true → y.dismissed = true) :
    Kept order y ({ s with outlet := outlet }.follow e f) where
  fed := h.fed.direct hs he
  place := by
    have hp := h.place
    rw [h.awaits_fold ha.2.1] at hp
    simpa [Node.follow, Node.change, wake, Place, h.awaits_fold ha.2.1, hx.1] using hp
  called := hk
  carried := hc
  pushing slot hn := absurd hn (ho slot)
  stopped hf := nomatch hf.symm.trans ha.2.1
  left o hr := (h.left o hr).imp fun m hm => ⟨hm.1, fun hn => hd (hm.2 hn)⟩
  dismissed := hm
  finished := hx.2.trans h.finished
  last := h.last
  fresh hn := nomatch ha.1.symm.trans hn
  sleeps a := by
    cases a with
    | fold => exact .inl (by simp [Node.follow, Node.change, wake, ha.2.2])
    | drive =>
      refine (h.sleeps .drive).imp (fun hw => by simp [Node.follow, Node.change, wake, hw]) ?_
      refine fun hr => hr.drive_of (fun slot hc => ?_) rfl rfl rfl rfl
      cases h.outlet_fold ha.2.1 hc

/-- The fold pushes a value. -/
theorem push (h : Kept order x s) (ha : s.Runs .fold) {v : C.Output} {ps : List C.Right}
    {as : Answers C.Right} {f : Combination C}
    (hs : Combination.Step s.fold ⟨.pushed v ps, as⟩ f) :
    Kept order (x.after (.moved (.calls (.value v))))
      ((s.call .fold).follow ⟨.pushed v ps, as⟩ f) := by
  obtain ⟨-, hd, hm⟩ := hs.pushed
  exact h.exchange ha hs (by simp) .new (by simp [hd]) (by simp)
    ⟨Bool.or_false _, rfl⟩ id fun hn => h.dismissed (hm ▸ hn)

/-- The value of the fold is answered. -/
theorem reply (h : Kept order x s) (ha : s.Runs .fold) {slot slot' : Slot Agent Demand}
    {w : Option Agent} {o : Outcome Demand} (ho : s.outlet = some (.fold, slot))
    (hp : slot.poll .fold = (slot', w, .ready o)) {v : C.Output} {ps : List C.Right}
    {as : Answers C.Right} {f : Combination C}
    (hs : Combination.Step s.fold ⟨.replied v ps o, as⟩ f) :
    Kept order x ({ s with outlet := none }.follow ⟨.replied v ps o, as⟩ f) := by
  obtain ⟨-, -, hd, hm⟩ := hs.replied
  have hk := h.called
  rw [ho] at hk
  obtain ⟨hx, hn⟩ := hk.take hp
  refine h.exchange ha hs (by simp) (hx ▸ .empty) (by simp [hd]) (by simp) ⟨rfl, rfl⟩ id ?_
  exact fun hf => (hm hf).elim h.dismissed hn

/-- The fold ends, and leaves what it comes to. -/
theorem conclude (h : Kept order x s) (ha : s.Runs .fold) {c : Completion}
    (hc : s.fold.consumer.turn = .stop c) : Kept order x s.conclude := by
  have hf := h.awaits_fold ha.2.1
  have hp := h.place
  rw [hf] at hp
  have hn : s.final.result = none := by
    have hi := ha.2.1
    rw [Slot.isComplete, hp.2, Bool.or_false] at hi
    simpa using hi
  have hs : (s.final.complete (.ok s.fold.final)).1 = ⟨some (.ok s.fold.final), false, none⟩ := by
    rw [Slot.complete, Slot.takeWaker, hn, hp.2]
    rfl
  refine {
    h with
    place := ?_
    stopped := fun _ => ⟨c, hc⟩
    left := fun o ho => ?_
    last := fun _ => Slot.isComplete_complete ..
    fresh := fun hn => absurd (ha.1.symm.trans hn) (by simp)
    sleeps := fun a => ?_ }
  · simpa [Node.conclude, sleep, wake, hf, hs, Place] using hp.1
  · have ho : some (.ok s.fold.final) = some o := by
      simpa [Node.conclude, sleep, wake, hs] using ho
    exact ⟨_, (Option.some.inj ho).symm, h.dismissed⟩
  · cases a with
    | fold => exact .inr (.stopped (Slot.isComplete_complete ..))
    | drive =>
      rcases h.sleeps .drive with hw | hr
      · exact .inl (by simp [Node.conclude, sleep, wake, hw])
      · cases hr with
        | called hc hg => exact .inr (.called hc hg)
        | attending hd hg => exact .inl (by simp [Node.conclude, sleep, wake, hg.complete])
        | lingering hd hi hg => exact .inr (.lingering hd hi hg)
        | finished ho => exact .inr (.finished ho)

/-! ## The drive -/

/-- Who awaits the fold finds nothing, and leaves its waker. -/
theorem attend (h : Kept order x s) (hs : s.started = true) {slot : Slot Agent Final}
    {w : Option Agent} (hd : s.drive = .awaitFold)
    (hp : s.final.poll .drive = (slot, w, .pending)) :
    Kept order x ({ s with final := slot }.sleep .drive) := by
  obtain ⟨-, hg⟩ := Slot.poll_pending hp
  have hc := Slot.isComplete_poll hp
  have hq := h.place
  rw [hd] at hq
  refine {
    h with
    place := ?_
    stopped := fun hf => h.stopped (hc.symm.trans hf)
    left := fun o ho => nomatch hg.result.symm.trans ho
    last := fun ho => hc.trans (h.last ho)
    fresh := fun hn => nomatch hs.symm.trans hn
    sleeps := fun a => ?_ }
  · simpa [sleep, hd, Place, hg.taken] using hq.1
  · cases a with
    | drive => exact .inr (.attending hd hg)
    | fold =>
      exact (h.sleeps .fold).imp (by simp [sleep]) fun hr =>
        hr.fold_of (fun _ => id) (fun hp hw => ⟨hp, hw⟩) hc.trans

/-- The drive goes on, and nobody else is concerned. -/
theorem goOn (h : Kept order x s) (ha : s.Runs .drive) (hs : s.started = true) {d : Drive}
    {final : Slot Agent Final} (hf : final.isComplete = s.final.isComplete)
    (hr : ∀ o, final.result = some o → s.final.result = some o)
    {result : C.Feeder → Slot Agent Demand} (hq : Fed S s.fold s.feeder result)
    {outlet : Option (Agent × Slot Agent Demand)}
    (hk : Called y.calling y.dismissed (outlet.map Prod.snd))
    (hx : y.dismissed = x.dismissed ∧ y.finished = x.finished)
    (hp : Place order.length y outlet.isSome final d)
    (hc : ∀ slot, s.outlet = some (.fold, slot) ↔ outlet = some (.fold, slot))
    (hd : ∀ slot, outlet = some (.drive, slot) → ∃ c, d = .push c) :
    Kept order y { s with
      drive := d
      final := final
      result := result
      outlet := outlet } := {
  h with
  fed := hq
  place := hp
  called := hk
  carried := h.carried.trans (exists_congr hc)
  pushing := hd
  stopped := fun hn => h.stopped (hf.symm.trans hn)
  left := fun o ho => hx.1 ▸ h.left o (hr o ho)
  dismissed := hx.1 ▸ h.dismissed
  finished := hx.2.trans h.finished
  last := fun ho => hf.trans (h.last ho)
  fresh := fun hn => nomatch hs.symm.trans hn
  sleeps := fun a => by
    cases a with
    | drive => exact .inl ha.2
    | fold =>
      exact (h.sleeps .fold).imp id fun hr =>
        hr.fold_of (fun slot => (hc slot).1) (fun hp hw => ⟨hp, hw⟩) hf.trans }

/-- When the fold is final, and the drive does not push, nobody has called the downstream. -/
theorem silent (h : Kept order x s) (hf : s.final.isComplete = true)
    (hd : ∀ c, s.drive ≠ .push c) : s.outlet = none := by
  rcases ho : s.outlet with _ | ⟨a, slot⟩
  · rfl
  · obtain rfl := h.outlet_drive hf ho
    obtain ⟨c, hc⟩ := h.pushing slot ho
    exact absurd hc (hd c)

/-- Who awaits the fold learns what it has come to. -/
theorem learn (h : Kept order x s) (ha : s.Runs .drive) (hs : s.started = true)
    {slot : Slot Agent Final} {w : Option Agent} {o : Outcome Final} (hd : s.drive = .awaitFold)
    (hp : s.final.poll .drive = (slot, w, .ready o)) :
    Kept order x { s with
      final := slot
      drive := Drive.next order.length .awaitFold o } := by
  have hq := h.place
  rw [hd] at hq
  have hc := Slot.isComplete_poll hp
  obtain ⟨hr, rfl⟩ := Slot.poll_ready hp hq.2
  obtain ⟨m, rfl, hm⟩ := h.left o hr
  have ho : s.outlet = none := h.silent hc.symm (by simp [hd])
  refine h.goOn ha hs hc (fun _ hn => nomatch hn) h.fed h.called ⟨rfl, rfl⟩ ?_ (fun _ => .rfl) ?_
  · rw [Drive.next]
    split
    · rename_i hn
      exact place_awaitFrom (.inr (hm hn)) rfl
    · exact ⟨by rw [hq.1, ho]; rfl, rfl⟩
  · simp [ho]

/-- The completion is pushed. -/
theorem complete (h : Kept order x s) (ha : s.Runs .drive) (hs : s.started = true)
    {c : Completion} (hd : s.drive = .push c) :
    Kept order (x.after (α := C.Output) (.moved (.calls (.completion c)))) (s.call .drive) := by
  have hp := h.place
  rw [hd] at hp
  refine h.goOn ha hs rfl (fun _ => id) h.fed .new ⟨rfl, rfl⟩ ?_ (fun slot => ?_) fun _ _ => ⟨c, hd⟩
  · rw [hd]
    exact ⟨Bool.or_true _, hp.2⟩
  · refine ⟨fun ho => ?_, by simp⟩
    cases h.outlet_drive hp.2 ho

/-- The completion is answered. -/
theorem completed (h : Kept order x s) (ha : s.Runs .drive) (hs : s.started = true)
    {c : Completion} {slot slot' : Slot Agent Demand} {w : Option Agent} {o : Outcome Demand}
    (hd : s.drive = .push c) (ho : s.outlet = some (.drive, slot))
    (hp : slot.poll .drive = (slot', w, .ready o)) :
    Kept order x { s with
      outlet := none
      drive := Drive.next order.length (.push c) o } := by
  have hq := h.place
  rw [hd, ho] at hq
  have hk := h.called
  rw [ho] at hk
  obtain ⟨hx, -⟩ := hk.take hp
  refine h.goOn ha hs rfl (fun _ => id) h.fed (hx ▸ .empty) ⟨rfl, rfl⟩ ?_ ?_ fun _ hn => nomatch hn
  · exact place_awaitFrom (.inl hq.1) hq.2
  · simp [ho]

/-- Who awaits a feeder has learnt what the fold has come to. -/
theorem awaits_feeder (h : Kept order x s) {k : Nat} (hd : s.drive.awaits = some k) :
    k < order.length ∧ (x.ended = true ∨ x.dismissed = true) ∧ s.final.isComplete = true ∧
      ∃ o c, s.drive = .awaitFeeder k o c := by
  have hp := h.place
  cases hs : s.drive with
  | awaitFold | push | settled | cancelFeeder => simp [hs, Drive.awaits] at hd
  | awaitCancelled i f => simp [hs, Place] at hp
  | awaitFeeder i o c =>
    rw [hs] at hp hd
    obtain rfl := Option.some.inj hd
    exact ⟨hp.1, hp.2.1, hp.2.2, o, c, rfl⟩

/-- Who awaits a feeder finds that it goes on, and leaves its waker. -/
theorem linger (h : Kept order x s) (hs : s.started = true) {k : Nat} {i : C.Feeder}
    {slot : Slot Agent Demand} {w : Option Agent} (hd : s.drive.awaits = some k)
    (hi : order[k]? = some i) (hp : (s.result i).poll .drive = (slot, w, .pending)) :
    Kept order x ({ s with result := Function.update s.result i slot }.sleep .drive) := {
  h with
  fed := h.fed.poll hp
  fresh := fun hn => nomatch hs.symm.trans hn
  sleeps := fun a => by
    cases a with
    | drive =>
      refine .inr (.lingering hd hi ?_)
      simpa [sleep] using (Slot.poll_pending hp).2
    | fold =>
      exact (h.sleeps .fold).imp (by simp [sleep]) fun hr =>
        hr.fold_of (fun _ => id) (fun hp hw => ⟨hp, hw⟩) id }

/-- Who awaits a feeder finds that it is over, and awaits the next one. -/
theorem leave (h : Kept order x s) (ha : s.Runs .drive) (hs : s.started = true) {k : Nat}
    {i : C.Feeder} {slot : Slot Agent Demand} {w : Option Agent} {o : Outcome Demand}
    (hd : s.drive.awaits = some k) (hp : (s.result i).poll .drive = (slot, w, .ready o)) :
    Kept order x { s with
      result := Function.update s.result i slot
      drive := s.drive.passed order.length } := by
  obtain ⟨-, hx, hf, o, c, hc⟩ := h.awaits_feeder hd
  refine h.goOn ha hs rfl (fun _ => id) (h.fed.poll hp) h.called ⟨rfl, rfl⟩ ?_ (fun _ => .rfl) ?_
  · rw [hc]
    exact place_awaitFrom hx hf
  · simp [h.silent hf (by simp [hc])]

/-- The drive ends. -/
theorem finish (h : Kept order x s) (hs : s.started = true) {r : Outcome Demand}
    (hd : s.drive = .settled r) :
    Kept order (x.after (α := C.Output) (.moved (.ends r)))
      ({ s with finished := true }.sleep .drive) := by
  have hp := h.place
  rw [hd] at hp
  exact {
    h with
    place := by
      show Place order.length _ s.outlet.isSome s.final s.drive
      rw [hd]
      exact hp
    finished := rfl
    last := fun _ => hp.2
    fresh := fun hn => nomatch hs.symm.trans hn
    sleeps := fun a => by
      cases a with
      | drive => exact .inr (.finished rfl)
      | fold =>
        exact (h.sleeps .fold).imp (by simp [sleep]) fun hr =>
          hr.fold_of (fun _ => id) (fun hp hw => ⟨hp, hw⟩) id }

/-! ## The feeders, the downstream and the owner -/

/-- A feeder does something by itself. -/
theorem feeder (h : Kept order x s) {i : C.Feeder} {state : (S i).State}
    (hs : (S i).Step (s.feeder i) .tacit state) :
    Kept order x { s with feeder := Function.update s.feeder i state } := {
  h with
  fed := h.fed.tacit hs
  sleeps := fun a => (h.sleeps a).imp_right fun hr => hr.congr rfl rfl rfl rfl rfl rfl rfl }

/-- A feeder is over. -/
theorem release (h : Kept order x s) {i : C.Feeder} {r : Outcome Demand} {state : (S i).State}
    (hs : (S i).Step (s.feeder i) (.ends r) state) : Kept order x (s.release i r state) := {
  h with
  fed := h.fed.release hs
  fresh := fun hn a => by simp [Node.release, wake, h.fresh hn a]
  sleeps := fun a => by
    rcases h.sleeps a with hw | hr
    · exact .inl (by simp [Node.release, wake, hw])
    · cases hr with
      | called hc hg => exact .inr (.called hc hg)
      | parked hp hw => exact .inr (.parked hp hw)
      | stopped hf => exact .inr (.stopped hf)
      | attending hd hg => exact .inr (.attending hd hg)
      | @lingering k j hd hi hg =>
        by_cases hj : j = i
        · subst hj
          exact .inl (by simp [Node.release, wake, hg.complete])
        · refine .inr (.lingering hd hi ?_)
          simpa [Node.release, wake, hj] using hg
      | finished ho => exact .inr (.finished ho) }

/-- The downstream answers. -/
theorem answer (h : Kept order x s) (o : Outcome Demand) (hx : x.calling = true) :
    Kept order (x.after (α := C.Output) (.answered o)) (s.answer o) := by
  have hk := h.called
  rw [hx] at hk
  obtain ⟨slot, hc, hk⟩ := hk.answer o
  obtain ⟨⟨a, slot⟩, ho, rfl⟩ := Option.map_eq_some_iff.1 hc
  have hd : x.dismissed = true → (x.dismissed || dismisses o) = true := fun hn => by simp [hn]
  have hp := h.place.dismiss (y := x.after (α := C.Output) (.answered o)) rfl hd
  rw [Node.answer, ho]
  rw [ho] at hp
  exact {
    h with
    place := hp
    called := hk
    carried := h.carried.trans (by simp [ho, wake])
    pushing := by
      rintro _ ⟨⟩
      exact h.pushing slot ho
    left := fun o hr => (h.left o hr).imp fun m hm => ⟨hm.1, fun hn => hd (hm.2 hn)⟩
    dismissed := fun hn => hd (h.dismissed hn)
    fresh := fun hn a => by simp [wake, h.fresh hn a]
    sleeps := fun b => by
      rcases h.sleeps b with hw | hr
      · exact .inl (by simp [wake, hw])
      · cases hr with
        | called hc hg =>
          cases ho.symm.trans hc
          exact .inl (by simp [wake, hg.complete])
        | parked hp hw => exact .inr (.parked hp hw)
        | stopped hf => exact .inr (.stopped hf)
        | attending hd hg => exact .inr (.attending hd hg)
        | lingering hd hi hg => exact .inr (.lingering hd hi hg)
        | finished ho => exact .inr (.finished ho) }

/-- Others know that the combination was cancelled. -/
theorem dismiss (h : Kept order x s) : Kept order (x.after (α := C.Output) .cancelled) s := {
  h with
  place := h.place.dismiss rfl fun _ => rfl
  called := h.called.dismiss
  left := fun o hr => (h.left o hr).imp fun _ hm => ⟨hm.1, fun _ => rfl⟩
  dismissed := fun _ => rfl }

/-- The status of the combination changes. -/
theorem mark (h : Kept order x s) : Kept order x { s with cancelled := true } := {
  h with
  sleeps := fun a => (h.sleeps a).imp_right fun hr => hr.congr rfl rfl rfl rfl rfl rfl rfl }

/-- The owner cancels the combination. -/
theorem cancel (h : Kept order x s) : Kept order (x.after (α := C.Output) .cancelled) s.cancel :=
  cancel_of h.dismiss h.dismiss.mark fun _ => cancelFold

/-! ## Every run -/

/-- Every step of a combination keeps what holds. -/
theorem step (h : Kept order x s) (hC : C.Remembers) (hl : ∀ i, Polite (S i))
    (hs : Step order s m s') : Kept order (x.after (.moved m)) s' := by
  cases hs with
  | launch ha hs => exact h.launch
  | fold ha hs he => exact h.follow hC ha hs he
  | park ha hp => exact h.park ha hp
  | push ha ho hs => exact h.push ha hs
  | reply ha ho hp hs => exact h.reply ha ho hp hs
  | stop ha hc => exact h.conclude ha hc
  | wait ha hs ho hp => exact h.wait hs ho hp
  | attend ha hs hd hp => exact h.attend hs hd hp
  | learn ha hs hd hp => exact h.learn ha hs hd hp
  | complete ha hs hd ho => exact h.complete ha hs hd
  | completed ha hs hd ho hp => exact h.completed ha hs hd ho hp
  | dismiss ha hs hd hi =>
    -- The fold does not fail.
    have hp := h.place
    rw [hd] at hp
    cases hp
  | linger ha hs hd hi hp => exact h.linger hs hd hi hp
  | leave ha hs hd hi hp => exact h.leave ha hs hd hp
  | finish ha hs hd => exact h.finish hs hd
  | feeder hs hf => exact h.feeder hf
  | receive hs hf => exact h.receive hl hf
  | release hs hf => exact h.release hf

theorem kept_new (order : List C.Feeder) : Kept order .new (Node.new C S) where
  fed := ⟨⟨[], .nil⟩, fun i => .start (S i) _⟩
  place := ⟨rfl, rfl⟩
  called := .empty
  carried := by simp [Node.new, Combination.new]
  pushing _ hn := nomatch hn
  stopped hn := nomatch hn
  left _ hn := nomatch hn
  dismissed hn := nomatch hn
  finished := rfl
  last hn := nomatch hn
  fresh _ _ := rfl
  sleeps _ := .inl rfl

theorem kept_reaches (hC : C.Remembers) (hl : ∀ i, Polite (S i))
    (h : Reaches (System.combine C S order) x s) : Kept order x s :=
  h.invariant (kept_new order) (fun h hs => h.step hC hl hs) (fun o h hx => h.answer o hx)
    fun h => h.cancel

end Kept

end Node

end ResumeOnce.Network

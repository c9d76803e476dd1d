import ResumeOnce.Proofs.Channel.Vigil
import ResumeOnce.Proofs.Reactor.Disowning

/-!
# Rights that are let go together

With a channel go those who wait in it, and with a value that is let go the rights that it
carries. Each of these rights that was not used is a leak. If the leak of one panics, the others
are let go while the panic unwinds, and they are only counted then. So however many rights there
are and however they are nested, each is counted once, and there is one panic or none.

* `World.Owes`: a right that is still to be used;
* `Spends`: rights are used up, and a number of leaks is counted;
* `resume_owed`, `carryOutAll_owed`: rights that are answered are no leaks;
* `LetsGo`: rights are let go, and each of them leaks;
* `LetsGo.cons`, `LetsGo.map`: one thing after another, even though one of them panics;
* `releaseChannel_held`, `releaseChannel_last`: a handle of a channel goes away, and others are
  left, or it was the last one.
-/

namespace ResumeOnce

/-- The resumption once its right is used. -/
def Resumption.spent (r : Resumption) : Resumption := { r with resumed := true }

namespace Reactor

variable {env : Env} {w w' w'' w₁ : World} {ids ids' : List Nat} {n p k k' : Nat} {r : Reply}

/-! ## Rights that are owed -/

/-- Nothing is in a slot that would let go something in its turn, and to wake whoever sleeps there
    does no more than to tell it. -/
structure World.Calm (w : World) (slot : Slot Waker Parcel) : Prop where
  bare : ∀ r, slot.result = some r → Bare r
  wakes : ∀ k, slot.waker = some k → w.Wakes k

/-- A right was not used yet, its leak does not end the program, and its slot is calm. -/
def World.Owes (w : World) (p : Nat) : Prop :=
  ∃ r, w.resumptions[p]? = some r ∧ r.resumed = false ∧ r.policy ≠ .abort ∧
    w.Calm (w.slot r.slot)

theorem World.Calm.congr {slot : Slot Waker Parcel} (h : w.Calm slot)
    (hc : w'.circumstances.isShutdown = w.circumstances.isShutdown) : w'.Calm slot :=
  ⟨h.bare, fun k hk => by rw [World.Wakes, hc]; exact h.wakes k hk⟩

/-- Nothing is in a slot whose answer did not come. -/
theorem World.calm_of_pending {slot : Slot Waker Parcel} (hr : slot.result = none)
    (hw : ∀ k ∈ slot.waker, w.Wakes k) : w.Calm slot where
  bare r h := absurd (hr.symm.trans h) (Option.some_ne_none r).symm
  wakes := hw

/-- What a right is owed depends on no more than the rights, the slots, and the shutdown. -/
theorem World.Owes.congr (h : w.Owes p) (hr : w'.resumptions = w.resumptions)
    (hs : w'.slots = w.slots)
    (hc : w'.circumstances.isShutdown = w.circumstances.isShutdown) : w'.Owes p := by
  obtain ⟨r, hp, hu, ha, hm⟩ := h
  refine ⟨r, hr ▸ hp, hu, ha, ?_⟩
  rw [World.slot, hs]
  exact hm.congr hc

/-- The leak of a right is a panic. -/
def World.Fragile (w : World) (p : Nat) : Prop :=
  w.resumptions[p]?.map Resumption.policy = some .panic

instance (w : World) : DecidablePred w.Fragile := fun p =>
  inferInstanceAs (Decidable (w.resumptions[p]?.map Resumption.policy = some .panic))

/-- Rights are used up, and a number of leaks is counted; channels and circumstances stay. -/
structure Spends (ids : List Nat) (k : Nat) (w w' : World) : Prop where
  channels : w'.channels = w.channels
  circumstances : w'.circumstances = w.circumstances
  leaks : w'.leaks = w.leaks + k
  resumptions : ∀ p, w'.resumptions[p]? =
    if p ∈ ids then w.resumptions[p]?.map Resumption.spent else w.resumptions[p]?
  calm : ∀ n, w.Calm (w.slot n) → w'.Calm (w'.slot n)

namespace Spends

theorem refl (w : World) : Spends [] 0 w w := ⟨rfl, rfl, rfl, fun _ => rfl, fun _ => id⟩

theorem trans (h : Spends ids k w w') (h' : Spends ids' k' w' w'') :
    Spends (ids ++ ids') (k + k') w w'' where
  channels := h'.channels.trans h.channels
  circumstances := h'.circumstances.trans h.circumstances
  leaks := by rw [h'.leaks, h.leaks, Nat.add_assoc]
  resumptions p := by
    -- A right that is used twice is as one that is used once.
    have hs : Resumption.spent ∘ Resumption.spent = Resumption.spent := rfl
    rw [h'.resumptions, h.resumptions]
    by_cases hp : p ∈ ids <;> by_cases hp' : p ∈ ids' <;> simp [hp, hp', hs]
  calm n hn := h'.calm n (h.calm n hn)

theorem fragile (h : Spends ids k w w') (p : Nat) : w'.Fragile p ↔ w.Fragile p := by
  have hs : Resumption.policy ∘ Resumption.spent = Resumption.policy := rfl
  rw [World.Fragile, World.Fragile, h.resumptions]
  split
  · rw [Option.map_map, hs]
  · rfl

/-- Whoever is not concerned is still owed. -/
theorem owes (h : Spends ids k w w') (hp : p ∉ ids) (ho : w.Owes p) : w'.Owes p := by
  obtain ⟨r, hr, hu, ha, hb⟩ := ho
  refine ⟨r, ?_, hu, ha, h.calm _ hb⟩
  rw [h.resumptions, if_neg hp, hr]

theorem owes_all (h : Spends ids k w w') (hd : (ids ++ ids').Nodup)
    (ho : ∀ p ∈ ids ++ ids', w.Owes p) : ∀ p ∈ ids', w'.Owes p := fun p hp =>
  have hp' : p ∉ ids := fun hp' => (List.nodup_append.1 hd).2.2 p hp' p hp rfl
  h.owes hp' (ho p (List.mem_append_right _ hp))

/-- A right that was let go is used up. -/
theorem resumed (h : Spends ids k w w') (hp : p ∈ ids) (ho : w.Owes p) :
    ∃ r, w'.resumptions[p]? = some r ∧ r.resumed = true := by
  obtain ⟨r, hr, -⟩ := ho
  refine ⟨r.spent, ?_, rfl⟩
  rw [h.resumptions, if_pos hp, hr]
  rfl

/-- What happens while a panic unwinds, seen from outside. -/
theorem rewound (h : Spends ids k w.unwound w') : Spends ids k w w'.rewound where
  channels := h.channels
  circumstances := by
    rw [World.rewound, h.circumstances]
    rfl
  leaks := h.leaks
  resumptions := h.resumptions
  calm n hn :=
    have hu : w.unwound.Calm (w.unwound.slot n) := hn.congr rfl
    (h.calm n hu).congr rfl

end Spends

/-! ## Slots -/

theorem slot_withSlot_eq (slot : Slot Waker Parcel) (m : Nat) :
    (w.withSlot n slot).slot m = if n = m ∧ n < w.slots.size then slot else w.slot m := by
  simp only [World.slot, World.withSlot, Array.getD_eq_getD_getElem?, Array.getElem?_modify]
  by_cases hn : n = m
  · subst hn
    by_cases hs : n < w.slots.size <;> simp [hs]
  · simp [hn]

/-- A slot is changed and stays calm, and somebody is woken. -/
theorem spends_withSlot {slot : Slot Waker Parcel} (hs : w.Calm (w.slot n) → w.Calm slot)
    (waker : Option Waker) : Spends [] 0 w ((w.withSlot n slot).awaken waker) := by
  have hc : ((w.withSlot n slot).awaken waker).circumstances = w.circumstances := by
    rcases waker with _ | _ | _ | _ | _ <;> rfl
  refine ⟨?_, hc, ?_, fun _ => ?_, fun m hm => ?_⟩
  · rcases waker with _ | _ | _ | _ | _ <;> rfl
  · rcases waker with _ | _ | _ | _ | _ <;> rfl
  · rw [resumptions_awaken]
    rfl
  · rw [slot_awaken, slot_withSlot_eq]
    split
    · rename_i hn
      obtain rfl := hn.1
      exact (hs hm).congr (by rw [hc])
    · exact hm.congr (by rw [hc])

/-- A slot is filled with an answer that would let go nothing. -/
theorem completeSlot_spends (env : Env) (hc : w.Calm (w.slot n)) (hr : Bare r) :
    ∃ w', (completeSlot env n r).on w = (.ok (), w') ∧ Spends [] 0 w w' := by
  have hw : (completeSlot env n r).on w = (.ok (),
      (w.withSlot n ((w.slot n).complete r).1).awaken ((w.slot n).complete r).2) := by
    change (wakeAny env ((w.slot n).complete r).2).on (w.withSlot n ((w.slot n).complete r).1) = _
    exact wakeAny_of_wakes fun k hk => hc.wakes k hk
  refine ⟨_, hw, spends_withSlot (fun _ => ⟨fun r' h => ?_, fun _ h => ?_⟩) _⟩
  · -- An answer that is there already stays.
    rw [Slot.complete, Slot.takeWaker] at h
    rcases hs : (w.slot n).result with _ | r'' <;> rw [hs] at h <;> cases h
    · exact hr
    · exact hc.bare _ hs
  · cases h

/-- What a slot holds is taken out. -/
theorem emptySlot_spends (hc : w.Calm (w.slot n)) : ∃ o w', (emptySlot n).on w = (.ok o, w') ∧
    (∀ r, o = some r → Bare r) ∧ Spends [] 0 w w' := by
  have he : (emptySlot n).on w = (.ok (w.slot n).result,
      (w.withSlot n { w.slot n with result := none }).awaken none) := rfl
  have hs : w.Calm { w.slot n with result := none } := World.calm_of_pending rfl hc.wakes
  exact ⟨_, _, he, hc.bare, spends_withSlot (fun _ => hs) none⟩

/-- A slot is polled. -/
theorem pollSlot_spends (env : Env) {k : Waker} (hc : w.Calm (w.slot n)) (hk : w.Wakes k) :
    ∃ p w', (pollSlot env n k).on w = (.ok p, w') ∧ Spends [] 0 w w' := by
  have hp : (∀ k' ∈ ((w.slot n).poll k).2.1, w.Wakes k') ∧ w.Calm ((w.slot n).poll k).1 := by
    rw [Slot.poll]
    split
    · exact ⟨hc.wakes, World.calm_of_pending rfl fun k' h => absurd h (Option.not_mem_none k')⟩
    · rename_i hr
      have hn : ∀ k' ∈ (none : Option Waker), w.Wakes k' := fun k' h =>
        absurd h (Option.not_mem_none k')
      split
      · exact ⟨hn, hc⟩
      · refine ⟨hn, World.calm_of_pending hr fun k' h => ?_⟩
        rwa [← Option.some.inj h]
  have hw : (pollSlot env n k).on w = (.ok ((w.slot n).poll k).2.2,
      (w.withSlot n ((w.slot n).poll k).1).awaken ((w.slot n).poll k).2.1) := by
    change (wakeAny env ((w.slot n).poll k).2.1 >>= fun _ => pure ((w.slot n).poll k).2.2).on
      (w.withSlot n ((w.slot n).poll k).1) = _
    exact on_bind_of_ok (wakeAny_of_wakes hp.1)
  exact ⟨_, _, hw, spends_withSlot (fun _ => hp.2) _⟩

/-- The waiting side of a slot goes away. -/
theorem dropWaiter_spends (env : Env) (hc : w.Calm (w.slot n)) :
    ∃ w', (dropWaiter env n).on w = (.ok (), w') ∧ Spends [] 0 w w' := by
  let w₁ : World := { w with slots := w.slots.modify n fun r => { r with heard := false } }
  have hs (m : Nat) : w₁.slot m = w.slot m := by
    simp only [w₁, World.slot, Array.getD_eq_getD_getElem?, Array.getElem?_modify]
    split
    · rcases w.slots[m]? with _ | r <;> rfl
    · rfl
  have h₁ : Spends [] 0 w w₁ := ⟨rfl, rfl, rfl, fun _ => rfl, fun m hm => by
    rw [hs]
    exact hm.congr rfl⟩
  obtain ⟨o, w₂, he, ho, h₂⟩ := emptySlot_spends (h₁.calm n hc)
  refine ⟨w₂, ?_, h₁.trans h₂⟩
  have hm : (modify fun w : World => { w with slots := w.slots.modify n fun r =>
      { r with heard := false } } : Act Unit).on w = (.ok (), w₁) := rfl
  rw [dropWaiter, on_bind_of_ok hm, on_bind_of_ok he]
  cases o with
  | none => rfl
  | some r =>
    change (dropReply env r).on w₂ = _
    rw [ho r rfl env]
    rfl

/-! ## Rights that are answered -/

/-- A right is used. -/
theorem claim_unused {x : Resumption} (hx : w.resumptions[p]? = some x) (hu : x.resumed = false) :
    ∃ w', (claim p).on w = (.ok (some x.slot), w') ∧ w'.resumptions[p]? = some x.spent ∧
      Spends [p] 0 w w' := by
  have hc : x.claim? = some x.spent := by simp [Resumption.claim?, hu, Resumption.spent]
  have hg : (resumptionAt p).on w = (.ok x, w) := by
    change (Except.ok (w.resumptions.getD p default), w) = _
    simp [hx]
  have hp : p < w.resumptions.size := (Array.getElem?_eq_some_iff.1 hx).1
  refine ⟨{ w with resumptions := w.resumptions.setIfInBounds p x.spent }, ?_, ?_, ?_⟩
  · rw [claim, on_bind_of_ok hg, hc]
    rfl
  · simp [hp]
  · refine ⟨rfl, rfl, rfl, fun q => ?_, fun _ hm => hm.congr rfl⟩
    rw [Array.getElem?_setIfInBounds]
    by_cases hq : p = q
    · subst hq
      rw [if_pos rfl, if_pos hp, if_pos List.mem_cons_self, hx]
      rfl
    · rw [if_neg hq, if_neg fun hm => hq (List.mem_singleton.1 hm).symm]

/-- A right that is given up is no leak. -/
theorem retire_owed (ho : w.Owes p) :
    ∃ w', (retire p).on w = (.ok (), w') ∧ Spends [p] 0 w w' := by
  obtain ⟨x, hx, hu, -⟩ := ho
  obtain ⟨w', hc, -, hs⟩ := claim_unused hx hu
  refine ⟨w', ?_, hs⟩
  rw [retire, on_bind_of_ok hc]
  rfl

/-- A right that is used for an answer is no leak. -/
theorem resume_owed (env : Env) (hr : Bare r) (ho : w.Owes p) :
    ∃ w', (resume env p r).on w = (.ok true, w') ∧ Spends [p] 0 w w' := by
  obtain ⟨x, hx, hu, -, hs⟩ := ho
  obtain ⟨w₁, hc, -, h₁⟩ := claim_unused hx hu
  obtain ⟨w₂, hf, h₂⟩ := completeSlot_spends env (h₁.calm _ hs) hr
  have hs₂ := h₂.calm _ (h₁.calm _ hs)
  have hg : (slotAt x.slot).on w₂ = (.ok (w₂.slots.getD x.slot default), w₂) := rfl
  rw [resume, on_bind_of_ok hc]
  simp only []
  rw [on_bind_of_ok hf, on_bind_of_ok hg]
  cases hd : (w₂.slots.getD x.slot default).heard with
  | true => exact ⟨w₂, rfl, h₁.trans h₂⟩
  | false =>
    -- Nobody hears the answer, so that it is taken out again and let go.
    obtain ⟨o, w₃, he, ho, h₃⟩ := emptySlot_spends hs₂
    refine ⟨w₃, ?_, (h₁.trans h₂).trans h₃⟩
    change (emptySlot x.slot >>= fun r => _).on w₂ = _
    rw [on_bind_of_ok he]
    cases o with
    | none => rfl
    | some a =>
      change (dropReply env a >>= fun _ => pure true).on w₃ = _
      rw [ho a rfl env]
      rfl

/-- Whom a resolution answers, and that the answer would let go nothing. -/
def Plain : Resolution Nat Cargo → Prop
  | .reader _ answer => Bare (answer.map .cargo)
  | .writer _ _ => True

/-- Whoever is answered is no leak. -/
theorem carryOutAll_owed (env : Env) {rs : List (Resolution Nat Cargo)}
    (hn : (rs.map Resolution.party).Nodup)
    (ho : ∀ p ∈ rs.map Resolution.party, w.Owes p) (hr : ∀ x ∈ rs, Plain x) :
    ∃ w', (carryOutAll env rs).on w = (.ok (), w') ∧
      Spends (rs.map Resolution.party) 0 w w' := by
  induction rs generalizing w with
  | nil => exact ⟨w, rfl, .refl w⟩
  | cons x rs ih =>
    have hx : ∃ w₁, (carryOut env x).on w = (.ok (), w₁) ∧ Spends [x.party] 0 w w₁ := by
      have hx := ho x.party List.mem_cons_self
      cases x with
      | reader p a =>
        obtain ⟨w₁, h, h₁⟩ := resume_owed env (hr _ List.mem_cons_self) hx
        exact ⟨w₁, on_bind_of_ok h, h₁⟩
      | writer p a =>
        have ha : Bare (a.map fun _ => .unit) := fun env => by cases a <;> rfl
        obtain ⟨w₁, h, h₁⟩ := resume_owed env ha hx
        exact ⟨w₁, on_bind_of_ok h, h₁⟩
    obtain ⟨w₁, hc, h₁⟩ := hx
    have ho₁ : ∀ p ∈ rs.map Resolution.party, w₁.Owes p := h₁.owes_all hn ho
    obtain ⟨w₂, hd, h₂⟩ := ih (List.nodup_cons.1 hn).2 ho₁ fun y hy =>
      hr y (List.mem_cons_of_mem _ hy)
    refine ⟨w₂, ?_, h₁.trans h₂⟩
    rw [carryOutAll, on_bind_of_ok hc, hd]

/-! ## Rights that leak -/

/-- What it comes to that rights leak: a panic, if one of them is fragile and none unwinds. -/
def World.verdict (w : World) (ids : List Nat) : Except Halt Unit :=
  if w.circumstances.unwinding = 0 ∧ ∃ p ∈ ids, w.Fragile p then
    .error (.panicked (.text (Leak.message "Resumption")))
  else .ok ()

theorem verdict_perm (hp : ids.Perm ids') : w.verdict ids = w.verdict ids' := by
  simp only [World.verdict, hp.mem_iff]

/-- An action lets go rights: each is used up and counted as a leak. -/
def LetsGo (act : Act Unit) (ids : List Nat) : Prop :=
  ∀ w : World, ids.Nodup → (∀ p ∈ ids, w.Owes p) →
    ∃ w', act.on w = (w.verdict ids, w') ∧ Spends ids ids.length w w'

theorem letsGo_nothing : LetsGo (releaseAll []) [] := fun w _ _ =>
  ⟨w, by simp [releaseAll, World.verdict], .refl w⟩

/-- A leak is only counted, unless its policy is to panic and nothing unwinds yet. -/
theorem effect_eq_deliver {policy : LeakPolicy} (ha : policy ≠ .abort)
    (hv : ¬ (w.circumstances.unwinding = 0 ∧ policy = .panic)) :
    policy.effect (w.circumstances.unwinding != 0) = .deliver := by
  cases policy with
  | cancel => rfl
  | abort => exact absurd rfl ha
  | panic =>
    have hu : (w.circumstances.unwinding != 0) = true := bne_iff_ne.2 fun hu => hv ⟨hu, rfl⟩
    rw [hu]
    rfl

theorem letsGo_dropResumption (p : Nat) : LetsGo (dropResumption env p) [p] := by
  intro w _ ho
  obtain ⟨r, hr, hu, ha, hs⟩ := ho p List.mem_cons_self
  obtain ⟨w₁, hc, hr₁, h₁⟩ := claim_unused hr hu
  have hg : (resumptionAt p).on w₁ = (.ok r.spent, w₁) := by
    change (Except.ok (w₁.resumptions.getD p default), w₁) = _
    simp [hr₁]
  have hl : Spends [p] 1 w w₁.leaked :=
    ⟨h₁.channels, h₁.circumstances, congrArg (· + 1) h₁.leaks, h₁.resumptions, fun n hn =>
      (h₁.calm n hn).congr rfl⟩
  have hd : (dropResumption env p).on w = (leak r.policy "Resumption" >>= fun _ =>
      completeSlot env r.slot (.error Leak.fault)).on w₁ := by
    rw [dropResumption, on_bind_of_ok hc]
    simp only []
    rw [on_bind_of_ok hg, Resumption.spent]
  have hf : w.Fragile p ↔ r.policy = .panic := by simp [World.Fragile, hr]
  have hc₁ : (w₁.circumstances.unwinding != 0) = (w.circumstances.unwinding != 0) := by
    rw [h₁.circumstances]
  by_cases hv : w.circumstances.unwinding = 0 ∧ r.policy = .panic
  · -- The leak panics, and the slot is not filled.
    have he : (leak r.policy "Resumption").on w₁ =
        (.error (.panicked (.text (Leak.message "Resumption"))), w₁.leaked) := by
      rw [leak_on, hc₁, hv.1, hv.2]
      rfl
    refine ⟨w₁.leaked, ?_, hl⟩
    rw [hd, on_bind_of_panicked he, World.verdict, if_pos ⟨hv.1, p, List.mem_cons_self, hf.2 hv.2⟩]
  · -- The leak is only counted, and its fault delivered.
    have he : (leak r.policy "Resumption").on w₁ = (.ok (), w₁.leaked) := by
      rw [leak_on, hc₁, effect_eq_deliver ha hv]
    have hb : Bare (.error Leak.fault) := fun _ => rfl
    obtain ⟨w₂, hs, h₂⟩ := completeSlot_spends env (hl.calm _ hs) hb
    refine ⟨w₂, ?_, hl.trans h₂⟩
    rw [hd, on_bind_of_ok he, hs, World.verdict, if_neg]
    rintro ⟨h₀, q, hq, hx⟩
    rw [List.mem_singleton.1 hq] at hx
    exact hv ⟨h₀, hf.1 hx⟩

/-- It does not matter in which order the rights are told. -/
theorem LetsGo.perm {act : Act Unit} (h : LetsGo act ids) (hp : ids.Perm ids') :
    LetsGo act ids' := by
  intro w hn ho
  obtain ⟨w', ha, hs⟩ := h w (hp.nodup_iff.2 hn) fun p hm => ho p (hp.subset hm)
  refine ⟨w', ?_, hs.channels, hs.circumstances, hp.length_eq ▸ hs.leaks, fun p => ?_, hs.calm⟩
  · rw [ha, verdict_perm hp]
  · rw [hs.resumptions]
    simp only [hp.mem_iff]

/-- One thing after another. If the first panics, the others are let go while it unwinds. -/
theorem LetsGo.cons {act : Act Unit} {acts : List (Act Unit)} (h : LetsGo act ids)
    (hs : LetsGo (releaseAll acts) ids') : LetsGo (releaseAll (act :: acts)) (ids ++ ids') := by
  intro w hn ho
  obtain ⟨w₁, h₁, hs₁⟩ := h w (List.nodup_append.1 hn).1 fun p hp =>
    ho p (List.mem_append_left _ hp)
  have ho₁ := hs₁.owes_all hn ho
  have hn' := (List.nodup_append.1 hn).2.1
  rw [List.length_append]
  by_cases hv : w.circumstances.unwinding = 0 ∧ ∃ p ∈ ids, w.Fragile p
  · rw [World.verdict, if_pos hv] at h₁
    -- A panic unwinds, so that there is no other.
    obtain ⟨w₂, h₂, hs₂⟩ := hs w₁.unwound hn' fun p hp => (ho₁ p hp).congr rfl rfl rfl
    rw [World.verdict, if_neg fun h => Nat.succ_ne_zero _ h.1] at h₂
    refine ⟨w₂.rewound, ?_, hs₁.trans hs₂.rewound⟩
    obtain ⟨h₀, p, hp, hf⟩ := hv
    rw [releaseAll_panicked h₁ h₂, World.verdict,
      if_pos ⟨h₀, p, List.mem_append_left _ hp, hf⟩]
  · rw [World.verdict, if_neg hv] at h₁
    obtain ⟨w₂, h₂, hs₂⟩ := hs w₁ hn' ho₁
    refine ⟨w₂, ?_, hs₁.trans hs₂⟩
    have hp : w₁.verdict ids' = w.verdict (ids ++ ids') := by
      rw [World.verdict, World.verdict, hs₁.circumstances]
      congr 1
      simp only [hs₁.fragile, List.mem_append, or_and_right, exists_or, and_or_left, hv, false_or]
    rw [releaseAll_ok h₁, h₂, hp]

theorem LetsGo.both {act act' : Act Unit} (h : LetsGo act ids) (h' : LetsGo act' ids') :
    LetsGo (releaseAll [act, act']) (ids ++ ids') := by
  have hs := h.cons (h'.cons letsGo_nothing)
  rwa [List.append_nil] at hs

theorem LetsGo.map {β : Type} {f : β → Act Unit} {g : β → List Nat}
    (h : ∀ b, LetsGo (f b) (g b)) (l : List β) : LetsGo (releaseAll (l.map f)) (l.flatMap g) := by
  induction l with
  | nil => exact letsGo_nothing
  | cons b l ih => exact (h b).cons ih

theorem letsGo_dropResumptions (ps : List Nat) : LetsGo (dropResumptions env ps) ps := by
  have h := LetsGo.map (f := dropResumption env) letsGo_dropResumption ps
  rwa [List.flatMap_singleton'] at h

/-! ## What a channel holds -/

/-- The rights that a value carries. -/
def Cargo.rights : Cargo → List Nat
  | .datum _ => []
  | .action a => a.ack.toList
  | .paired a => [a.sender]
  | .merged a => [a.sender]

theorem letsGo_dropCargo (c : Cargo) : LetsGo (dropCargo env c) c.rights := by
  cases c with
  | datum d => exact letsGo_nothing
  | action a => exact letsGo_dropResumptions _
  | paired a => exact letsGo_dropResumption _
  | merged a => exact letsGo_dropResumption _

/-- The rights of a writer that waits: its own, and those that its value carries. -/
def writerRights (x : Writer Nat Cargo) : List Nat :=
  x.resumption.toList ++ x.value.toList.flatMap Cargo.rights

theorem letsGo_dropWriter (x : Writer Nat Cargo) : LetsGo (dropWriter env x) (writerRights x) :=
  (letsGo_dropResumptions x.resumption.toList).both (.map letsGo_dropCargo x.value.toList)

/-- The rights of those who wait in a channel, and those that the values in it carry. -/
def channelRights (c : Channel Nat Cargo) : List Nat :=
  c.waiting ++ c.queued.flatMap writerRights

/-! ## Handles of a channel -/

/-- The world in which one handle of a channel less is left. -/
def World.parted (w : World) (n : Nat) : World :=
  { w with channels := w.channels.modify n fun r => { r with handles := r.handles - 1 } }

/-- The world in which one handle of a channel less is left, and nothing in it. -/
def World.bereft (w : World) (n : Nat) : World :=
  { w.parted n with channels := (w.parted n).channels.modify n fun r =>
    { r with channel := .new r.channel.buffering } }

/-- A handle of a channel goes away, and others are left: nobody who waits in it is let go. -/
theorem releaseChannel_held (hh : ((w.parted n).channels.getD n default).handles ≠ 0) :
    (releaseChannel env n).on w = (.ok (), w.parted n) := by
  change (if ((w.parted n).channels.getD n default).handles = 0 then _ else _ :
    Act Unit).on (w.parted n) = _
  rw [if_neg hh]
  rfl

theorem channels_bereft {c : Channel Nat Cargo} (hc : w.channels[n]? = some ⟨c, k⟩) :
    (w.bereft n).channels[n]? = some ⟨.new c.buffering, k - 1⟩ := by
  rw [World.bereft, World.parted, Array.getElem?_modify, if_pos rfl, Array.getElem?_modify,
    if_pos rfl, hc]
  rfl

/-- With the last handle of a channel everything that is in it is let go. -/
theorem releaseChannel_eq {c : Channel Nat Cargo} (hc : w.channels[n]? = some ⟨c, 1⟩) :
    (releaseChannel env n).on w = (releaseAll [dropResumptions env c.remains.1,
      releaseAll (c.remains.2.map (dropWriter env))]).on (w.bereft n) := by
  have hr : (w.parted n).channels.getD n default = ⟨c, 0⟩ := by
    rw [World.parted, Array.getD_eq_getD_getElem?, Array.getElem?_modify, if_pos rfl, hc]
    rfl
  have hm : (modify fun w : World => { w with channels := w.channels.modify n fun r =>
      { r with handles := r.handles - 1 } } : Act Unit).on w = (.ok (), w.parted n) := rfl
  have hg : (get : Act World).on (w.parted n) = (.ok (w.parted n), w.parted n) := rfl
  rw [releaseChannel, on_bind_of_ok hm, on_bind_of_ok hg, hr]
  rfl

/-- What is let go with a channel is what was in it. -/
theorem perm_remains (c : Channel Nat Cargo) :
    c.remains.1.Perm c.waiting ∧ c.remains.2.Perm c.queued :=
  ⟨(List.reverse_perm _).symm.append_left _, (List.reverse_perm _).symm.append_left _⟩

/-- Everybody who waits in a channel, and every right that a value in it carries, is let go with
    the last handle, and each is counted. -/
theorem releaseChannel_last (env : Env) {c : Channel Nat Cargo}
    (hc : w.channels[n]? = some ⟨c, 1⟩)
    (hn : (channelRights c).Nodup)
    (ho : ∀ p ∈ channelRights c, w.Owes p) :
    ∃ w', (releaseChannel env n).on w = (w.verdict (channelRights c), w') ∧
      Spends (channelRights c) (channelRights c).length (w.bereft n) w' := by
  obtain ⟨hr, hq⟩ := perm_remains c
  have hp : (c.remains.1 ++ c.remains.2.flatMap writerRights).Perm (channelRights c) :=
    hr.append (hq.flatMap_right _)
  have hs : LetsGo (releaseAll (c.remains.2.map (dropWriter env))) _ := .map letsGo_dropWriter _
  rw [releaseChannel_eq hc]
  exact ((letsGo_dropResumptions c.remains.1).both hs).perm hp (w.bereft n) hn fun p hp =>
    (ho p hp).congr rfl rfl rfl

end Reactor

end ResumeOnce

import ResumeOnce.Proofs.Reactor.Publishing

/-!
# Handles that go away

The last holder of a handle goes away while the operation is still running. That is a leak, and
what becomes of the operation depends on the sort of the handle: one that can be cancelled is
cancelled, one that cannot be cancelled is released.

A handle of an operation that cannot be cancelled holds one of the other sort, and lets it go in
its turn. As a rule that one finds the operation released, so that there is one leak and no
cancellation. But where the first leak panics, the operation is not released any more. Then the
handle inside goes away while that panic unwinds, finds the operation running, counts a leak of its
own, and cancels the operation.

* `disownCancellable_running`, `disownUncancellable_running`, `…_ended`: the two destructors;
* `releaseAll_ok`, `releaseAll_panicked`: one after the other, or the other while a panic unwinds;
* `dropHandle_uncancellable`: what becomes of an operation that cannot be cancelled.
-/

namespace ResumeOnce.Reactor

variable {env : Env} {w w₁ w₂ : World} {n : Nat} {h : Handle}

/-! ## One thing after another -/

theorem orUnwind_ok {act : Act α} {cleanup : Act Unit} {a : α} (h : act.on w = (.ok a, w₁)) :
    (orUnwind act cleanup).on w = (.ok a, w₁) := by
  rw [orUnwind, on_tryCatch, h]

/-- What is left is let go while the panic unwinds, which goes on then. -/
theorem orUnwind_panicked {act : Act α} {cleanup : Act Unit} {x : Script.Scream}
    (h : act.on w = (.error (.panicked x), w₁)) (hc : cleanup.on w₁.unwound = (.ok (), w₂)) :
    (orUnwind act cleanup).on w = (.error (.panicked x), w₂.rewound) := by
  rw [orUnwind, on_tryCatch, h]
  exact on_bind_of_ok (whileUnwinding_ok hc)

theorem releaseAll_ok {act : Act Unit} {acts : List (Act Unit)} (h : act.on w = (.ok (), w₁)) :
    (releaseAll (act :: acts)).on w = (releaseAll acts).on w₁ :=
  on_bind_of_ok (orUnwind_ok h)

theorem releaseAll_panicked {act : Act Unit} {acts : List (Act Unit)} {x : Script.Scream}
    (h : act.on w = (.error (.panicked x), w₁))
    (hc : (releaseAll acts).on w₁.unwound = (.ok (), w₂)) :
    (releaseAll (act :: acts)).on w = (.error (.panicked x), w₂.rewound) :=
  on_bind_of_panicked (orUnwind_panicked h hc)

/-! ## The end of an operation -/

/-- The world in which an operation has come to a status. -/
def World.withStatus (w : World) (n : Nat) (status : Status) : World :=
  w.withLifecycle n { w.lifecycle n with status }

theorem lifecycle_withStatus (hn : n < w.lifecycles.size) (status : Status) :
    (w.withStatus n status).lifecycle n = { w.lifecycle n with status } :=
  lifecycle_withLifecycle hn _

theorem lifecycleAt_on : (lifecycleAt n).on w = (.ok (w.lifecycle n), w) := rfl

theorem releaseOperation_running (hr : (w.lifecycle n).status = .running) :
    (releaseOperation n).on w = (.ok (.ok ()), w.withStatus n .released) := by
  have hm : (w.lifecycle n).move .released = .ok { w.lifecycle n with status := .released } :=
    if_pos hr
  rw [releaseOperation, on_bind_of_ok lifecycleAt_on, hm]
  rfl

theorem runHooks_nil (hh : (w.lifecycle n).hooks = []) (bound : Nat) :
    (runHooks env n (bound + 1)).on w = (.ok (), w) := by
  have ht : (w.lifecycle n).takeHook = (none, w.lifecycle n) :=
    Lifecycle.takeHook_eq_none.2 ⟨hh, rfl⟩
  rw [runHooks, on_bind_of_ok lifecycleAt_on, ht]
  rfl

/-- A cancellation for which no hook waits. -/
theorem cancelOperation_running (hn : n < w.lifecycles.size)
    (hr : (w.lifecycle n).status = .running) (hh : (w.lifecycle n).hooks = []) :
    (cancelOperation env n).on w = (.ok (.ok ()), w.withStatus n .cancelled) := by
  have hm : (w.lifecycle n).move .cancelled = .ok { w.lifecycle n with status := .cancelled } :=
    if_pos hr
  have hl : ((w.withStatus n .cancelled).lifecycle n).hooks = [] := by
    rw [lifecycle_withStatus hn, hh]
  have hs : (setLifecycle n { w.lifecycle n with status := .cancelled }).on w =
      (.ok (), w.withStatus n .cancelled) := rfl
  rw [cancelOperation, on_bind_of_ok lifecycleAt_on, hm]
  dsimp only
  rw [on_bind_of_ok hs, hookBound, on_bind_of_ok (runHooks_nil hl 99999)]
  rfl

/-! ## The two destructors -/

theorem disownCancellable_ended (hr : (w.lifecycle h.lifecycle).status ≠ .running) :
    (disownCancellable env h).on w = (.ok (), w) := by
  rw [disownCancellable, on_bind_of_ok lifecycleAt_on, if_neg hr]
  rfl

theorem disownUncancellable_ended (hr : (w.lifecycle h.lifecycle).status ≠ .running) :
    (disownUncancellable h).on w = (.ok (), w) := by
  rw [disownUncancellable, on_bind_of_ok lifecycleAt_on, if_neg hr]
  rfl

section Running

variable (hr : (w.lifecycle h.lifecycle).status = .running)

include hr

theorem disownCancellable_delivers (hn : h.lifecycle < w.lifecycles.size)
    (hh : (w.lifecycle h.lifecycle).hooks = [])
    (he : h.policy.effect (w.circumstances.unwinding != 0) = .deliver) :
    (disownCancellable env h).on w = (.ok (), w.leaked.withStatus h.lifecycle .cancelled) := by
  have hl : (leak h.policy "Cancellable").on w = (.ok (), w.leaked) := by rw [leak_on, he]
  rw [disownCancellable, on_bind_of_ok lifecycleAt_on, if_pos hr, on_bind_of_ok hl,
    on_bind_of_ok (cancelOperation_running (w := w.leaked) hn hr hh)]
  rfl

theorem disownUncancellable_delivers
    (he : h.policy.effect (w.circumstances.unwinding != 0) = .deliver) :
    (disownUncancellable h).on w = (.ok (), w.leaked.withStatus h.lifecycle .released) := by
  have hl : (leak h.policy "Uncancellable").on w = (.ok (), w.leaked) := by rw [leak_on, he]
  rw [disownUncancellable, on_bind_of_ok lifecycleAt_on, if_pos hr, on_bind_of_ok hl,
    on_bind_of_ok (releaseOperation_running (w := w.leaked) hr)]
  rfl

/-- Where the leak panics, the operation is not released. -/
theorem disownUncancellable_panics
    (he : h.policy.effect (w.circumstances.unwinding != 0) = .panic) :
    (disownUncancellable h).on w =
      (.error (.panicked (.text (Leak.message "Uncancellable"))), w.leaked) := by
  have hl : (leak h.policy "Uncancellable").on w =
      (.error (.panicked (.text (Leak.message "Uncancellable"))), w.leaked) := by rw [leak_on, he]
  rw [disownUncancellable, on_bind_of_ok lifecycleAt_on, if_pos hr, on_bind_of_panicked hl]

end Running

/-! ## One handle inside of the other -/

section Uncancellable

variable (hs : h.sort = .uncancellable)

include hs

theorem disown_uncancellable :
    disown env h = releaseAll [disownUncancellable h, disownCancellable env h] := by
  rw [disown, hs]

theorem disown_ended (hr : (w.lifecycle h.lifecycle).status ≠ .running) :
    (disown env h).on w = (.ok (), w) := by
  rw [disown_uncancellable hs, releaseAll_ok (disownUncancellable_ended hr),
    releaseAll_ok (disownCancellable_ended hr)]
  rfl

variable (hn : h.lifecycle < w.lifecycles.size)
  (hr : (w.lifecycle h.lifecycle).status = .running)

include hn hr

/-- The handle inside finds the operation released. -/
theorem disown_delivers (he : h.policy.effect (w.circumstances.unwinding != 0) = .deliver) :
    (disown env h).on w = (.ok (), w.leaked.withStatus h.lifecycle .released) := by
  have hl : ((w.leaked.withStatus h.lifecycle .released).lifecycle h.lifecycle).status ≠
      .running := by
    rw [lifecycle_withStatus (w := w.leaked) hn]
    nofun
  rw [disown_uncancellable hs, releaseAll_ok (disownUncancellable_delivers hr he),
    releaseAll_ok (disownCancellable_ended hl)]
  rfl

/-- The handle inside goes away while the leak of the other panics, and cancels the operation. -/
theorem disown_panics (hp : h.policy = .panic) (hu : w.circumstances.unwinding = 0)
    (hh : (w.lifecycle h.lifecycle).hooks = []) :
    (disown env h).on w = (.error (.panicked (.text (Leak.message "Uncancellable"))),
      w.leaked.leaked.withStatus h.lifecycle .cancelled) := by
  have he : h.policy.effect (w.circumstances.unwinding != 0) = .panic := by
    rw [hp, hu]
    rfl
  -- No second panic is thrown while the first one unwinds.
  have he' : h.policy.effect (w.leaked.unwound.circumstances.unwinding != 0) = .deliver := by
    rw [hp]
    rfl
  have hc : (releaseAll [disownCancellable env h]).on w.leaked.unwound =
      (.ok (), w.leaked.unwound.leaked.withStatus h.lifecycle .cancelled) :=
    releaseAll_ok (disownCancellable_delivers (w := w.leaked.unwound) hr hn hh he')
  rw [disown_uncancellable hs, releaseAll_panicked (disownUncancellable_panics hr he) hc]
  rfl

end Uncancellable

/-- The world in which a handle has a holder less. -/
def World.unheld (w : World) (n : Nat) : World :=
  { w with handles := w.handles.modify n fun h => { h with holders := h.holders - 1 } }

/-- With the last holder the handle goes away. -/
theorem dropHandle_last (hn : w.handles[n]? = some h) (hl : h.holders = 1) :
    (dropHandle env n).on w = (disown env { h with holders := 0 }).on (w.unheld n) := by
  have hc : (changeHandle n fun h => { h with holders := h.holders - 1 }).on w =
      (.ok (), w.unheld n) := rfl
  have ha : (handleAt n).on (w.unheld n) = (.ok { h with holders := 0 }, w.unheld n) := by
    change (Except.ok ((w.handles.modify n _).getD n default), _) = _
    simp [Array.getElem?_modify, hn, hl]
  rw [dropHandle, on_bind_of_ok hc, on_bind_of_ok ha, if_pos rfl]

/-- What becomes of an operation that cannot be cancelled when the last holder of its handle goes
    away. If it runs no more, nothing does. If it is still running, that is one leak and it is
    released, unless the leak panics: then a second leak is counted, and it is cancelled. -/
theorem dropHandle_uncancellable (hn : w.handles[n]? = some h) (hs : h.sort = .uncancellable)
    (hl : h.holders = 1) (hx : h.lifecycle < w.lifecycles.size) :
    ((w.lifecycle h.lifecycle).status ≠ .running →
      (dropHandle env n).on w = (.ok (), w.unheld n)) ∧
    ((w.lifecycle h.lifecycle).status = .running →
      (h.policy = .cancel ∨ h.policy = .panic ∧ w.circumstances.unwinding ≠ 0 →
        (dropHandle env n).on w =
          (.ok (), (w.unheld n).leaked.withStatus h.lifecycle .released)) ∧
      (h.policy = .panic → w.circumstances.unwinding = 0 → (w.lifecycle h.lifecycle).hooks = [] →
        (dropHandle env n).on w = (.error (.panicked (.text (Leak.message "Uncancellable"))),
          (w.unheld n).leaked.leaked.withStatus h.lifecycle .cancelled))) := by
  rw [dropHandle_last hn hl]
  refine ⟨fun hr => disown_ended (w := w.unheld n) hs hr, fun hr => ⟨fun hp => ?_, ?_⟩⟩
  · refine disown_delivers (w := w.unheld n) hs hx hr ?_
    rcases hp with hp | ⟨hp, hu⟩
    · rw [hp]
      rfl
    · have hb : ((w.unheld n).circumstances.unwinding != 0) = true := bne_iff_ne.2 hu
      rw [hp, hb]
      rfl
  · exact disown_panics (w := w.unheld n) hs hx hr

/-- A leak that panics. The one handle is counted as two leaks, and its operation is cancelled. -/
theorem dropHandle_uncancellable_panicked :
    let w : World := { World.new .panic with
      lifecycles := #[.new], handles := #[⟨.uncancellable, 0, 0, .panic, 1⟩] }
    ∃ w', (dropHandle ambient 0).on w =
        (.error (.panicked (.text (Leak.message "Uncancellable"))), w') ∧
      w'.leaks = 2 ∧ (w'.lifecycle 0).status = .cancelled :=
  ⟨_, ((dropHandle_uncancellable rfl rfl rfl (by decide)).2 rfl).2 rfl rfl rfl, rfl, rfl⟩

/-- An operation that cannot be cancelled is spawned, and its handle dropped while it is running.
    That is counted twice, and the operation ends as one that was cancelled. -/
theorem uncancellable_cancelled :
    let w := ((Session.steps false [.outside [.spawnUncancellable "t" [], .drop "t"]]).run.run
      (World.new .panic)).2
    w.leaks = 2 ∧ (w.lifecycle 0).status = .cancelled := by
  decide +kernel

end ResumeOnce.Reactor

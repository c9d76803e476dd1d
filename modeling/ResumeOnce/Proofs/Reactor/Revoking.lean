import ResumeOnce.Proofs.Fold.Cancelling
import ResumeOnce.Proofs.Reactor.Folding
import ResumeOnce.Proofs.Reactor.LettingGo

/-!
# Cancelling a fold in the world

A fold registers a hook that closes its channel. Whoever cancels it changes its status and runs
the hook. For its consumer nothing else happens in between: it is revoked, and then shut off; so
what holds of folds that are cancelled holds in the world.

* `runHook_closeChannel`: what the hook of a fold does;
* `cancelOperation_consumer`: what the cancellation of a fold comes to for its consumer.
-/

namespace ResumeOnce.Reactor

open Fold (Consumer)

variable {env env' : Env} {w w' : World} {run : FoldRun} {n : Nat}

/-- The hook of a fold closes its channel, and lets go the handle that it held. -/
theorem runHook_closeChannel (hw : w.circumstances.isShutdown = false)
    (hb : run.channel < w.channels.size)
    (hn : 1 < (w.channels.getD run.channel default).handles)
    (h : (runHook env (.closeChannel run.channel)).on w = (.ok (), w'))
    (awaited : Option (Nat × Option (Outcome Cargo))) :
    w'.lifecycles = w.lifecycles ∧
      ∃ awaited', run.consumer w' awaited' = (run.consumer w awaited).shutOff := by
  obtain ⟨b, w₁, he, h⟩ := on_bind_ok h
  obtain ⟨-, hs⟩ := exchange_on hw he
  obtain ⟨-, -, awaited', hc⟩ := consumer_exchange hw hb he (s := run.consumer w awaited) rfl
  have hx : run.channel < w₁.channels.size := by
    rw [hs.channels]
    simpa using hb
  have hheld : ((w₁.parted run.channel).channels.getD run.channel default).handles ≠ 0 := by
    have hg : (w₁.channels.getD run.channel default).handles =
        (w.channels.getD run.channel default).handles := by
      rw [hs.channels]
      simp [hb, Array.getElem_modify]
    have hp : ((w₁.parted run.channel).channels.getD run.channel default).handles =
        (w₁.channels.getD run.channel default).handles - 1 := by
      simp [World.parted, hx, Array.getElem_modify]
    omega
  rw [releaseChannel_held hheld] at h
  cases h
  refine ⟨hs.lifecycles, awaited', ?_⟩
  rw [Consumer.shutOff, ← hc]
  simp [FoldRun.consumer, World.parted, hx, Array.getElem_modify]

/-- The first hook is taken out, and runs before the others. -/
theorem runHooks_cons {hook : Hook} {hooks : List Hook}
    (hh : (w.lifecycle n).hooks = hook :: hooks) (bound : Nat) :
    (runHooks env n (bound + 1)).on w = (env.runHook hook >>= fun _ => runHooks env n bound).on
      (w.withLifecycle n { w.lifecycle n with hooks }) := by
  have ht : (w.lifecycle n).takeHook = (some hook, { w.lifecycle n with hooks }) := by
    rw [Lifecycle.takeHook, hh]
  have hs : (setLifecycle n { w.lifecycle n with hooks }).on w =
      (.ok (), w.withLifecycle n { w.lifecycle n with hooks }) := rfl
  rw [runHooks, on_bind_of_ok lifecycleAt_on, ht]
  exact on_bind_of_ok hs

/-- Whoever cancels a fold revokes its consumer, and then shuts it off. -/
theorem cancelOperation_consumer (hw : w.circumstances.isShutdown = false)
    (hb : run.channel < w.channels.size) (hl : run.token < w.lifecycles.size)
    (hh : (w.lifecycle run.token).hooks = [.closeChannel run.channel])
    (hn : 1 < (w.channels.getD run.channel default).handles) (henv : env.runHook = runHook env')
    (h : (cancelOperation env run.token).on w = (.ok (.ok ()), w'))
    (awaited : Option (Nat × Option (Outcome Cargo))) :
    ∃ awaited', run.consumer w' awaited' = (run.consumer w awaited).revoke.shutOff := by
  rw [cancelOperation, on_bind_of_ok lifecycleAt_on] at h
  rcases hm : (w.lifecycle run.token).move .cancelled with f | l <;> rw [hm] at h
  · cases h
  obtain ⟨-, rfl⟩ := Lifecycle.move_eq_ok.1 hm
  -- The status changes.
  obtain ⟨_, w₁, hs, h⟩ := on_bind_ok h
  obtain rfl : w.withStatus run.token .cancelled = w₁ := (Prod.mk.inj hs).2
  obtain ⟨_, w₂, hr, h⟩ := on_bind_ok h
  cases h
  -- The only hook is taken out, and runs.
  have hh₁ : ((w.withStatus run.token .cancelled).lifecycle run.token).hooks =
      [.closeChannel run.channel] := by rw [lifecycle_withStatus hl, hh]
  rw [hookBound, runHooks_cons hh₁ 99999] at hr
  obtain ⟨_, w₃, hk, hr⟩ := on_bind_ok hr
  rw [henv] at hk
  obtain ⟨w₂, hw₂, hc₂, hx₂, hl₂⟩ : ∃ w₂ : World, (w.withStatus run.token .cancelled).withLifecycle
      run.token { (w.withStatus run.token .cancelled).lifecycle run.token with hooks := [] } = w₂ ∧
      w₂.channels = w.channels ∧ w₂.circumstances = w.circumstances ∧
      w₂.lifecycle run.token = ⟨.cancelled, []⟩ := by
    refine ⟨_, rfl, rfl, rfl, ?_⟩
    rw [lifecycle_withLifecycle (by simpa [World.withStatus, World.withLifecycle] using hl),
      lifecycle_withStatus hl]
  rw [hw₂] at hk
  obtain ⟨hl₃, awaited', hc⟩ := runHook_closeChannel (by rw [hx₂, hw]) (by rwa [hc₂])
    (by rwa [hc₂]) hk awaited
  -- No hook is left then.
  have hh₃ : (w₃.lifecycle run.token).hooks = [] := by
    rw [World.lifecycle, hl₃]
    exact congrArg Lifecycle.hooks hl₂
  rw [runHooks_nil hh₃ 99998] at hr
  cases hr
  have hrevoked : run.consumer w₂ awaited = (run.consumer w awaited).revoke := by
    have hstatus : (w₂.lifecycles.getD run.token default).status = .cancelled :=
      congrArg Lifecycle.status hl₂
    rw [FoldRun.consumer, hc₂, hstatus]
    rfl
  exact ⟨awaited', hc.trans (congrArg Consumer.shutOff hrevoked)⟩

end ResumeOnce.Reactor

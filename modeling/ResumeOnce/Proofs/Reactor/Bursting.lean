import ResumeOnce.Proofs.Reactor.LettingGo

/-!
# An operation whose hook panics

Unless an operation was cancelled, its end lets the hooks go that wait, and fills the slot only
then. A hook may hold the last handle of a channel, and with it go those who are in line there. If
the leak of one of them is a panic, the end of the operation is cut short: its slot is left as it
is, and since the operation has been finished nobody comes back to fill it.

This is the step `Operation.Step.burst` of an operation.

* `complete_panics`: a panic among the hooks is one of the end of the operation;
* `complete_bursts`: so it is when a hook has the last handle of a channel in which somebody waits
  whose leak is a panic.
-/

namespace ResumeOnce

namespace Lifecycle

variable {η : Type*} {l : Lifecycle η}

/-- The end of an operation that was not cancelled lets all its hooks go. -/
theorem finish_hooks (h : l.status ≠ .cancelled) : l.finish.2 = l.hooks := by
  unfold finish
  split
  case h_1 hm =>
    obtain ⟨-, rfl⟩ := move_eq_ok.1 hm
    rfl
  case h_2 hm =>
    obtain ⟨-, rfl⟩ := move_eq_error.1 hm
    rw [if_neg h]

end Lifecycle

namespace Reactor

variable {env : Env} {w w₁ : World} {c : Completer} {n : Nat} {channel : Channel Nat Cargo}

/-- An operation whose hooks panic when they are let go leaves its slot as it is. -/
theorem complete_panics {r : Reply} {x : Script.Scream}
    (h : (finishOperation env c.lifecycle).on w = (.error (.panicked x), w₁)) :
    (complete env r (some c)).on w = (.error (.panicked x), w₁) := by
  rw [complete]
  exact on_bind_of_panicked h

/-- An operation ends that was not cancelled, and its hook holds the last handle of a channel. If
    the leak of somebody in line there is a panic, that is all that comes of it: whatever the
    outcome of the operation is, it is lost. -/
theorem complete_bursts (hs : (w.lifecycle c.lifecycle).status ≠ .cancelled)
    (hh : (w.lifecycle c.lifecycle).hooks = [.closeChannel n])
    (hc : w.channels[n]? = some ⟨channel, 1⟩) (hn : (channelRights channel).Nodup)
    (ho : ∀ p ∈ channelRights channel, w.Owes p) (hu : w.circumstances.unwinding = 0)
    (hf : ∃ p ∈ channelRights channel, w.Fragile p) :
    ∃ w₁, w₁.leaks = w.leaks + (channelRights channel).length ∧ ∀ r : Reply,
      (complete env r (some c)).on w =
        (.error (.panicked (.text (Leak.message "Resumption"))), w₁) := by
  let w₀ := w.withLifecycle c.lifecycle (w.lifecycle c.lifecycle).finish.1
  have ho₀ : ∀ p ∈ channelRights channel, w₀.Owes p := fun p hp => (ho p hp).congr rfl rfl rfl
  obtain ⟨w₁, hr, hl⟩ := releaseChannel_last env (w := w₀) hc hn ho₀
  rw [World.verdict, if_pos ⟨hu, hf⟩] at hr
  refine ⟨w₁.unwound.rewound, hl.leaks, fun r => complete_panics ?_⟩
  have hn : (releaseAll []).on w₁.unwound = (.ok (), w₁.unwound) := rfl
  rw [finishOperation_on, Lifecycle.finish_hooks hs, hh]
  exact releaseAll_panicked hr hn

/-- Somebody waits to write to a channel, and its last handle is that of a hook. The operation
    ends, and its slot stays empty. -/
example :
    let w := (do
      let channel ← newChannel .unbounded
      let (writer, _) ← newResumption .panic
      let _ ← exchange ambient channel (·.write (some writer) (.datum (.int 5)))
      let lifecycle ← newLifecycle
      registerHook ambient lifecycle (.closeChannel channel)
      let slot ← newSlot
      catchPanic (complete ambient (.ok .unit) (some ⟨lifecycle, slot⟩)) fun _ => pure () :
        Act Unit).on (.new .panic) |>.2
    (w.lifecycle 0).status = .finished ∧ w.leaks = 1 ∧ (w.slot 1).isComplete = false := by
  decide +kernel

end Reactor

end ResumeOnce

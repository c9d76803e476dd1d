import ResumeOnce.Proofs.Fold.Operations
import ResumeOnce.Proofs.Reactor.Quiet
import ResumeOnce.Reactor.Stepping

/-!
# A fold in the world is a consumer

The frame of a fold, together with its channel and its lifecycle in the world, makes up a
consumer. Whatever else is in the world, a turn that the frame takes on its own is a step of
this consumer; and so the theorems on consumers tell of folds in the world.

* `FoldRun.consumer`: the consumer in a world;
* `consumer_exchange`: what an operation on its channel comes to for the consumer;
* `write_moves`, `close_moves`, `withdraw_moves`: what others do with the channel;
* `stepFold_checkpoint`, `stepFold_read` and so on: what its turns come to;
* `Moves`, `stepFold_moves`: a turn of a fold is a step of its consumer;
* `stepFoldAnswer_moves`: so is the answer to a read that had to wait.
-/

namespace ResumeOnce.Reactor

open Fold (Consumer Turn)

variable {env : Env} {w w' : World} {run : FoldRun}

/-- The consumer that a fold is in a world, given the read that it waits for. -/
def FoldRun.consumer (run : FoldRun) (w : World)
    (awaited : Option (Nat × Option (Outcome Cargo))) : Consumer Nat Cargo where
  channel := (w.channels.getD run.channel default).channel
  turn := run.turn
  awaited
  cancelled := (w.lifecycles.getD run.token default).status = .cancelled

/-- A fold does not notice what is quiet. -/
theorem Same.consumer (h : Same w w') (run : FoldRun)
    (awaited : Option (Nat × Option (Outcome Cargo))) :
    run.consumer w' awaited = run.consumer w awaited := by
  rw [FoldRun.consumer, FoldRun.consumer, h.channels, h.lifecycles]

/-! ## Actions that succeed -/

theorem on_bind_ok {act : Act α} {f : α → Act β} {b : β}
    (h : (act >>= f).on w = (.ok b, w')) :
    ∃ a w₁, act.on w = (.ok a, w₁) ∧ (f a).on w₁ = (.ok b, w') := by
  rw [on_bind] at h
  generalize act.on w = r at h ⊢
  rcases r with ⟨x | a, w₁⟩
  · cases h
  · exact ⟨a, w₁, rfl, h⟩

theorem Quiet.same {act : Act α} (h : Quiet act) (hw : w.circumstances.isShutdown = false)
    {r : Except Halt α} (ha : act.on w = (r, w')) : Same w w' := by
  have hs := h w hw
  rwa [ha] at hs

/-! ## Operations on the channel of a fold -/

/-- An operation changes its channel; whoever is answered is answered quietly. -/
theorem exchange_on {n : Nat} {op : Channel Nat Cargo → Exchanged Nat Cargo β} {b : β}
    (hw : w.circumstances.isShutdown = false) (h : (exchange env n op).on w = (.ok b, w')) :
    b = (op (w.channels.getD n default).channel).result ∧
      Same { w with channels := w.channels.modify n fun r =>
        { r with channel := (op (w.channels.getD n default).channel).channel } } w' := by
  obtain ⟨c, w₁, hc, h⟩ := on_bind_ok h
  cases hc
  obtain ⟨_, w₂, hm, h⟩ := on_bind_ok h
  cases hm
  obtain ⟨_, w₃, hr, h⟩ := on_bind_ok h
  cases h
  exact ⟨rfl, (quiet_carryOutAll _).same hw hr⟩

/-- An operation on the channel of a fold, as its consumer sees it. -/
theorem consumer_exchange {op : Channel Nat Cargo → Exchanged Nat Cargo β} {b : β}
    (hw : w.circumstances.isShutdown = false) (hb : run.channel < w.channels.size)
    (h : (exchange env run.channel op).on w = (.ok b, w'))
    {awaited : Option (Nat × Option (Outcome Cargo))} {s : Consumer Nat Cargo}
    (hs : run.consumer w awaited = s) :
    b = (op s.channel).result ∧ w'.circumstances.isShutdown = false ∧
      ∃ awaited', run.consumer w' awaited' = s.exchange (op s.channel) := by
  obtain ⟨rfl, hsame⟩ := exchange_on hw h
  subst hs
  refine ⟨rfl, hsame.shutdown.trans hw,
    ((run.consumer w awaited).exchange (op (run.consumer w awaited).channel)).awaited, ?_⟩
  rw [hsame.consumer, Consumer.exchange_eq]
  simp [FoldRun.consumer, hb, Array.getElem_modify]

/-- An operation of the fold itself, which does not wait then. -/
theorem consumer_exchange_idle {op : Channel Nat Cargo → Exchanged Nat Cargo β} {b : β}
    (hw : w.circumstances.isShutdown = false) (hb : run.channel < w.channels.size)
    (h : (exchange env run.channel op).on w = (.ok b, w')) {s : Consumer Nat Cargo}
    (hs : run.consumer w none = s) :
    b = (op s.channel).result ∧ w'.circumstances.isShutdown = false ∧
      run.consumer w' none = s.exchange (op s.channel) := by
  obtain ⟨hr, hw', awaited, he⟩ := consumer_exchange hw hb h hs
  have hi : s.awaited = none := by rw [← hs, FoldRun.consumer]
  obtain rfl : awaited = none := by
    rw [Consumer.exchange_of_idle hi] at he
    exact (congrArg Consumer.awaited he).trans hi
  exact ⟨hr, hw', he⟩

/-! ## Everybody else -/

section Others

variable {awaited : Option (Nat × Option (Outcome Cargo))}

/-- Somebody writes into the channel of a fold. -/
theorem write_moves {p : Option Nat} {a : Cargo} {r : Written Cargo}
    (hw : w.circumstances.isShutdown = false) (hb : run.channel < w.channels.size)
    (h : (exchange env run.channel (·.write p a)).on w = (.ok r, w')) :
    ∃ awaited', Consumer.Step (run.consumer w awaited) (.wrote a r) (run.consumer w' awaited') := by
  obtain ⟨rfl, -, awaited', he⟩ := consumer_exchange hw hb h (s := run.consumer w awaited) rfl
  exact ⟨awaited', he ▸ .write p a⟩

/-- Somebody closes it. -/
theorem close_moves {c : Completion} {r : Bool} (hw : w.circumstances.isShutdown = false)
    (hb : run.channel < w.channels.size)
    (h : (exchange env run.channel (·.close c)).on w = (.ok r, w')) :
    ∃ awaited', Consumer.Step (run.consumer w awaited) (.closed c r)
      (run.consumer w' awaited') := by
  obtain ⟨rfl, -, awaited', he⟩ := consumer_exchange hw hb h (s := run.consumer w awaited) rfl
  exact ⟨awaited', he ▸ .close c⟩

/-- Somebody takes its values back. -/
theorem withdraw_moves {f : Fault} {r : List Cargo} (hw : w.circumstances.isShutdown = false)
    (hb : run.channel < w.channels.size)
    (h : (exchange env run.channel (·.cancel f)).on w = (.ok r, w')) :
    ∃ awaited', Consumer.Step (run.consumer w awaited) (.withdrawn f r)
      (run.consumer w' awaited') := by
  obtain ⟨rfl, -, awaited', he⟩ := consumer_exchange hw hb h (s := run.consumer w awaited) rfl
  exact ⟨awaited', he ▸ .withdraw f⟩

end Others

/-! ## A turn of a fold -/

/-- The turns at which a fold deals with nobody but its channel, the senders of actions, and
    whoever cancels it. -/
def Alone : Turn Cargo → Prop
  | .start | .emit | .finalize _ | .stop _ => False
  | _ => True

/-- A fold moves as its consumer does: it goes on, or waits for the answer to a read. -/
inductive Moves (run : FoldRun) (w w' : World) : Stepped → Prop
  | again (run' : FoldRun) (e : Fold.Event Cargo) (hc : run'.channel = run.channel)
      (ht : run'.token = run.token)
      (hs : Consumer.Step (run.consumer w none) e (run'.consumer w' none)) :
      Moves run w w' (.again (.fold run'))
  | waits (party slot : Nat)
      (hs : Consumer.Step (run.consumer w none) .tacit (run.consumer w' (some (party, none)))) :
      Moves run w w' (.call (.fold run) (.waiting slot .waiter))
  | crash (run' : FoldRun) (loose : List Nat) (text : String) :
      Moves run w w' (.crash (.fold run') loose text)

/-- The checkpoint of a fold tells what its consumer would tell. -/
theorem on_checkpoint :
    (checkpoint run.token).on w = (.ok (run.consumer w none).checkpoint, w) := by
  rw [Consumer.checkpoint]
  change (if (w.lifecycles.getD run.token default).status = .cancelled then _ else _ :
    Act (Outcome Unit)).on w = _
  by_cases hs : (w.lifecycles.getD run.token default).status = .cancelled
  · rw [if_pos hs]
    simp only [FoldRun.consumer, hs, decide_true, if_true, on_pure]
  · rw [if_neg hs]
    simp only [FoldRun.consumer, hs, decide_false, Bool.false_eq_true, if_false, on_pure]

section Turns

variable {stepped : Stepped}

theorem stepFold_checkpoint (ht : run.turn = .checkpoint)
    (h : (stepFold env run).on w = (.ok stepped, w')) :
    stepped = .again (.fold { run with
      turn := Turn.next .checkpoint (run.consumer w none).checkpoint }) ∧ w' = w := by
  simp only [stepFold, ht] at h
  obtain ⟨_, _, hc, h⟩ := on_bind_ok h
  rw [on_checkpoint] at hc
  cases hc
  cases h
  exact ⟨rfl, rfl⟩

/-- A fold reads, and goes on with the answer or waits for it. -/
theorem stepFold_read (hw : w.circumstances.isShutdown = false)
    (hb : run.channel < w.channels.size) (ht : run.turn = .read)
    (h : (stepFold env run).on w = (.ok stepped, w')) : ∃ party,
      (∃ turn, stepped = .again (.fold { run with turn }) ∧
        ({ run with turn } : FoldRun).consumer w' none = (run.consumer w none).read party) ∨
      (∃ slot, stepped = .call (.fold run) (.waiting slot .waiter) ∧
        run.consumer w' (some (party, none)) = (run.consumer w none).read party) := by
  simp only [stepFold, ht] at h
  -- The right to answer is made first, and no fold notices that.
  obtain ⟨policy, _, hp, h⟩ := on_bind_ok h
  have hw₁ := (quiet_policyOr none).same hw hp
  obtain ⟨⟨party, slot⟩, _, hn, h⟩ := on_bind_ok h
  have hw₂ := hw₁.trans ((quiet_newResumption policy).same (hw₁.shutdown.trans hw) hn)
  obtain ⟨r, _, he, h⟩ := on_bind_ok h
  obtain ⟨hr, hw₃, hc⟩ := consumer_exchange_idle (hw₂.shutdown.trans hw)
    (by rwa [hw₂.channels]) he (hw₂.consumer run none)
  refine ⟨party, ?_⟩
  rw [Consumer.read, ← hr, ← hc]
  cases r with
  | settled answer =>
    obtain ⟨_, _, hx, h⟩ := on_bind_ok h
    cases h
    exact .inl ⟨_, rfl, ((quiet_retire party).same hw₃ hx).consumer _ none⟩
  | queued =>
    cases h
    exact .inr ⟨slot, rfl, rfl⟩

theorem stepFold_close {c : Completion} (hw : w.circumstances.isShutdown = false)
    (hb : run.channel < w.channels.size) (ht : run.turn = .close c)
    (h : (stepFold env run).on w = (.ok stepped, w')) :
    ∃ turn, stepped = .again (.fold { run with turn }) ∧
      ({ run with turn } : FoldRun).consumer w' none = (run.consumer w none).finish c := by
  simp only [stepFold, ht] at h
  obtain ⟨_, _, he, h⟩ := on_bind_ok h
  obtain ⟨rfl, -, hc⟩ := consumer_exchange_idle hw hb he rfl
  cases h
  exact ⟨_, rfl, by rw [Consumer.finish, ← hc]; rfl⟩

theorem stepFold_drain {c : Completion} (hw : w.circumstances.isShutdown = false)
    (hb : run.channel < w.channels.size) (ht : run.turn = .drain c)
    (h : (stepFold env run).on w = (.ok stepped, w')) :
    ∃ turn, stepped = .again (.fold { run with turn }) ∧
      ({ run with turn } : FoldRun).consumer w' none =
        ((run.consumer w none).exchange (run.consumer w none).channel.tryRead).goOn
          (Turn.next (.drain c) (run.consumer w none).channel.tryRead.result) := by
  simp only [stepFold, ht] at h
  obtain ⟨_, _, he, h⟩ := on_bind_ok h
  obtain ⟨rfl, -, hc⟩ := consumer_exchange_idle hw hb he rfl
  cases h
  exact ⟨_, rfl, by rw [← hc]; rfl⟩

end Turns

/-- A turn that a fold takes on its own is a step of its consumer. -/
theorem stepFold_moves {stepped : Stepped} (hw : w.circumstances.isShutdown = false)
    (hb : run.channel < w.channels.size) (ha : Alone run.turn)
    (h : (stepFold env run).on w = (.ok stepped, w')) : Moves run w w' stepped := by
  generalize ht : run.turn = t at ha
  cases t with
  | checkpoint =>
    obtain ⟨rfl, rfl⟩ := stepFold_checkpoint ht h
    exact .again _ .tacit rfl rfl (.checkpoint ht)
  | read =>
    obtain ⟨party, ⟨turn, rfl, hc⟩ | ⟨slot, rfl, hc⟩⟩ := stepFold_read hw hb ht h
    · exact .again _ .tacit rfl rfl (hc ▸ .read party ht rfl)
    · exact .waits party slot (hc ▸ .read party ht rfl)
  | reduce a =>
    simp only [stepFold, ht] at h
    obtain ⟨r, _, hr, h⟩ := on_bind_ok h
    have hsame := (quiet_reduce _ _ _).same hw hr
    cases r with
    | reduced state effect =>
      cases h
      refine .again _ (.called (.reduce a effect)) rfl rfl ?_
      rw [hsame.consumer]
      exact .reduce effect ht
    | crashed state loose text =>
      cases h
      exact .crash ..
  | close c =>
    obtain ⟨turn, rfl, hc⟩ := stepFold_close hw hb ht h
    have hs := Consumer.Step.finish (s := run.consumer w none) ht
    rw [← hc] at hs
    exact .again _ _ rfl rfl hs
  | drain c =>
    obtain ⟨turn, rfl, hc⟩ := stepFold_drain hw hb ht h
    exact .again _ .tacit rfl rfl (hc ▸ .drain ht)
  | dispose a c =>
    simp only [stepFold, ht] at h
    obtain ⟨_, _, hd, h⟩ := on_bind_ok h
    have hsame := (quiet_dispose _ _ _).same hw hd
    cases h
    refine .again _ (.called (.dispose a c)) rfl rfl ?_
    rw [hsame.consumer]
    exact .dispose ht
  | start => cases ha
  | emit => cases ha
  | finalize c => cases ha
  | stop c => cases ha

/-- The answer to a read that had to wait is the next turn of the consumer. -/
theorem stepFoldAnswer_moves {r : Reply} {stepped : Stepped} (p : Nat) (ht : run.turn = .read)
    (h : (stepFoldAnswer env run r).on w = (.ok stepped, w')) :
    ∃ run' : FoldRun, stepped = .again (.fold run') ∧
      Consumer.Step (run.consumer w (some (p, some (r.map Parcel.toCargo)))) .tacit
        (run'.consumer w' none) := by
  rw [stepFoldAnswer] at h
  simp only [ht] at h
  cases h
  exact ⟨_, rfl, .resume ht rfl⟩

end ResumeOnce.Reactor

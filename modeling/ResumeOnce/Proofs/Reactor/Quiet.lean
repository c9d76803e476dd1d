import ResumeOnce.Reactor.Acting

/-!
# Actions that no fold notices

Answering somebody fills a slot, wakes a task, counts a leak, or panics. None of this
touches a channel or a lifecycle, so a fold sees nothing of it, as long as the shutdown has
not begun: after it, whoever is woken is abandoned.

* `Act.on`: what an action comes to in a world;
* `Same`: two worlds that look the same to every fold;
* `Quiet`: an action that leaves the world so, even if it is cut short;
* `quiet_resume`, `quiet_answerAll`, `quiet_carryOutAll`: answering is quiet;
* `quiet_reduce`, `quiet_dispose`: so is what a fold does with an action.
-/

namespace ResumeOnce.Reactor

/-- What an action comes to in a world. -/
def Act.on (act : Act α) (w : World) : Except Halt α × World := act.run w

/-- Two worlds look the same to every fold. -/
structure Same (w w' : World) : Prop where
  channels : w'.channels = w.channels
  lifecycles : w'.lifecycles = w.lifecycles
  shutdown : w'.circumstances.isShutdown = w.circumstances.isShutdown

namespace Same

variable {w w' w'' : World}

theorem refl (w : World) : Same w w := ⟨rfl, rfl, rfl⟩

theorem trans (h : Same w w') (h' : Same w' w'') : Same w w'' :=
  ⟨h'.channels.trans h.channels, h'.lifecycles.trans h.lifecycles, h'.shutdown.trans h.shutdown⟩

end Same

/-- An action that no fold notices before the shutdown. -/
def Quiet (act : Act α) : Prop :=
  ∀ w, w.circumstances.isShutdown = false → Same w (act.on w).2

/-! ## How actions are put together -/

theorem on_bind (act : Act α) (f : α → Act β) (w : World) : (act >>= f).on w =
    match act.on w with
    | (.ok a, w') => (f a).on w'
    | (.error h, w') => (.error h, w') := by
  change (ExceptT.run (act >>= f) w) = _
  simp only [ExceptT.run_bind, Act.on]
  change StateT.bind _ _ w = _
  simp only [StateT.bind]
  rcases ExceptT.run act w with ⟨_ | a, w'⟩ <;> rfl

theorem on_tryCatch (act : Act α) (f : Halt → Act α) (w : World) : (tryCatch act f).on w =
    match act.on w with
    | (.ok a, w') => (.ok a, w')
    | (.error h, w') => (f h).on w' := by
  change (ExceptT.tryCatch act f).run w = _
  rw [ExceptT.tryCatch, ExceptT.run_mk, Act.on, ExceptT.run]
  change StateT.bind act _ w = _
  rw [StateT.bind]
  generalize act w = r
  rcases r with ⟨_ | a, w'⟩ <;> rfl

@[simp]
theorem on_pure (a : α) (w : World) : (pure a : Act α).on w = (.ok a, w) := rfl

namespace Quiet

variable {act : Act α}

theorem pure (a : α) : Quiet (pure a) := fun w _ => .refl w

theorem throw (h : Halt) : Quiet (throw h : Act α) := fun w _ => .refl w

theorem modify {f : World → World} (h : ∀ w, Same w (f w)) : Quiet (modify f) := fun w _ => h w

/-- One quiet action after another. -/
theorem bind {f : α → Act β} (h : Quiet act) (hf : ∀ a, Quiet (f a)) : Quiet (act >>= f) := by
  intro w hw
  -- Even if the first action is cut short, what it did was quiet.
  have hs := h w hw
  rw [on_bind]
  generalize act.on w = r at hs ⊢
  rcases r with ⟨_ | a, w'⟩
  · exact hs
  · exact hs.trans (hf a w' (hs.shutdown.trans hw))

/-- An action that looks at the world first. -/
theorem get {f : World → Act β}
    (h : ∀ w, w.circumstances.isShutdown = false → Same w ((f w).on w).2) :
    Quiet (get >>= f) := by
  intro w hw
  rw [on_bind]
  exact h w hw

theorem tryCatch {f : Halt → Act α} (h : Quiet act) (hf : ∀ x, Quiet (f x)) :
    Quiet (tryCatch act f) := by
  intro w hw
  have hs := h w hw
  rw [on_tryCatch]
  generalize act.on w = r at hs ⊢
  rcases r with ⟨x | a, w'⟩
  · exact hs.trans (hf x w' (hs.shutdown.trans hw))
  · exact hs

theorem whileUnwinding {cleanup : Act Unit} (h : Quiet cleanup) :
    Quiet (whileUnwinding cleanup) := by
  refine (modify fun _ => by exact ⟨rfl, rfl, rfl⟩).bind ?_
  intro _
  refine (tryCatch h fun x => ?_).bind fun _ => modify fun _ => by exact ⟨rfl, rfl, rfl⟩
  cases x <;> exact throw _

theorem orUnwind {cleanup : Act Unit} (h : Quiet act) (hc : Quiet cleanup) :
    Quiet (orUnwind act cleanup) := by
  refine tryCatch h ?_
  intro x
  cases x with
  | panicked scream => exact (whileUnwinding hc).bind fun _ => throw _
  | _ => exact throw _

theorem releaseAll {acts : List (Act Unit)} (h : ∀ a ∈ acts, Quiet a) :
    Quiet (releaseAll acts) := by
  induction acts with
  | nil => exact pure ()
  | cons a acts ih =>
    have hr := ih fun b hb => h b (List.mem_cons_of_mem _ hb)
    exact (orUnwind (h a List.mem_cons_self) hr).bind fun _ => hr

end Quiet

/-! ## Waking and answering -/

variable {env : Env}

/-- Before the shutdown, whoever is woken is queued. -/
theorem quiet_schedule (t : Nat) : Quiet (schedule env t) := by
  refine .get ?_
  intro w hw
  rw [if_neg (by simp [hw])]
  exact ⟨rfl, rfl, rfl⟩

theorem quiet_wake (waker : Waker) : Quiet (wake env waker) := by
  cases waker with
  | counter name => exact .modify fun _ => by exact ⟨rfl, rfl, rfl⟩
  | task t =>
    refine .get ?_
    intro w hw
    rcases w.board.notify t with ⟨fresh, board⟩
    refine (Quiet.modify fun _ => by exact ⟨rfl, rfl, rfl⟩).bind (fun _ => ?_) w hw
    split
    · exact quiet_schedule t
    · exact .pure ()
  | thread => exact .pure ()
  | nobody => exact .pure ()

theorem quiet_wakeAny (waker : Option Waker) : Quiet (wakeAny env waker) := by
  cases waker with
  | none => exact .pure ()
  | some waker => exact quiet_wake waker

theorem quiet_setSlot (n : Nat) (slot : Slot Waker Parcel) : Quiet (setSlot n slot) :=
  .modify fun _ => by exact ⟨rfl, rfl, rfl⟩

theorem quiet_slotAt (n : Nat) : Quiet (slotAt n) := .get fun w _ => .refl w

theorem quiet_completeSlot (n : Nat) (answer : Reply) : Quiet (completeSlot env n answer) :=
  (quiet_slotAt n).bind fun _ => (quiet_setSlot n _).bind fun _ => quiet_wakeAny _

theorem quiet_emptySlot (n : Nat) : Quiet (emptySlot n) :=
  (quiet_slotAt n).bind fun _ => (quiet_setSlot n _).bind fun _ => .pure _

theorem quiet_newSlot : Quiet newSlot := .get fun _ _ => ⟨rfl, rfl, rfl⟩

theorem quiet_newResumption (policy : LeakPolicy) : Quiet (newResumption policy) :=
  quiet_newSlot.bind fun _ => .get fun _ _ => ⟨rfl, rfl, rfl⟩

theorem quiet_claim (n : Nat) : Quiet (claim n) := by
  refine .bind (.get fun w _ => .refl w) ?_
  intro r
  split
  · exact .pure none
  · exact (Quiet.modify fun _ => by exact ⟨rfl, rfl, rfl⟩).bind fun _ => .pure _

theorem quiet_retire (n : Nat) : Quiet (retire n) := (quiet_claim n).bind fun _ => .pure ()

theorem quiet_leak (policy : LeakPolicy) (what : String) : Quiet (leak policy what) := by
  refine (Quiet.modify fun _ => by exact ⟨rfl, rfl, rfl⟩).bind fun _ => .get ?_
  intro w _
  split
  · exact .refl w
  · exact .refl w
  · exact .refl w

theorem quiet_dropResumption (n : Nat) : Quiet (dropResumption env n) := by
  refine (quiet_claim n).bind ?_
  intro slot
  split
  · exact .pure ()
  · exact .bind (.get fun w _ => .refl w) fun _ =>
      (quiet_leak _ _).bind fun _ => quiet_completeSlot _ _

theorem quiet_dropResumptions (ns : List Nat) : Quiet (dropResumptions env ns) := by
  refine .releaseAll ?_
  intro a ha
  obtain ⟨n, -, rfl⟩ := List.mem_map.1 ha
  exact quiet_dropResumption n

theorem quiet_dropCargo (c : Cargo) : Quiet (dropCargo env c) := by
  cases c with
  | datum d => exact .pure ()
  | action a => exact quiet_dropResumptions _
  | paired a => exact quiet_dropResumption _
  | merged a => exact quiet_dropResumption _

theorem quiet_dropReply (r : Reply) : Quiet (dropReply env r) := by
  rcases r with f | p
  · exact .pure ()
  · cases p with
    | cargo c => exact quiet_dropCargo c
    | _ => exact .pure ()

theorem quiet_resume (n : Nat) (answer : Reply) : Quiet (resume env n answer) := by
  refine (quiet_claim n).bind ?_
  intro slot
  split
  · exact (quiet_dropReply answer).bind fun _ => .pure false
  · refine (quiet_completeSlot _ answer).bind fun _ => (quiet_slotAt _).bind ?_
    intro r
    split
    · refine (quiet_emptySlot _).bind ?_
      intro r
      cases r with
      | none => exact .pure true
      | some r => exact (quiet_dropReply r).bind fun _ => .pure true
    · exact .pure true

theorem quiet_answerAll (answers : Streams.Answers Nat) : Quiet (answerAll env answers) := by
  induction answers with
  | nil => exact .pure ()
  | cons a answers ih => exact (quiet_resume _ _).bind fun _ => ih

theorem quiet_carryOutAll (rs : List (Resolution Nat Cargo)) : Quiet (carryOutAll env rs) := by
  induction rs with
  | nil => exact .pure ()
  | cons r rs ih =>
    refine .bind ?_ fun _ => ih
    cases r with
    | reader party answer => exact (quiet_resume _ _).bind fun _ => .pure ()
    | writer party answer => exact (quiet_resume _ _).bind fun _ => .pure ()

/-! ## What a fold does with an action -/

theorem quiet_logEntry (e : Script.Entry) : Quiet (logEntry e) :=
  .modify fun _ => by exact ⟨rfl, rfl, rfl⟩

theorem quiet_policyOr (chosen : Option LeakPolicy) : Quiet (policyOr chosen) :=
  .get fun w _ => .refl w

theorem quiet_reducedBy {γ : Type} (m : Streams.Machine γ) (wrap : Streams.Machine γ → FoldState)
    (idle : γ) (r : Except (Streams.Violation Nat) (Streams.Reduced γ Nat)) :
    Quiet (reducedBy env m wrap idle r) := by
  cases r with
  | error v => exact .pure _
  | ok r => exact (quiet_answerAll _).bind fun _ => .pure _

/-- A reduction answers senders, and lets go what does not belong to the fold. -/
theorem quiet_reduce (name : String) (state : FoldState) (c : Cargo) :
    Quiet (reduce env name state c) := by
  rw [reduce.eq_def]
  split
  · exact quiet_reducedBy _ _ _ _
  · exact quiet_reducedBy _ _ _ _
  · refine (quiet_logEntry _).bind ?_
    intro _
    split <;> exact .pure _
  · exact (quiet_dropCargo _).bind fun _ => .pure _

theorem quiet_answerAction (a : Action) (answer : Outcome Datum) :
    Quiet (answerAction env a answer) := by
  rw [answerAction]
  split
  · exact .pure ()
  · exact (quiet_resume _ _).bind fun _ => .pure ()

theorem quiet_dispose (folder : Folder) (c : Completion) (cargo : Cargo) :
    Quiet (dispose env folder c cargo) := by
  cases cargo with
  | datum d => exact .pure ()
  | action a =>
    cases folder with
    | scripted => exact (quiet_logEntry _).bind fun _ => quiet_answerAction a _
    | combining => exact quiet_answerAction a _
  | paired a => exact quiet_answerAll _
  | merged a => exact quiet_answerAll _

end ResumeOnce.Reactor

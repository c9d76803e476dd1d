import ResumeOnce.Proofs.Reactor.Holding
import ResumeOnce.Proofs.Run

/-!
# A right to answer, and the party that waits for the answer

A right to answer and its slot are made in a world. Whoever owns the right may answer, give
the right up, look whether it was used, or drop it, on its way out of a panic or not; whoever
waits at the slot may poll it with any waker, look whether the answer is there, or go away.
Both do so in any order, as often as they like.

What such a history comes to is told by the first deed that uses the right up, its verdict:

* `verdict`, `delivery`: the first use of the right, and the answer that it sends;
* `expected`: what a deed is told behind a history;
* `Sound`: what a history leaves in the two records, and whom it has woken;
* `delivers_once`: every deed is told what is expected of it, a leak is counted if the verdict
  is a drop and only then, and of all wakers only the last one that was left before the
  delivery is woken, once.
-/

namespace ResumeOnce.Reactor

variable {env : Env} {w : World} {record : SlotRecord} {slot : Slot Waker Parcel}
  {heard : Bool} {right : Resumption} {leaks : Nat}

namespace Suspension

/-! ## Deeds -/

/-- What the owner of the right does, and what the waiting party does. -/
inductive Deed where
  /-- Answer, with a value or with a fault. -/
  | answer (r : Reply)
  /-- Give the right up. -/
  | retire
  /-- Look whether the right was used. -/
  | look
  /-- Drop the right, while a panic unwinds or not. -/
  | drop (unwinding : Bool)
  | poll (waker : Waker)
  /-- Look whether the answer is there. -/
  | isReady
  /-- Go away without the answer. -/
  | leave

/-- What a deed is told. -/
inductive Report where
  | nothing
  | done
  | usedUp
  | flag (b : Bool)
  | pending
  | ready (r : Reply)
  | panicked (scream : Script.Scream)

/-- A right is dropped, while a panic unwinds or not. -/
def release (env : Env) (n : Nat) : Bool → Act Unit
  | true => whileUnwinding (dropResumption env n)
  | false => dropResumption env n

/-- A deed with the right and the slot of given numbers. -/
def Deed.act (env : Env) (n m : Nat) : Deed → Act Report
  | answer r => return if ← resume env n r then .done else .usedUp
  | retire => return if (← claim n).isSome then .done else .usedUp
  | look => return .flag (← resumptionAt n).resumed
  | drop unwinding =>
    catchPanic (do release env n unwinding; return .nothing) fun scream => return .panicked scream
  | poll waker => do
    match ← pollSlot env m waker with
    | .pending => return .pending
    | .ready r => return .ready r
  | isReady => return .flag (← slotAt m).slot.isComplete
  | leave => do
    dropWaiter env m
    return .nothing

/-- The two sides in a world: whether the right is owned still, and whether anybody waits. -/
structure State where
  world : World
  owned : Bool
  waits : Bool

/-- What each side can do while it is there. -/
def Deed.Possible (s : State) : Deed → Prop
  | answer r => s.owned ∧ Bare r
  | retire => s.owned
  | look => s.owned
  | drop _ => s.owned
  | poll waker => s.waits ∧ s.world.Wakes waker
  | isReady => s.waits
  | leave => s.waits

/-- The sides behind a deed. -/
def State.after (s : State) (w : World) : Deed → State
  | .drop _ => ⟨w, false, s.waits⟩
  | .leave => ⟨w, s.owned, false⟩
  | _ => ⟨w, s.owned, s.waits⟩

/-- A deed, with what it is told. -/
def Step (env : Env) (n m : Nat) (s : State) (e : Deed × Report) (s' : State) : Prop :=
  e.1.Possible s ∧ ∃ w, (e.1.act env n m).on s.world = (.ok e.2, w) ∧ s' = s.after w e.1

/-! ## Histories -/

/-- Whether a deed uses the right up, if nothing did before. -/
def Deed.decides : Deed → Bool
  | answer _ => true
  | retire => true
  | drop _ => true
  | _ => false

/-- The deed that used the right up. -/
def verdict (t : List (Deed × Report)) : Option Deed := (t.map Prod.fst).find? Deed.decides

/-- What a verdict delivers, under a policy and given whether a panic unwinds anyway. -/
def Deed.delivers (policy : LeakPolicy) (unwinding : Bool) : Deed → Option Reply
  | answer r => some r
  | drop u => if policy.effect (u || unwinding) = .deliver then some (.error Leak.fault) else none
  | _ => none

/-- What a history delivers. -/
def delivery (policy : LeakPolicy) (unwinding : Bool) (t : List (Deed × Report)) : Option Reply :=
  (verdict t).bind (Deed.delivers policy unwinding)

/-- The leaks of a history: one if the verdict is a drop. -/
def leaked (t : List (Deed × Report)) : Nat :=
  match verdict t with
  | some (.drop _) => 1
  | _ => 0

/-- The waker of a poll that had to wait. -/
def leftBy : Deed × Report → Option Waker
  | (.poll waker, .pending) => some waker
  | _ => none

/-- The waker of the last poll that had to wait. -/
def lastLeft (t : List (Deed × Report)) : Option Waker := (t.filterMap leftBy).getLast?

/-- Whom a history wakes. -/
def roused (policy : LeakPolicy) (unwinding : Bool) (t : List (Deed × Report)) : Option Waker :=
  if (delivery policy unwinding t).isSome then lastLeft t else none

/-- Whether a poll has found an answer. -/
def Report.isReady : Report → Bool
  | ready _ => true
  | _ => false

/-- Whether the answer was taken. -/
def fetched (t : List (Deed × Report)) : Bool := t.any (·.2.isReady)

/-- What a deed is told behind a history. -/
def expected (policy : LeakPolicy) (unwinding : Bool) (t : List (Deed × Report)) : Deed → Report
  | .answer _ | .retire => if (verdict t).isSome then .usedUp else .done
  | .look => .flag (verdict t).isSome
  | .drop u =>
    if verdict t = none ∧ policy.effect (u || unwinding) = .panic then
      .panicked (.text (Leak.message "Resumption"))
    else .nothing
  | .poll _ =>
    match delivery policy unwinding t with
    | none => .pending
    | some r => .ready (if fetched t then .error Slot.takenFault else r)
  | .isReady => .flag (delivery policy unwinding t).isSome
  | .leave => .nothing

/-! ## What the deeds do -/

section Acts

variable {n m : Nat} {policy : LeakPolicy} {resumed unwinding : Bool}

theorem act_answer_used {r : Reply} (hb : Bare r) (hn : w.resumptions.size = n) :
    ((Deed.answer r).act env n m).on (w.holding record ⟨m, true, policy⟩ leaks) =
      (.ok .usedUp, w.holding record ⟨m, true, policy⟩ leaks) := by
  subst hn
  exact on_bind_of_ok (resume_used hb rfl)

theorem act_answer_unused {r : Reply} {k : Option Waker} (hb : Bare r)
    (hn : w.resumptions.size = n) (hm : w.slots.size = m) (hk : ∀ k' ∈ k, w.Wakes k') :
    ((Deed.answer r).act env n m).on
        (w.holding ⟨⟨none, false, k⟩, heard⟩ ⟨m, false, policy⟩ leaks) =
      (.ok .done, (w.awaken k).holding ⟨⟨if heard then some r else none, false, none⟩, heard⟩
        ⟨m, true, policy⟩ leaks) := by
  subst hn hm
  exact on_bind_of_ok (resume_unused hb rfl rfl hk)

theorem act_retire (hn : w.resumptions.size = n) :
    (Deed.retire.act env n m).on (w.holding record ⟨m, resumed, policy⟩ leaks) =
      (.ok (if resumed then .usedUp else .done), w.holding record ⟨m, true, policy⟩ leaks) := by
  subst hn
  refine (on_bind_of_ok claim_holding).trans ?_
  cases resumed <;> rfl

theorem act_look (hn : w.resumptions.size = n) :
    (Deed.look.act env n m).on (w.holding record ⟨m, resumed, policy⟩ leaks) =
      (.ok (.flag resumed), w.holding record ⟨m, resumed, policy⟩ leaks) := by
  subst hn
  exact on_bind_of_ok resumptionAt_holding

theorem act_drop_used (hn : w.resumptions.size = n) :
    ((Deed.drop unwinding).act env n m).on (w.holding record ⟨m, true, policy⟩ leaks) =
      (.ok .nothing, w.holding record ⟨m, true, policy⟩ leaks) := by
  subst hn
  refine catchPanic_ok (on_bind_of_ok (a := ()) ?_)
  cases unwinding with
  | true => exact whileUnwinding_holding (dropResumption_used rfl)
  | false => exact dropResumption_used rfl

theorem act_drop_delivers {k : Option Waker} (hn : w.resumptions.size = n)
    (hm : w.slots.size = m) (hk : ∀ k' ∈ k, w.Wakes k')
    (he : policy.effect (unwinding || w.circumstances.unwinding != 0) = .deliver) :
    ((Deed.drop unwinding).act env n m).on
        (w.holding ⟨⟨none, false, k⟩, heard⟩ ⟨m, false, policy⟩ leaks) =
      (.ok .nothing, (w.awaken k).holding ⟨⟨some (.error Leak.fault), false, none⟩, heard⟩
        ⟨m, true, policy⟩ (leaks + 1)) := by
  subst hn hm
  refine catchPanic_ok (on_bind_of_ok (a := ()) ?_)
  cases unwinding with
  | true =>
    refine (whileUnwinding_holding (dropResumption_delivers rfl rfl (by exact hk) he)).trans ?_
    rcases k with _ | _ | _ | _ | _ <;> rfl
  | false => exact dropResumption_delivers rfl rfl hk he

theorem act_drop_panics (hn : w.resumptions.size = n) (hm : w.slots.size = m)
    (he : policy.effect (unwinding || w.circumstances.unwinding != 0) = .panic) :
    ((Deed.drop unwinding).act env n m).on (w.holding record ⟨m, false, policy⟩ leaks) =
      (.ok (.panicked (.text (Leak.message "Resumption"))),
        w.holding record ⟨m, true, policy⟩ (leaks + 1)) := by
  subst hn hm
  cases unwinding with
  | true => cases policy <;> cases he
  | false => exact catchPanic_panicked (on_bind_of_panicked (dropResumption_panics rfl rfl he))

theorem act_poll (hm : w.slots.size = m) (hk : slot.result.isSome → slot.waker = none)
    (k : Waker) :
    ((Deed.poll k).act env n m).on (w.holding ⟨slot, heard⟩ right leaks) =
      (.ok (match (slot.poll k).2.2 with
        | .pending => .pending
        | .ready r => .ready r), w.holding ⟨(slot.poll k).1, heard⟩ right leaks) := by
  subst hm
  refine (on_bind_of_ok (pollSlot_holding hk k)).trans ?_
  cases (slot.poll k).2.2 <;> rfl

theorem act_poll_pending {k' : Option Waker} (hm : w.slots.size = m) (k : Waker) :
    ((Deed.poll k).act env n m).on (w.holding ⟨⟨none, false, k'⟩, heard⟩ right leaks) =
      (.ok .pending, w.holding ⟨⟨none, false, some k⟩, heard⟩ right leaks) :=
  act_poll hm (by rintro ⟨⟩) k

theorem act_poll_ready {taken : Bool} (hm : w.slots.size = m) (r : Reply) (k : Waker) :
    ((Deed.poll k).act env n m).on
        (w.holding ⟨⟨if taken then none else some r, taken, none⟩, heard⟩ right leaks) =
      (.ok (.ready (if taken then .error Slot.takenFault else r)),
        w.holding ⟨⟨none, true, none⟩, heard⟩ right leaks) := by
  refine (act_poll hm (fun _ => rfl) k).trans ?_
  cases taken <;> rfl

theorem act_isReady (hm : w.slots.size = m) :
    (Deed.isReady.act env n m).on (w.holding record right leaks) =
      (.ok (.flag record.slot.isComplete), w.holding record right leaks) := by
  subst hm
  exact on_bind_of_ok slotAt_holding

theorem act_leave (hm : w.slots.size = m) (hb : ∀ r, slot.result = some r → Bare r) :
    (Deed.leave.act env n m).on (w.holding ⟨slot, heard⟩ right leaks) =
      (.ok .nothing, w.holding ⟨{ slot with result := none }, false⟩ right leaks) := by
  subst hm
  exact on_bind_of_ok (dropWaiter_holding hb)

end Acts

/-! ## Histories, one deed longer -/

section Histories

variable {t : List (Deed × Report)} {d : Deed} {r : Report}

theorem verdict_concat_of_some {d₁ : Deed} (h : verdict t = some d₁) (e : Deed × Report) :
    verdict (t ++ [e]) = some d₁ := by
  rw [verdict, List.map_append, List.find?_append, ← verdict, h]
  rfl

theorem verdict_concat_of_idle (hd : d.decides = false) (r : Report) :
    verdict (t ++ [(d, r)]) = verdict t := by
  rw [verdict, List.map_append, List.find?_append, ← verdict]
  simp [hd]

theorem verdict_concat_of_none (h : verdict t = none) (hd : d.decides = true) (r : Report) :
    verdict (t ++ [(d, r)]) = some d := by
  rw [verdict, List.map_append, List.find?_append, ← verdict, h]
  simp [hd]

theorem leaked_congr {t' : List (Deed × Report)} (h : verdict t' = verdict t) :
    leaked t' = leaked t := by rw [leaked, h, leaked]

theorem delivery_congr {t' : List (Deed × Report)} (h : verdict t' = verdict t)
    (policy : LeakPolicy) (unwinding : Bool) :
    delivery policy unwinding t' = delivery policy unwinding t := by rw [delivery, h, delivery]

theorem roused_congr {t' : List (Deed × Report)} {policy : LeakPolicy} {unwinding : Bool}
    (h : verdict t' = verdict t) (hl : lastLeft t' = lastLeft t) :
    roused policy unwinding t' = roused policy unwinding t := by
  rw [roused, delivery_congr h, hl, roused]

theorem lastLeft_concat_of_none {e : Deed × Report} (h : leftBy e = none) :
    lastLeft (t ++ [e]) = lastLeft t := by
  rw [lastLeft, List.filterMap_append, List.filterMap_cons_none h, List.filterMap_nil,
    List.append_nil, lastLeft]

theorem lastLeft_concat_of_some {e : Deed × Report} {k : Waker} (h : leftBy e = some k) :
    lastLeft (t ++ [e]) = some k := by
  rw [lastLeft, List.filterMap_append, List.filterMap_cons_some h, List.getLast?_append]
  rfl

theorem fetched_concat (e : Deed × Report) : fetched (t ++ [e]) = (fetched t || e.2.isReady) := by
  simp [fetched]

end Histories

/-! ## What a history leaves -/

/-- Whether a panic unwinds in a world. -/
def unwinds (w : World) : Bool := w.circumstances.unwinding != 0

/-- What a history that began in a world has left there. -/
structure Sound (w : World) (policy : LeakPolicy) (t : List (Deed × Report)) (s : State)
    (slot : Slot Waker Parcel) : Prop where
  world : s.world = (w.awaken (roused policy (unwinds w) t)).holding ⟨slot, s.waits⟩
    ⟨w.slots.size, (verdict t).isSome, policy⟩ (w.leaks + leaked t)
  wakes : ∀ k ∈ lastLeft t, w.Wakes k
  /-- Before the delivery the slot is empty, but for the waker of whoever waits. -/
  before : delivery policy (unwinds w) t = none →
    slot = ⟨none, false, lastLeft t⟩ ∧ fetched t = false
  /-- Behind it nobody sleeps at the slot, and the waiting party finds the answer once. -/
  asleep : (delivery policy (unwinds w) t).isSome → slot.waker = none
  after : ∀ r, delivery policy (unwinds w) t = some r → s.waits →
    slot = ⟨if fetched t then none else some r, fetched t, none⟩
  bare : ∀ r, slot.result = some r → Bare r

/-- A deed is told what is expected of it. Behind it the history is sound again, and a deed
    that comes too late has changed nothing. -/
def Obeys (env : Env) (w : World) (policy : LeakPolicy) (t : List (Deed × Report)) (s : State)
    (d : Deed) : Prop :=
  ∃ w' slot', (d.act env w.resumptions.size w.slots.size).on s.world =
      (.ok (expected policy (unwinds w) t d), w') ∧
    (expected policy (unwinds w) t d = .usedUp → w' = s.world) ∧
    Sound w policy (t ++ [(d, expected policy (unwinds w) t d)]) (s.after w' d) slot'

theorem sound_start (w : World) (policy : LeakPolicy) :
    Sound w policy [] ⟨w.holding ⟨.new, true⟩ ⟨w.slots.size, false, policy⟩ w.leaks, true, true⟩
      .new where
  world := rfl
  wakes := fun k hk => by simp [lastLeft] at hk
  before := fun _ => ⟨rfl, rfl⟩
  asleep := fun hd => by simp [delivery, verdict] at hd
  after := fun r hd => by simp [delivery, verdict] at hd
  bare := fun r hr => by simp [Slot.new] at hr

namespace Sound

variable {policy : LeakPolicy} {t : List (Deed × Report)} {s : State} (h : Sound w policy t s slot)
include h

/-- A deed that changes neither the verdict nor the slot. -/
theorem idle {e : Deed × Report} {s' : State} (hv : verdict (t ++ [e]) = verdict t)
    (hl : leftBy e = none) (hr : e.2.isReady = false) (hs : s'.world = s.world)
    (hw : s'.waits = s.waits) : Sound w policy (t ++ [e]) s' slot := by
  have hd := delivery_congr hv policy (unwinds w)
  have hf : fetched (t ++ [e]) = fetched t := by rw [fetched_concat, hr, Bool.or_false]
  have hk := lastLeft_concat_of_none (t := t) hl
  constructor
  · rw [roused_congr hv hk, leaked_congr hv, hv, hs, hw]
    exact h.world
  · rw [hk]
    exact h.wakes
  · rw [hd, hk, hf]
    exact h.before
  · rw [hd]
    exact h.asleep
  · rw [hd, hf, hw]
    exact h.after
  · exact h.bare

theorem look : Obeys env w policy t s .look := by
  refine ⟨s.world, slot, ?_, fun _ => rfl, h.idle (verdict_concat_of_idle rfl _) rfl rfl rfl rfl⟩
  rw [h.world]
  exact act_look (by rw [resumptions_awaken])

/-- Whether the answer has come can be seen from the slot. -/
theorem isComplete (hs : s.waits) :
    slot.isComplete = (delivery policy (unwinds w) t).isSome := by
  rcases hd : delivery policy (unwinds w) t with _ | r
  · rw [(h.before hd).1]
    rfl
  · rw [h.after r hd hs]
    cases fetched t <;> rfl

theorem isReady (hs : s.waits) : Obeys env w policy t s .isReady := by
  refine ⟨s.world, slot, ?_, fun _ => rfl, h.idle (verdict_concat_of_idle rfl _) rfl rfl rfl rfl⟩
  rw [h.world, expected, ← h.isComplete hs]
  exact act_isReady (by rw [slots_awaken])

/-- Before the delivery, the waiting party leaves its waker. -/
theorem poll_pending {k : Waker} (hk : s.world.Wakes k)
    (hd : delivery policy (unwinds w) t = none) : Obeys env w policy t s (.poll k) := by
  obtain ⟨rfl, hf⟩ := h.before hd
  have he : expected policy (unwinds w) t (.poll k) = .pending := by rw [expected, hd]
  have hv := verdict_concat_of_idle (t := t) (d := .poll k) rfl .pending
  have hd' : delivery policy (unwinds w) (t ++ [(.poll k, .pending)]) = none := by
    rw [delivery_congr hv, hd]
  have hl : lastLeft (t ++ [(.poll k, .pending)]) = some k := lastLeft_concat_of_some rfl
  have hw := h.world
  rw [roused, hd] at hw
  rw [Obeys, he, hw]
  refine ⟨_, ⟨none, false, some k⟩, act_poll_pending rfl k, nofun, ?_⟩
  constructor
  · rw [roused, hd', leaked_congr hv, hv]
    rfl
  · rw [hl]
    rintro k' ⟨⟩ u hu
    have hk' := hk u hu
    rw [hw] at hk'
    exact hk'
  · rw [hl]
    exact fun _ => ⟨rfl, by rw [fetched_concat, hf]; rfl⟩
  · rw [hd']
    rintro ⟨⟩
  · rw [hd']
    rintro _ ⟨⟩
  · rintro _ ⟨⟩

/-- Behind the delivery it finds the answer, or learns that it has had it. -/
theorem poll_ready {k : Waker} {r : Reply} (hs : s.waits)
    (hd : delivery policy (unwinds w) t = some r) : Obeys env w policy t s (.poll k) := by
  obtain rfl := h.after r hd hs
  have he : expected policy (unwinds w) t (.poll k) =
      .ready (if fetched t then .error Slot.takenFault else r) := by rw [expected, hd]
  generalize ha : (if fetched t then Except.error Slot.takenFault else r) = a at he
  have hv := verdict_concat_of_idle (t := t) (d := .poll k) rfl (.ready a)
  have hd' : delivery policy (unwinds w) (t ++ [(.poll k, .ready a)]) = some r := by
    rw [delivery_congr hv, hd]
  have hl : lastLeft (t ++ [(.poll k, .ready a)]) = lastLeft t := lastLeft_concat_of_none rfl
  have hf : fetched (t ++ [(.poll k, .ready a)]) = true := by
    rw [fetched_concat]
    exact Bool.or_true _
  have hw := h.world
  rw [Obeys, he, hw]
  refine ⟨_, ⟨none, true, none⟩, ha ▸ act_poll_ready (by rw [slots_awaken]) r k, nofun, ?_⟩
  constructor
  · rw [roused, roused, hd', hd, hl, leaked_congr hv, hv]
    rfl
  · rw [hl]
    exact h.wakes
  · rw [hd']
    rintro ⟨⟩
  · exact fun _ => rfl
  · rw [hf]
    exact fun _ _ _ => rfl
  · rintro _ ⟨⟩

theorem poll {k : Waker} (hs : s.waits) (hk : s.world.Wakes k) :
    Obeys env w policy t s (.poll k) := by
  rcases hd : delivery policy (unwinds w) t with _ | r
  · exact h.poll_pending hk hd
  · exact h.poll_ready hs hd

/-- The deed that uses the right up, and what it delivers. -/
theorem decide {d : Deed} {r : Report} {slot' : Slot Waker Parcel} {s' : State}
    (hv : verdict t = none) (hd : d.decides = true) (hr : r.isReady = false)
    (hw : s'.waits = s.waits)
    (hs : s'.world =
      (w.awaken (if (d.delivers policy (unwinds w)).isSome then lastLeft t else none)).holding
        ⟨slot', s.waits⟩ ⟨w.slots.size, true, policy⟩ (w.leaks + leaked [(d, r)]))
    (hb : d.delivers policy (unwinds w) = none → slot' = slot)
    (ha : ∀ r, d.delivers policy (unwinds w) = some r → slot'.waker = none ∧ Bare r ∧
      (slot'.result = none ∨ slot'.result = some r) ∧ (s.waits → slot' = ⟨some r, false, none⟩)) :
    Sound w policy (t ++ [(d, r)]) s' slot' := by
  have hv' := verdict_concat_of_none hv hd r
  have h₀ : delivery policy (unwinds w) t = none := by rw [delivery, hv]; rfl
  have hd' : delivery policy (unwinds w) (t ++ [(d, r)]) = d.delivers policy (unwinds w) := by
    rw [delivery, hv']
    rfl
  have hk : lastLeft (t ++ [(d, r)]) = lastLeft t := by
    refine lastLeft_concat_of_none ?_
    cases d <;> cases hd <;> rfl
  have hf : fetched (t ++ [(d, r)]) = false := by rw [fetched_concat, (h.before h₀).2]; exact hr
  have hl : leaked (t ++ [(d, r)]) = leaked [(d, r)] := by
    refine leaked_congr (hv'.trans ?_)
    rw [← List.nil_append [(d, r)], verdict_concat_of_none rfl hd]
  constructor
  · rw [roused, hd', hk, hv', hl, hs, hw]
    rfl
  · rw [hk]
    exact h.wakes
  · rw [hd', hk, hf]
    exact fun hn => ⟨(hb hn).trans (h.before h₀).1, rfl⟩
  · rw [hd']
    intro hsome
    obtain ⟨r', hr'⟩ := Option.isSome_iff_exists.1 hsome
    exact (ha r' hr').1
  · rw [hd', hf, hw]
    exact fun r' hr' hs' => (ha r' hr').2.2.2 hs'
  · intro r' hr'
    rcases hn : d.delivers policy (unwinds w) with _ | r''
    · rw [hb hn] at hr'
      exact h.bare r' hr'
    · obtain ⟨-, hb', hres, -⟩ := ha r'' hn
      rcases hres with hres | hres
      · rw [hres] at hr'
        cases hr'
      · rw [hres] at hr'
        cases hr'
        exact hb'

/-- A deed that comes too late. -/
theorem late {d d₁ : Deed} {r : Report} {s' : State} (hv : verdict t = some d₁)
    (hd : d.decides = true) (hr : r.isReady = false) (hs : s'.world = s.world)
    (hw : s'.waits = s.waits) : Sound w policy (t ++ [(d, r)]) s' slot := by
  refine h.idle ((verdict_concat_of_some hv _).trans hv.symm) ?_ hr hs hw
  cases d <;> cases hd <;> rfl

/-- The world while the right is unused. -/
theorem world_of_undecided (hv : verdict t = none) : s.world =
    w.holding ⟨⟨none, false, lastLeft t⟩, s.waits⟩ ⟨w.slots.size, false, policy⟩ w.leaks := by
  have hd : delivery policy (unwinds w) t = none := by
    rw [delivery, hv]
    rfl
  have hs := h.world
  rwa [roused, hd, leaked, hv, (h.before hd).1] at hs

theorem answer {r : Reply} (hb : Bare r) : Obeys env w policy t s (.answer r) := by
  rcases hv : verdict t with _ | d₁
  · have he : expected policy (unwinds w) t (.answer r) = .done := by rw [expected, hv]; rfl
    rw [Obeys, he, h.world_of_undecided hv]
    refine ⟨_, _, act_answer_unused hb rfl rfl h.wakes, nofun, h.decide hv rfl rfl rfl rfl ?_ ?_⟩
    · rintro ⟨⟩
    · rintro _ ⟨⟩
      refine ⟨rfl, hb, ?_, fun hs => by rw [hs]; rfl⟩
      cases s.waits
      · exact .inl rfl
      · exact .inr rfl
  · have he : expected policy (unwinds w) t (.answer r) = .usedUp := by rw [expected, hv]; rfl
    rw [Obeys, he]
    refine ⟨s.world, slot, ?_, fun _ => rfl, h.late hv rfl rfl rfl rfl⟩
    rw [h.world, hv]
    exact act_answer_used hb (by rw [resumptions_awaken])

theorem retire : Obeys env w policy t s .retire := by
  rcases hv : verdict t with _ | d₁
  · have he : expected policy (unwinds w) t .retire = .done := by rw [expected, hv]; rfl
    rw [Obeys, he, h.world_of_undecided hv]
    refine ⟨_, _, act_retire rfl, nofun, h.decide hv rfl rfl rfl rfl (fun _ => ?_) ?_⟩
    · exact (h.before (by rw [delivery, hv]; rfl)).1.symm
    · rintro _ ⟨⟩
  · have he : expected policy (unwinds w) t .retire = .usedUp := by rw [expected, hv]; rfl
    rw [Obeys, he]
    refine ⟨s.world, slot, ?_, fun _ => rfl, h.late hv rfl rfl rfl rfl⟩
    rw [h.world, hv]
    exact act_retire (by rw [resumptions_awaken])

theorem drop (hp : policy ≠ .abort) (u : Bool) : Obeys env w policy t s (.drop u) := by
  rcases hv : verdict t with _ | d₁
  · rcases he : policy.effect (u || unwinds w) with _ | _ | _
    · -- The leak is delivered.
      have hd : (Deed.drop u).delivers policy (unwinds w) = some (.error Leak.fault) := by
        rw [Deed.delivers, he]; rfl
      have hx : expected policy (unwinds w) t (.drop u) = .nothing := by
        rw [expected, he]
        simp
      rw [Obeys, hx, h.world_of_undecided hv]
      refine ⟨_, _, act_drop_delivers rfl rfl h.wakes he, nofun,
        h.decide hv rfl rfl rfl (by rw [hd]; rfl) ?_ ?_⟩
      · rw [hd]
        rintro ⟨⟩
      · rw [hd]
        rintro _ ⟨⟩
        exact ⟨rfl, fun _ => rfl, .inr rfl, fun _ => rfl⟩
    · -- The leak panics, and nothing is delivered.
      have hd : (Deed.drop u).delivers policy (unwinds w) = none := by
        rw [Deed.delivers, he]; rfl
      have hx : expected policy (unwinds w) t (.drop u) =
          .panicked (.text (Leak.message "Resumption")) := by
        rw [expected, if_pos ⟨hv, he⟩]
      rw [Obeys, hx, h.world_of_undecided hv]
      refine ⟨_, _, act_drop_panics rfl rfl he, nofun,
        h.decide hv rfl rfl rfl (by rw [hd]; rfl) (fun _ => ?_) ?_⟩
      · exact (h.before (by rw [delivery, hv]; rfl)).1.symm
      · rw [hd]
        rintro _ ⟨⟩
    · -- No other policy ends the program.
      exact absurd (policy_of_effect_abort he) hp
  · have hx : expected policy (unwinds w) t (.drop u) = .nothing := by
      rw [expected, hv]
      simp
    rw [Obeys, hx]
    refine ⟨s.world, slot, ?_, nofun, h.late hv rfl rfl rfl rfl⟩
    rw [h.world, hv]
    exact act_drop_used (by rw [resumptions_awaken])

theorem leave : Obeys env w policy t s .leave := by
  have hv := verdict_concat_of_idle (t := t) (d := .leave) rfl .nothing
  have hd := delivery_congr hv policy (unwinds w)
  have hl : lastLeft (t ++ [(.leave, .nothing)]) = lastLeft t := lastLeft_concat_of_none rfl
  have hf : fetched (t ++ [(.leave, .nothing)]) = fetched t := by
    rw [fetched_concat]
    exact Bool.or_false _
  have hw := h.world
  rw [Obeys, expected, hw]
  refine ⟨_, { slot with result := none }, act_leave (by rw [slots_awaken]) h.bare, nofun, ?_⟩
  constructor
  · rw [roused_congr hv hl, leaked_congr hv, hv]
    rfl
  · rw [hl]
    exact h.wakes
  · rw [hd, hl, hf]
    intro hn
    rw [(h.before hn).1]
    exact ⟨rfl, (h.before hn).2⟩
  · rw [hd]
    exact h.asleep
  · rintro _ _ ⟨⟩
  · rintro _ ⟨⟩

/-- Whatever deed is possible is told what is expected of it. -/
theorem obeys (env : Env) (hp : policy ≠ .abort) {d : Deed} (hd : d.Possible s) :
    Obeys env w policy t s d := by
  cases d with
  | answer r => exact h.answer hd.2
  | retire => exact h.retire
  | look => exact h.look
  | drop u => exact h.drop hp u
  | poll k => exact h.poll hd.1 hd.2
  | isReady => exact h.isReady hd
  | leave => exact h.leave

/-- A step tells what is expected, changes nothing if it comes too late, and keeps the history
    sound. -/
theorem step (hp : policy ≠ .abort) {e : Deed × Report} {s' : State}
    (hs : Step env w.resumptions.size w.slots.size s e s') :
    e.2 = expected policy (unwinds w) t e.1 ∧ (e.2 = .usedUp → s'.world = s.world) ∧
      ∃ slot', Sound w policy (t ++ [e]) s' slot' := by
  obtain ⟨d, r⟩ := e
  obtain ⟨hd, v, ha, rfl⟩ := hs
  obtain ⟨w', slot', hb, hw, hs⟩ := h.obeys env hp hd
  obtain ⟨hr, rfl⟩ := Prod.mk.inj (hb.symm.trans ha)
  obtain rfl : expected policy (unwinds w) t d = r := Except.ok.inj hr
  refine ⟨rfl, ?_, slot', hs⟩
  intro hu
  rw [← hw hu]
  cases d <;> rfl

end Sound

/-! ## Every history -/

variable {policy : LeakPolicy} {t : List (Deed × Report)} {s : State} {n m : Nat}

/-- What holds behind a history that began when a pair was made in a world. -/
structure Delivers (env : Env) (w : World) (policy : LeakPolicy) (n m : Nat)
    (t : List (Deed × Report)) (s : State) : Prop where
  /-- Each deed was told what is expected behind the deeds before it. -/
  told : ∀ t₁ d r t₂, t = t₁ ++ (d, r) :: t₂ → r = expected policy (unwinds w) t₁ d
  /-- Each deed that is possible next comes to its end, and is told so. -/
  next : ∀ d, d.Possible s → ∃ s', Step env n m s (d, expected policy (unwinds w) t d) s'
  /-- What comes too late changes nothing. -/
  inert : ∀ d s', Step env n m s (d, .usedUp) s' → s' = s
  /-- The only leak is a drop that is the verdict. -/
  leaks : s.world.leaks = w.leaks + leaked t
  /-- Beside the pair itself, all that has become of the world is one wake. -/
  wakes : ∃ record right, s.world =
    (w.awaken (roused policy (unwinds w) t)).holding record right (w.leaks + leaked t)
  /-- That is the wake of the last waker that was left before the delivery. -/
  last : ∀ t₁ e t₂, t = t₁ ++ e :: t₂ → delivery policy (unwinds w) t₁ = none →
    (delivery policy (unwinds w) (t₁ ++ [e])).isSome →
    roused policy (unwinds w) t = lastLeft t₁

theorem exists_sound (hp : policy ≠ .abort)
    (h : Run (Step env w.resumptions.size w.slots.size)
      ⟨w.holding ⟨.new, true⟩ ⟨w.slots.size, false, policy⟩ w.leaks, true, true⟩ t s) :
    ∃ slot, Sound w policy t s slot := by
  refine Run.invariant (P := fun t s => ∃ slot, Sound w policy t s slot)
    ⟨_, sound_start w policy⟩ ?_ h
  rintro t s e s' ⟨slot, hs⟩ he
  exact (hs.step hp he).2.2

/-- Whoever comes too late is the same behind its deed. -/
theorem Sound.inert (h : Sound w policy t s slot) (hp : policy ≠ .abort) {d : Deed} {s' : State}
    (hs : Step env w.resumptions.size w.slots.size s (d, .usedUp) s') : s' = s := by
  obtain ⟨he, hw, -⟩ := h.step hp hs
  replace hw := hw rfl
  obtain ⟨-, w', -, rfl⟩ := hs
  -- Only an answer, and giving the right up, are told so.
  cases d with
  | answer r => exact congrArg (State.mk · s.owned s.waits) hw
  | retire => exact congrArg (State.mk · s.owned s.waits) hw
  | look => cases he
  | drop u =>
    simp only [expected] at he
    split at he <;> cases he
  | poll k =>
    simp only [expected] at he
    split at he <;> cases he
  | isReady => cases he
  | leave => cases he

/-- What was delivered stays so. -/
theorem delivery_concat {r : Reply} {u : Bool} (h : delivery policy u t = some r)
    (e : Deed × Report) : delivery policy u (t ++ [e]) = some r := by
  rcases hv : verdict t with _ | d
  · rw [delivery, hv] at h
    cases h
  · rw [delivery_congr ((verdict_concat_of_some hv e).trans hv.symm), h]

/-- What delivers leaves no waker. -/
theorem leftBy_of_delivery {u : Bool} {e : Deed × Report} (h : delivery policy u t = none)
    (h' : (delivery policy u (t ++ [e])).isSome) : leftBy e = none := by
  rcases e with ⟨d, r⟩
  cases hd : d.decides
  · rw [delivery_congr (verdict_concat_of_idle hd r), h] at h'
    cases h'
  · cases d <;> cases hd <;> rfl

/-- Behind the delivery nobody leaves a waker. -/
theorem lastLeft_append {r : Reply} {u : Bool} {t₁ t₂ : List (Deed × Report)}
    (ht : ∀ a d r b, t₁ ++ t₂ = a ++ (d, r) :: b → r = expected policy u a d)
    (hd : delivery policy u t₁ = some r) :
    lastLeft (t₁ ++ t₂) = lastLeft t₁ ∧ delivery policy u (t₁ ++ t₂) = some r := by
  induction t₂ generalizing t₁ with
  | nil =>
    rw [List.append_nil]
    exact ⟨rfl, hd⟩
  | cons e t₂ ih =>
    obtain ⟨d, x⟩ := e
    have he := ht t₁ d x t₂ rfl
    have hn : leftBy (d, x) = none := by
      cases d with
      | poll k =>
        simp only [expected, hd] at he
        rw [he]
        rfl
      | _ => rfl
    rw [List.append_cons, ← lastLeft_concat_of_none (t := t₁) hn]
    exact ih (by rwa [← List.append_cons]) (delivery_concat hd _)

/-- The right delivers once: the first use of it is the only one, and what it delivers is had
    once; a leak is counted once; the waiting party is woken once. -/
theorem delivers_once (hp : policy ≠ .abort) {w₁ : World}
    (hn : (newResumption policy).on w = (.ok (n, m), w₁))
    (h : Run (Step env n m) ⟨w₁, true, true⟩ t s) : Delivers env w policy n m t s := by
  rw [newResumption_holding] at hn
  cases hn
  obtain ⟨slot, hs⟩ := exists_sound hp h
  have told : ∀ t₁ d r t₂, t = t₁ ++ (d, r) :: t₂ → r = expected policy (unwinds w) t₁ d := by
    intro t₁ d r t₂ ht
    obtain ⟨s₁, s₂, h₁, he, -⟩ := h.split ht
    obtain ⟨slot₁, hs₁⟩ := exists_sound hp h₁
    exact (hs₁.step hp he).1
  refine ⟨told, ?_, fun d s' he => hs.inert hp he, ?_, ⟨_, _, hs.world⟩, ?_⟩
  · intro d hd
    obtain ⟨w', slot', ha, -, -⟩ := hs.obeys env hp hd
    exact ⟨_, hd, w', ha, rfl⟩
  · rw [hs.world]
    rfl
  · rintro t₁ e t₂ rfl hd hd'
    obtain ⟨r, hr⟩ := Option.isSome_iff_exists.1 hd'
    rw [List.append_cons] at told ⊢
    obtain ⟨hl, hr'⟩ := lastLeft_append told hr
    rw [roused, hr', hl, lastLeft_concat_of_none (leftBy_of_delivery hd hd')]
    rfl

/-- A right that panics if it leaks is dropped while a panic unwinds: the leak is delivered, and
    of the two wakers that were left the second one is woken. -/
theorem delivers_once_unwinding : ∃ s,
    Run (Step ⟨fun _ => pure (), fun _ => pure ()⟩ 0 0)
      ⟨(World.new .cancel).holding ⟨.new, true⟩ ⟨0, false, .panic⟩ 0, true, true⟩
      [(.poll (.counter "a"), .pending), (.poll (.counter "b"), .pending),
        (.drop true, .nothing), (.poll (.counter "c"), .ready (.error Leak.fault))] s ∧
      s.world.leaks = 1 ∧ s.world.woken = ["b"] := by
  have hk (w : World) (name : String) : w.Wakes (.counter name) := nofun
  have run : ∃ s, Run (Step ⟨fun _ => pure (), fun _ => pure ()⟩ 0 0)
      ⟨(World.new .cancel).holding ⟨.new, true⟩ ⟨0, false, .panic⟩ 0, true, true⟩
      [(.poll (.counter "a"), .pending), (.poll (.counter "b"), .pending),
        (.drop true, .nothing), (.poll (.counter "c"), .ready (.error Leak.fault))] s :=
    ⟨_, (((Run.nil.snoc ⟨⟨rfl, hk _ "a"⟩, _, rfl, rfl⟩).snoc ⟨⟨rfl, hk _ "b"⟩, _, rfl, rfl⟩).snoc
      ⟨rfl, _, rfl, rfl⟩).snoc ⟨⟨rfl, hk _ "c"⟩, _, rfl, rfl⟩⟩
  obtain ⟨s, hs⟩ := run
  have h := delivers_once (w := World.new .cancel) (by decide : LeakPolicy.panic ≠ .abort) rfl hs
  obtain ⟨record, right, hw⟩ := h.wakes
  exact ⟨s, hs, h.leaks, by rw [hw]; rfl⟩

end Suspension

end ResumeOnce.Reactor

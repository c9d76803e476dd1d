import ResumeOnce.Proofs.Channel.Traffic
import ResumeOnce.Proofs.Slot
import ResumeOnce.Resumption
import Mathlib.Data.List.Nodup

/-!
# Who waits on a channel

A call that cannot be settled at once leaves its right to be answered in the channel,
joins those in line there, and waits at a slot. A poll looks into the slot, and leaves its
waker if it finds nothing. Whoever takes somebody out of the line uses the right: the
answer goes into the slot, and the waker that is there is woken.

The first poll of a call asks the channel; it looks into the slot only in a step of its
own, so that others may come in between.

* `inLine`: the calls that the channel is still to answer;
* `Vigil`, `Vigil.Step`: the channel, the calls, their rights and slots; what can happen next;
* `Vigil.tellAll`: those that an operation takes out of the line are told;
* `Sound.attempting`, `Sound.ending`: what an operation does to the line.
-/

namespace ResumeOnce

/-- Who is answered. -/
def Resolution.party : Resolution ρ α → ρ
  | reader r _ => r
  | writer r _ => r

/-- What is answered: a reader gets a value, and a writer gets none. -/
def Resolution.answer : Resolution ρ α → Outcome (Option α)
  | reader _ o => o.map some
  | writer _ o => o.map fun _ => none

namespace Channel

variable {ω : Type u} {α : Type v}

/-- The writers that wait for their values to be read. -/
def waitingWriters (c : Channel ρ α) : List ρ := c.queued.filterMap Writer.resumption

/-- Those whom the channel is to answer. -/
def inLine (c : Channel ρ α) : List ρ := c.waiting ++ c.waitingWriters

/-- A call asks the channel; nothing comes of it if the call has to wait. -/
def attempt (c : Channel Nat α) (k : Nat) :
    Call α → Exchanged Nat α (Option (Outcome (Option α)))
  | .read false =>
    let e := c.tryRead
    ⟨e.channel, e.resolutions, some (e.result.map some)⟩
  | .read true =>
    let e := c.read (some k)
    ⟨e.channel, e.resolutions, match e.result with
      | .settled o => some (o.map some)
      | .queued => none⟩
  | .write a waits =>
    let e := c.write (writer waits k) a
    ⟨e.channel, e.resolutions, match e.result with
      | .handed => some (.ok none)
      | .queued => if waits then none else some (.ok none)
      | .refused r => some (.error r.fault)⟩

/-- How far a call is. -/
inductive Stage (α : Type u) where
  | unmade
  | made (call : Call α)
  | waits (call : Call α)
  | over

/-- What somebody in line is told, whether the right to tell was still there, and the waker
    that is woken. -/
structure Telling (ω : Type u) (α : Type v) where
  party : Nat
  answer : Outcome (Option α)
  fresh : Bool
  woken : Option ω

/-- A channel and the calls on it, by number, each with the right to answer it and its slot. -/
structure Vigil (ω : Type u) (α : Type v) where
  channel : Channel Nat α
  stage : Nat → Stage α
  right : Nat → Resumption
  slot : Nat → Slot ω (Option α)

namespace Vigil

/-- What is seen of a step. -/
inductive Event (ω : Type u) (α : Type v) where
  | made (k : Nat) (call : Call α)
  | begun (k : Nat) (call : Call α) (answer : Option (Outcome (Option α)))
      (told : List (Telling ω α))
  | polled (k : Nat) (waker : ω) (woken : Option ω) (answer : Option (Outcome (Option α)))
  | dropped (k : Nat)
  | closed (c : Completion) (done : Bool) (told : List (Telling ω α))
  | cancelled (f : Fault) (values : List α) (told : List (Telling ω α))

namespace Event

/-- Those who are told something. -/
def told : Event ω α → List (Telling ω α)
  | begun _ _ _ told => told
  | closed _ _ told => told
  | cancelled _ _ told => told
  | _ => []

/-- The call that gets in line. -/
def joined : Event ω α → List Nat
  | begun k _ none _ => [k]
  | _ => []

/-- The waker that a call leaves. -/
def left (k : Nat) : Event ω α → Option ω
  | polled j waker _ none => if j = k then some waker else none
  | _ => none

/-- The waker that a poll wakes. -/
def woken : Event ω α → Option ω
  | polled _ _ woken _ => woken
  | _ => none

/-- Whether this closes the channel. -/
def closes : Event ω α → Bool
  | closed _ done _ => done
  | _ => false

end Event

/-- All that was told, in order. -/
def told (t : List (Event ω α)) : List (Telling ω α) := t.flatMap Event.told

/-- The calls that got in line, in order. -/
def joined (t : List (Event ω α)) : List Nat := t.flatMap Event.joined

/-- The waker that the last poll of a call has left. -/
def lastWaker (t : List (Event ω α)) (k : Nat) : Option ω := (t.filterMap (Event.left k)).getLast?

/-- A new channel. -/
def new (b : Buffering) (policy : LeakPolicy) : Vigil ω α :=
  ⟨.new b, fun _ => .unmade, fun k => ⟨k, false, policy⟩, fun _ => .new⟩

/-- A call gets further. -/
def move (s : Vigil ω α) (k : Nat) (g : Stage α) : Vigil ω α :=
  { s with stage := Function.update s.stage k g }

/-- A right is used without anybody being told. -/
def retire (s : Vigil ω α) (k : Nat) : Vigil ω α :=
  { s with right := Function.update s.right k ((s.right k).claim?.getD (s.right k)) }

/-- Somebody who was in line is told, if the right to do so is still there. -/
def tell (s : Vigil ω α) (r : Resolution Nat α) : Vigil ω α × Telling ω α :=
  match (s.right r.party).claim? with
  | none => (s, ⟨r.party, r.answer, false, none⟩)
  | some right =>
    let (slot, woken) := (s.slot r.party).complete r.answer
    ({ s with
        right := Function.update s.right r.party right
        slot := Function.update s.slot r.party slot },
      ⟨r.party, r.answer, true, woken⟩)

/-- Those who were in line are told, one after the other. -/
def tellAll (s : Vigil ω α) : List (Resolution Nat α) → Vigil ω α × List (Telling ω α)
  | [] => (s, [])
  | r :: rs =>
    let (s', x) := s.tell r
    let (s'', xs) := s'.tellAll rs
    (s'', x :: xs)

/-- An operation has changed the channel, and those whom it took out of the line are told. -/
def exchange (s : Vigil ω α) (e : Exchanged Nat α β) : Vigil ω α × List (Telling ω α) :=
  { s with channel := e.channel }.tellAll e.resolutions

/-- A call asks the channel. -/
def begin (s : Vigil ω α) (k : Nat) (call : Call α) : Vigil ω α × Event ω α :=
  let e := s.channel.attempt k call
  let (s', told) := s.exchange e
  (match e.result with
    | none => s'.move k (.waits call)
    | some _ => (s'.retire k).move k .over,
    .begun k call e.result told)

/-- A call looks into its slot. -/
def poll (s : Vigil ω α) (k : Nat) (w : ω) : Vigil ω α × Event ω α :=
  match (s.slot k).poll w with
  | (slot, woken, .pending) =>
    ({ s with slot := Function.update s.slot k slot }, .polled k w woken none)
  | (slot, woken, .ready o) =>
    ({ s with slot := Function.update s.slot k slot }.move k .over, .polled k w woken (some o))

/-- What can happen next. -/
inductive Step : Vigil ω α → Event ω α → Vigil ω α → Prop
  | make {s : Vigil ω α} {k : Nat} (call : Call α) (hk : s.stage k = .unmade) :
      Step s (.made k call) (s.move k (.made call))
  | begin {s : Vigil ω α} {k : Nat} {call : Call α} (hk : s.stage k = .made call) :
      Step s (s.begin k call).2 (s.begin k call).1
  | poll {s : Vigil ω α} {k : Nat} {call : Call α} (w : ω) (hk : s.stage k = .waits call) :
      Step s (s.poll k w).2 (s.poll k w).1
  | drop {s : Vigil ω α} {k : Nat}
      (hk : (∃ call, s.stage k = .made call) ∨ ∃ call, s.stage k = .waits call) :
      Step s (.dropped k) (s.move k .over)
  | close {s : Vigil ω α} (c : Completion) :
      Step s (.closed c (s.channel.close c).result (s.exchange (s.channel.close c)).2)
        (s.exchange (s.channel.close c)).1
  | cancel {s : Vigil ω α} (f : Fault) :
      Step s (.cancelled f (s.channel.cancel f).result (s.exchange (s.channel.cancel f)).2)
        (s.exchange (s.channel.cancel f)).1

end Vigil

/-! ## What becomes of the line -/

variable {c : Channel Nat α} {k : Nat} {call : Call α}

/-- What comes of it that a call asks the channel. -/
structure Attempted (c : Channel Nat α) (k : Nat) (call : Call α)
    (e : Exchanged Nat α (Option (Outcome (Option α)))) : Prop where
  sound : e.channel.Sound
  completion : e.channel.completion = c.completion
  line : (e.channel.inLine ++ e.resolutions.map Resolution.party).Perm
    (c.inLine ++ if e.result.isNone then [k] else [])
  readers : ∀ j ∈ e.channel.waiting, j ∈ c.waiting ∨ (j = k ∧ call = .read true)
  writers : ∀ j ∈ e.channel.waitingWriters,
    j ∈ c.waitingWriters ∨ (j = k ∧ ∃ a, call = .write a true)
  closed : c.completion.isSome → e.channel.queued = c.queued ∨
    ∃ b w, call = .read b ∧ c.queued = w :: e.channel.queued

theorem Sound.unmoved (h : c.Sound) (o : Outcome (Option α)) :
    Attempted c k call ⟨c, [], some o⟩ :=
  ⟨h, rfl, by simp, fun _ => .inl, fun _ => .inl, fun _ => .inl rfl⟩

/-- A read that asks with its right, if it has one. -/
theorem Sound.attempting_read (h : c.Sound) {p : Option Nat} {b : Bool}
    (hp : p = if b then some k else none) : Attempted c k (.read b)
      ⟨(c.read p).channel, (c.read p).resolutions, match (c.read p).result with
        | .settled o => some (o.map some)
        | .queued => none⟩ := by
  cases h.reading p with
  | closed x hx hq he =>
    rw [he]
    exact h.unmoved _
  | blocked ho hq hn he =>
    rw [he]
    exact h.unmoved _
  | took r a ws c' hq hw hs he =>
    rw [he]
    exact {
      sound := hs.sound
      completion := hs.completion
      line := by
        cases r <;> simp [inLine, waitingWriters, hs.waiting, hs.queued, hw, hq, Resolution.party]
      readers := by simp [hs.waiting]
      writers := fun j hj => .inl (by
        rw [waitingWriters, hs.queued] at hj
        rw [waitingWriters, hq]
        exact ((List.sublist_cons_self _ ws).filterMap _).subset hj)
      closed := fun _ => .inr ⟨b, _, rfl, by rw [hq, hs.queued]⟩ }
  | queued r c' ho hq hr hs he =>
    rw [he]
    obtain ⟨rfl, rfl⟩ : b = true ∧ k = r := by cases b <;> simp_all
    exact {
      sound := hs.sound
      completion := hs.completion.trans ho.symm
      line := by simp [inLine, waitingWriters, hs.waiting, hs.queued, hq]
      readers := by simp [hs.waiting]
      writers := by simp [waitingWriters, hs.queued]
      closed := fun hx => by simp [ho] at hx }

theorem Sound.attempting_write (h : c.Sound) (a : α) (waits : Bool) :
    Attempted c k (.write a waits) (c.attempt k (.write a waits)) := by
  rw [attempt]
  cases h.writing (writer waits k) a with
  | closed x hx he =>
    rw [he]
    exact h.unmoved _
  | full ho hw hp hb he =>
    rw [he]
    exact h.unmoved _
  | handed r rs c' ho hw hq hs he =>
    rw [he]
    exact {
      sound := hs.sound
      completion := hs.completion.trans ho.symm
      line := by
        simp [inLine, waitingWriters, hs.waiting, hs.queued, hw, hq, Resolution.party]
      readers := by simp +contextual [hs.waiting, hw]
      writers := by simp [waitingWriters, hs.queued]
      closed := fun hx => by simp [ho] at hx }
  | queued c' ho hw hb hs he =>
    rw [he]
    exact {
      sound := hs.sound
      completion := hs.completion.trans ho.symm
      line := by
        cases waits <;> simp [inLine, waitingWriters, hs.waiting, hs.queued, hw, writer]
      readers := by simp [hs.waiting]
      writers := by
        cases waits <;> simp +contextual [waitingWriters, hs.queued, writer]
      closed := fun hx => by simp [ho] at hx }

/-- Whatever a call asks of the channel, the line loses those who are told and gets the call if it
    has to wait. -/
theorem Sound.attempting (h : c.Sound) (k : Nat) (call : Call α) :
    Attempted c k call (c.attempt k call) := by
  rcases call with ⟨_ | _⟩ | ⟨a, waits⟩
  · obtain ⟨o, ho, ht⟩ := tryRead_eq_read h
    have hr := h.attempting_read (k := k) (p := none) (b := false) rfl
    rw [attempt, ht]
    rwa [ho] at hr
  · exact h.attempting_read rfl
  · exact h.attempting_write a waits

namespace Vigil

variable {s s' : Vigil ω α} {e : Event ω α} {t : List (Event ω α)}

/-! ## Telling -/

theorem tell_channel (s : Vigil ω α) (r : Resolution Nat α) :
    (s.tell r).1.channel = s.channel ∧ (s.tell r).1.stage = s.stage := by
  unfold tell
  split <;> exact ⟨rfl, rfl⟩

theorem tellAll_channel (s : Vigil ω α) (rs : List (Resolution Nat α)) :
    (s.tellAll rs).1.channel = s.channel ∧ (s.tellAll rs).1.stage = s.stage := by
  induction rs generalizing s with
  | nil => exact ⟨rfl, rfl⟩
  | cons r rs ih =>
    obtain ⟨hc, hs⟩ := s.tell_channel r
    obtain ⟨hc', hs'⟩ := ih (s.tell r).1
    exact ⟨hc'.trans hc, hs'.trans hs⟩

@[simp]
theorem exchange_channel (s : Vigil ω α) (e : Exchanged Nat α β) :
    (s.exchange e).1.channel = e.channel := (tellAll_channel _ _).1

@[simp]
theorem exchange_stage (s : Vigil ω α) (e : Exchanged Nat α β) :
    (s.exchange e).1.stage = s.stage := (tellAll_channel _ _).2

/-- Nobody has answered a call yet, and the waker at its slot is as told. -/
structure Asleep (s : Vigil ω α) (k : Nat) (w : Option ω) : Prop where
  unused : (s.right k).resumed = false
  slot : s.slot k = ⟨none, false, w⟩

theorem Asleep.tell {r : Resolution Nat α} {w : Option ω} (h : s.Asleep r.party w) :
    s.tell r = ({ s with
        right := Function.update s.right r.party { s.right r.party with resumed := true }
        slot := Function.update s.slot r.party ⟨some r.answer, false, none⟩ },
      ⟨r.party, r.answer, true, w⟩) := by
  simp [Vigil.tell, Resumption.claim?, h.unused, h.slot, Slot.complete, Slot.takeWaker]

/-- What comes of it that some who are in line are told. -/
structure Tells (s : Vigil ω α) (rs : List (Resolution Nat α)) (w : Nat → Option ω)
    (s' : Vigil ω α) (told : List (Telling ω α)) : Prop where
  told : told = rs.map fun r => ⟨r.party, r.answer, true, w r.party⟩
  others : ∀ k ∉ rs.map Resolution.party, s'.right k = s.right k ∧ s'.slot k = s.slot k
  answered : ∀ r ∈ rs, s'.slot r.party = ⟨some r.answer, false, none⟩

/-- Whoever sleeps is told with his right, and woken. -/
theorem tells {w : Nat → Option ω} {rs : List (Resolution Nat α)}
    (hn : (rs.map Resolution.party).Nodup) (hs : ∀ k ∈ rs.map Resolution.party, s.Asleep k (w k)) :
    s.Tells rs w (s.tellAll rs).1 (s.tellAll rs).2 := by
  induction rs generalizing s with
  | nil => exact ⟨rfl, fun _ _ => ⟨rfl, rfl⟩, fun _ hr => absurd hr List.not_mem_nil⟩
  | cons r rs ih =>
    rw [List.map_cons] at hn hs
    obtain ⟨hr, hn⟩ := List.nodup_cons.1 hn
    have ht := (hs r.party List.mem_cons_self).tell
    -- The others are asleep as before.
    have ih := ih (s := (s.tell r).1) hn fun k hk => by
      have hne : k ≠ r.party := fun h => hr (h ▸ hk)
      have := hs k (List.mem_cons_of_mem _ hk)
      rw [ht]
      exact ⟨by simpa [hne] using this.unused, by simpa [hne] using this.slot⟩
    simp only [tellAll]
    refine ⟨?_, fun k hk => ?_, fun r' hr' => ?_⟩
    · rw [ih.told, List.map_cons, ht]
    · rw [List.map_cons, List.mem_cons, not_or] at hk
      obtain ⟨h₁, h₂⟩ := ih.others k hk.2
      rw [h₁, h₂, ht]
      simp [hk.1]
    · rcases List.mem_cons.1 hr' with rfl | hr'
      · rw [(ih.others _ hr).2, ht]
        simp
      · exact ih.answered r' hr'

end Vigil

end Channel

end ResumeOnce

import ResumeOnce.Proofs.Channel.Keeping
import ResumeOnce.Proofs.Reactor.LettingGo
import ResumeOnce.Proofs.Run
import ResumeOnce.Reactor.ChannelSession

/-!
# The end of a channel

Whoever waits on a channel has left there the right to be answered. As long as a handle of the
channel is left, whatever is done with it answers everybody it takes out of the line, and lets go
nobody. With the last handle go those who are in line still, even if they do not wait any more:
each of them is one leak.

* `Deed`, `Step`: what is done with a channel while it has a handle;
* `Tended`: a channel in whose line everybody is owed an answer, once;
* `Conserves`, `Tended.exchange`: whoever leaves the line is answered;
* `Tended.does`: no deed leaks or panics;
* `leaks_counted`: what becomes of the line with the last handle.
-/

namespace ResumeOnce.Reactor.Demise

open ChannelSession (Call)

variable {w w' : World} {c : Channel Nat Cargo} {n k : Nat} {own rest ms : List Nat}

/-! ## Deeds -/

/-- What is done with a channel. -/
inductive Deed where
  /-- One more handle is made. -/
  | retain
  /-- A handle goes away that is not the last one. -/
  | release
  | look
  | tryWrite (value : Datum)
  | tryRead
  /-- A read or a write is polled for the first time. -/
  | call (call : Call)
  /-- A call that waits at a slot is polled again, -/
  | poll (slot : Nat) (waker : Waker)
  /-- or goes away. -/
  | leave (slot : Nat)
  | close (c : Completion)
  | cancel (f : Fault)
  /-- The deeds that follow are done under another policy, or while panics unwind or not. -/
  | turn (policy : LeakPolicy) (unwinding : Nat)

/-- A deed with a channel; the slot at which somebody waits then, if anybody does. -/
def Deed.act (n : Nat) : Deed → Act (Option Nat)
  | retain => do
    retainChannel n
    return none
  | release => do
    releaseChannel ambient n
    return none
  | look => do
    let _ ← channelAt n
    return none
  | tryWrite value => do
    let _ ← Reactor.tryWrite ambient n (.datum value)
    return none
  | tryRead => do
    let _ ← Reactor.tryRead ambient n
    return none
  | call c => return (← ChannelSession.begin n c).getRight?
  | poll slot waker => do
    let _ ← pollSlot ambient slot waker
    return none
  | leave slot => do
    dropWaiter ambient slot
    return none
  | close c => do
    let _ ← exchange ambient n (·.close c)
    return none
  | cancel f => do
    let _ ← exchange ambient n (·.cancel f)
    return none
  | turn policy unwinding => do
    changeCircumstances fun c => { c with policy, unwinding }
    return none

/-- The world, and the slots of the calls that are there still. -/
structure State where
  world : World
  waits : List Nat

/-- The channel of a number. -/
def State.channel (s : State) (n : Nat) : Channel Nat Cargo :=
  (s.world.channels.getD n default).channel

/-- The number of its handles. -/
def State.handles (s : State) (n : Nat) : Nat := (s.world.channels.getD n default).handles

/-- What can be done: a handle is left, only calls that are there still are polled or go away, to
    wake whoever polls does no more than to tell it, and no policy ends the program. -/
def Deed.Possible (n : Nat) (s : State) : Deed → Prop
  | release => 1 < s.handles n
  | poll slot waker => slot ∈ s.waits ∧ s.world.Wakes waker
  | leave slot => slot ∈ s.waits
  | turn policy _ => policy ≠ .abort
  | _ => True

/-- The calls that are there behind a deed. -/
def Deed.waits (ms : List Nat) : Deed → Option Nat → List Nat
  | leave slot, _ => ms.erase slot
  | _, slot => slot.toList ++ ms

/-- One deed. -/
def Step (n : Nat) (s : State) (d : Deed) (s' : State) : Prop :=
  d.Possible n s ∧ ∃ slot w, (d.act n).on s.world = (.ok slot, w) ∧ s' = ⟨w, d.waits s.waits slot⟩

/-- What a deed that succeeds leads to. -/
def State.next (n : Nat) (s : State) (d : Deed) : State :=
  ⟨((d.act n).on s.world).2, d.waits s.waits ((d.act n).on s.world).1.toOption.join⟩

/-- Every queued value is one that lets go nothing in its turn. -/
def Data (c : Channel Nat Cargo) : Prop := ∀ x ∈ c.queued, ∃ d, x.value = some (.datum d)

/-- A channel with a number of handles, in whose line everybody is owed an answer, once. Beside
    them some others are owed one, and the slots of some calls are calm. -/
structure Tended (n : Nat) (c : Channel Nat Cargo) (k : Nat) (own ms : List Nat) (w : World) :
    Prop where
  here : w.channels[n]? = some ⟨c, k⟩
  held : 0 < k
  sound : c.Sound
  data : Data c
  policy : w.circumstances.policy ≠ .abort
  nodup : (c.inLine ++ own).Nodup
  owes : ∀ p ∈ c.inLine ++ own, w.Owes p
  calm : ∀ m ∈ ms, w.Calm (w.slot m)

/-- An operation on a channel: whoever leaves the line is answered, and some of the others who are
    owed an answer join it. -/
structure Conserves (c : Channel Nat Cargo) (own rest : List Nat) (e : Exchanged Nat Cargo β) :
    Prop where
  sound : e.channel.Sound
  data : Data c → Data e.channel
  plain : ∀ r ∈ e.resolutions, Plain r
  line : (e.channel.inLine ++ (e.resolutions.map Resolution.party ++ rest)).Perm (c.inLine ++ own)

/-- Some of those beside the line get what they are owed. -/
theorem Tended.spends {ids : List Nat} {j : Nat} (h : Tended n c k (ids ++ own) ms w)
    (hs : Spends ids j w w') : Tended n c k own ms w' := by
  have hp : (c.inLine ++ (ids ++ own)).Perm (ids ++ (c.inLine ++ own)) := by
    rw [← List.append_assoc, ← List.append_assoc]
    exact List.perm_append_comm.append_right own
  have hn := hp.nodup_iff.1 h.nodup
  exact {
    here := by rw [hs.channels, h.here]
    held := h.held
    sound := h.sound
    data := h.data
    policy := by rw [hs.circumstances]; exact h.policy
    nodup := (List.nodup_append.1 hn).2.1
    owes := hs.owes_all hn fun p hm => h.owes p (hp.mem_iff.2 hm)
    calm := fun m hm => hs.calm m (h.calm m hm) }

/-- The world with another channel in place. -/
def withChannel (w : World) (n : Nat) (channel : Channel Nat Cargo) : World :=
  { w with channels := w.channels.modify n fun r => { r with channel } }

/-- An operation answers whoever leaves the line. -/
theorem Tended.exchange (h : Tended n c k own ms w)
    (op : Channel Nat Cargo → Exchanged Nat Cargo β) (hc : Conserves c own rest (op c)) :
    ∃ w', (exchange ambient n op).on w = (.ok (op c).result, w') ∧ w'.leaks = w.leaks ∧
      Tended n (op c).channel k rest ms w' := by
  have hg : (channelAt n).on w = (.ok c, w) := by
    change (Except.ok (w.channels.getD n default).channel, w) = _
    rw [Array.getD_eq_getD_getElem?, h.here]
    rfl
  have hm : (modify fun w : World => { w with channels := w.channels.modify n fun r =>
      { r with channel := (op c).channel } } : Act Unit).on w =
        (.ok (), withChannel w n (op c).channel) := rfl
  -- The channel is changed first, and whoever has left its line is still to be answered.
  have h₁ : Tended n (op c).channel k ((op c).resolutions.map Resolution.party ++ rest) ms
      (withChannel w n (op c).channel) := {
    here := by
      rw [withChannel, Array.getElem?_modify, if_pos rfl, h.here]
      rfl
    held := h.held
    sound := hc.sound
    data := hc.data h.data
    policy := h.policy
    nodup := hc.line.nodup_iff.2 h.nodup
    owes := fun p hp => (h.owes p (hc.line.subset hp)).congr rfl rfl rfl
    calm := fun m hm => (h.calm m hm).congr rfl }
  have hn := (List.nodup_append.1 (List.nodup_append.1 h₁.nodup).2.1).1
  obtain ⟨w₂, h₂, hs⟩ := carryOutAll_owed ambient hn (fun p hp => h₁.owes p
    (List.mem_append_right _ (List.mem_append_left _ hp))) hc.plain
  refine ⟨w₂, ?_, hs.leaks, h₁.spends hs⟩
  rw [Reactor.exchange, on_bind_of_ok hg, on_bind_of_ok hm, on_bind_of_ok h₂]
  rfl

/-! ## Operations -/

/-- An operation that finds nothing to do. -/
theorem Conserves.unmoved (h : c.Sound) (r : β) : Conserves c own own ⟨c, [], r⟩ where
  sound := h
  data := id
  plain _ hx := absurd hx List.not_mem_nil
  line := .refl _

theorem Data.tail {x : Writer Nat Cargo} {xs : List (Writer Nat Cargo)} {c' : Channel Nat Cargo}
    (h : Data c) (hq : c.queued = x :: xs) (hq' : c'.queued = xs) : Data c' := fun y hy =>
  h y (hq ▸ List.mem_cons_of_mem _ (hq' ▸ hy))

theorem data_of_nil (hq : c.queued = []) : Data c := fun _ hx =>
  absurd (hq ▸ hx) List.not_mem_nil

/-- A read answers the writer whose value it takes, or joins the line. -/
theorem conserves_read (h : c.Sound) (p : Option Nat) :
    (∃ answer, (c.read p).result = .settled answer ∧
      Conserves c p.toList p.toList (c.read p)) ∨
    (c.read p).result = .queued ∧ Conserves c p.toList [] (c.read p) := by
  cases h.reading p with
  | took r a ws c' hq hw hs he =>
    rw [he]
    refine .inl ⟨_, rfl, hs.sound, fun hd => hd.tail hq hs.queued, by simp [Plain], ?_⟩
    cases r <;> simp [Channel.inLine, Channel.waitingWriters, hs.waiting, hs.queued, hw, hq,
      Resolution.party]
  | closed x hx hq he =>
    rw [he]
    exact .inl ⟨_, rfl, .unmoved h _⟩
  | blocked ho hq hp he =>
    rw [he]
    exact .inl ⟨_, rfl, .unmoved h _⟩
  | queued r c' ho hq hp hs he =>
    subst hp
    rw [he]
    refine .inr ⟨rfl, hs.sound, fun _ => data_of_nil hs.queued,
      fun _ hx => absurd hx List.not_mem_nil, ?_⟩
    simp [Channel.inLine, Channel.waitingWriters, hs.waiting, hs.queued, hq]

theorem conserves_tryRead (h : c.Sound) : Conserves c [] [] c.tryRead := by
  obtain ⟨o, ho, ht⟩ := Channel.tryRead_eq_read h
  obtain ⟨-, -, hr⟩ | ⟨-, hr⟩ := conserves_read h none
  all_goals
    rw [ht]
    exact ⟨hr.sound, hr.data, hr.plain, hr.line⟩

/-- A write answers the reader that takes its value, or joins the line. -/
theorem conserves_write (h : c.Sound) (p : Option Nat) (d : Datum) :
    ((c.write p (.datum d)).result = .handed ∨
      (∃ r, (c.write p (.datum d)).result = .refused r)) ∧
      Conserves c p.toList p.toList (c.write p (.datum d)) ∨
    (c.write p (.datum d)).result = .queued ∧
      Conserves c p.toList [] (c.write p (.datum d)) := by
  cases h.writing p (.datum d) with
  | closed x hx he =>
    rw [he]
    exact .inl ⟨.inr ⟨_, rfl⟩, .unmoved h _⟩
  | full ho hw hp hb he =>
    rw [he]
    exact .inl ⟨.inr ⟨_, rfl⟩, .unmoved h _⟩
  | handed r rs c' ho hw hq hs he =>
    rw [he]
    refine .inl ⟨.inl rfl, hs.sound, fun _ => data_of_nil hs.queued, ?_, ?_⟩
    · rw [List.forall_mem_singleton]
      exact fun _ => rfl
    · simp [Channel.inLine, Channel.waitingWriters, hs.waiting, hs.queued, hw, hq,
        Resolution.party]
  | queued c' ho hw hb hs he =>
    rw [he]
    refine .inr ⟨rfl, hs.sound, fun hd x hx => ?_, fun _ hx => absurd hx List.not_mem_nil, ?_⟩
    · rw [hs.queued] at hx
      rcases List.mem_append.1 hx with hx | hx
      · exact hd x hx
      · rw [List.mem_singleton.1 hx]
        exact ⟨d, rfl⟩
    · cases p <;> simp [Channel.inLine, Channel.waitingWriters, hs.waiting, hs.queued, hw]

theorem plain_error (p : Nat) (f : Fault) : Plain (.reader p (.error f)) := fun _ => rfl

/-- Those who are answered when the channel closes are those who waited to read. -/
theorem conserves_close (h : c.Sound) (x : Completion) : Conserves c [] [] (c.close x) := by
  cases h.closing x with
  | closed hx he =>
    rw [he]
    exact .unmoved h _
  | closes c' ho hs he =>
    rw [he]
    exact {
      sound := hs.sound
      data := fun hd y hy => hd y (hs.queued ▸ hy)
      plain := List.forall_mem_map.2 fun r _ => plain_error r _
      line := by
        rw [Channel.Vigil.map_party_readers]
        simpa [Channel.inLine, Channel.waitingWriters, hs.waiting, hs.queued] using
          List.perm_append_comm }

/-- A cancellation answers everybody in line. -/
theorem conserves_cancel (h : c.Sound) (f : Fault) : Conserves c [] [] (c.cancel f) := by
  obtain ⟨c', hs, he⟩ := h.cancel f
  rw [he]
  exact {
    sound := hs.sound
    data := fun _ => data_of_nil hs.queued
    plain := by
      intro r hr
      rcases List.mem_append.1 hr with hr | hr
      · exact List.forall_mem_map.2 (fun r _ => plain_error r _) r hr
      · obtain ⟨x, -, hr⟩ := List.mem_flatMap.1 hr
        exact List.forall_mem_map.2 (fun _ _ => trivial) r hr
    line := by
      rw [List.map_append, Channel.Vigil.map_party_readers, Channel.Vigil.map_party_writers]
      simp [Channel.inLine, Channel.waitingWriters, hs.waiting, hs.queued] }

/-! ## What the deeds come to -/

/-- An action succeeds and leaks nothing, and behind it the channel is tended. -/
def Keeps (n : Nat) (w : World) (act : Act α) (waits : α → List Nat) : Prop :=
  ∃ a w' c k, act.on w = (.ok a, w') ∧ w'.leaks = w.leaks ∧ Tended n c k [] (waits a) w'

/-- What is told afterwards does not matter. -/
theorem Keeps.tells {act : Act α} {waits : α → List Nat} {waits' : β → List Nat} {f : α → Act β}
    (h : Keeps n w act waits) (hf : ∀ a, ∃ b, f a = pure b ∧ waits' b = waits a) :
    Keeps n w (act >>= f) waits' := by
  obtain ⟨a, w', c, k, ha, hl, ht⟩ := h
  obtain ⟨b, hb, hw⟩ := hf a
  refine ⟨b, w', c, k, ?_, hl, hw ▸ ht⟩
  rw [on_bind_of_ok ha, hb]
  rfl

theorem Tended.fewer {ms' : List Nat} (h : Tended n c k own ms w) (hm : ms' ⊆ ms) :
    Tended n c k own ms' w := { h with calm := fun m hx => h.calm m (hm hx) }

/-- An operation of nobody who waits. -/
theorem Tended.operates (h : Tended n c k [] ms w)
    (op : Channel Nat Cargo → Exchanged Nat Cargo β) (hc : Conserves c [] [] (op c)) :
    Keeps n w (Reactor.exchange ambient n op) fun _ => ms := by
  obtain ⟨w', he, hl, h'⟩ := h.exchange op hc
  exact ⟨_, w', _, k, he, hl, h'⟩

theorem conserves_tryWrite (h : c.Sound) (d : Datum) :
    Conserves c [] [] (c.write none (.datum d)) := by
  obtain ⟨-, hc⟩ | ⟨-, hc⟩ := conserves_write h none d
  all_goals exact hc

theorem Tended.tryRead (h : Tended n c k [] ms w) :
    Keeps n w (Reactor.tryRead ambient n) fun _ => ms :=
  h.operates Channel.tryRead (conserves_tryRead h.sound)

theorem Tended.tryWrite (h : Tended n c k [] ms w) (value : Datum) :
    Keeps n w (Reactor.tryWrite ambient n (.datum value)) fun _ => ms :=
  h.operates (·.write none (.datum value)) (conserves_tryWrite h.sound value)

/-! ### Calls -/

theorem Tended.fresh (h : Tended n c k own ms w) : w.resumptions.size ∉ c.inLine ++ own := by
  intro hm
  obtain ⟨r, hr, -⟩ := h.owes _ hm
  exact absurd (Array.getElem?_eq_some_iff.1 hr).1 (Nat.lt_irrefl _)

/-- The world with one right more, whose slot is new. -/
def withRight (w : World) : World :=
  w.holding ⟨.new, true⟩ ⟨w.slots.size, false, w.circumstances.policy⟩ w.leaks

theorem calm_withRight {m : Nat} (h : w.Calm (w.slot m) ∨ m = w.slots.size) :
    (withRight w).Calm ((withRight w).slot m) := by
  rw [World.slot, withRight, World.holding, Array.getD_eq_getD_getElem?, Array.getElem?_push]
  split
  · exact World.calm_of_pending rfl fun k hk => absurd hk (Option.not_mem_none k)
  · rename_i hn
    have hs := h.resolve_right hn
    rw [World.slot, Array.getD_eq_getD_getElem?] at hs
    exact hs.congr rfl

theorem owes_withRight {p : Nat} (h : w.Owes p) : (withRight w).Owes p := by
  obtain ⟨r, hr, hu, ha, hb⟩ := h
  refine ⟨r, ?_, hu, ha, calm_withRight (.inl hb)⟩
  have hp := (Array.getElem?_eq_some_iff.1 hr).1
  rw [withRight, World.holding, Array.getElem?_push, if_neg (Nat.ne_of_lt hp), hr]

/-- A right to answer is made, and a slot at which its party waits. -/
theorem Tended.asked (h : Tended n c k [] ms w) :
    Tended n c k [w.resumptions.size] (w.slots.size :: ms) (withRight w) where
  here := h.here
  held := h.held
  sound := h.sound
  data := h.data
  policy := h.policy
  nodup := by
    have hn : c.inLine.Nodup := by simpa using h.nodup
    have hf : w.resumptions.size ∉ c.inLine := by simpa using h.fresh
    exact List.nodup_append_comm.1 (List.nodup_cons.2 ⟨hf, hn⟩)
  owes p hp := by
    rcases List.mem_append.1 hp with hp | hp
    · exact owes_withRight (h.owes p (List.mem_append_left _ hp))
    · rw [List.mem_singleton.1 hp]
      have hq : (withRight w).resumptions[w.resumptions.size]? =
          some ⟨w.slots.size, false, w.circumstances.policy⟩ := Array.getElem?_push_size
      exact ⟨_, hq, rfl, h.policy, calm_withRight (.inr rfl)⟩
  calm m hm := by
    rcases List.mem_cons.1 hm with rfl | hm
    · exact calm_withRight (.inr rfl)
    · exact calm_withRight (.inl (h.calm m hm))

/-- A right that was not needed is given up. -/
theorem Tended.retires {p : Nat} (h : Tended n c k [p] ms w) :
    ∃ w', (retire p).on w = (.ok (), w') ∧ w'.leaks = w.leaks ∧ Tended n c k [] ms w' := by
  obtain ⟨w', hr, hs⟩ := retire_owed (h.owes p (List.mem_append_right _ List.mem_cons_self))
  have h' : Tended n c k ([p] ++ []) ms w := h
  exact ⟨w', hr, hs.leaks, h'.spends hs⟩

/-- Somebody asks the channel with a new right, and gives it up unless there is a wait. -/
theorem Tended.asks (h : Tended n c k [] ms w)
    (op : Nat → Channel Nat Cargo → Exchanged Nat Cargo β)
    {f : β → Nat × Nat → Act (Outcome Datum ⊕ Nat)}
    (hc : (Conserves c [w.resumptions.size] [w.resumptions.size] (op w.resumptions.size c) ∧
        ∃ o, ∀ x, f (op w.resumptions.size c).result x = (do retire x.1; return .inl o)) ∨
      Conserves c [w.resumptions.size] [] (op w.resumptions.size c) ∧
        ∀ x, f (op w.resumptions.size c).result x = return .inr x.2) :
    Keeps n w (do
      let x ← newResumption (← policyOr none)
      f (← Reactor.exchange ambient n (op x.1)) x) fun o => o.getRight?.toList ++ ms := by
  have hp : (policyOr none).on w = (.ok w.circumstances.policy, w) := rfl
  have hn : (newResumption w.circumstances.policy).on w =
    (.ok (w.resumptions.size, w.slots.size), withRight w) := rfl
  rw [Keeps, on_bind_of_ok hp, on_bind_of_ok hn]
  obtain ⟨hc, o, hf⟩ | ⟨hc, hf⟩ := hc
  · obtain ⟨w₁, he, hl, h₁⟩ := h.asked.exchange _ hc
    obtain ⟨w₂, ht, hl₂, h₂⟩ := h₁.retires
    rw [on_bind_of_ok he, hf, on_bind_of_ok ht]
    exact ⟨_, _, _, _, rfl, hl₂.trans hl, h₂.fewer (List.subset_cons_self _ ms)⟩
  · obtain ⟨w₁, he, hl, h₁⟩ := h.asked.exchange _ hc
    rw [on_bind_of_ok he, hf]
    exact ⟨_, _, _, _, rfl, hl, h₁⟩

/-- A call is polled for the first time. -/
theorem Tended.begin (h : Tended n c k [] ms w) (call : Call) :
    Keeps n w (ChannelSession.begin n call) fun o => o.getRight?.toList ++ ms := by
  rcases call with ⟨_ | _⟩ | ⟨value, _ | _⟩
  · exact h.tryRead.tells fun _ => ⟨_, rfl, rfl⟩
  · refine h.asks (fun p c => c.read (some p)) ?_
    obtain ⟨answer, hr, hc⟩ | ⟨hr, hc⟩ := conserves_read h.sound (some w.resumptions.size)
    · exact .inl ⟨hc, ChannelSession.seen answer, fun x => by simp only [hr]⟩
    · exact .inr ⟨hc, fun x => by simp only [hr]⟩
  · refine (h.tryWrite value).tells fun r => ?_
    cases r <;> exact ⟨_, rfl, rfl⟩
  · refine h.asks (fun p c => c.write (some p) (.datum value)) ?_
    obtain ⟨hr | ⟨r, hr⟩, hc⟩ | ⟨hr, hc⟩ :=
      conserves_write h.sound (some w.resumptions.size) value
    · exact .inl ⟨hc, .ok .null, fun x => by simp only [hr]⟩
    · exact .inl ⟨hc, .error r.fault, fun x => by simp only [hr]⟩
    · exact .inr ⟨hc, fun x => by simp only [hr]⟩

/-! ### Every deed -/

theorem Tended.record (h : Tended n c k own ms w) : w.channels.getD n default = ⟨c, k⟩ := by
  rw [Array.getD_eq_getD_getElem?, h.here]
  rfl

/-- The number of handles changes, and one is left. -/
theorem Tended.rehandled (h : Tended n c k own ms w) (f : Nat → Nat) (hf : 0 < f k) :
    Tended n c (f k) own ms { w with channels := w.channels.modify n fun r =>
      { r with handles := f r.handles } } :=
  { h with
    here := by rw [Array.getElem?_modify, if_pos rfl, h.here]; rfl
    held := hf
    owes := fun p hp => (h.owes p hp).congr rfl rfl rfl
    calm := fun m hm => (h.calm m hm).congr rfl }

/-- Whatever is done with the channel while it has a handle, nobody is let go. -/
theorem Tended.does {d : Deed} {s : State} (h : Tended n c k [] s.waits s.world)
    (hd : d.Possible n s) : Keeps n s.world (d.act n) (d.waits s.waits) := by
  cases d with
  | retain => exact ⟨none, _, c, _, rfl, rfl, h.rehandled (· + 1) (Nat.succ_pos k)⟩
  | release =>
    have hk : 0 < k - 1 := by
      rw [Deed.Possible, State.handles, h.record] at hd
      exact Nat.sub_pos_of_lt hd
    have hp : Tended n c (k - 1) [] s.waits (s.world.parted n) := h.rehandled (· - 1) hk
    have hr : (releaseChannel ambient n).on s.world = (.ok (), s.world.parted n) :=
      releaseChannel_held (by rw [hp.record]; exact Nat.ne_of_gt hk)
    have hr' : Keeps n s.world (releaseChannel ambient n) fun _ => s.waits :=
      ⟨(), _, c, _, hr, rfl, hp⟩
    exact hr'.tells fun _ => ⟨none, rfl, rfl⟩
  | look => exact ⟨none, _, c, k, rfl, rfl, h⟩
  | tryWrite value => exact (h.tryWrite value).tells fun _ => ⟨none, rfl, rfl⟩
  | tryRead => exact h.tryRead.tells fun _ => ⟨none, rfl, rfl⟩
  | call call => exact (h.begin call).tells fun o => ⟨o.getRight?, rfl, rfl⟩
  | poll slot waker =>
    obtain ⟨p, w', hp, hs⟩ := pollSlot_spends ambient (h.calm slot hd.1) hd.2
    have hp' : Keeps n s.world (pollSlot ambient slot waker) fun _ => s.waits :=
      ⟨p, w', c, k, hp, hs.leaks, h.spends hs⟩
    exact hp'.tells fun _ => ⟨none, rfl, rfl⟩
  | leave slot =>
    obtain ⟨w', hp, hs⟩ := dropWaiter_spends ambient (h.calm slot hd)
    have hp' : Keeps n s.world (dropWaiter ambient slot) fun _ => s.waits.erase slot :=
      ⟨(), w', c, k, hp, hs.leaks, (h.spends hs).fewer List.erase_subset⟩
    exact hp'.tells fun _ => ⟨none, rfl, rfl⟩
  | close x =>
    exact (h.operates (·.close x) (conserves_close h.sound x)).tells fun _ => ⟨none, rfl, rfl⟩
  | cancel f =>
    exact (h.operates (·.cancel f) (conserves_cancel h.sound f)).tells fun _ => ⟨none, rfl, rfl⟩
  | turn policy unwinding =>
    exact ⟨none, _, c, k, rfl, rfl, { h with
      policy := hd
      owes := fun p hp => (h.owes p hp).congr rfl rfl rfl
      calm := fun m hm => (h.calm m hm).congr rfl }⟩

theorem Tended.step {d : Deed} {s s' : State} (h : Tended n c k [] s.waits s.world)
    (hs : Step n s d s') : ∃ c k, Tended n c k [] s'.waits s'.world := by
  obtain ⟨hd, slot, w, ha, rfl⟩ := hs
  obtain ⟨slot', w', c', k', ha', -, h'⟩ := h.does hd
  cases ha.symm.trans ha'
  exact ⟨c', k', h'⟩

/-! ## The last handle -/

/-- A channel of data carries no rights but those of its line. -/
theorem channelRights_data (h : Data c) : channelRights c = c.inLine := by
  have hx : c.queued.flatMap writerRights = c.queued.flatMap fun x => x.resumption.toList :=
    List.flatMap_congr fun x hx => by
      obtain ⟨d, hd⟩ := h x hx
      rw [writerRights, hd]
      exact List.append_nil _
  rw [channelRights, hx, Channel.inLine, Channel.waitingWriters, List.filterMap_eq_flatMap_toList]

/-- The length of the line, as the channel itself counts its readers. -/
theorem length_inLine (h : c.Sound) :
    c.inLine.length = c.waitingReaders + c.queued.countP Writer.waits := by
  have hw : c.waitingWriters.length = c.queued.countP Writer.waits :=
    List.length_filterMap_eq_countP
  have hr : c.waitingReaders = c.waiting.length := h.readers_balanced.size_eq
  rw [Channel.inLine, List.length_append, hw, hr]

/-! ### Values that are counted -/

/-- A writer whose value carries a right, instead of the one that it has. -/
def marked (plan : Script.ActionPlan) (x : Writer Nat Cargo) (q : Nat) : Writer Nat Cargo :=
  ⟨x.resumption, some (.action ⟨plan, some q⟩)⟩

/-- A channel as another one, where each value carries a right, which is counted if it is let go. -/
structure Marked (c : Channel Nat Cargo) (marks : List Nat) (c' : Channel Nat Cargo) : Prop where
  waiting : c'.waiting = c.waiting
  length : marks.length = c.queued.length
  queued : ∃ plan, c'.queued = c.queued.zipWith (marked plan) marks

/-- What has become of a channel with its last handle. -/
structure Gone (n : Nat) (c : Channel Nat Cargo) (w w' : World) : Prop where
  /-- Each reader and each writer that waited in the channel is one leak, -/
  leaks : w'.leaks = w.leaks + (c.waitingReaders + c.queued.countP Writer.waits)
  /-- and its right is used up. -/
  used : ∀ p ∈ c.inLine, ∃ r, w'.resumptions[p]? = some r ∧ r.resumed = true
  /-- Nothing is left in the channel. -/
  empty : w'.channels[n]? = some ⟨.new c.buffering, 0⟩
  /-- If there was a panic, it unwinds no more. -/
  circumstances : w'.circumstances = w.circumstances

/-- What holds of a channel behind a history. -/
structure Counted (n : Nat) (s : State) : Prop where
  /-- The channel is there, and has a handle. -/
  there : n < s.world.channels.size ∧ 0 < s.handles n
  /-- Whatever is done next succeeds, and leaks nothing. -/
  quiet : ∀ d : Deed, d.Possible n s → ∃ (slot : Option Nat) (w : World),
    (d.act n).on s.world = (.ok slot, w) ∧ w.leaks = s.world.leaks
  /-- The last handle goes away with one panic, if the leak of anybody in line is a panic and none
      unwinds already, and with no panic otherwise. -/
  last : s.handles n = 1 → ∃ w : World,
    (releaseChannel ambient n).on s.world = (s.world.verdict (s.channel n).inLine, w) ∧
      Gone n (s.channel n) s.world w
  /-- Each reader and each writer is let go once, the writer with its value. -/
  values : s.handles n = 1 → (s.channel n).inLine.Nodup ∧
    (∀ x ∈ (s.channel n).queued, ∃ d, x.value = some (.datum d)) ∧
    ∃ (readers : List Nat) (writers : List (Writer Nat Cargo)),
      readers.Perm (s.channel n).waiting ∧ writers.Perm (s.channel n).queued ∧
      (releaseChannel ambient n).on s.world = (releaseAll [dropResumptions ambient readers,
        releaseAll (writers.map (dropWriter ambient))]).on (s.world.bereft n)
  /-- Were there values instead that carry a right each, so that it is counted when they are let
      go, each of them would be counted once, whoever else panics. -/
  observed : ∀ (c : Channel Nat Cargo) (marks : List Nat) (w : World),
    Marked (s.channel n) marks c → w.channels[n]? = some ⟨c, 1⟩ →
    ((s.channel n).inLine ++ marks).Nodup → (∀ p ∈ (s.channel n).inLine ++ marks, w.Owes p) →
    ∃ w' : World,
      (releaseChannel ambient n).on w = (w.verdict ((s.channel n).inLine ++ marks), w') ∧
      w'.leaks = w.leaks + ((s.channel n).inLine.length + (s.channel n).queued.length) ∧
      ∀ p ∈ marks, ∃ r, w'.resumptions[p]? = some r ∧ r.resumed = true

/-- The last handle of a channel goes away. -/
theorem Tended.last (h : Tended n c 1 [] ms w) : ∃ w',
    (releaseChannel ambient n).on w = (w.verdict c.inLine, w') ∧ Gone n c w w' := by
  have hr := channelRights_data h.data
  have hn : (channelRights c).Nodup := by simpa [hr] using h.nodup
  have ho : ∀ p ∈ channelRights c, w.Owes p := by simpa [hr] using h.owes
  obtain ⟨w', he, hs⟩ := releaseChannel_last ambient h.here hn ho
  rw [hr] at he hs ho
  refine ⟨w', he, ?_, fun p hp => hs.resumed hp ((ho p hp).congr rfl rfl rfl), ?_,
    hs.circumstances⟩
  · rw [← length_inLine h.sound]
    exact hs.leaks
  · rw [hs.channels, channels_bereft h.here]

end ResumeOnce.Reactor.Demise

import ResumeOnce.Proofs.Fold.Accounting
import ResumeOnce.Proofs.Streams.Combination
import ResumeOnce.Proofs.Streams.Rights

/-!
# Who holds the rights to answer

The right to answer an event moves from the channel into the consumer's hand, from there
into the machine, and from there downstream, until it is used. No step loses it and no
step uses it twice; and so there is always room in the channel for an event, and never
an event that the machine does not expect.

* `Combination.owed`: the rights that are held somewhere;
* `Combination.Phase`: what the machine is ready for at a turn;
* `Combination.Stocked`: what is in the channel is from different feeders;
* `Combination.Held`, `Combination.Held.step`: the rights that were given out are used or
  owed.
-/

namespace ResumeOnce.Streams

open Fold (Consumer Turn Effect)

variable {C : Combiner}

/-- The rights that were used, in order. -/
def used (t : List (Seen C)) : List C.Right := (answers t).map Prod.fst

@[simp]
theorem used_snoc (t : List (Seen C)) (e : Seen C) :
    used (t ++ [e]) = used t ++ e.answers.map Prod.fst := by simp [used]

namespace Combination

/-- The actions whose senders are to be answered by the consumer or the machine. -/
def transit (s : Combination C) : List C.Action :=
  s.consumer.load ++ C.pending s.machine.current

/-- The producers of the value that is downstream. -/
def producers (s : Combination C) : List C.Right :=
  match s.delivering with
  | some (_, ps) => ps
  | none => []

/-- The rights that are held somewhere. -/
def owed (s : Combination C) : List C.Right := s.transit.map C.sender ++ s.producers

/-- What the machine is ready for when the consumer is at a turn. -/
def Phase (s : Combination C) : Prop :=
  match s.consumer.turn with
  | .start => C.pending s.machine.current = [] ∧ s.delivering = none
  | .checkpoint | .read | .reduce _ => C.Ready s.machine.current ∧ s.delivering = none
  | .emit => C.Ready s.machine.current ∨
      (C.emission? s.machine.current).isSome ∧ s.delivering = none
  | .close _ | .finalize _ => s.delivering = none
  | .drain _ | .dispose _ _ | .stop _ => C.pending s.machine.current = [] ∧ s.delivering = none

/-- Whatever is held was sent, and accepted by the channel. -/
structure Known (t : List (Seen C)) (s : Combination C) : Prop where
  loaded : ∀ x ∈ s.consumer.load, ∃ i e k, x = C.inlet i e k ∧ .sent i e k none ∈ deeds t
  pending : ∀ x ∈ C.pending s.machine.current, ∃ i a k, x = C.inlet i (.value a) k ∧
    .sent i (.value a) k none ∈ deeds t
  carried : ∀ v ps, s.delivering = some (v, ps) → .pushed v ps ∈ deeds t ∧
    ∀ r ∈ ps, ∃ a, C.carries r.1 a v ∧ .sent r.1 (.value a) r.2 none ∈ deeds t

/-- The rights that were given out are used or held, and the machine is ready for what comes. -/
structure Held (t : List (Seen C)) (s : Combination C) : Prop where
  sound : s.consumer.Sound
  left : Fold.Left s.consumer
  buffering : s.consumer.channel.buffering = C.buffering
  known : Known t s
  rights : Rights (used t) s.owed s.sent s.unanswered
  phase : s.Phase

variable {s s' : Combination C} {t : List (Seen C)}

/-! ## What is in the channel -/

theorem owed_eq (s : Combination C) : s.owed =
    s.consumer.load.map C.sender ++ (C.pending s.machine.current).map C.sender ++ s.producers := by
  rw [owed, transit, List.map_append]

/-- What is in the channel is owed. -/
theorem values_owed (s : Combination C) :
    (s.consumer.channel.values.map C.sender).Sublist s.owed := by
  have hl : s.consumer.channel.values.Sublist s.consumer.load := List.sublist_append_right _ _
  rw [owed_eq, List.append_assoc]
  exact (hl.map C.sender).trans (List.sublist_append_left _ _)

/-- The actions in the channel are from different feeders, each of which waits for the answer. -/
structure Stocked (s : Combination C) : Prop where
  sound : s.consumer.Sound
  buffering : s.consumer.channel.buffering = C.buffering
  one : (s.consumer.channel.values.map (C.sender · |>.1)).Nodup
  waits : ∀ x ∈ s.consumer.channel.values, s.unanswered (C.sender x).1 = some (C.sender x)

theorem Held.stocked (h : Held t s) : s.Stocked where
  sound := h.sound
  buffering := h.buffering
  one := by
    have hn := h.rights.feeders_nodup.sublist (s.values_owed.map Prod.fst)
    rwa [List.map_map] at hn
  waits x hx :=
    (h.rights.waits _ _).1 ⟨s.values_owed.subset (List.mem_map_of_mem hx), rfl⟩

/-- A feeder that waits for nothing has nothing in the channel. -/
theorem Stocked.absent (h : s.Stocked) {i : C.Feeder} (hi : s.unanswered i = none) :
    i ∉ s.consumer.channel.values.map (C.sender · |>.1) := by
  intro hm
  obtain ⟨x, hx, rfl⟩ := List.mem_map.1 hm
  have hu := h.waits x hx
  simp [hi] at hu

/-- There are less events in the channel than feeders, when some feeder waits for nothing. -/
theorem Stocked.unattended_lt (h : s.Stocked) {i : C.Feeder} (hi : s.unanswered i = none) :
    Channel.unattended s.consumer.channel.queued < Fintype.card C.Feeder := by
  have hu : Channel.unattended s.consumer.channel.queued ≤ s.consumer.channel.queued.length :=
    List.countP_le_length
  have hl := (List.nodup_cons.2 ⟨h.absent hi, h.one⟩).length_le_card
  rw [List.length_cons, List.length_map, h.sound.channel.length_values] at hl
  omega

/-- There is room in the channel for the event of a feeder that waits for nothing. -/
theorem Stocked.admits (h : s.Stocked) {i : C.Feeder} (hi : s.unanswered i = none) :
    s.consumer.channel.buffering.admits
      (Channel.unattended s.consumer.channel.queued) = true := by
  rw [h.buffering]
  exact C.admits _ (h.unattended_lt hi)

/-! ## Sending -/

/-- What becomes of an event that is sent: the channel accepts it, or the channel is closed and
    its sender is answered. -/
inductive Sends (s : Combination C) (i : C.Feeder) (e : Event (C.Input i)) :
    Seen C → Combination C → Prop
  | accepted (f : Consumer Nat C.Action) (hf : f.load = s.consumer.load ++ [C.inlet i e (s.sent i)])
      (hc : f.channel.completion = s.consumer.channel.completion) (ht : f.turn = s.consumer.turn)
      (hx : f.cancelled = s.consumer.cancelled) :
      Sends s i e ⟨.sent i e (s.sent i) none, []⟩ { s.count i e with consumer := f }
  | refused (x : Completion) (hx : s.consumer.channel.completion = some x) :
      Sends s i e ⟨.sent i e (s.sent i) (some x.fault),
        [((i, s.sent i), settlement (.ofFault x.fault))]⟩
        ((s.count i e).tell [((i, s.sent i), settlement (.ofFault x.fault))])

theorem Held.send (h : Held t s) {i : C.Feeder} (hi : s.unanswered i = none)
    (e : Event (C.Input i)) : Sends s i e (s.send i e).2 (s.send i e).1 := by
  have hw := h.sound.write none (C.inlet i e (s.sent i))
  rw [Combination.send]
  generalize s.consumer.exchange (s.consumer.channel.write none (C.inlet i e (s.sent i))) = f at *
  generalize (s.consumer.channel.write none (C.inlet i e (s.sent i))).result = w at *
  have hl := hw.load h.sound
  have hc := hw.completion
  have ht := hw.turn
  have hx := hw.cancelled
  cases hw with
  | closed x hclosed => exact .refused x hclosed
  | full ho hw hp hb => simp [h.stocked.admits hi] at hb
  | met r c ho ha hq hs => exact .accepted _ hl hc ht hx
  | queued c ho hw hs => exact .accepted _ hl hc ht hx

/-! ## Where the rights go -/

/-- As long as the load stays, and the machine holds what it held, the rights stay. -/
theorem Held.rights_stay (h : Held t s) {e : Seen C} (hl : s'.consumer.load = s.consumer.load)
    (hm : C.pending s'.machine.current = C.pending s.machine.current)
    (hd : s'.delivering = s.delivering) (hn : s'.sent = s.sent)
    (hu : s'.unanswered = s.unanswered) (he : e.answers = []) :
    Rights (used (t ++ [e])) s'.owed s'.sent s'.unanswered := by
  have ho : s'.owed = s.owed := by rw [owed_eq, owed_eq, hl, hm, producers, hd, producers]
  rw [used_snoc, he, ho, hn, hu, List.map_nil, List.append_nil]
  exact h.rights

/-- Answers use rights that were owed. -/
theorem Held.rights_answer (h : Held t s) {e : Seen C}
    (ho : (e.answers.map Prod.fst ++ s'.owed).Perm s.owed) (hn : s'.sent = s.sent)
    (hu : s'.unanswered = (s.tell e.answers).unanswered) :
    Rights (used (t ++ [e])) s'.owed s'.sent s'.unanswered := by
  rw [used_snoc, hn, hu]
  exact (h.rights.perm ho).answer

/-- What comes out of the load and the machine is answered, or kept by the machine. -/
theorem Held.rights_pass (h : Held t s) {e : Seen C} {l : List C.Action}
    (hl : s.consumer.load = l ++ s'.consumer.load)
    (hp : (e.answers.map Prod.fst ++ (C.pending s'.machine.current).map C.sender).Perm
      (l.map C.sender ++ (C.pending s.machine.current).map C.sender))
    (hd : s'.delivering = s.delivering) (hn : s'.sent = s.sent)
    (hu : s'.unanswered = (s.tell e.answers).unanswered) :
    Rights (used (t ++ [e])) s'.owed s'.sent s'.unanswered := by
  refine h.rights_answer ?_ hn hu
  rw [owed_eq, owed_eq, hl, List.map_append, producers, hd, ← producers]
  -- The producers downstream stay what they are; the rest is a matter of counting.
  rw [List.perm_iff_count] at hp ⊢
  intro r
  have hr := hp r
  simp only [List.count_append] at hr ⊢
  omega

theorem Sends.rights {i : C.Feeder} {x : Event (C.Input i)} {e : Seen C} (hs : Sends s i x e s')
    (h : Held t s) (hi : s.unanswered i = none) :
    Rights (used (t ++ [e])) s'.owed s'.sent s'.unanswered := by
  have hr := h.rights.send hi
  cases hs with
  | accepted f hf hc ht hx =>
    rw [used_snoc, List.map_nil, List.append_nil]
    refine hr.perm ?_
    rw [owed_eq, owed_eq, hf, List.map_append, List.map_singleton, C.sender_inlet]
    simp only [List.append_assoc]
    exact List.perm_middle
  | refused c hc =>
    rw [used_snoc]
    exact Rights.answer (l := [(i, s.sent i)]) hr

/-! ## Reducing -/

/-- What a reduction comes to: a value is held, or a completion is done with, and perhaps ends
    the combination, so that whatever is held is settled. -/
inductive Reduces (s : Combination C) (i : C.Feeder) (k : Nat) :
    Event (C.Input i) → Reduced C.State C.Right → Prop
  | held (a : C.Input i) (m : C.State)
      (hp : (C.pending m).Perm (C.inlet i (.value a) k :: C.pending s.machine.current))
      (hm : C.Ready m ∨ (C.emission? m).isSome) : Reduces s i k (.value a) ⟨m, [], .none⟩
  | passed (c : Completion) (m : C.State) (hp : C.pending m = C.pending s.machine.current)
      (hm : C.Ready m) : Reduces s i k (.completion c) ⟨m, [((i, k), .ok .done)], .none⟩
  | ended (c : Completion) (m : C.State) (hp : C.pending m = []) :
      Reduces s i k (.completion c) ⟨m, ((i, k), .ok .done) ::
        (C.pending s.machine.current).map (C.sender ·, settlement c), .completion c⟩

/-- An action in hand is the first of the load, and the rest stays. -/
theorem Held.load_reduce (h : Held t s) {x : C.Action} (ht : s.consumer.turn = .reduce x)
    (effect : Effect) :
    s.consumer.load = x :: (s.consumer.goOn (Turn.next (.reduce x) effect)).load := by
  have hl := (Consumer.Step.reduce effect ht).load h.sound
  simpa using hl

/-- The action in hand is not from a feeder whose value is held by the machine. -/
theorem Held.expected (h : Held t s) {i : C.Feeder} {e : Event (C.Input i)} {k : Nat}
    (ht : s.consumer.turn = .reduce (C.inlet i e k)) :
    i ∉ (C.pending s.machine.current).map (C.sender · |>.1) := by
  -- Both rights would be owed to one feeder.
  have hn := h.rights.feeders_nodup
  rw [owed_eq, h.load_reduce ht .none, List.map_cons, C.sender_inlet] at hn
  simp only [List.cons_append, List.map_cons, List.map_append, List.nodup_cons, List.mem_append,
    not_or] at hn
  have hi := hn.1.1.2
  rwa [List.map_map] at hi

/-- A machine that is ready knows what to do with the event of a feeder whose value it does not
    hold. -/
theorem ready_reduces (hs : C.Ready s.machine.current) {i : C.Feeder}
    (hi : i ∉ (C.pending s.machine.current).map (C.sender · |>.1)) (e : Event (C.Input i))
    (k : Nat) : ∃ r, C.reduce s.machine.current (C.inlet i e k) = .ok r ∧ s.Reduces i k e r := by
  rcases e with a | c
  · obtain ⟨m, hr, hm, hx⟩ := C.reduce_value (a := a) (k := k) hs hi
    exact ⟨_, hr, .held a m hm hx⟩
  · rcases C.reduce_completion (c := c) (k := k) hs hi with ⟨m, hr, hm, hx⟩ | ⟨m, hr, hm⟩
    · exact ⟨_, hr, .passed c m hm hx⟩
    · exact ⟨_, hr, .ended c m hm⟩

/-- An action in hand was sent, and the machine knows what to do with it. -/
theorem Held.reduces (h : Held t s) {x : C.Action} (ht : s.consumer.turn = .reduce x) :
    ∃ i e k r, x = C.inlet i e k ∧ .sent i e k none ∈ deeds t ∧
      C.reduce s.machine.current x = .ok r ∧ s.Reduces i k e r := by
  have hp := h.phase
  rw [Phase, ht] at hp
  obtain ⟨i, e, k, rfl, hd⟩ := h.known.loaded x (by simp [h.load_reduce ht .none])
  obtain ⟨r, hr, hx⟩ := ready_reduces hp.1 (h.expected ht) e k
  exact ⟨i, e, k, r, rfl, hd, hr, hx⟩

/-- A reduction answers its sender, or keeps the right to. -/
theorem Reduces.perm {i : C.Feeder} {k : Nat} {e : Event (C.Input i)} {r : Reduced C.State C.Right}
    (hr : s.Reduces i k e r) : (r.answers.map Prod.fst ++ (C.pending r.current).map C.sender).Perm
      ((i, k) :: (C.pending s.machine.current).map C.sender) := by
  cases hr with
  | held a m hp hm =>
    have hs := hp.map C.sender
    rwa [List.map_cons, C.sender_inlet] at hs
  | passed c m hp hm => rw [hp]; rfl
  | ended c m hp =>
    rw [hp, List.map_nil, List.append_nil, List.map_cons, List.map_map]
    rfl

/-! ## Every step -/

theorem Held.rights_step (h : Held t s) {e : Seen C} (hs : Step s e s') :
    Rights (used (t ++ [e])) s'.owed s'.sent s'.unanswered := by
  have hp := h.phase
  cases hs with
  | send i e hi he => exact (h.send hi e).rights h hi
  | cancel => exact h.rights_stay rfl rfl rfl rfl rfl rfl
  | close hc => exact h.rights_stay (h.sound.close _).load rfl rfl rfl rfl rfl
  | start ht =>
    rw [Phase, ht] at hp
    have hl := (Consumer.Step.start ht).load h.sound
    refine h.rights_stay ?_ (C.pending_initial.trans hp.1.symm) rfl rfl rfl rfl
    simpa using hl.symm
  | tacit hf =>
    have hl := hf.load h.sound
    refine h.rights_stay ?_ rfl rfl rfl rfl rfl
    simpa using hl.symm
  | @reduce x r ht hr =>
    -- The right in hand is used, or goes into the machine.
    obtain ⟨i, e, k, r', rfl, -, hr', hx⟩ := h.reduces ht
    obtain rfl : r = r' := Except.ok.inj (hr.symm.trans hr')
    refine h.rights_pass (l := [_]) (h.load_reduce ht r.effect) ?_ rfl rfl rfl
    rw [List.map_singleton, C.sender_inlet]
    exact hx.perm
  | idle ht hd hn =>
    have hl := (Consumer.Step.emit (.ok ()) ht).load h.sound
    refine h.rights_stay ?_ rfl rfl rfl rfl rfl
    simpa using hl.symm
  | push ht hd hm =>
    -- The value goes downstream, and with it the rights of everybody whose value was held.
    obtain ⟨-, hn, hps, -⟩ := C.emission?_some hm
    refine h.rights_answer ?_ rfl ?_
    · simp [owed_eq, producers, hn, hps, hd]
    · rw [tell_nil]
  | @reply v ps answer ht hd =>
    have hl := (Consumer.Step.emit (Delivery.ofAnswer answer).result ht).load h.sound
    -- The producers are answered, and nothing is downstream any more.
    refine h.rights_answer ?_ rfl rfl
    have hl' : (s.consumer.goOn (Turn.next .emit (Delivery.ofAnswer answer).result)).load =
        s.consumer.load := by simpa using hl.symm
    simp only [owed_eq, producers, hd, hl', tell_consumer, tell_machine, tell_delivering,
      Machine.deliver, List.map_map, Function.comp_def, List.map_id', List.append_nil]
    exact List.perm_append_comm
  | @finish c ht =>
    have hl := (Consumer.Step.finish ht).load h.sound
    refine h.rights_stay ?_ rfl rfl rfl rfl rfl
    simpa using hl.symm
  | @finalize c ht =>
    have hl := (Consumer.Step.finalize ht).load h.sound
    obtain ⟨hn, ha⟩ := C.finalize_eq s.machine c
    refine h.rights_pass (l := []) (by simpa using hl) ?_ rfl rfl rfl
    simp [hn, ha, Function.comp_def]
  | @dispose x c ht =>
    have hl := (Consumer.Step.dispose ht).load h.sound
    refine h.rights_pass (l := [x]) (by simpa using hl) (.refl _) rfl rfl rfl

/-- What is held later on is what was held before. -/
theorem Known.rest (h : Known t s) {e : Seen C}
    (hl : s'.consumer.load ⊆ s.consumer.load)
    (hp : C.pending s'.machine.current ⊆ C.pending s.machine.current)
    (hd : ∀ v ps, s'.delivering = some (v, ps) → s.delivering = some (v, ps)) :
    Known (t ++ [e]) s' where
  loaded x hx := by
    obtain ⟨i, y, k, rfl, hm⟩ := h.loaded x (hl hx)
    exact ⟨i, y, k, rfl, mem_deeds_snoc hm e⟩
  pending x hx := by
    obtain ⟨i, a, k, rfl, hm⟩ := h.pending x (hp hx)
    exact ⟨i, a, k, rfl, mem_deeds_snoc hm e⟩
  carried v ps hv := by
    obtain ⟨hm, hc⟩ := h.carried v ps (hd v ps hv)
    refine ⟨mem_deeds_snoc hm e, ?_⟩
    intro r hr
    obtain ⟨a, ha, hs⟩ := hc r hr
    exact ⟨a, ha, mem_deeds_snoc hs e⟩

theorem Sends.known {i : C.Feeder} {x : Event (C.Input i)} {e : Seen C} (hs : Sends s i x e s')
    (h : Known t s) : Known (t ++ [e]) s' := by
  cases hs with
  | accepted f hf hc ht hx =>
    have hk : Known (t ++ [⟨.sent i x (s.sent i) none, []⟩]) s :=
      h.rest (List.Subset.refl _) (List.Subset.refl _) fun _ _ => id
    refine ⟨?_, hk.pending, hk.carried⟩
    intro y hy
    have hy' : y ∈ s.consumer.load ++ [C.inlet i x (s.sent i)] := hf ▸ hy
    rcases List.mem_append.1 hy' with hy | hy
    · exact hk.loaded y hy
    · obtain rfl := List.mem_singleton.1 hy
      exact ⟨i, x, s.sent i, rfl, by simp⟩
  | refused c hc => exact h.rest (List.Subset.refl _) (List.Subset.refl _) fun _ _ => id

theorem Held.known_step (h : Held t s) {e : Seen C} (hs : Step s e s') : Known (t ++ [e]) s' := by
  have hk := h.known
  cases hs with
  | send i e hi he => exact (h.send hi e).known hk
  | cancel => exact hk.rest (List.Subset.refl _) (List.Subset.refl _) fun _ _ => id
  | close hc =>
    have hl := (Consumer.Step.close (.failure Fault.cancelled)).load_subset h.sound rfl
    exact hk.rest hl (List.Subset.refl _) fun _ _ => id
  | start ht =>
    have hl := (Consumer.Step.start ht).load_subset h.sound rfl
    refine hk.rest hl ?_ fun _ _ => id
    simp [Machine.new, C.pending_initial]
  | tacit hf => exact hk.rest (hf.load_subset h.sound rfl) (List.Subset.refl _) fun _ _ => id
  | @reduce x r ht hr =>
    obtain ⟨i, e, k, r', rfl, hd, hr', hx⟩ := h.reduces ht
    obtain rfl : r = r' := Except.ok.inj (hr.symm.trans hr')
    have hl := (Consumer.Step.reduce r.effect ht).load_subset h.sound rfl
    cases hx with
    | held a m hp hm =>
      have hk' : Known (t ++ [⟨.reduced (C.inlet i (.value a) k) .none, []⟩])
          { s with consumer := s.consumer.goOn .emit } :=
        hk.rest hl (List.Subset.refl _) fun _ _ => id
      refine ⟨hk'.loaded, ?_, hk'.carried⟩
      intro y hy
      rcases List.mem_cons.1 (hp.mem_iff.1 hy) with rfl | hy
      · exact ⟨i, a, k, rfl, mem_deeds_snoc hd _⟩
      · exact hk'.pending y hy
    | passed c m hp hm => exact hk.rest hl (by simp [hp]) fun _ _ => id
    | ended c m hp => exact hk.rest hl (by simp [hp]) fun _ _ => id
  | idle ht hd hn =>
    have hl := (Consumer.Step.emit (.ok ()) ht).load_subset h.sound rfl
    exact hk.rest hl (List.Subset.refl _) fun _ _ => id
  | @push m ht hd hm =>
    obtain ⟨-, hn, hps, hc⟩ := C.emission?_some hm
    have hk' : Known (t ++ [⟨.pushed m.value m.producers, []⟩]) s :=
      hk.rest (List.Subset.refl _) (List.Subset.refl _) fun _ _ => id
    refine ⟨hk'.loaded, ?_, ?_⟩
    · intro x hx
      have hx' : x ∈ C.pending m.current := hx
      simp [hn] at hx'
    · intro v ps hv
      obtain ⟨rfl, rfl⟩ : m.value = v ∧ m.producers = ps := by simpa using hv
      refine ⟨by simp, ?_⟩
      intro r hr
      -- A producer has sent a value that was held, and all that was held went into the pair.
      rw [hps] at hr
      obtain ⟨x, hx, rfl⟩ := List.mem_map.1 hr
      obtain ⟨i, a, k, rfl, hs⟩ := hk'.pending x hx
      rw [C.sender_inlet]
      exact ⟨a, hc i a k hx, hs⟩
  | @reply v ps answer ht hd =>
    have hl := (Consumer.Step.emit (Delivery.ofAnswer answer).result ht).load_subset h.sound rfl
    exact hk.rest hl (List.Subset.refl _) (by simp)
  | @finish c ht =>
    have hl := (Consumer.Step.finish ht).load_subset h.sound rfl
    exact hk.rest hl (List.Subset.refl _) fun _ _ => id
  | @finalize c ht =>
    have hl := (Consumer.Step.finalize ht).load_subset h.sound rfl
    exact hk.rest hl (by simp [(C.finalize_eq s.machine c).1]) fun _ _ => id
  | @dispose x c ht =>
    have hl := (Consumer.Step.dispose ht).load_subset h.sound rfl
    exact hk.rest hl (List.Subset.refl _) fun _ _ => id

/-! ## What the machine is ready for -/

theorem Phase.stay (h : s.Phase) (ht : s'.consumer.turn = s.consumer.turn)
    (hm : s'.machine = s.machine) (hd : s'.delivering = s.delivering) : s'.Phase := by
  rw [Phase, ht, hm, hd]
  exact h

/-- An event that is sent does not reach the machine. -/
theorem Phase.send (hp : s.Phase) (hs : s.consumer.Sound) (i : C.Feeder)
    (e : Event (C.Input i)) : (s.send i e).1.Phase := by
  have ht : (s.send i e).1.consumer.turn = s.consumer.turn := by
    rw [send_consumer]
    exact (hs.write none _).turn
  refine hp.stay ht ?_ ?_
  · rw [Combination.send]
    split <;> rfl
  · rw [Combination.send]
    split <;> rfl

/-- A consumer that goes on by itself leaves the machine to what it is ready for. -/
theorem Phase.tacit (hp : s.Phase) (hs : s.consumer.Sound) {f : Consumer Nat C.Action}
    (hf : Consumer.Step s.consumer .tacit f) : Phase { s with consumer := f } := by
  have hphase := hp
  rw [Phase] at hp
  cases hf with
  | checkpoint ht =>
    rw [ht] at hp
    rcases hc : s.consumer.checkpoint with x | _
    · exact hp.2
    · exact hp
  | read p ht ha =>
    rw [ht] at hp
    have hr := hs.read ha p
    generalize s.consumer.read p = f at hr
    cases hr with
    | took r a ws c hq hs => exact hp
    | closed x hx hq => exact hp.2
    | parked c ho hq hs => exact hphase.stay rfl rfl rfl
  | @resume p o ht ha =>
    rw [ht] at hp
    rcases o with x | a
    · exact hp.2
    · exact hp
  | drain ht =>
    rw [ht] at hp
    rcases hr : s.consumer.channel.tryRead.result with x | a
    · exact hp
    · exact hp

/-- The machine stays ready for what comes, if it knows what to do with the actions in hand. -/
theorem Phase.step (hp : s.Phase) (hs : s.consumer.Sound)
    (hk : ∀ x r, s.consumer.turn = .reduce x → C.reduce s.machine.current x = .ok r →
      ∃ i e k, s.Reduces i k e r) {e : Seen C} (h : Step s e s') : s'.Phase := by
  cases h with
  | send i e hi he => exact hp.send hs i e
  | cancel => exact hp.stay rfl rfl rfl
  | close hc => exact hp.stay (hs.close _).turn rfl rfl
  | start ht =>
    rw [Phase, ht] at hp
    exact ⟨C.ready_initial, hp.2⟩
  | tacit hf => exact hp.tacit hs hf
  | @reduce x r ht hr =>
    rw [Phase, ht] at hp
    obtain ⟨i, e, k, hx⟩ := hk x r ht hr
    cases hx with
    | held a m hq hm => exact hm.imp id fun hm => ⟨hm, hp.2⟩
    | passed c m hq hm => exact .inl hm
    | ended c m hq => exact hp.2
  | idle ht hd hn =>
    rw [Phase, ht] at hp
    rcases hp with hp | ⟨hs, -⟩
    · exact ⟨hp, hd⟩
    · simp [hn] at hs
  | @push m ht hd hm =>
    obtain ⟨hr, -⟩ := C.emission?_some hm
    rw [Phase, ht]
    exact .inl hr
  | @reply v ps answer ht hd =>
    rw [Phase, ht] at hp
    rcases hp with hp | ⟨-, hn⟩
    · rcases answer with f | _ | _
      · exact rfl
      · exact ⟨hp, rfl⟩
      · exact rfl
    · simp [hd] at hn
  | finish ht =>
    rw [Phase, ht] at hp
    exact hp
  | @finalize c ht =>
    rw [Phase, ht] at hp
    exact ⟨(C.finalize_eq s.machine c).1, hp⟩
  | dispose ht =>
    rw [Phase, ht] at hp
    exact hp

theorem Held.phase_step (h : Held t s) {e : Seen C} (hs : Step s e s') : s'.Phase := by
  refine h.phase.step h.sound (fun x r ht hr => ?_) hs
  obtain ⟨i, e, k, r', -, -, hr', hx⟩ := h.reduces ht
  obtain rfl : r = r' := Except.ok.inj (hr.symm.trans hr')
  exact ⟨i, e, k, hx⟩

theorem Held.step (h : Held t s) {e : Seen C} (hs : Step s e s') : Held (t ++ [e]) s' where
  sound := by
    rcases hs.consumer with hc | ⟨e', hc⟩
    · rw [hc]
      exact h.sound
    · exact hc.sound h.sound
  left := by
    rcases hs.consumer with hc | ⟨e', hc⟩
    · rw [hc]
      exact h.left
    · exact h.left.step h.sound hc
  buffering := by
    rcases hs.consumer with hc | ⟨e', hc⟩
    · rw [hc]
      exact h.buffering
    · exact (hc.buffering h.sound).trans h.buffering
  known := h.known_step hs
  rights := h.rights_step hs
  phase := h.phase_step hs

end Combination

end ResumeOnce.Streams

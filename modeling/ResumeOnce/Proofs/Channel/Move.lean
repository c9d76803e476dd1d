import ResumeOnce.Proofs.Channel.Traffic

/-!
# What steps of a channel come to

On a sound channel a step of its traffic is one of eight moves, each told by what
the channel shows before and behind it, by the calls that are begun, and by the
answers:

* `Traffic.Move`, `Traffic.Step.move`: the moves, and that there are no others;
* `Traffic.Move.sound`: a move keeps the channel sound;
* `Traffic.Step.begun_kept`, `Traffic.Move.answer_kept`: what has begun stays so, and a
  call that has begun keeps its answer.
-/

namespace ResumeOnce.Channel

variable {α : Type u}

/-- An answer that is a fault. -/
def Answer.Fails : Answer α → Prop
  | .read o => ∃ f, o = .error f
  | .wrote o => ∃ f, o = .error f

/-- Nothing was accepted, read, handed over or returned. -/
structure Event.Silent (e : Event α) : Prop where
  accepted : e.accepted = []
  reads : e.reads = []
  handovers : e.handovers = []
  returned : e.returned = []

namespace Traffic

/-- The answers once some calls were given one; those that were there stay. -/
def settle (answered : Nat → Option (Answer α)) (called : Nat → Prop) [DecidablePred called]
    (r : Answer α) (k : Nat) : Option (Answer α) :=
  if called k then (answered k).orElse fun _ => some r else answered k

/-- What a step comes to. -/
inductive Move (s : Traffic α) : Event α → Traffic α → Prop
  | quiet {e : Event α} {s' : Traffic α} (hc : s'.channel = s.channel)
      (ha : s'.answered = s.answered) (he : e.Silent) : Move s e s'
  | failed {e : Event α} {s' : Traffic α} (k : Nat) (r : Answer α) (hk : s.begun k = none)
      (hc : s'.channel = s.channel) (ha : s'.answered = Function.update s.answered k (some r))
      (hr : r.Fails) (he : e.Silent) : Move s e s'
  | took {s' : Traffic α} (k : Nat) (p : Option Nat) (a : α) (ws : List (Writer Nat α))
      (hk : s.begun k = none) (hq : s.channel.queued = ⟨p, some a⟩ :: ws)
      (hw : s.channel.waiting = [])
      (hs : s'.channel.Shows s.channel.buffering s.channel.completion [] ws)
      (ha : s'.answered = Function.update (settle s.answered (p = some ·) (.wrote (.ok ()))) k
        (some (.read (.ok a)))) : Move s (.read k (.settled (.ok a))) s'
  | parked {s' : Traffic α} (k : Nat) (hk : s.begun k = none) (ho : s.channel.completion = none)
      (hq : s.channel.queued = [])
      (hs : s'.channel.Shows s.channel.buffering none (s.channel.waiting ++ [k]) [])
      (ha : s'.answered = Function.update s.answered k none) : Move s (.read k .queued) s'
  | met {s' : Traffic α} (k : Nat) (waits : Bool) (a : α) (r : Nat) (rs : List Nat)
      (hk : s.begun k = none) (ho : s.channel.completion = none)
      (hw : s.channel.waiting = r :: rs) (hq : s.channel.queued = [])
      (hs : s'.channel.Shows s.channel.buffering none rs [])
      (ha : s'.answered = Function.update (settle s.answered (r = ·) (.read (.ok a))) k
        (some (.wrote (.ok ())))) : Move s (.wrote k waits a .handed [.reader r (.ok a)]) s'
  | stored {s' : Traffic α} (k : Nat) (waits : Bool) (a : α) (hk : s.begun k = none)
      (ho : s.channel.completion = none) (hw : s.channel.waiting = [])
      (hs : s'.channel.Shows s.channel.buffering none []
        (s.channel.queued ++ [⟨writer waits k, some a⟩]))
      (ha : s'.answered = Function.update s.answered k
        (if waits then none else some (.wrote (.ok ())))) : Move s (.wrote k waits a .queued []) s'
  | ended {s' : Traffic α} (x : Completion) (ho : s.channel.completion = none)
      (hs : s'.channel.Shows s.channel.buffering (some x) [] s.channel.queued)
      (ha : s'.answered = settle s.answered (· ∈ s.channel.waiting) (.read (.error x.fault))) :
      Move s (.closed x true) s'
  | emptied {s' : Traffic α} (f : Fault)
      (hs : s'.channel.Shows s.channel.buffering (some (.failure f)) [] [])
      (ha : s'.answered = settle
        (settle s.answered (· ∈ s.channel.waiting) (.read (.error f)))
        (some · ∈ s.channel.queued.map Writer.resumption) (.wrote (.error f))) :
      Move s (.cancelled f s.channel.values) s'

/-! ## Every step is a move -/

theorem exchange_readers (s : Traffic α) (c : Channel Nat α) (o : Outcome α) (rs : List Nat)
    (x : β) : (s.exchange ⟨c, rs.map (Resolution.reader · o), x⟩).answered =
      settle s.answered (· ∈ rs) (.read o) :=
  funext fun k => foldl_readers_answered o rs _ k

theorem exchange_reader (s : Traffic α) (c : Channel Nat α) (o : Outcome α) (r : Nat) (x : β) :
    (s.exchange ⟨c, [.reader r o], x⟩).answered = settle s.answered (r = ·) (.read o) := by
  funext k
  have h := foldl_readers_answered o [r] { s with channel := c } k
  simpa [exchange, settle, eq_comm] using h

theorem exchange_writer (s : Traffic α) (c : Channel Nat α) (o : Outcome Unit) (p : Option Nat)
    (x : β) : (s.exchange ⟨c, p.toList.map (Resolution.writer · o), x⟩).answered =
      settle s.answered (p = some ·) (.wrote o) := by
  funext k
  have h := foldl_writers_answered o [⟨p, none⟩] { s with channel := c } k
  simpa [exchange, settle, eq_comm] using h

theorem exchange_cancelled (s : Traffic α) (c : Channel Nat α) (f : Fault) (rs : List Nat)
    (ws : List (Writer Nat α)) (x : β) :
    (s.exchange ⟨c, (rs.map fun r => .reader r (.error f)) ++
      ws.flatMap fun w => w.resumption.toList.map fun r => .writer r (.error f), x⟩).answered =
      settle (settle s.answered (· ∈ rs) (.read (.error f)))
        (some · ∈ ws.map Writer.resumption) (.wrote (.error f)) := by
  funext k
  rw [exchange, List.foldl_append, foldl_writers_answered, foldl_readers_answered]
  rfl

variable {s s' : Traffic α} {e : Event α}

/-- A read that fails changes nothing but its own answer. -/
theorem move_read_failed {k : Nat} {call : Call α} (hk : s.begun k = none) (f : Fault) :
    Move s (.read k (.settled (.error f))) (s.begin k call (some (.read (.error f)))) :=
  .failed k _ hk rfl rfl ⟨f, rfl⟩ ⟨rfl, rfl, rfl, rfl⟩

theorem move_read (h : s.channel.Sound) {k : Nat} {call : Call α} (hk : s.begun k = none)
    {p : Option Nat} (hp : ∀ r, p = some r → r = k) :
    Move s (.read k (s.channel.read p).result)
      ((s.exchange (s.channel.read p)).begin k call (readAnswer (s.channel.read p).result)) := by
  cases h.reading p with
  | took r a ws c' hq hw hs he =>
    rw [he]
    refine .took k r a ws hk hq hw (by simpa [begin] using hs) ?_
    rw [begin, exchange_writer]
    rfl
  | closed x hx hq he =>
    rw [he]
    exact move_read_failed hk x.fault
  | blocked ho hq hn he =>
    rw [he]
    exact move_read_failed hk _
  | queued r c' ho hq hr hs he =>
    rw [he]
    obtain rfl := hp r hr
    exact .parked r hk ho hq hs rfl

/-- A read that does not wait moves like one that may not be queued. -/
theorem beginCall_tryRead (h : s.channel.Sound) (k : Nat) :
    s.beginCall k (.read false) =
      ((s.exchange (s.channel.read none)).begin k (.read false)
          (readAnswer (s.channel.read none).result),
        .read k (s.channel.read none).result) := by
  obtain ⟨o, ho, he⟩ := tryRead_eq_read h
  rw [beginCall, he, ho]
  rfl

theorem move_write (h : s.channel.Sound) {k : Nat} (hk : s.begun k = none) (a : α)
    (waits : Bool) :
    Move s (s.beginCall k (.write a waits)).2 (s.beginCall k (.write a waits)).1 := by
  -- What becomes of the call is told by the operation alone, which is looked up case by case.
  have hc : ∀ {e}, s.channel.write (writer waits k) a = e → s.beginCall k (.write a waits) =
      ((s.exchange e).begin k (.write a waits) (writeAnswer waits e.result),
        .wrote k waits a e.result e.resolutions) := by
    rintro e rfl
    rfl
  cases h.writing (writer waits k) a with
  | closed x hx he =>
    rw [hc he]
    exact .failed k _ hk rfl rfl ⟨_, rfl⟩ ⟨rfl, rfl, rfl, rfl⟩
  | handed r rs c' ho hw hq hs he =>
    rw [hc he]
    refine .met k waits a r rs hk ho hw hq hs ?_
    rw [begin, exchange_reader]
    rfl
  | full ho hw hp hb he =>
    rw [hc he]
    exact .failed k _ hk rfl rfl ⟨_, rfl⟩ ⟨rfl, rfl, rfl, rfl⟩
  | queued c' ho hw hb hs he =>
    rw [hc he]
    exact .stored k waits a hk ho hw hs rfl

/-- On a sound channel every step is a move. -/
theorem Step.move (h : s.channel.Sound) (hs : Step s e s') : Move s e s' := by
  cases hs with
  | make call hm => exact .quiet rfl rfl ⟨rfl, rfl, rfl, rfl⟩
  | @begin k call hm hk hg =>
    match call with
    | .read false =>
      rw [beginCall_tryRead h]
      exact move_read h hk (by simp)
    | .read true => exact move_read h hk fun r hr => (Option.some.inj hr).symm
    | .write a waits => exact move_write h hk a waits
  | poll hb hg =>
    refine .quiet ?_ ?_ ⟨rfl, rfl, rfl, rfl⟩ <;> split <;> rfl
  | drop k => exact .quiet rfl rfl ⟨rfl, rfl, rfl, rfl⟩
  | close c =>
    cases h.closing c with
    | closed hx he =>
      rw [he]
      exact .quiet rfl rfl ⟨rfl, rfl, rfl, rfl⟩
    | closes c' ho hs he =>
      rw [he]
      exact .ended c ho (by simpa using hs) (exchange_readers ..)
  | cancel f =>
    obtain ⟨c', hs, he⟩ := h.cancel f
    rw [he]
    exact .emptied f (by simpa using hs) (exchange_cancelled ..)

/-! ## What moves keep -/

theorem Move.sound (hm : Move s e s') (h : s.channel.Sound) : s'.channel.Sound := by
  cases hm with
  | quiet hc => exact hc ▸ h
  | failed k r hk hc => exact hc ▸ h
  | took k p a ws hk hq hw hs => exact hs.sound
  | parked k hk ho hq hs => exact hs.sound
  | met k waits a r rs hk ho hw hq hs => exact hs.sound
  | stored k waits a hk ho hw hs => exact hs.sound
  | ended x ho hs => exact hs.sound
  | emptied f hs => exact hs.sound

theorem settle_kept {answered : Nat → Option (Answer α)} {called : Nat → Prop}
    [DecidablePred called] {r r' : Answer α} {k : Nat} (h : answered k = some r) :
    settle answered called r' k = some r := by
  unfold settle
  split <;> simp [h]

theorem settle_of_not {answered : Nat → Option (Answer α)} {called : Nat → Prop}
    [DecidablePred called] {r : Answer α} {k : Nat} (h : ¬ called k) :
    settle answered called r k = answered k := if_neg h

theorem settle_of_none {answered : Nat → Option (Answer α)} {called : Nat → Prop}
    [DecidablePred called] {r : Answer α} {k : Nat} (hc : called k) (h : answered k = none) :
    settle answered called r k = some r := by
  rw [settle, if_pos hc, h]
  rfl

/-- A call that has begun keeps its answer. -/
theorem Move.answer_kept (hm : Move s e s') {k : Nat} {r : Answer α} (hb : s.begun k ≠ none)
    (h : s.answered k = some r) : s'.answered k = some r := by
  -- Whoever is answered at once has just begun, and is not the call in question.
  have hne : ∀ j, s.begun j = none → k ≠ j := by
    rintro j hj rfl
    exact hb hj
  cases hm with
  | quiet hc ha => rw [ha, h]
  | failed j r hk hc ha => rw [ha, Function.update_of_ne (hne j hk), h]
  | took j p a ws hk hq hw hs ha =>
    rw [ha, Function.update_of_ne (hne j hk), settle_kept h]
  | parked j hk ho hq hs ha => rw [ha, Function.update_of_ne (hne j hk), h]
  | met j waits a r rs hk ho hw hq hs ha =>
    rw [ha, Function.update_of_ne (hne j hk), settle_kept h]
  | stored j waits a hk ho hw hs ha => rw [ha, Function.update_of_ne (hne j hk), h]
  | ended x ho hs ha => rw [ha, settle_kept h]
  | emptied f hs ha => rw [ha, settle_kept (settle_kept h)]

end Traffic

end ResumeOnce.Channel

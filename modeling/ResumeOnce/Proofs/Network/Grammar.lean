import ResumeOnce.Proofs.Network.Mapping

/-!
# The grammar of events

A stream and its downstream take turns: the stream calls with an event, and the downstream
answers. The stream sends values, as long as the downstream wants more of them; then it may send
a completion. Behind the answer to the completion nothing more is said, and nothing behind an
answer that tells the stream to stop.

* `Word`, `words`, `called`, `answered`: what is said;
* `Mood`, `Mood.Step`: who may say what;
* `Told`: what was said until a mood came;
* `Grammatical`: the events of a stream come as they should;
* `Voice`, `Voice.run`: what makes a stream keep to the grammar.
-/

namespace ResumeOnce.Network

open Streams

variable {α β : Type}

/-! ## What is said -/

/-- What is said between a stream and its downstream. -/
inductive Word (α : Type) where
  | event (e : Event α)
  | answer (o : Outcome Demand)

namespace Word

/-- What the stream says. -/
def event? : Word α → Option (Event α)
  | event e => some e
  | answer _ => none

/-- What the downstream says. -/
def answer? : Word α → Option (Outcome Demand)
  | event _ => none
  | answer o => some o

end Word

/-- What is said by an act. -/
def Act.word? : Act α → Option (Word α)
  | moved (.calls e) => some (.event e)
  | answered o => some (.answer o)
  | _ => none

/-- What was said, in order. -/
def words (t : List (Act α)) : List (Word α) := t.filterMap Act.word?

/-- The events that a stream has called its downstream with. -/
def called (t : List (Act α)) : List (Event α) := (words t).filterMap Word.event?

/-- The answers of the downstream. -/
def answered (t : List (Act α)) : List (Outcome Demand) := (words t).filterMap Word.answer?

/-- The values among the events that a stream has called with. -/
def values (t : List (Act α)) : List α :=
  (called t).filterMap fun
    | .value v => some v
    | .completion _ => none

/-- The completions among the events that a stream has called with. -/
def completions (t : List (Act α)) : List Completion :=
  (called t).filterMap fun
    | .value _ => none
    | .completion c => some c

/-- Whether a value was answered with an end or a fault. -/
def Dismissed (t : List (Act α)) : Prop :=
  ∃ ws v o ws', words t = ws ++ .event (.value v) :: .answer o :: ws' ∧ dismisses o = true

@[simp]
theorem words_append (t t' : List (Act α)) : words (t ++ t') = words t ++ words t' :=
  List.filterMap_append

@[simp]
theorem called_append (t t' : List (Act α)) : called (t ++ t') = called t ++ called t' := by
  rw [called, words_append, List.filterMap_append]
  rfl

@[simp]
theorem answered_append (t t' : List (Act α)) : answered (t ++ t') = answered t ++ answered t' := by
  rw [answered, words_append, List.filterMap_append]
  rfl

theorem values_append (t t' : List (Act α)) : values (t ++ t') = values t ++ values t' := by
  rw [values, called_append, List.filterMap_append]
  rfl

theorem completions_append (t t' : List (Act α)) :
    completions (t ++ t') = completions t ++ completions t' := by
  rw [completions, called_append, List.filterMap_append]
  rfl

/-- What is said, with the values changed. -/
def Word.map (g : α → β) : Word α → Word β
  | event e => event (e.map g)
  | answer o => answer o

theorem words_map (g : α → β) (t : List (Act α)) :
    words (t.map (Act.map g)) = (words t).map (Word.map g) := by
  rw [words, List.filterMap_map, words, List.map_filterMap]
  refine List.filterMap_congr fun a _ => ?_
  rcases a with (_ | e | r) | o | _ <;> rfl

theorem values_map (g : α → β) (t : List (Act α)) :
    values (t.map (Act.map g)) = (values t).map g := by
  rw [values, called, words_map, values, called, List.filterMap_map, List.filterMap_filterMap,
    List.filterMap_filterMap, List.map_filterMap]
  refine List.filterMap_congr fun w _ => ?_
  rcases w with (v | c) | o <;> rfl

theorem completions_map (g : α → β) (t : List (Act α)) :
    completions (t.map (Act.map g)) = completions t := by
  rw [completions, called, words_map, completions, called, List.filterMap_map,
    List.filterMap_filterMap, List.filterMap_filterMap]
  refine List.filterMap_congr fun w _ => ?_
  rcases w with (v | c) | o <;> rfl

/-- An act without a word leaves what was said. -/
theorem words_mute (t : List (Act α)) {a : Act α} (ha : a.word? = none) :
    words (t ++ [a]) = words t := by
  simp [words, ha]

/-- The events of a stream come as they should. -/
structure Grammatical (t : List (Act α)) : Prop where
  /-- Values come first, and behind them at most one completion. -/
  ordered : ∃ (vs : List α) (c : Option Completion),
    called t = vs.map .value ++ c.toList.map .completion
  /-- When an event is sent, every event before has its answer. -/
  patient : ∀ t₁ e t₂, t = t₁ ++ .moved (.calls e) :: t₂ →
    (answered t₁).length = (called t₁).length
  /-- Behind an answer that tells the stream to stop nothing is sent. -/
  obedient : ∀ t₁ o t₂, t = t₁ ++ .answered o :: t₂ → dismisses o = true → called t₂ = []

/-! ## Moods -/

/-- Where a stream is with its downstream. -/
inductive Mood where
  /-- It may send an event. -/
  | free
  /-- It waits for the answer to a value. -/
  | waits
  /-- It waits for the answer to its completion. -/
  | last (c : Completion)
  /-- It was told to stop. -/
  | quit
  /-- Its completion was answered. -/
  | closed (c : Completion)

namespace Mood

/-- The mood behind an event. -/
def behind : Event α → Mood
  | .value _ => waits
  | .completion c => last c

/-- The mood behind an answer. -/
def hears (o : Outcome Demand) : Mood → Mood
  | waits => if dismisses o then quit else free
  | last c => closed c
  | m => m

/-- Whether the downstream has still to answer. -/
def calling : Mood → Bool
  | waits | last _ => true
  | _ => false

/-- The completion, once it was sent. -/
def completion? : Mood → Option Completion
  | last c | closed c => some c
  | _ => none

/-- Who may say what: the stream when it is free, the downstream when it has to answer. -/
inductive Step : Mood → Word α → Mood → Prop
  | event (e : Event α) : Step free (.event e) (behind e)
  | answer {m : Mood} (o : Outcome Demand) : m.calling = true → Step m (.answer o) (m.hears o)

@[simp]
theorem behind_map (g : α → β) (e : Event α) : behind (e.map g) = behind e := by
  cases e <;> rfl

@[simp]
theorem completion?_hears (o : Outcome Demand) (m : Mood) :
    (m.hears o).completion? = m.completion? := by
  cases m with
  | waits =>
    rw [hears]
    split <;> rfl
  | _ => rfl

/-- An answer is the end of waiting. -/
theorem calling_hears (o : Outcome Demand) (m : Mood) : (m.hears o).calling = false := by
  cases m with
  | waits =>
    rw [hears]
    split <;> rfl
  | _ => rfl

/-- Nothing is said any more. -/
theorem silent {m m' : Mood} (hm : m ≠ free) (hc : m.calling = false) {ws : List (Word α)}
    (h : Run Step m ws m') : ws = [] ∧ m' = m := by
  refine h.invariant (P := fun ws m' => ws = [] ∧ m' = m) ⟨rfl, rfl⟩ ?_
  rintro ws _ w m' ⟨-, rfl⟩ hs
  cases hs with
  | event e => exact absurd rfl hm
  | answer o hx => exact absurd (hx.symm.trans hc) (by simp)

end Mood

/-! ## What was said until a mood came -/

/-- Some values, each of them answered with a demand for more. -/
def exchanged (vs : List α) : List (Word α) :=
  vs.flatMap fun v => [.event (.value v), .answer (.ok .more)]

@[simp]
theorem exchanged_snoc (vs : List α) (v : α) :
    exchanged (vs ++ [v]) = exchanged vs ++ [.event (.value v), .answer (.ok .more)] := by
  simp [exchanged]

@[simp]
theorem events_exchanged (vs : List α) :
    (exchanged vs).filterMap Word.event? = vs.map .value := by
  induction vs with
  | nil => rfl
  | cons v vs ih => exact congrArg (_ :: ·) ih

@[simp]
theorem answers_exchanged (vs : List α) :
    (exchanged vs).filterMap Word.answer? = vs.map fun _ => .ok .more := by
  induction vs with
  | nil => rfl
  | cons v vs ih => exact congrArg (_ :: ·) ih

/-- What was said until a mood came. -/
inductive Told : Mood → List (Word α) → Prop
  | free (vs : List α) : Told .free (exchanged vs)
  | waits (vs : List α) (v : α) : Told .waits (exchanged vs ++ [.event (.value v)])
  | last (vs : List α) (c : Completion) :
      Told (.last c) (exchanged vs ++ [.event (.completion c)])
  | quit (vs : List α) (v : α) (o : Outcome Demand) : dismisses o = true →
      Told .quit (exchanged vs ++ [.event (.value v), .answer o])
  | closed (vs : List α) (c : Completion) (o : Outcome Demand) :
      Told (.closed c) (exchanged vs ++ [.event (.completion c), .answer o])

theorem dismisses_eq_false {o : Outcome Demand} (h : dismisses o = false) : o = .ok .more := by
  rcases o with f | _ | _
  · cases h
  · rfl
  · cases h

theorem Told.step {m m' : Mood} {ws : List (Word α)} {w : Word α} (h : Told m ws)
    (hs : Mood.Step m w m') : Told m' (ws ++ [w]) := by
  cases hs with
  | event e =>
    cases h with
    | free vs =>
      cases e with
      | value v => exact .waits vs v
      | completion c => exact .last vs c
  | answer o hx =>
    cases h with
    | free | quit | closed => cases hx
    | waits vs v =>
      rw [List.append_assoc, List.singleton_append, Mood.hears]
      split
      · rename_i ho
        exact .quit vs v o ho
      · rename_i ho
        obtain rfl := dismisses_eq_false (Bool.eq_false_iff.2 ho)
        exact exchanged_snoc vs v ▸ .free (vs ++ [v])
    | last vs c =>
      rw [List.append_assoc, List.singleton_append]
      exact .closed vs c o

theorem told_run {m : Mood} {ws : List (Word α)} (h : Run Mood.Step .free ws m) : Told m ws :=
  h.invariant (P := fun ws m => Told m ws) (.free []) Told.step

section Spoken

variable {m : Mood} {t : List (Act α)}

theorem ordered_of_run (h : Run Mood.Step .free (words t) m) :
    ∃ (vs : List α) (c : Option Completion),
      called t = vs.map .value ++ c.toList.map .completion := by
  have ht := told_run h
  generalize hw : words t = ws at ht
  cases ht with
  | free vs => exact ⟨vs, none, by simp [called, hw]⟩
  | waits vs v | quit vs v => exact ⟨vs ++ [v], none, by simp [called, hw, Word.event?]⟩
  | last vs c | closed vs c => exact ⟨vs, some c, by simp [called, hw, Word.event?]⟩

/-- What is said comes in order. -/
theorem called_of_run (h : Run Mood.Step .free (words t) m) :
    called t = (values t).map .value ++ (completions t).map .completion := by
  obtain ⟨vs, c, hc⟩ := ordered_of_run h
  have hv : values t = vs := by
    cases c <;> simp [values, hc, List.filterMap_append, List.filterMap_map]
  have hx : completions t = c.toList := by
    cases c <;> simp [completions, hc, List.filterMap_append, List.filterMap_map]
  rw [hv, hx, hc]

/-- The completion of a stream was sent once, if at all. -/
theorem completions_of_run (h : Run Mood.Step .free (words t) m) :
    completions t = m.completion?.toList := by
  have ht := told_run h
  generalize hw : words t = ws at ht
  cases ht <;>
    simp [completions, called, hw, Word.event?, Mood.completion?, List.filterMap_append,
      List.filterMap_map]

/-- Whoever is free has an answer to each event. -/
theorem answered_of_run (h : Run Mood.Step .free (words t) .free) :
    (answered t).length = (called t).length := by
  have ht := told_run h
  generalize hw : words t = ws at ht
  cases ht with
  | free vs => simp [answered, called, hw]

/-- A stream was told to stop by the answer to a value. -/
theorem dismissed_iff (h : Run Mood.Step .free (words t) m) : Dismissed t ↔ m = .quit := by
  constructor
  · rintro ⟨ws, v, o, ws', ht, ho⟩
    obtain ⟨_, m₁, -, hs, h₁⟩ := h.split ht
    cases hs with
    | event e =>
      obtain ⟨m₀, m₂, h₀, hs, h₂⟩ := h₁.split (List.nil_append _).symm
      obtain rfl := h₀.eq_of_nil
      cases hs with
      | answer o hx =>
        have hq : Mood.hears o (.behind (.value v)) = .quit := if_pos ho
        rw [hq] at h₂
        exact (Mood.silent (by simp) rfl h₂).2
  · rintro rfl
    have ht := told_run h
    generalize hw : words t = ws at ht
    cases ht with
    | quit vs v o ho => exact ⟨exchanged vs, v, o, [], hw, ho⟩

/-- Behind an answer that tells a stream to stop nothing is said. -/
theorem obedient_of_run (h : Run Mood.Step .free (words t) m) {t₁ t₂ : List (Act α)}
    {o : Outcome Demand} (ht : t = t₁ ++ .answered o :: t₂) (ho : dismisses o = true) :
    called t₂ = [] := by
  subst ht
  obtain ⟨m₁, m₂, -, hs, h₂⟩ := h.split (words_append t₁ _)
  cases hs with
  | answer o hx =>
    have hn : m₁.hears o ≠ .free := by
      cases m₁ with
      | waits => simp [Mood.hears, ho]
      | last c => simp [Mood.hears]
      | _ => cases hx
    have hw : words t₂ = [] := (Mood.silent hn (Mood.calling_hears o m₁) h₂).1
    rw [called, hw, List.filterMap_nil]

end Spoken

/-! ## Streams that keep to the grammar -/

/-- What makes a stream keep to the grammar: something holds of it in each mood, and says that it
    calls its downstream only when it is free. -/
structure Voice (S : System α) (P : Mood → S.State → Prop) : Prop where
  start : P .free S.start
  silent : ∀ {m s a s'}, P m s → S.Step s a s' → (∀ e, a ≠ .calls e) → P m s'
  calls : ∀ {m s e s'}, P m s → S.Step s (.calls e) s' → m = .free ∧ P (.behind e) s'
  answer : ∀ {m s} o, P m s → m.calling = true → P (m.hears o) (S.answer o s)
  cancel : ∀ {m s}, P m s → P m (S.cancel s)

namespace Voice

variable {S : System α} {P : Mood → S.State → Prop} {t : List (Act α)} {x : Standing}
  {s : S.State}

/-- Every run of a stream has its mood, and others know of it. -/
theorem run (h : Voice S P) (hr : Run Exposed.Step (.new S) t ⟨x, s⟩) :
    ∃ m, Run Mood.Step .free (words t) m ∧ x.calling = m.calling ∧
      x.ended = m.completion?.isSome ∧ P m s := by
  refine hr.invariant (P := fun t e => ∃ m, Run Mood.Step .free (words t) m ∧
    e.standing.calling = m.calling ∧ e.standing.ended = m.completion?.isSome ∧ P m e.state)
    ⟨.free, .nil, rfl, rfl, h.start⟩ ?_
  rintro t e a e' ⟨m, hw, hc, he, hp⟩ hs
  cases hs with
  | @move x s s' a hs =>
    cases a with
    | tacit | ends r =>
      refine ⟨m, ?_, hc, he, h.silent hp hs (by simp)⟩
      rwa [words_mute]
      rfl
    | calls e =>
      obtain ⟨rfl, hp'⟩ := h.calls hp hs
      refine ⟨.behind e, words_append t _ ▸ hw.snoc (.event e), ?_, ?_, hp'⟩
      · cases e <;> rfl
      · cases e with
        | value v => exact (Bool.or_false _).trans he
        | completion c => exact Bool.or_true _
  | answer o hx =>
    have hm : m.calling = true := hc.symm.trans hx
    refine ⟨m.hears o, words_append t _ ▸ hw.snoc (.answer o hm), (m.calling_hears o).symm, ?_,
      h.answer o hp hm⟩
    rw [Mood.completion?_hears]
    exact he
  | cancel =>
    refine ⟨m, ?_, hc, he, h.cancel hp⟩
    rwa [words_mute]
    rfl

theorem grammatical (h : Voice S P) {e : Exposed S} (hr : Run Exposed.Step (.new S) t e) :
    Grammatical t := by
  obtain ⟨m, hw, -⟩ := h.run hr
  refine ⟨ordered_of_run hw, fun t₁ v t₂ ht => ?_, fun t₁ o t₂ => obedient_of_run hw⟩
  obtain ⟨e₁, e₂, hr₁, hs, -⟩ := hr.split ht
  obtain ⟨m₁, hw₁, -, -, hp⟩ := h.run hr₁
  cases hs with
  | move hs =>
    obtain ⟨rfl, -⟩ := h.calls hp hs
    exact answered_of_run hw₁

/-- Whoever keeps to the grammar calls when it may. -/
theorem polite (h : Voice S P) : Polite S := by
  rintro x s e s' ⟨t, hr⟩ hs
  obtain ⟨m, -, hc, he, hp⟩ := h.run hr
  obtain ⟨rfl, -⟩ := h.calls hp hs
  exact ⟨hc, fun _ => he⟩

/-- Who changes the values of a stream keeps to its grammar. -/
theorem map (h : Voice S P) (g : α → β) : Voice (S.map g) P where
  start := h.start
  silent := by
    rintro m s _ s' hp ⟨a, hs, rfl⟩ ha
    exact h.silent hp hs fun e he => ha (e.map g) (by rw [he, Move.map])
  calls := by
    rintro m s e s' hp ⟨a, hs, ha⟩
    cases a with
    | calls e₀ =>
      cases ha
      rw [Mood.behind_map]
      exact h.calls hp hs
    | _ => cases ha
  answer := h.answer
  cancel := h.cancel

end Voice

end ResumeOnce.Network

import Mathlib.Data.List.Basic
import Mathlib.Logic.Function.Basic
import ResumeOnce.Proofs.Run
import ResumeOnce.Slot

/-!
# The audience of a slot

Any number of futures ask one slot for its answer, each with polls of its own, while the answer
arrives. A poll looks for the answer, asks whether it was taken, leaves its waker, looks again
and asks again; one that has found the answer stores that it is taken, and wakes whoever is
there. The arrival fills the slot, and then wakes whoever is there. Each of these accesses is one
step, and the steps of all come in any order.

* `Audience.Step`: one access, with what is told of it;
* `Audience.poll_undisturbed`, `Audience.complete_undisturbed`: with nobody in between, the
  accesses come to `Slot.poll` and `Slot.complete`;
* `Audience.Traced`: where the answer is, in the slot, in the hand of a poll, or taken.
-/

namespace ResumeOnce

namespace Slot

variable {ω : Type u} {α : Type v}

/-- The slot without its answer, and the answer. -/
def pop (s : Slot ω α) : Slot ω α × Option (Outcome α) := ({ s with result := none }, s.result)

/-- The slot with an answer, unless there is one. -/
def fill (s : Slot ω α) (answer : Outcome α) : Slot ω α :=
  { s with result := s.result.orElse fun _ => some answer }

/-- The slot with a waker, in place of the one before. -/
def leave (s : Slot ω α) (waker : ω) : Slot ω α := { s with waker := some waker }

/-- The slot whose answer is known to be taken. -/
def store (s : Slot ω α) : Slot ω α := { s with taken := true }

section Polls

variable {s : Slot ω α} {r : Outcome α}

@[simp]
theorem takeWaker_result (s : Slot ω α) : s.takeWaker.1.result = s.result := rfl

@[simp]
theorem store_result (s : Slot ω α) : s.store.result = s.result := rfl

@[simp]
theorem takeWaker_taken (s : Slot ω α) : s.takeWaker.1.taken = s.taken := rfl

theorem pop_of_none (h : s.result = none) : s.pop = (s, none) := by
  rcases s with ⟨_, taken, waker⟩
  cases h
  rfl

theorem poll_of_none (h : s.result = none) (ht : s.taken = false) (k : ω) :
    s.poll k = (s.leave k, none, .pending) := by
  rcases s with ⟨_, _, waker⟩
  cases h
  cases ht
  rfl

theorem poll_of_taken (h : s.result = none) (ht : s.taken = true) (k : ω) :
    s.poll k = (s, none, .ready (.error takenFault)) := by
  rcases s with ⟨_, _, waker⟩
  cases h
  cases ht
  rfl

theorem poll_of_some (h : s.result = some r) (k : ω) :
    s.poll k = (s.pop.1.store.takeWaker.1, s.pop.1.store.takeWaker.2, .ready r) := by
  rcases s with ⟨_, taken, waker⟩
  cases h
  rfl

end Polls

end Slot

namespace Audience

/-- Where a future is with its polls: between two of them, or at the next access of one. -/
inductive Stage (ω : Type u) (α : Type v) where
  | idle
  | looking (again : Bool) (waker : ω)
  | asking (again : Bool) (waker : ω)
  | leaving (waker : ω)
  | storing (answer : Outcome α)
  | passing (answer : Outcome α)
  /-- The last poll was told to wait. -/
  | waiting (waker : ω)
  /-- The last poll was told an answer. -/
  | ended

/-- No poll is under way. -/
def Stage.Rests : Stage ω α → Prop
  | idle | waiting _ | ended => True
  | _ => False

/-- Whether the future has the answer in hand. -/
def Stage.Holds : Stage ω α → Prop
  | storing _ | passing _ => True
  | _ => False

theorem Stage.Rests.not_holds {x : Stage ω α} (h : x.Rests) : ¬ x.Holds := by
  cases x with
  | storing | passing => cases h
  | _ => exact id

/-- How many accesses a poll has ahead of it, at most. -/
def Stage.ahead : Stage ω α → Nat
  | looking false _ => 7
  | asking false _ => 6
  | leaving _ => 5
  | looking true _ => 4
  | asking true _ => 3
  | storing _ => 2
  | passing _ => 1
  | _ => 0

/-- How far the arrival of the answer is. -/
inductive Arrival where
  | before
  | filled
  | over
  deriving DecidableEq

/-- What a future does at an access. -/
inductive Deed (ω : Type u) (α : Type v) where
  | began (waker : ω)
  | found (answer : Outcome α)
  | left (waker : ω)
  /-- A poll that has found the answer wakes whoever is there, and returns with it. -/
  | passed (woken : Option ω) (answer : Outcome α)
  /-- A poll that has not found the answer returns. -/
  | told (result : Poll (Outcome α))
  | went

/-- One access of a future to the slot: what it does, the slot behind it, and how it goes on. -/
inductive Access (s : Slot ω α) : Stage ω α → Deed ω α → Slot ω α → Stage ω α → Prop
  | begin {x : Stage ω α} (h : x.Rests) (k : ω) : Access s x (.began k) s (.looking false k)
  | find {again : Bool} {k : ω} {r : Outcome α} (hr : s.pop.2 = some r) :
    Access s (.looking again k) (.found r) s.pop.1 (.storing r)
  | miss {again : Bool} {k : ω} (hr : s.pop.2 = none) :
    Access s (.looking again k) .went s.pop.1 (.asking again k)
  | late {again : Bool} {k : ω} (ht : s.taken = true) :
    Access s (.asking again k) (.told (.ready (.error Slot.takenFault))) s .ended
  | stay {k : ω} (ht : s.taken = false) : Access s (.asking false k) .went s (.leaving k)
  | leave {k : ω} : Access s (.leaving k) (.left k) (s.leave k) (.looking true k)
  | wait {k : ω} (ht : s.taken = false) :
    Access s (.asking true k) (.told .pending) s (.waiting k)
  | store {r : Outcome α} : Access s (.storing r) .went s.store (.passing r)
  | pass {r : Outcome α} :
    Access s (.passing r) (.passed s.takeWaker.2 r) s.takeWaker.1 .ended

/-- A look at a slot without an answer leaves it as it is. -/
theorem Access.miss_of_none {s : Slot ω α} {again : Bool} {k : ω} (hr : s.result = none) :
    Access s (.looking again k) .went s (.asking again k) := by
  have h : Access s (.looking again k) .went s.pop.1 (.asking again k) := .miss hr
  rwa [Slot.pop_of_none hr] at h

/-- What a poll returns with a deed. -/
def Deed.returns : Deed ω α → Option (Poll (Outcome α))
  | passed _ r => some (.ready r)
  | told p => some p
  | _ => none

/-- What happens: the answer arrives, or a future does something. -/
inductive Event (ι : Type w) (ω : Type u) (α : Type v) where
  | filled (answer : Outcome α)
  | roused (woken : Option ω)
  | did (i : ι) (d : Deed ω α)

namespace Event

variable {ι : Type w} {ω : Type u} {α : Type v}

/-- Whom an event wakes. -/
def wakes : Event ι ω α → Option ω
  | roused k => k
  | did _ (.passed k _) => k
  | _ => none

/-- What a poll returns. -/
def returns : Event ι ω α → Option (Poll (Outcome α))
  | did _ d => d.returns
  | _ => none

/-- Who leaves a waker. -/
def left? : Event ι ω α → Option ι
  | did i (.left _) => some i
  | _ => none

/-- Who finds the answer. -/
def found? : Event ι ω α → Option ι
  | did i (.found _) => some i
  | _ => none

end Event

end Audience

/-- A slot, the arrival of its answer, and the futures that ask for it. -/
structure Audience (ι : Type w) (ω : Type u) (α : Type v) where
  slot : Slot ω α
  arrival : Audience.Arrival
  stage : ι → Audience.Stage ω α

namespace Audience

variable {ι : Type w} {ω : Type u} {α : Type v} {s s' : Audience ι ω α}
  {t : List (Event ι ω α)} {e : Event ι ω α} {i j : ι} {k : ω} {r : Outcome α}

/-- Nobody has polled yet. -/
def new : Audience ι ω α := ⟨.new, .before, fun _ => .idle⟩

section Steps

variable [DecidableEq ι]

/-- A future goes on, with the slot as it is then. -/
def go (s : Audience ι ω α) (i : ι) (slot : Slot ω α) (x : Stage ω α) : Audience ι ω α :=
  { s with slot, stage := Function.update s.stage i x }

/-- One access to the slot, with what is told of it. -/
inductive Step (s : Audience ι ω α) : Event ι ω α → Audience ι ω α → Prop
  | fill (r : Outcome α) (h : s.arrival = .before) :
    Step s (.filled r) { s with slot := s.slot.fill r, arrival := .filled }
  | rouse (h : s.arrival = .filled) :
    Step s (.roused s.slot.takeWaker.2) { s with slot := s.slot.takeWaker.1, arrival := .over }
  | access {i : ι} {d : Deed ω α} {slot : Slot ω α} {x : Stage ω α}
      (h : Access s.slot (s.stage i) d slot x) : Step s (.did i d) (s.go i slot x)

/-! ## Nobody in between -/

@[simp]
theorem go_stage_self (s : Audience ι ω α) (i : ι) (slot : Slot ω α) (x : Stage ω α) :
    (s.go i slot x).stage i = x := Function.update_self ..

@[simp]
theorem go_stage_of_ne (h : j ≠ i) (slot : Slot ω α) (x : Stage ω α) :
    (s.go i slot x).stage j = s.stage j := Function.update_of_ne h ..

@[simp]
theorem go_go (s : Audience ι ω α) (i : ι) (slot slot' : Slot ω α) (x x' : Stage ω α) :
    (s.go i slot x).go i slot' x' = s.go i slot' x' := by
  rw [go, go, go, Function.update_idem]

@[simp]
theorem go_slot (s : Audience ι ω α) (i : ι) (slot : Slot ω α) (x : Stage ω α) :
    (s.go i slot x).slot = slot := rfl

@[simp]
theorem go_arrival (s : Audience ι ω α) (i : ι) (slot : Slot ω α) (x : Stage ω α) :
    (s.go i slot x).arrival = s.arrival := rfl

/-- A stage behind a step is that of the future that took it, or an old one. -/
theorem go_stage_eq {slot : Slot ω α} {x y : Stage ω α} (h : (s.go i slot x).stage j = y) :
    j = i ∧ x = y ∨ s.stage j = y := by
  by_cases hj : j = i
  · subst hj
    exact .inl ⟨rfl, (go_stage_self ..).symm.trans h⟩
  · exact .inr ((go_stage_of_ne hj ..).symm.trans h)

/-- A future goes on from where it is. -/
theorem go_step {slot slot' : Slot ω α} {x y : Stage ω α} {d : Deed ω α}
    (h : Access slot x d slot' y) : Step (s.go i slot x) (.did i d) (s.go i slot' y) := by
  have hs : Step (s.go i slot x) (.did i d) ((s.go i slot x).go i slot' y) :=
    .access (by rwa [go_stage_self])
  rwa [go_go] at hs

/-- How a future rests behind a poll. -/
def Stage.behind (k : ω) : Poll (Outcome α) → Stage ω α
  | .pending => .waiting k
  | .ready _ => .ended

/-- A poll with nobody in between does to the slot what it is said to do, wakes whom it is said
    to wake, and returns what it is said to return. -/
theorem poll_undisturbed (h : (s.stage i).Rests) (k : ω) :
    ∃ t, Run Step s t (s.go i (s.slot.poll k).1 (.behind k (s.slot.poll k).2.2)) ∧
      t.filterMap Event.wakes = (s.slot.poll k).2.1.toList ∧
      t.filterMap Event.returns = [(s.slot.poll k).2.2] := by
  have began : Run Step s [.did i (.began k)] (s.go i s.slot (.looking false k)) :=
    Run.nil.snoc (.access (.begin h k))
  rcases hr : s.slot.result with _ | r
  · have asking := began.snoc (go_step (.miss_of_none hr))
    rcases ht : s.slot.taken with _ | _
    · have left := asking.snoc (go_step (.stay ht)) |>.snoc (go_step .leave)
      have again := left.snoc (go_step (.miss_of_none hr))
      rw [Slot.poll_of_none hr ht]
      exact ⟨_, again.snoc (go_step (.wait ht)), rfl, rfl⟩
    · rw [Slot.poll_of_taken hr ht]
      exact ⟨_, asking.snoc (go_step (.late ht)), rfl, rfl⟩
  · have passing := began.snoc (go_step (.find hr)) |>.snoc (go_step .store)
    rw [Slot.poll_of_some hr]
    refine ⟨_, passing.snoc (go_step .pass), ?_, rfl⟩
    generalize s.slot.pop.1.store.takeWaker.2 = woken
    cases woken <;> rfl

/-- So does the arrival of the answer. -/
theorem complete_undisturbed (h : s.arrival = .before) (r : Outcome α) :
    Run Step s [.filled r, .roused (s.slot.complete r).2]
      { s with slot := (s.slot.complete r).1, arrival := .over } :=
  (Run.nil.snoc (.fill r h)).snoc (.rouse rfl)

end Steps

/-! ## What an access does -/

namespace Access

variable {slot slot' : Slot ω α} {x y : Stage ω α} {d : Deed ω α} (h : Access slot x d slot' y)
include h

/-- Whoever finds the answer empties the slot; nobody else touches it. -/
theorem result : slot'.result =
    match d with
    | .found _ => none
    | _ => slot.result := by
  cases h with
  | miss hr => exact hr.symm
  | _ => rfl

theorem waker : slot'.waker =
    match d with
    | .left k => some k
    | .passed _ _ => none
    | _ => slot.waker := by
  cases h <;> rfl

/-- What was taken stays so; it is whoever has found the answer that stores it. -/
theorem taken : slot'.taken = slot.taken ∨ slot'.taken = true ∧ ∃ r, x = .storing r := by
  cases h with
  | store => exact .inr ⟨rfl, _, rfl⟩
  | _ => exact .inl rfl

end Access

/-- An access that has nothing to do with the answer. -/
structure Plain (slot : Slot ω α) (x : Stage ω α) (d : Deed ω α) (slot' : Slot ω α)
    (y : Stage ω α) : Prop where
  result : slot'.result = slot.result
  taken : slot'.taken = slot.taken
  holds : ¬ x.Holds
  stays : ¬ y.Holds
  found : ∀ r, d ≠ .found r
  passed : ∀ k r, d ≠ .passed k r

/-- The answer is found, stored and passed on; every other access is plain. -/
theorem Access.kinds {slot slot' : Slot ω α} {x y : Stage ω α} {d : Deed ω α}
    (h : Access slot x d slot' y) :
    (∃ r, d = .found r ∧ slot.result = some r ∧ slot' = slot.pop.1 ∧ y = .storing r) ∨
    (∃ r, x = .storing r ∧ d = .went ∧ slot' = slot.store ∧ y = .passing r) ∨
    (∃ r, x = .passing r ∧ d = .passed slot.takeWaker.2 r ∧ slot' = slot.takeWaker.1 ∧
      y = .ended) ∨ Plain slot x d slot' y := by
  cases h with
  | find hr => exact .inl ⟨_, rfl, hr, rfl, rfl⟩
  | store => exact .inr (.inl ⟨_, rfl, rfl, rfl, rfl⟩)
  | pass => exact .inr (.inr (.inl ⟨_, rfl, rfl, rfl, rfl⟩))
  | begin hx k => exact .inr (.inr (.inr ⟨rfl, rfl, hx.not_holds, id, nofun, nofun⟩))
  | miss hr => exact .inr (.inr (.inr ⟨hr.symm, rfl, id, id, nofun, nofun⟩))
  | _ => exact .inr (.inr (.inr ⟨rfl, rfl, id, id, nofun, nofun⟩))

/-! ## Where the answer is -/

/-- The answer is in the slot until somebody finds it, which happens once. Whoever has found it
    has it in hand until it is known to be taken. -/
structure Traced (t : List (Event ι ω α)) (s : Audience ι ω α) : Prop where
  filled : (∃ r, .filled r ∈ t) ↔ s.arrival ≠ .before
  result : ∀ r, s.slot.result = some r → .filled r ∈ t ∧ ∀ i r', .did i (.found r') ∉ t
  found : ∀ i r, .did i (.found r) ∈ t → .filled r ∈ t ∧ s.slot.result = none
  once : (t.filterMap Event.found?).length ≤ 1
  storing : ∀ i r, s.stage i = .storing r → .did i (.found r) ∈ t
  passing : ∀ i r, s.stage i = .passing r → .did i (.found r) ∈ t ∧ s.slot.taken = true
  passed : ∀ i k r, .did i (.passed k r) ∈ t → .did i (.found r) ∈ t ∧ s.slot.taken = true
  taken : s.slot.taken = true → ∃ i r, .did i (.found r) ∈ t
  place : s.arrival ≠ .before →
    s.slot.result.isSome ∨ (∃ i r, s.stage i = .storing r) ∨ s.slot.taken = true

/-- Where nothing was found, nobody is listed as a finder. -/
theorem finders_of_not_found (h : ∀ i r, .did i (.found r) ∉ t) :
    t.filterMap Event.found? = [] := by
  rw [List.filterMap_eq_nil_iff]
  intro e he
  rcases e with _ | _ | ⟨i, d⟩
  · rfl
  · rfl
  · cases d with
    | found r => exact absurd he (h i r)
    | _ => rfl

theorem finders_concat_of_none (he : e.found? = none) :
    (t ++ [e]).filterMap Event.found? = t.filterMap Event.found? := by
  rw [List.filterMap_append, List.filterMap_cons_none he, List.filterMap_nil, List.append_nil]

namespace Traced

theorem new : Traced [] (.new : Audience ι ω α) where
  filled := ⟨by simp, fun h => absurd rfl h⟩
  result := by rintro _ ⟨⟩
  found := by simp
  once := Nat.zero_le 1
  storing := by rintro _ _ ⟨⟩
  passing := by rintro _ _ ⟨⟩
  passed := by simp
  taken := by rintro ⟨⟩
  place := fun h => absurd rfl h

/-- Before the answer arrives it is nowhere. -/
theorem before (h : Traced t s) (ha : s.arrival = .before) :
    s.slot.result = none ∧ ∀ i r, .did i (.found r) ∉ t := by
  have hn : ∀ r, .filled r ∉ t := fun r hr => h.filled.1 ⟨r, hr⟩ ha
  refine ⟨?_, fun i r hf => hn r (h.found i r hf).1⟩
  rcases hr : s.slot.result with _ | r
  · rfl
  · exact absurd (h.result r hr).1 (hn r)

theorem fill (h : Traced t s) (r : Outcome α) (ha : s.arrival = .before) :
    Traced (t ++ [.filled r]) { s with slot := s.slot.fill r, arrival := .filled } := by
  obtain ⟨hr, hn⟩ := h.before ha
  have hf : (s.slot.fill r).result = some r := by rw [Slot.fill, hr]; rfl
  constructor
  · simp
  · rintro r' hr'
    rw [hf] at hr'
    cases hr'
    exact ⟨by simp, by simpa using hn⟩
  · intro i r' hm
    exact absurd (by simpa using hm) (hn i r')
  · rw [List.filterMap_append, finders_of_not_found hn]
    exact Nat.zero_le 1
  · exact fun i r' hs => absurd (h.storing i r' hs) (hn i r')
  · exact fun i r' hs => absurd (h.passing i r' hs).1 (hn i r')
  · intro i k r' hm
    exact absurd (h.passed i k r' (by simpa using hm)).1 (hn i r')
  · intro ht
    obtain ⟨i, r', hm⟩ := h.taken ht
    exact absurd hm (hn i r')
  · exact fun _ => .inl (by rw [hf]; rfl)

theorem rouse (h : Traced t s) (ha : s.arrival = .filled) (k : Option ω) :
    Traced (t ++ [.roused k]) { s with slot := s.slot.takeWaker.1, arrival := .over } := by
  have hb : s.arrival ≠ .before := by rw [ha]; nofun
  constructor
  · simpa using h.filled.2 hb
  · simpa using h.result
  · simpa using h.found
  · rw [finders_concat_of_none rfl]
    exact h.once
  · simpa using h.storing
  · simpa using h.passing
  · simpa using h.passed
  · simpa using h.taken
  · exact fun _ => h.place hb

section Accesses

variable [DecidableEq ι] (h : Traced t s)
include h

/-- A future finds the answer. -/
theorem find (hr : s.slot.result = some r) :
    Traced (t ++ [.did i (.found r)]) (s.go i s.slot.pop.1 (.storing r)) := by
  obtain ⟨hf, hn⟩ := h.result r hr
  have ht : s.slot.taken ≠ true := by
    intro ht
    obtain ⟨j, r', hm⟩ := h.taken ht
    exact hn j r' hm
  constructor
  · simpa using h.filled
  · rintro r' ⟨⟩
  · intro j r' hm
    rcases List.mem_append.1 hm with hm | hm
    · exact absurd hm (hn j r')
    · cases List.mem_singleton.1 hm
      exact ⟨List.mem_append_left _ hf, rfl⟩
  · rw [List.filterMap_append, finders_of_not_found hn]
    exact Nat.le_refl 1
  · intro j r' hs
    rcases go_stage_eq hs with ⟨rfl, hx⟩ | hs
    · cases hx
      simp
    · exact absurd (h.storing j r' hs) (hn j r')
  · intro j r' hs
    rcases go_stage_eq hs with ⟨rfl, hx⟩ | hs
    · cases hx
    · exact absurd (h.passing j r' hs).1 (hn j r')
  · intro j k r' hm
    exact absurd (h.passed j k r' (by simpa using hm)).2 ht
  · exact fun ht' => absurd ht' ht
  · exact fun _ => .inr (.inl ⟨i, r, go_stage_self ..⟩)

/-- A future that has found the answer stores that it is taken. -/
theorem store (hi : s.stage i = .storing r) :
    Traced (t ++ [.did i .went]) (s.go i s.slot.store (.passing r)) := by
  have hf := h.storing i r hi
  constructor
  · simpa using h.filled
  · intro r' hr'
    exact absurd hf ((h.result r' hr').2 i r)
  · simpa using h.found
  · rw [finders_concat_of_none rfl]
    exact h.once
  · intro j r' hs
    rcases go_stage_eq hs with ⟨-, hx⟩ | hs
    · cases hx
    · simpa using h.storing j r' hs
  · intro j r' hs
    rcases go_stage_eq hs with ⟨rfl, hx⟩ | hs
    · cases hx
      exact ⟨by simpa using hf, rfl⟩
    · exact ⟨by simpa using (h.passing j r' hs).1, rfl⟩
  · intro j k r' hm
    exact ⟨by simpa using (h.passed j k r' (by simpa using hm)).1, rfl⟩
  · exact fun _ => ⟨i, r, by simpa using hf⟩
  · exact fun _ => .inr (.inr rfl)

/-- And passes on. -/
theorem pass (hi : s.stage i = .passing r) (k : Option ω) :
    Traced (t ++ [.did i (.passed k r)]) (s.go i s.slot.takeWaker.1 .ended) := by
  obtain ⟨hf, ht⟩ := h.passing i r hi
  constructor
  · simpa using h.filled
  · simpa using h.result
  · simpa using h.found
  · rw [finders_concat_of_none rfl]
    exact h.once
  · intro j r' hs
    rcases go_stage_eq hs with ⟨-, hx⟩ | hs
    · cases hx
    · simpa using h.storing j r' hs
  · intro j r' hs
    rcases go_stage_eq hs with ⟨-, hx⟩ | hs
    · cases hx
    · simpa using h.passing j r' hs
  · intro j k' r' hm
    rcases List.mem_append.1 hm with hm | hm
    · simpa using h.passed j k' r' hm
    · cases List.mem_singleton.1 hm
      exact ⟨by simpa using hf, ht⟩
  · simpa using h.taken
  · exact fun _ => .inr (.inr ht)

/-- Whatever else a future does, the answer stays where it is. -/
theorem plain {d : Deed ω α} {slot : Slot ω α} {x : Stage ω α}
    (hp : Plain s.slot (s.stage i) d slot x) : Traced (t ++ [.did i d]) (s.go i slot x) := by
  have hd (j : ι) (c : Deed ω α) (hc : c ≠ d) :
      .did j c ∈ t ++ [.did i d] ↔ .did j c ∈ t := by
    simp [hc]
  have hfound (j : ι) (r : Outcome α) := hd j (.found r) fun hc => hp.found r hc.symm
  have hpassed (j : ι) (k : Option ω) (r : Outcome α) :=
    hd j (.passed k r) fun hc => hp.passed k r hc.symm
  constructor
  · simpa using h.filled
  · simpa only [go_slot, hp.result, hfound, List.mem_append, List.mem_singleton, reduceCtorEq,
      or_false] using h.result
  · simpa only [go_slot, hp.result, hfound, List.mem_append, List.mem_singleton, reduceCtorEq,
      or_false] using h.found
  · rw [finders_concat_of_none]
    · exact h.once
    · cases d with
      | found r => exact absurd rfl (hp.found r)
      | _ => rfl
  · intro j r hs
    rcases go_stage_eq hs with ⟨-, hx⟩ | hs
    · subst hx
      exact absurd trivial hp.stays
    · exact (hfound j r).2 (h.storing j r hs)
  · intro j r hs
    rcases go_stage_eq hs with ⟨-, hx⟩ | hs
    · subst hx
      exact absurd trivial hp.stays
    · rw [go_slot, hp.taken, hfound]
      exact h.passing j r hs
  · intro j k r hm
    rw [go_slot, hp.taken, hfound]
    exact h.passed j k r ((hpassed j k r).1 hm)
  · simpa only [go_slot, hp.taken, hfound] using h.taken
  · intro hb
    rw [go_slot, hp.result, hp.taken]
    rcases h.place hb with hr | ⟨j, r, hs⟩ | ht
    · exact .inl hr
    · refine .inr (.inl ⟨j, r, ?_⟩)
      rw [go_stage_of_ne, hs]
      rintro rfl
      exact hp.holds (hs ▸ trivial)
    · exact .inr (.inr ht)

/-- The answer is traced through every step. -/
theorem step (he : Step s e s') : Traced (t ++ [e]) s' := by
  cases he with
  | fill r ha => exact h.fill r ha
  | rouse ha => exact h.rouse ha _
  | @access i d slot x ha =>
    obtain ⟨r, rfl, hr, rfl, rfl⟩ | ⟨r, hi, rfl, rfl, rfl⟩ | ⟨r, hi, rfl, rfl, rfl⟩ | hp := ha.kinds
    · exact h.find hr
    · exact h.store hi
    · exact h.pass hi _
    · exact h.plain hp

end Accesses

end Traced

end Audience

end ResumeOnce

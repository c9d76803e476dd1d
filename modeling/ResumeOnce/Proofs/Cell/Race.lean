import Mathlib.Logic.Function.Basic
import ResumeOnce.Cell
import ResumeOnce.Proofs.Run

/-!
# Races for a cell

Any number of updates race for one cell. A snapshot lies at a place of the memory, and the cell
points there. An update looks (it gets a reference to the current snapshot), calls its decision on
what it finds at that place, and then swaps: if the cell still points to the place that it looked
at, the cell is made to point to the next snapshot instead, and otherwise the update looks again.
Steps of others come in between, also those of updates that a decision makes itself.

Places are used again. All that is known of the place of the next snapshot is that nobody refers to
it any more, so whether a place alone tells a snapshot apart is something to prove (`Sound.swaps`).

* `Race`, `Race.Step`: the memory, the updates and what they do, one step at a time;
* `history`, `looks`, `calls`: what was put in place, and what was found and decided;
* `Sound`: what lies at the places that somebody refers to.
-/

namespace ResumeOnce

/-- A reference to a snapshot: the place where it lies, and the cell when it was taken. -/
structure Reference (σ : Type u) where
  place : Nat
  seen : Cell σ

namespace Race

/-- How far an update is, and how many of its swaps were lost. -/
inductive Stage (σ : Type u) (ρ : Type v) where
  | looking (lost : Nat)
  | deciding (lost : Nat) (ref : Reference σ)
  | swapping (lost : Nat) (ref : Reference σ) (next : σ) (outcome : ρ)
  | returned (lost : Nat) (outcome : ρ)

namespace Stage

variable {σ : Type u} {ρ : Type v}

/-- The reference that an update holds. -/
def ref? : Stage σ ρ → Option (Reference σ)
  | deciding _ a => some a
  | swapping _ a _ _ => some a
  | _ => none

/-- The number of swaps that were lost. -/
def lost : Stage σ ρ → Nat
  | looking k => k
  | deciding k _ => k
  | swapping k _ _ _ => k
  | returned k _ => k

/-- How an update goes on once it has decided. -/
def decided (k : Nat) (a : Reference σ) : Decision σ ρ → Stage σ ρ
  | .commit next r => swapping k a next r
  | .abort r => returned k r

end Stage

/-- A swap that was won: by which update, behind how many lost ones, and the next snapshot. -/
structure Win (σ : Type u) where
  update : Nat
  lost : Nat
  next : σ

/-- What happens. Updates have numbers, and so have the references that are kept outside of them. -/
inductive Event (σ : Type u) (ρ : Type v) where
  | looked (n : Nat) (seen : Cell σ)
  | called (n : Nat) (y : σ) (d : Decision σ ρ)
  | won (w : Win σ)
  | lost (n : Nat)
  | took (h : Nat) (seen : Cell σ)
  | dropped (h : Nat)

namespace Event

variable {σ : Type u} {ρ : Type v}

/-- The update by which something happens. -/
def update? : Event σ ρ → Option Nat
  | looked n _ => some n
  | called n _ _ => some n
  | won w => some w.update
  | lost n => some n
  | _ => none

/-- The swap that is won. -/
def win? : Event σ ρ → Option (Win σ)
  | won w => some w
  | _ => none

/-- The cell that an update finds when it looks. -/
def look? : Event σ ρ → Option (Cell σ)
  | looked _ c => some c
  | _ => none

/-- The snapshot on which a decision is called, and what it decides. -/
def call? : Event σ ρ → Option (σ × Decision σ ρ)
  | called _ y d => some (y, d)
  | _ => none

/-- Whether a swap is lost. -/
def isLost : Event σ ρ → Bool
  | lost _ => true
  | _ => false

end Event

end Race

/-- A memory with a cell in it for which updates race, and the references kept outside of them. -/
structure Race (σ : Type u) (ρ : Type v) where
  memory : Nat → σ
  current : Nat
  version : Nat
  stage : Nat → Race.Stage σ ρ
  kept : Nat → Option (Reference σ)

namespace Race

variable {σ : Type u} {ρ : Type v}

/-- The cell, without regard to where its snapshot lies. -/
def cell (s : Race σ ρ) : Cell σ := ⟨s.memory s.current, s.version⟩

/-- A reference to the current snapshot. -/
def ref (s : Race σ ρ) : Reference σ := ⟨s.current, s.cell⟩

/-- Nothing was done yet. -/
def new (x : σ) : Race σ ρ := ⟨fun _ => x, 0, 0, fun _ => .looking 0, fun _ => none⟩

/-- Somebody holds the reference. -/
def Holds (s : Race σ ρ) (a : Reference σ) : Prop :=
  (∃ n, (s.stage n).ref? = some a) ∨ ∃ h, s.kept h = some a

/-- Nobody refers to the place. -/
def Free (s : Race σ ρ) (p : Nat) : Prop := s.current ≠ p ∧ ∀ a, s.Holds a → a.place ≠ p

/-- An update goes on. -/
def advance (s : Race σ ρ) (n : Nat) (st : Stage σ ρ) : Race σ ρ :=
  { s with stage := Function.update s.stage n st }

/-- The next snapshot is put at a place, and the cell is made to point there. -/
def commit (s : Race σ ρ) (p : Nat) (next : σ) : Race σ ρ :=
  { s with memory := Function.update s.memory p next, current := p, version := s.version + 1 }

/-- A reference is kept, or let go. -/
def keep (s : Race σ ρ) (h : Nat) (a : Option (Reference σ)) : Race σ ρ :=
  { s with kept := Function.update s.kept h a }

/-- What is done next. Decisions may differ from update to update and from call to call. -/
inductive Step (decide : Nat → Nat → σ → Decision σ ρ) : Race σ ρ → Event σ ρ → Race σ ρ → Prop
  | look {s : Race σ ρ} {n k : Nat} (hn : s.stage n = .looking k) :
      Step decide s (.looked n s.cell) (s.advance n (.deciding k s.ref))
  | call {s : Race σ ρ} {n k : Nat} {a : Reference σ} (hn : s.stage n = .deciding k a) :
      Step decide s (.called n (s.memory a.place) (decide n k (s.memory a.place)))
        (s.advance n (.decided k a (decide n k (s.memory a.place))))
  | win {s : Race σ ρ} {n k p : Nat} {a : Reference σ} {next : σ} {r : ρ}
      (hn : s.stage n = .swapping k a next r) (ha : s.current = a.place) (hp : s.Free p) :
      Step decide s (.won ⟨n, k, next⟩) ((s.commit p next).advance n (.returned k r))
  | lose {s : Race σ ρ} {n k : Nat} {a : Reference σ} {next : σ} {r : ρ}
      (hn : s.stage n = .swapping k a next r) (ha : s.current ≠ a.place) :
      Step decide s (.lost n) (s.advance n (.looking (k + 1)))
  | take {s : Race σ ρ} {h : Nat} (hh : s.kept h = none) :
      Step decide s (.took h s.cell) (s.keep h (some s.ref))
  | drop {s : Race σ ρ} (h : Nat) : Step decide s (.dropped h) (s.keep h none)

variable {decide : Nat → Nat → σ → Decision σ ρ} {x : σ} {s s' : Race σ ρ} {e : Event σ ρ}
  {t t' : List (Event σ ρ)} {n m k : Nat} {a : Reference σ}

/-! ## What is told of a run -/

/-- The swaps that were won, in order. -/
def wins (t : List (Event σ ρ)) : List (Win σ) := t.filterMap Event.win?

/-- The snapshots that the cell has held, in order. -/
def history (x : σ) (t : List (Event σ ρ)) : List σ := x :: (wins t).map Win.next

/-- What an update does. -/
def own (n : Nat) (t : List (Event σ ρ)) : List (Event σ ρ) := t.filter (·.update? = some n)

/-- What is found by looking, one time after another. -/
def looks (t : List (Event σ ρ)) : List (Cell σ) := t.filterMap Event.look?

/-- The calls of decisions: the snapshot, and what was decided on it. -/
def calls (t : List (Event σ ρ)) : List (σ × Decision σ ρ) := t.filterMap Event.call?

/-- How many swaps were lost. -/
def losses (t : List (Event σ ρ)) : Nat := t.countP Event.isLost

theorem wins_append : wins (t ++ t') = wins t ++ wins t' := List.filterMap_append

theorem looks_append : looks (t ++ t') = looks t ++ looks t' := List.filterMap_append

theorem calls_append : calls (t ++ t') = calls t ++ calls t' := List.filterMap_append

@[simp]
theorem calls_looked (n : Nat) (c : Cell σ) : calls [(.looked n c : Event σ ρ)] = [] := rfl

@[simp]
theorem calls_won (w : Win σ) : calls [(.won w : Event σ ρ)] = [] := rfl

@[simp]
theorem calls_lost (n : Nat) : calls [(.lost n : Event σ ρ)] = [] := rfl

theorem losses_append : losses (t ++ t') = losses t + losses t' := List.countP_append

theorem own_append : own n (t ++ t') = own n t ++ own n t' := List.filter_append ..

theorem own_of_eq (he : e.update? = some n) : own n (t ++ [e]) = own n t ++ [e] := by
  rw [own_append]
  exact congrArg _ (List.filter_eq_self.2 (by simpa using he))

theorem own_of_ne (he : e.update? ≠ some n) : own n (t ++ [e]) = own n t := by
  have hn : own n [e] = [] := List.filter_eq_nil_iff.2 (by simpa using he)
  rw [own_append, hn, List.append_nil]

/-- A swap is won by the update that it tells of. -/
theorem update?_of_win? {w : Win σ} (he : e.win? = some w) : e.update? = some w.update := by
  cases e <;> cases he
  rfl

theorem mem_wins_own {w : Win σ} : w ∈ wins (own w.update t) ↔ w ∈ wins t := by
  simp only [wins, own, List.mem_filterMap, List.mem_filter, decide_eq_true_eq]
  exact ⟨fun ⟨e, he, hw⟩ => ⟨e, he.1, hw⟩, fun ⟨e, he, hw⟩ => ⟨e, ⟨he, update?_of_win? hw⟩, hw⟩⟩

theorem history_append : history x (t ++ t') = history x t ++ (wins t').map Win.next := by
  rw [history, wins_append, List.map_append]
  rfl

theorem length_history : (history x t).length = (wins t).length + 1 := by simp [history]

/-! ## What one step does -/

@[simp]
theorem stage_advance (s : Race σ ρ) (n : Nat) (st : Stage σ ρ) (m : Nat) :
    (s.advance n st).stage m = if m = n then st else s.stage m := Function.update_apply ..

@[simp]
theorem stage_commit (s : Race σ ρ) (p : Nat) (next : σ) : (s.commit p next).stage = s.stage := rfl

@[simp]
theorem stage_keep (s : Race σ ρ) (h : Nat) (a : Option (Reference σ)) :
    (s.keep h a).stage = s.stage := rfl

@[simp]
theorem cell_advance (s : Race σ ρ) (n : Nat) (st : Stage σ ρ) :
    (s.advance n st).cell = s.cell := rfl

@[simp]
theorem cell_commit (s : Race σ ρ) (p : Nat) (next : σ) :
    (s.commit p next).cell = s.cell.commit next := by
  simp [cell, commit, Cell.commit]

/-- Who does nothing stays where it is. -/
theorem Step.stage_of_ne (he : Step decide s e s') (hn : e.update? ≠ some n) :
    s'.stage n = s.stage n := by
  cases he with
  | take | drop => rfl
  | _ => simp_all [Event.update?, eq_comm]

theorem Step.version_le (he : Step decide s e s') : s.version ≤ s'.version := by
  cases he with
  | win => exact Nat.le_succ _
  | _ => exact Nat.le_refl _

/-- An update that has returned does nothing any more. -/
theorem Step.update?_ne (he : Step decide s e s') {r : ρ} (hn : s.stage n = .returned k r) :
    e.update? ≠ some n := by
  cases he <;> simp_all [Event.update?] <;> rintro rfl <;> simp_all

/-- Once an update has returned, nothing is heard of it. -/
theorem returned_run (h : Run (Step decide) s t s') {r : ρ} (hn : s.stage n = .returned k r) :
    s'.stage n = .returned k r ∧ ∀ e ∈ t, e.update? ≠ some n := by
  induction h with
  | nil => exact ⟨hn, fun e he => absurd he List.not_mem_nil⟩
  | snoc _ he ih =>
    refine ⟨(he.stage_of_ne (he.update?_ne ih.1)).trans ih.1, fun e' he' => ?_⟩
    rcases List.mem_append.1 he' with he' | he'
    · exact ih.2 e' he'
    · exact List.mem_singleton.1 he' ▸ he.update?_ne ih.1

/-- A reference that is kept is there until it is let go. -/
theorem kept_run (h : Run (Step decide) s t s') (hm : s.kept m = some a)
    (hd : .dropped m ∉ t) : s'.kept m = some a := by
  induction h with
  | nil => exact hm
  | snoc _ he ih =>
    have hk := ih fun h => hd (List.mem_append_left _ h)
    cases he with
    | @take h hh =>
      have hne : m ≠ h := by
        rintro rfl
        cases hk.symm.trans hh
      exact (Function.update_of_ne hne ..).trans hk
    | drop h =>
      have hne : m ≠ h := by
        rintro rfl
        exact hd (List.mem_append_right _ List.mem_cons_self)
      exact (Function.update_of_ne hne ..).trans hk
    | _ => exact hk

/-! ## What lies in the memory -/

theorem holds_of_advance {st : Stage σ ρ} (h : (s.advance n st).Holds a) :
    s.Holds a ∨ st.ref? = some a := by
  obtain ⟨m, hm⟩ | hk := h
  · by_cases hmn : m = n
    · exact .inr (by simpa [hmn] using hm)
    · exact .inl (.inl ⟨m, by simpa [hmn] using hm⟩)
  · exact .inl (.inr hk)

theorem holds_of_keep {b : Option (Reference σ)} (h : (s.keep m b).Holds a) :
    s.Holds a ∨ b = some a := by
  obtain hn | ⟨j, hj⟩ := h
  · exact .inl (.inl hn)
  · by_cases hjm : j = m
    · exact .inr (by simpa [keep, hjm] using hj)
    · exact .inl (.inr ⟨j, by simpa [keep, hjm] using hj⟩)

/-- What is known of a reference that somebody holds: the snapshot still lies there, and the cell
    points there as long as nothing else was put in place. -/
structure Holds.Valid (s : Race σ ρ) (a : Reference σ) : Prop where
  memory : s.memory a.place = a.seen.current
  version : a.seen.version ≤ s.version
  place : s.current = a.place ↔ a.seen.version = s.version

/-- What lies in the memory, behind a run. -/
structure Sound (t : List (Event σ ρ)) (s : Race σ ρ) : Prop where
  wins : (wins t).length = s.version
  refs : ∀ a, s.Holds a → Holds.Valid s a
  /-- Some place is free. -/
  room : ∃ p, s.current < p ∧ ∀ a, s.Holds a → a.place < p

theorem Sound.new : Sound [] (new x : Race σ ρ) where
  wins := rfl
  refs a := by rintro (⟨n, hn⟩ | ⟨h, hh⟩) <;> contradiction
  room := ⟨1, Nat.one_pos, by rintro a (⟨n, hn⟩ | ⟨h, hh⟩) <;> contradiction⟩

/-- A step that puts nothing in place and refers to nothing but the current snapshot. -/
theorem Sound.same (h : Sound t s) (hm : s'.memory = s.memory) (hc : s'.current = s.current)
    (hv : s'.version = s.version) (he : e.win? = none)
    (hr : ∀ a, s'.Holds a → s.Holds a ∨ a = s.ref) : Sound (t ++ [e]) s' where
  wins := by
    rw [wins_append, hv, ← h.wins]
    simp [Race.wins, he]
  refs a ha := by
    rcases hr a ha with ha | rfl
    · obtain ⟨h₁, h₂, h₃⟩ := h.refs a ha
      exact ⟨hm ▸ h₁, hv ▸ h₂, by rw [hc, hv, h₃]⟩
    · refine ⟨congrFun hm _, Nat.le_of_eq hv.symm, ?_⟩
      rw [hc, hv]
      exact iff_of_true rfl rfl
  room := by
    obtain ⟨p, hp, ha⟩ := h.room
    refine ⟨p, hc ▸ hp, fun a hs => ?_⟩
    rcases hr a hs with hs | rfl
    · exact ha a hs
    · exact hp

/-- The next snapshot is put at a place to which nobody refers, so that everybody still finds what
    was there. -/
theorem Sound.commit (h : Sound t s) {w : Win σ} {p : Nat} (hp : s.Free p) :
    Sound (t ++ [.won w]) (s.commit p w.next) where
  wins := by
    rw [wins_append, List.length_append, h.wins]
    rfl
  refs a ha := by
    have hne : a.place ≠ p := hp.2 a ha
    -- No reference is to the new place, and none has seen the new version.
    obtain ⟨h₁, h₂, -⟩ := h.refs a ha
    refine ⟨(Function.update_of_ne hne ..).trans h₁, Nat.le_succ_of_le h₂, iff_of_false hne.symm ?_⟩
    exact Nat.ne_of_lt (Nat.lt_succ_of_le h₂)
  room := by
    obtain ⟨q, hq, ha⟩ := h.room
    exact ⟨max q (p + 1), Nat.le_max_right ..,
      fun a hs => Nat.lt_of_lt_of_le (ha a hs) (Nat.le_max_left ..)⟩

theorem Sound.step (h : Sound t s) (he : Step decide s e s') : Sound (t ++ [e]) s' := by
  cases he with
  | look hn =>
    exact h.same rfl rfl rfl rfl fun a ha =>
      (holds_of_advance ha).imp_right fun ha => (Option.some.inj ha).symm
  | @call n k a hn =>
    -- Whoever has decided keeps the reference for the swap, or lets it go with an abort.
    refine h.same rfl rfl rfl rfl fun b hb => .inl ((holds_of_advance hb).elim id fun hb => ?_)
    cases hd : decide n k (s.memory a.place) <;> rw [hd] at hb
    · exact .inl ⟨n, by rw [hn]; exact hb⟩
    · contradiction
  | @win n k p a next r hn ha hp =>
    have hs := h.commit (w := ⟨n, k, next⟩) hp
    have hh : ∀ b, ((s.commit p next).advance n (.returned k r)).Holds b →
        (s.commit p next).Holds b := fun b hb => (holds_of_advance hb).resolve_right nofun
    obtain ⟨q, hq, hr⟩ := hs.room
    refine ⟨hs.wins, fun b hb => ?_, q, hq, fun b hb => hr b (hh b hb)⟩
    obtain ⟨h₁, h₂, h₃⟩ := hs.refs b (hh b hb)
    exact ⟨h₁, h₂, h₃⟩
  | lose hn ha =>
    exact h.same rfl rfl rfl rfl fun b hb => .inl ((holds_of_advance hb).resolve_right nofun)
  | take hh =>
    exact h.same rfl rfl rfl rfl fun b hb =>
      (holds_of_keep hb).imp_right fun hb => (Option.some.inj hb).symm
  | drop m =>
    exact h.same rfl rfl rfl rfl fun b hb => .inl ((holds_of_keep hb).resolve_right nofun)

theorem sound_run (h : Run (Step decide) (new x) t s) : Sound t s :=
  h.invariant .new fun h he => h.step he

/-- The place tells a snapshot apart from all others, equal ones included: the cell points to where
    an update has looked exactly if it is still the cell that the update has seen. -/
theorem Sound.swaps (h : Sound t s) (ha : s.Holds a) : s.current = a.place ↔ a.seen = s.cell := by
  obtain ⟨hm, -, hp⟩ := h.refs a ha
  refine ⟨fun hc => ?_, fun hc => hp.2 (congrArg Cell.version hc)⟩
  have hv := hp.1 hc
  obtain ⟨p, y, v⟩ := a
  obtain rfl : s.memory p = y := hm
  obtain rfl : s.current = p := hc
  obtain rfl : v = s.version := hv
  rfl

/-- There is always a place for the next snapshot. -/
theorem Sound.exists_free (h : Sound t s) : ∃ p, s.Free p := by
  obtain ⟨p, hp, ha⟩ := h.room
  exact ⟨p, Nat.ne_of_lt hp, fun a hs => Nat.ne_of_lt (ha a hs)⟩

end Race

end ResumeOnce

/-!
# Runs

A system moves by labelled steps; a run from a state is a sequence of steps, told by
its labels. What holds at the begin and is kept by every step, together with the
labels so far, holds all along every run (`Run.invariant`), and a run can be taken apart at
each of its steps (`Run.split`).
-/

namespace ResumeOnce

variable {σ : Type u} {ε : Type v} {step : σ → ε → σ → Prop} {s₀ : σ}

/-- The runs from a state: their labels in order, and where they lead. -/
inductive Run (step : σ → ε → σ → Prop) (s₀ : σ) : List ε → σ → Prop
  | nil : Run step s₀ [] s₀
  | snoc {t : List ε} {s s' : σ} {e : ε} : Run step s₀ t s → step s e s' →
      Run step s₀ (t ++ [e]) s'

/-- What holds at the begin and is kept by every step holds all along a run. -/
theorem Run.invariant {P : List ε → σ → Prop} (h₀ : P [] s₀)
    (hs : ∀ {t s e s'}, P t s → step s e s' → P (t ++ [e]) s') {t : List ε} {s : σ}
    (h : Run step s₀ t s) : P t s := by
  induction h with
  | nil => exact h₀
  | snoc _ he ih => exact hs ih he

/-- A run behind a step. -/
theorem Run.cons {s₁ s : σ} {e : ε} {t : List ε} (he : step s₀ e s₁) (h : Run step s₁ t s) :
    Run step s₀ (e :: t) s := by
  induction h with
  | nil => exact Run.nil.snoc he
  | snoc _ hs ih => exact ih.snoc hs

/-- A run behind a run. -/
theorem Run.append {t t' : List ε} {s s' : σ} (h : Run step s₀ t s) (h' : Run step s t' s') :
    Run step s₀ (t ++ t') s' := by
  induction h' with
  | nil => rwa [List.append_nil]
  | snoc _ hs ih =>
    rw [← List.append_assoc]
    exact ih.snoc hs

/-- A run of no step leads nowhere. -/
theorem Run.eq_of_nil {s : σ} (h : Run step s₀ [] s) : s = s₀ := by
  generalize ht : ([] : List ε) = t at h
  cases h with
  | nil => rfl
  | snoc hr hs => simp at ht

/-- What happens behind a step of a run is a run from where the step leads. -/
theorem Run.split {t t₁ t₂ : List ε} {e : ε} {s : σ} (h : Run step s₀ t s)
    (ht : t = t₁ ++ e :: t₂) :
    ∃ s₁ s₂, Run step s₀ t₁ s₁ ∧ step s₁ e s₂ ∧ Run step s₂ t₂ s := by
  induction h generalizing t₂ with
  | nil => simp at ht
  | @snoc t' s' s'' e' hr hs ih =>
    rcases t₂.eq_nil_or_concat with rfl | ⟨l, b, rfl⟩
    · obtain ⟨rfl, he⟩ := List.append_inj' ht rfl
      cases he
      exact ⟨s', s'', hr, hs, .nil⟩
    · rw [List.concat_eq_append, ← List.cons_append, ← List.append_assoc] at ht
      obtain ⟨hl, hb⟩ := List.append_inj' ht rfl
      cases hb
      obtain ⟨s₁, s₂, h₁, he, h₂⟩ := ih hl
      rw [List.concat_eq_append]
      exact ⟨s₁, s₂, h₁, he, h₂.snoc hs⟩

/-- What stands at a place of a list that has grown by one. -/
theorem getElem?_snoc {l : List σ} {a b : σ} {k : Nat} :
    (l ++ [a])[k]? = some b ↔ l[k]? = some b ∨ k = l.length ∧ a = b := by
  rw [List.getElem?_append]
  split
  · rename_i hk
    simp [Nat.ne_of_lt hk]
  · rename_i hk
    rw [List.getElem?_eq_none (Nat.le_of_not_lt hk), List.getElem?_singleton]
    by_cases hl : k = l.length
    · simp [hl]
    · have hn : k - l.length ≠ 0 := by omega
      simp [hl, hn]

end ResumeOnce

import Mathlib.Data.List.DropRight
import Mathlib.Data.Nat.Digits.Defs
import ResumeOnce.Text.Blank
import ResumeOnce.Text.Numeral

/-!
# What is read from a text

The trimmed text and the word in it are told without saying how they are found: the first is
what stands between two runs of blanks, the second is the number that the digits spell in
base ten.

* `Trims`, `trimmedChars_eq_iff`: a text without the blanks at its ends;
* `Spells`, `digitsValue?_eq_some`: a run of digits and its number;
* `Numeral`, `word?_eq_some`: a numeral and its word.
-/

namespace ResumeOnce.Text

/-! ## Blanks -/

/-- The second text is the first one without the blanks at its ends. -/
structure Trims (cs ts : List Char) : Prop where
  surrounded : ∃ before behind, cs = before ++ ts ++ behind ∧
    (∀ c ∈ before, isBlank c = true) ∧ ∀ c ∈ behind, isBlank c = true
  first : ∀ c, ts.head? = some c → isBlank c = false
  last : ∀ c, ts.getLast? = some c → isBlank c = false

/-- What is left of a run of blanks and a text that does not begin with one. -/
theorem dropWhile_blanks {before ts : List Char} (hb : ∀ c ∈ before, isBlank c = true)
    (ht : ∀ c, ts.head? = some c → isBlank c = false) :
    (before ++ ts).dropWhile isBlank = ts := by
  rw [List.dropWhile_append_of_pos hb]
  rcases ts with _ | ⟨c, ts⟩
  · rfl
  · rw [List.dropWhile_cons_of_neg (by simp [ht c rfl])]

theorem trims_trimmedChars (cs : List Char) : Trims cs (trimmedChars cs) := by
  have hcs := List.takeWhile_append_dropWhile (p := isBlank) (l := cs)
  generalize hm : cs.dropWhile isBlank = ms at hcs
  have hms := List.takeWhile_append_dropWhile (p := isBlank) (l := ms.reverse)
  generalize hr : ms.reverse.dropWhile isBlank = rs at hms
  have ht : trimmedChars cs = rs.reverse := by rw [trimmedChars, hm, hr]
  have hsplit : ms = rs.reverse ++ (ms.reverse.takeWhile isBlank).reverse := by
    rw [← List.reverse_append, hms, List.reverse_reverse]
  rw [ht]
  refine ⟨⟨cs.takeWhile isBlank, (ms.reverse.takeWhile isBlank).reverse, ?_, ?_, ?_⟩, ?_, ?_⟩
  · rw [List.append_assoc, ← hsplit, hcs]
  · exact fun c hc => List.mem_takeWhile_imp hc
  · exact fun c hc => List.mem_takeWhile_imp (List.mem_reverse.1 hc)
  · -- What is left begins as it did before its end was cut off.
    intro c hc
    have hh : ms.head? = some c := by
      rw [hsplit, List.head?_append, hc]
      rfl
    have hn := List.head?_dropWhile_not isBlank cs
    rw [hm, hh] at hn
    simpa using hn
  · intro c hc
    rw [List.getLast?_reverse] at hc
    have hn := List.head?_dropWhile_not isBlank ms.reverse
    rw [hr, hc] at hn
    simpa using hn

/-- There is one way to trim a text. -/
theorem trimmedChars_eq_iff {cs ts : List Char} : trimmedChars cs = ts ↔ Trims cs ts := by
  constructor
  · rintro rfl
    exact trims_trimmedChars cs
  · rintro ⟨⟨before, behind, rfl, hb, he⟩, hfirst, hlast⟩
    rcases ts with _ | ⟨c, ts⟩
    · have hn : (before ++ [] ++ behind).dropWhile isBlank = [] := by
        rw [List.append_nil, List.dropWhile_append_of_pos hb]
        simpa using he
      rw [trimmedChars, hn]
      rfl
    · have hd : (before ++ c :: ts ++ behind).dropWhile isBlank = c :: ts ++ behind := by
        rw [List.append_assoc]
        exact dropWhile_blanks hb hfirst
      rw [trimmedChars, hd, List.reverse_append, dropWhile_blanks, List.reverse_reverse]
      · exact fun c hc => he c (List.mem_reverse.1 hc)
      · intro c hc
        rw [List.head?_reverse] at hc
        exact hlast c hc

/-! ## Digits -/

/-- The value of a digit. -/
def digitValue (c : Char) : Nat := c.toNat - '0'.toNat

/-- The digits spell the number in base ten. -/
structure Spells (digits : List Char) (n : Nat) : Prop where
  nonempty : digits ≠ []
  decimal : ∀ c ∈ digits, '0' ≤ c ∧ c ≤ '9'
  value : n = Nat.ofDigits 10 (digits.reverse.map digitValue)

theorem digit?_eq_some {c : Char} {d : Nat} :
    digit? c = some d ↔ ('0' ≤ c ∧ c ≤ '9') ∧ d = digitValue c := by
  rw [digit?]
  split
  · rename_i h
    simp [h, digitValue, eq_comm]
  · rename_i h
    simp [h]

theorem digitsFrom?_eq_some {cs : List Char} {value n : Nat} : digitsFrom? value cs = some n ↔
    (∀ c ∈ cs, '0' ≤ c ∧ c ≤ '9') ∧
      n = Nat.ofDigits 10 (cs.reverse.map digitValue) + 10 ^ cs.length * value := by
  induction cs generalizing value with
  | nil => simp [digitsFrom?, eq_comm]
  | cons c cs ih =>
    rw [digitsFrom?, Option.bind_eq_some_iff]
    simp only [digit?_eq_some, ih, List.forall_mem_cons]
    -- The digit counts as often as the number of those behind it tells.
    have hv : Nat.ofDigits 10 (cs.reverse.map digitValue) +
          10 ^ cs.length * (10 * value + digitValue c) =
        Nat.ofDigits 10 ((c :: cs).reverse.map digitValue) + 10 ^ (c :: cs).length * value := by
      rw [List.reverse_cons, List.map_append, Nat.ofDigits_append, List.length_map,
        List.length_reverse, List.map_singleton, Nat.ofDigits_singleton, List.length_cons]
      ring
    constructor
    · rintro ⟨d, ⟨hc, rfl⟩, hcs, rfl⟩
      exact ⟨⟨hc, hcs⟩, hv⟩
    · rintro ⟨⟨hc, hcs⟩, rfl⟩
      exact ⟨_, ⟨hc, rfl⟩, hcs, hv.symm⟩

theorem digitsValue?_eq_some {cs : List Char} {n : Nat} :
    digitsValue? cs = some n ↔ Spells cs n := by
  rcases cs with _ | ⟨c, cs⟩
  · exact ⟨nofun, fun h => absurd rfl h.nonempty⟩
  · rw [digitsValue?, digitsFrom?_eq_some, Nat.mul_zero, Nat.add_zero]
    exact ⟨fun h => ⟨List.cons_ne_nil _ _, h.1, h.2⟩, fun h => ⟨h.decimal, h.value⟩⟩

/-! ## Numerals -/

/-- The characters are a numeral of a number: digits that spell it, perhaps behind a plus
    sign. -/
def Numeral (cs : List Char) (n : Nat) : Prop :=
  ∃ digits, (cs = digits ∨ cs = '+' :: digits) ∧ Spells digits n

theorem digitsValue?_unsigned {cs : List Char} {n : Nat} :
    digitsValue? (unsigned cs) = some n ↔ Numeral cs n := by
  rw [digitsValue?_eq_some]
  constructor
  · intro h
    refine ⟨unsigned cs, ?_, h⟩
    rw [unsigned.eq_def]
    split
    · exact .inr rfl
    · exact .inl rfl
  · rintro ⟨digits, rfl | rfl, h⟩
    · -- A plus sign is no digit.
      rw [unsigned.eq_def]
      split
      · have hp := (h.decimal _ List.mem_cons_self).1
        exact absurd hp (by decide)
      · exact h
    · exact h

/-- A word is read from a numeral below `2 ^ 64`, and from nothing else. -/
theorem word?_eq_some {s : String} {n : Nat} :
    word? s = some n ↔ Numeral s.toList n ∧ n < 2 ^ 64 := by
  rw [word?, Option.filter_eq_some_iff, digitsValue?_unsigned, decide_eq_true_eq]
  rfl

end ResumeOnce.Text

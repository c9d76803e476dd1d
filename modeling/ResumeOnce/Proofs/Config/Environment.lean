import ResumeOnce.Config.Environment
import ResumeOnce.Proofs.Text.Numeral

/-!
# What the environment does to settings

Every variable that is set puts the value that its text holds into a setting of its own, and
touches no other. They are looked at one by one, so that the first one whose text holds no
proper value leaves the settings as those before it have made them.

* `Variable.Proper`: which texts hold a value;
* `Variable.Sets`, `Variable.Keeps`: the setting of a variable has that value, or is as before;
* `Environment.Overridden`, `Environment.Reading`: what some variables do, and where it ends;
* `Environment.applies_exactly`: what all of them do, whether or not the reading is ended early.
-/

namespace ResumeOnce

open Text

/-! ## One variable -/

namespace Variable

/-- The text holds a number below `2 ^ 64`, as a numeral with blanks around it. -/
def Counts (text : String) (n : Nat) : Prop :=
  ∃ cs, Trims text.toList cs ∧ Numeral cs n ∧ n < 2 ^ 64

/-- The text holds the word of a leak policy, in any case and with blanks around it. -/
def Chooses (text : String) (p : LeakPolicy) : Prop :=
  ∃ cs, Trims text.toList cs ∧ cs.map Char.toLower = p.word.toList

theorem word?_trimmed {text : String} {n : Nat} :
    word? (trimmed text) = some n ↔ Counts text n := by
  rw [word?_eq_some, trimmed, String.toList_ofList]
  constructor
  · rintro ⟨hn, hl⟩
    exact ⟨_, trims_trimmedChars _, hn, hl⟩
  · rintro ⟨cs, ht, hn, hl⟩
    rw [trimmedChars_eq_iff.2 ht]
    exact ⟨hn, hl⟩

theorem ofWord?_eq_some {s : String} {p : LeakPolicy} :
    LeakPolicy.ofWord? s = some p ↔ s = p.word := by
  constructor
  · intro h
    have hw := List.find?_some h
    exact (beq_iff_eq.1 hw).symm
  · rintro rfl
    exact LeakPolicy.ofWord?_word p

theorem parse?_eq_some {text : String} {p : LeakPolicy} :
    LeakPolicy.parse? text = some p ↔ Chooses text p := by
  rw [LeakPolicy.parse?, ofWord?_eq_some]
  constructor
  · intro h
    refine ⟨_, trims_trimmedChars _, ?_⟩
    rw [← h, String.toList_ofList]
  · rintro ⟨cs, ht, hp⟩
    rw [trimmedChars_eq_iff.2 ht, hp, String.ofList_toList]

variable {v u : Variable} {text : String} {s s' s'' : Settings}

/-- Whether a text holds a value of a variable. -/
def Proper : Variable → String → Prop
  | workers, text | stackSize, text | parkTimeout, text => ∃ n, Counts text n
  | threadLabel, _ => True
  | leakPolicy, text => ∃ p, Chooses text p

/-- The setting of a variable has the value that a text holds. -/
def Sets (text : String) (s : Settings) : Variable → Prop
  | workers => Counts text s.workers
  | stackSize => Counts text s.stackSize
  | threadLabel => s.threadLabel = text
  | parkTimeout => ∃ n, Counts text n ∧ s.parkTimeout = Settings.milliseconds n
  | leakPolicy => ∃ p, Chooses text p ∧ s.leakPolicy = some p

/-- The setting of a variable is the same. -/
def Keeps (s s' : Settings) : Variable → Prop
  | workers => s'.workers = s.workers
  | stackSize => s'.stackSize = s.stackSize
  | threadLabel => s'.threadLabel = s.threadLabel
  | parkTimeout => s'.parkTimeout = s.parkTimeout
  | leakPolicy => s'.leakPolicy = s.leakPolicy

theorem Keeps.refl (s : Settings) (v : Variable) : v.Keeps s s := by cases v <;> rfl

theorem Keeps.trans (h : v.Keeps s s') (h' : v.Keeps s' s'') : v.Keeps s s'' := by
  cases v <;> exact Eq.trans h' h

/-- A setting that is the same has the same value. -/
theorem Keeps.sets (h : v.Keeps s s') : v.Sets text s' ↔ v.Sets text s := by
  cases v <;> simp only [Keeps] at h <;> simp only [Sets, h]

/-- One variable: its setting has the value of the text, and all other settings are the same. -/
structure Overrides (v : Variable) (text : String) (s s' : Settings) : Prop where
  sets : v.Sets text s'
  keeps : ∀ u ≠ v, u.Keeps s s'
  callbacks : s'.tellsStart = s.tellsStart ∧ s'.tellsStop = s.tellsStop

/-- A setting with a value in place, if that can be read. -/
theorem override?_eq_some (h : v.override? text s = some s') : v.Overrides text s s' := by
  cases v <;> simp only [override?, Option.map_eq_some_iff, Option.some.injEq, word?_trimmed,
    parse?_eq_some] at h
  case threadLabel =>
    subst h
    exact ⟨rfl, fun u hu => by cases u <;> trivial, rfl, rfl⟩
  case workers | stackSize =>
    obtain ⟨n, hn, rfl⟩ := h
    exact ⟨hn, fun u hu => by cases u <;> trivial, rfl, rfl⟩
  case parkTimeout =>
    obtain ⟨n, hn, rfl⟩ := h
    exact ⟨⟨n, hn, rfl⟩, fun u hu => by cases u <;> trivial, rfl, rfl⟩
  case leakPolicy =>
    obtain ⟨p, hp, rfl⟩ := h
    exact ⟨⟨p, hp, rfl⟩, fun u hu => by cases u <;> trivial, rfl, rfl⟩

/-- It can be read from a proper text, and from no other. -/
theorem isSome_override? : (v.override? text s).isSome ↔ v.Proper text := by
  cases v <;> simp only [override?, Option.isSome_map, Option.isSome_some, Proper,
    Option.isSome_iff_exists, word?_trimmed, parse?_eq_some]

end Variable

/-! ## Some variables -/

namespace Environment

/-- What the variables that are set do to settings: each has its value in place, and all else is
    the same. -/
structure Overridden (read : Environment) (s s' : Settings) : Prop where
  sets : ∀ v text, read v = some text → v.Sets text s'
  keeps : ∀ v, read v = none → v.Keeps s s'
  callbacks : s'.tellsStart = s.tellsStart ∧ s'.tellsStop = s.tellsStop

/-- Only the given variables of an environment. -/
def among (env : Environment) (vs : List Variable) : Environment := fun v =>
  if v ∈ vs then env v else none

section Reading

variable {env : Environment} {v : Variable} {vs : List Variable} {s s' : Settings}

theorem overridden_nil (env : Environment) (s : Settings) : Overridden (env.among []) s s where
  sets v text h := by simp [among] at h
  keeps v _ := .refl s v
  callbacks := ⟨rfl, rfl⟩

/-- A variable that is not set does nothing. -/
theorem Overridden.skip (h : Overridden (env.among vs) s s') (hv : env v = none) :
    Overridden (env.among (vs ++ [v])) s s' := by
  have he : env.among (vs ++ [v]) = env.among vs := by
    funext u
    by_cases hu : u = v <;> simp [among, hu, hv]
  rwa [he]

/-- One more variable: it does not undo what those before it have done. -/
theorem Overridden.snoc {s'' : Settings} {text : String} (h : Overridden (env.among vs) s s')
    (hv : env v = some text) (hn : v ∉ vs) (ho : v.Overrides text s' s'') :
    Overridden (env.among (vs ++ [v])) s s'' := by
  have he : ∀ u ≠ v, env.among (vs ++ [v]) u = env.among vs u := fun u hu => by
    simp [among, hu]
  constructor
  · intro u t hu
    by_cases huv : u = v
    · subst huv
      have ht : text = t := by simpa [among, hv] using hu
      exact ht ▸ ho.sets
    · exact (ho.keeps u huv).sets.2 (h.sets u t (he u huv ▸ hu))
  · intro u hu
    by_cases huv : u = v
    · subst huv
      simp [among, hv] at hu
    · exact (h.keeps u (he u huv ▸ hu)).trans (ho.keeps u huv)
  · exact ⟨ho.callbacks.1.trans h.callbacks.1, ho.callbacks.2.trans h.callbacks.2⟩

/-- Every one of the variables that is set holds a proper value. -/
def ProperOn (env : Environment) (vs : List Variable) : Prop :=
  ∀ v ∈ vs, ∀ text, env v = some text → v.Proper text

/-- What the reading of some variables comes to behind those that were read before: it ends well,
    or at the first variable without a proper value. -/
inductive Reading (env : Environment) (before vs : List Variable) (s : Settings) :
    Settings × Option ConfigFault → Prop
  | done {s' : Settings} (hp : env.ProperOn vs)
      (ho : Overridden (env.among (before ++ vs)) s s') : Reading env before vs s (s', none)
  | ended {s' : Settings} {read rest : List Variable} {v : Variable} {text : String}
      (hs : vs = read ++ v :: rest) (hp : env.ProperOn read) (hv : env v = some text)
      (hi : ¬ v.Proper text) (ho : Overridden (env.among (before ++ read)) s s') :
      Reading env before vs s (s', some (.illFormed v.key v.expected text))

/-- A variable that holds a proper value, or none, is passed. -/
theorem Reading.cons {before : List Variable} {r : Settings × Option ConfigFault}
    (h : Reading env (before ++ [v]) vs s r)
    (hv : ∀ text, env v = some text → v.Proper text) : Reading env before (v :: vs) s r := by
  cases h with
  | done hp ho =>
    refine .done (List.forall_mem_cons.2 ⟨hv, hp⟩) ?_
    rwa [List.append_cons]
  | @ended s' read rest u text hs hp hu hi ho =>
    have hs' : v :: vs = (v :: read) ++ u :: rest := congrArg (v :: ·) hs
    refine .ended hs' (List.forall_mem_cons.2 ⟨hv, hp⟩) hu hi ?_
    rwa [List.append_cons]

/-- The variables are read one after another, none of them twice. -/
theorem reading_applyVariables {before : List Variable} (hn : (before ++ vs).Nodup)
    (h : Overridden (env.among before) s s') :
    Reading env before vs s (env.applyVariables vs s') := by
  induction vs generalizing before s' with
  | nil =>
    refine .done (fun v hv => absurd hv List.not_mem_nil) ?_
    rwa [List.append_nil]
  | cons v vs ih =>
    rw [List.append_cons] at hn
    have hv : v ∉ before := fun hm =>
      (List.nodup_append.1 (List.nodup_append.1 hn).1).2.2 v hm v List.mem_cons_self rfl
    rcases he : env v with _ | text
    · simp only [applyVariables, he]
      exact (ih hn (h.skip he)).cons fun text ht => nomatch he.symm.trans ht
    · have hi : (v.override? text s').isSome ↔ v.Proper text := Variable.isSome_override?
      rcases ho : v.override? text s' with _ | s''
      · simp only [applyVariables, he, ho]
        rw [ho] at hi
        have hs : v :: vs = [] ++ v :: vs := rfl
        refine .ended hs (fun _ hm => absurd hm List.not_mem_nil) he ?_ ?_
        · exact fun hp => nomatch hi.2 hp
        · rwa [List.append_nil]
      · simp only [applyVariables, he, ho]
        rw [ho] at hi
        refine (ih hn (h.snoc he hv (Variable.override?_eq_some ho))).cons fun t ht => ?_
        obtain rfl := Option.some.inj (he.symm.trans ht)
        exact hi.1 rfl

end Reading

/-! ## All variables -/

/-- A variable holds a text if its bytes are those of the text. One that is not there, or is no
    text, is not set. -/
theorem ofBytes_eq_some {values : List (String × ByteArray)} {v : Variable}
    {text : String} :
    ofBytes values v = some text ↔ values.lookup v.key = some text.toByteArray := by
  rw [ofBytes, Option.bind_eq_some_iff]
  constructor
  · rintro ⟨bytes, hb, ht⟩
    rw [String.fromUTF8?] at ht
    split at ht
    · cases ht
      exact hb
    · cases ht
  · intro h
    refine ⟨_, h, ?_⟩
    rw [String.fromUTF8?, dif_pos text.isValidUTF8]
    rfl

/-- What the variables of an environment, given as bytes under their names, do to settings. -/
structure Exact (values : List (String × ByteArray)) (s : Settings)
    (r : Settings × Option ConfigFault) (built : Outcome Settings) : Prop where
  /-- Nothing is wrong if and only if every variable that is set holds a proper value. -/
  ok_iff : r.2 = none ↔ ∀ (v : Variable) (text : String),
    values.lookup v.key = some text.toByteArray → v.Proper text
  /-- Then all that are set have their values in place, and all else is the same. -/
  ok : r.2 = none → built = .ok r.1 ∧ Overridden (ofBytes values) s r.1
  /-- Otherwise the first variable without a proper value is named, with its text as it is; those
      before it have their values in place, and all else is the same. -/
  error : ∀ f, r.2 = some f → ∃ read v rest text,
    Variable.all = read ++ v :: rest ∧
    values.lookup v.key = some text.toByteArray ∧ ¬ v.Proper text ∧
    (∀ u ∈ read, ∀ t, values.lookup u.key = some t.toByteArray → u.Proper t) ∧
    f = .illFormed v.key v.expected text ∧
    Overridden ((ofBytes values).among read) s r.1 ∧
    built = .error ((Fault.ofKind .invalidConfig).withMessage f.display)

theorem among_all (env : Environment) : env.among Variable.all = env := by
  funext v
  cases v <;> rfl

/-- Overrides are applied exactly, also when they end early. -/
theorem applies_exactly (values : List (String × ByteArray)) (s : Settings) :
    Exact values s ((ofBytes values).applyTo s)
      ((ofBytes values).override s) := by
  have hr : Reading (ofBytes values) [] Variable.all s ((ofBytes values).applyTo s) :=
    reading_applyVariables (by decide) (overridden_nil _ s)
  rw [override]
  generalize (ofBytes values).applyTo s = r at hr
  cases hr with
  | done hp ho =>
    refine ⟨⟨fun _ v text hv => ?_, fun _ => rfl⟩, fun _ => ⟨rfl, ?_⟩, nofun⟩
    · exact hp v (by cases v <;> decide) text (ofBytes_eq_some.2 hv)
    · rwa [List.nil_append, among_all] at ho
  | @ended s' read rest v text hs hp hv hi ho =>
    refine ⟨⟨nofun, fun h => ?_⟩, nofun, ?_⟩
    · exact absurd (h v text (ofBytes_eq_some.1 hv)) hi
    · rintro _ ⟨⟩
      exact ⟨read, v, rest, text, hs, ofBytes_eq_some.1 hv, hi,
        fun u hu t ht => hp u hu t (ofBytes_eq_some.2 ht), rfl, ho, rfl⟩

end Environment

end ResumeOnce

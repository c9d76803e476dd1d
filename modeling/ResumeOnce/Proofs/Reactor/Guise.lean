import ResumeOnce.Proofs.Streams.Combiner
import ResumeOnce.Reactor.Stepping

/-!
# How combinations look in a world

In a world the values of all streams are data, and the right to answer the sender of an
event is a number. Neither a zip nor a merge looks at values or rights: by other names it
does the same, told by the other names. So a combiner is found in a world under the names
that its values and rights have there.

* `Zip.rename`, `Zip.reduce_rename`: a zip by other names, and `Merge.rename` likewise;
* `Guise`: how the combinations of a combiner look in a world, with the laws of their turns;
* `Guise.zip`, `Guise.select`, `Guise.merge`: the three of them.
-/

namespace ResumeOnce.Streams

variable {α α' β β' γ γ' ρ σ : Type}

/-! ## Machines by other names -/

/-- Answers to senders by other names. -/
def Answers.rename (f : ρ → σ) (as : Answers ρ) : Answers σ := as.map fun a => (f a.1, a.2)

/-- A machine whose state has another name. -/
def Machine.map (g : γ → γ') (m : Machine γ) : Machine γ' :=
  ⟨g m.current, m.completion, m.downstreamEnded⟩

/-- What an event comes to, by other names. -/
def renameReduced (g : γ → γ') (f : ρ → σ) :
    Except (Violation ρ) (Reduced γ ρ) → Except (Violation σ) (Reduced γ' σ)
  | .error v => .error ⟨v.message, v.abandoned.map f⟩
  | .ok r => .ok ⟨g r.current, r.answers.rename f, r.effect⟩

namespace Zip

/-- An action of a zip by other names. -/
def Action.rename (f : ρ → σ) : Action α β ρ → Action α β σ
  | left e r => left e (f r)
  | right e r => right e (f r)

/-- A zip by other names. -/
def rename (f : ρ → σ) : Zip α β ρ → Zip α β σ
  | nothing => nothing
  | hasLeft a ra => hasLeft a (f ra)
  | hasRight b rb => hasRight b (f rb)
  | hasBoth a ra b rb => hasBoth a (f ra) b (f rb)
  | finished => finished
  | errored x => errored x

theorem reduce_rename (f : ρ → σ) (z : Zip α β ρ) (x : Action α β ρ) :
    (z.rename f).reduce (x.rename f) = renameReduced (rename f) f (z.reduce x) := by
  cases z <;> rcases x with ⟨_ | ⟨_ | _⟩, _⟩ | ⟨_ | ⟨_ | _⟩, _⟩ <;> rfl

theorem emission?_rename (f : ρ → σ) (z : Zip α β ρ) : (z.rename f).emission? =
    z.emission?.map fun e => ⟨e.current.rename f, e.value, e.producers.map f⟩ := by
  cases z <;> rfl

theorem finalize_rename (f : ρ → σ) (m : Machine (Zip α β ρ)) (c : Completion) :
    finalize (m.map (rename f)) c =
      ((finalize m c).1.map (rename f), (finalize m c).2.rename f) := by
  obtain ⟨z, _, _⟩ := m
  cases z <;> cases c <;> rfl

end Zip

namespace Merge

/-- An action of a merge by other names. -/
def Action.rename (g : α → α') (f : ρ → σ) (x : Action α ρ) : Action α' σ :=
  ⟨x.event.map g, f x.sender⟩

/-- A merge by other names. -/
def rename (g : α → α') (f : ρ → σ) : Merge α ρ → Merge α' σ
  | nothing running => nothing running
  | ready a producer running => ready (g a) (f producer) running
  | finished => finished
  | errored x => errored x

theorem reduce_rename (g : α → α') (f : ρ → σ) (m : Merge α ρ) (x : Action α ρ) :
    (m.rename g f).reduce (x.rename g f) = renameReduced (rename g f) f (m.reduce x) := by
  obtain ⟨e, r⟩ := x
  cases m with
  | nothing running =>
    rcases e with a | _ | x
    · rfl
    · by_cases hr : running - 1 = 0 <;>
        simp [Merge.rename, Action.rename, Event.map, reduce, renameReduced, Answers.rename, hr]
    · rfl
  | _ => cases e <;> rfl

theorem emission?_rename (g : α → α') (f : ρ → σ) (m : Merge α ρ) : (m.rename g f).emission? =
    m.emission?.map fun e => ⟨e.current.rename g f, g e.value, e.producers.map f⟩ := by
  cases m <;> rfl

theorem finalize_rename (g : α → α') (f : ρ → σ) (m : Machine (Merge α ρ)) (c : Completion) :
    finalize (m.map (rename g f)) c =
      ((finalize m c).1.map (rename g f), (finalize m c).2.rename f) := by
  obtain ⟨m, _, _⟩ := m
  cases m <;> cases c <;> rfl

end Merge

end ResumeOnce.Streams

namespace ResumeOnce.Reactor

open Streams (Combiner Machine Zip Merge Side Answers Reduced Violation renameReduced settlement)

variable {env : Env} {γ γ' ρ : Type}

/-! ## Turns by other names -/

/-- What a reduction comes to in a world, given the numbers of the rights, how the machine behind
    it looks, and how it looks when it has crashed. -/
def reducing (env : Env) (num : ρ → Nat) (state : Machine γ → FoldState) (spent : FoldState)
    (m : Machine γ) : Except (Violation ρ) (Reduced γ ρ) → Act Reducing
  | .ok r => do
    answerAll env (r.answers.rename num)
    return .reduced (state { m with current := r.current }) r.effect
  | .error v => return .crashed spent (v.abandoned.map num) v.message

theorem reducedBy_rename (num : ρ → Nat) (g : γ → γ') (wrap : Machine γ' → FoldState) (idle : γ')
    (m : Machine γ) (r : Except (Violation ρ) (Reduced γ ρ)) :
    reducedBy env (m.map g) wrap idle (renameReduced g num r) =
      reducing env num (fun m => wrap (m.map g)) (wrap { m.map g with current := idle }) m r := by
  cases r <;> rfl

theorem reduce_zip (name : String) (num : ρ → Nat) (m : Machine (Zip Datum Datum ρ))
    (x : Zip.Action Datum Datum ρ) :
    reduce env name (.zip (m.map (Zip.rename num))) (.paired (x.rename num)) =
      reducing env num (fun m => .zip (m.map (Zip.rename num)))
        (.zip { m.map (Zip.rename num) with current := .nothing }) m (m.current.reduce x) := by
  rw [reduce, ← reducedBy_rename, ← Zip.reduce_rename]
  rfl

theorem reduce_merge (name : String) (num : ρ → Nat) (g : γ → Datum) (m : Machine (Merge γ ρ))
    (x : Merge.Action γ ρ) :
    reduce env name (.merge (m.map (Merge.rename g num))) (.merged (x.rename g num)) =
      reducing env num (fun m => .merge (m.map (Merge.rename g num)))
        (.merge { m.map (Merge.rename g num) with current := .nothing 0 }) m
        (m.current.reduce x) := by
  rw [reduce, ← reducedBy_rename, ← Merge.reduce_rename]
  rfl

theorem finalize_zip (num : ρ → Nat) (m : Machine (Zip Datum Datum ρ)) (c : Completion)
    (b : Bool) (d : Downstream) (fs : List Nat) :
    finalize env (.combining b d fs) c (.zip (m.map (Zip.rename num))) = do
      answerAll env ((Zip.finalize m c).2.rename num)
      cancelAll env fs
      return .zip ((Zip.finalize m c).1.map (Zip.rename num)) := by
  rw [finalize, Zip.finalize_rename]
  rfl

theorem finalize_merge (num : ρ → Nat) (g : γ → Datum) (m : Machine (Merge γ ρ)) (c : Completion)
    (b : Bool) (d : Downstream) (fs : List Nat) :
    finalize env (.combining b d fs) c (.merge (m.map (Merge.rename g num))) = do
      answerAll env ((Merge.finalize m c).2.rename num)
      cancelAll env fs
      return .merge ((Merge.finalize m c).1.map (Merge.rename g num)) := by
  rw [finalize, Merge.finalize_rename]
  rfl

theorem emission?_zip (num : ρ → Nat) (m : Machine (Zip Datum Datum ρ)) :
    (FoldState.zip (m.map (Zip.rename num))).emission? = m.current.emission?.map fun e =>
      (.pair e.value.1 e.value.2, e.producers.map num,
        .zip ({ m with current := e.current }.map (Zip.rename num))) := by
  change Option.map _ (m.current.rename num).emission? = _
  rw [Zip.emission?_rename, Option.map_map]
  rfl

theorem emission?_merge (num : ρ → Nat) (g : γ → Datum) (m : Machine (Merge γ ρ)) :
    (FoldState.merge (m.map (Merge.rename g num))).emission? = m.current.emission?.map fun e =>
      (g e.value, e.producers.map num,
        .merge ({ m with current := e.current }.map (Merge.rename g num))) := by
  change Option.map _ (m.current.rename g num).emission? = _
  rw [Merge.emission?_rename, Option.map_map]
  rfl

/-! ## Guises -/

/-- How the combinations of a combiner look in a world, where every value is a datum and every
    right to answer is a number. -/
structure Guise (C : Combiner) where
  isZip : Bool
  inlet : C.Feeder → Inlet
  input : (i : C.Feeder) → Datum → C.Input i
  datum : C.Output → Datum
  cargo : (C.Right → Nat) → C.Action → Cargo
  state : (C.Right → Nat) → Machine C.State → FoldState
  /-- The state of a combination that has crashed. -/
  spent : (C.Right → Nat) → Machine C.State → FoldState
  /-- An event comes in as the action of its feeder. -/
  cargo_inlet : ∀ num i e k,
    (inlet i).cargo e (num (i, k)) = cargo num (C.inlet i (e.map (input i)) k)
  startState_eq : ∀ env n d fs num, fs.length = Fintype.card C.Feeder →
    startState env n (.combining isZip d fs) = pure (state num (.new C.initial))
  reduce_eq : ∀ env name num m x, reduce env name (state num m) (cargo num x) =
    reducing env num (state num) (spent num m) m (C.reduce m.current x)
  emission?_eq : ∀ num m, (state num m).emission? = (C.emission? m.current).map fun e =>
    (datum e.value, e.producers.map num, state num { m with current := e.current })
  deliver_eq : ∀ num m d, (state num m).deliver d = state num (m.deliver d)
  finalize_eq : ∀ env num m c d fs,
    finalize env (.combining isZip d fs) c (state num m) = do
      answerAll env ((C.finalize m c).2.rename num)
      cancelAll env fs
      return state num (C.finalize m c).1
  dispose_eq : ∀ env folder c num x,
    dispose env folder c (cargo num x) = answerAll env [(num (C.sender x), settlement c)]
  value_eq : ∀ num m, (state num m).value = .final ⟨m.completion, m.downstreamEnded⟩

namespace Guise

/-- A zip of data. -/
def zip : Guise (.zip Datum Datum) where
  isZip := true
  inlet
    | .left => .left
    | .right => .right
  input
    | .left => id
    | .right => id
  datum v := .pair v.1 v.2
  cargo num x := .paired (x.rename num)
  state num m := .zip (m.map (Zip.rename num))
  spent num m := .zip { m.map (Zip.rename num) with current := .nothing }
  cargo_inlet num i e k := by cases i <;> simp [Inlet.cargo, Combiner.zip, Zip.Action.rename]
  startState_eq env n d fs num hn := rfl
  reduce_eq env name num m x := reduce_zip name num m x
  emission?_eq num m := emission?_zip num m
  deliver_eq num m d := rfl
  finalize_eq env num m c d fs := finalize_zip num m c true d fs
  dispose_eq env folder c num x := by cases x <;> rfl
  value_eq num m := rfl

/-- A merge of data, each of which may be tagged as it comes in. -/
def merging {ι ν : Type} [DecidableEq ι] [Fintype ι] {Input : ι → Type}
    {tag : (i : ι) → Input i → ν} {limit : Nat} {hl : Fintype.card ι ≤ limit}
    (tags : ι → Option String) (input : (i : ι) → Datum → Input i) (datum : ν → Datum)
    (hd : ∀ i d, datum (tag i (input i d)) = ((tags i).map Datum.tagged).getD id d) :
    Guise (.merging ι Input ν tag limit hl) where
  isZip := false
  inlet i := .merged (tags i)
  input := input
  datum := datum
  cargo num x := .merged (x.rename datum num)
  state num m := .merge (m.map (Merge.rename datum num))
  spent num m := .merge { m.map (Merge.rename datum num) with current := .nothing 0 }
  cargo_inlet num i e k := by
    have he : ((e.map (input i)).map (tag i)).map datum =
        e.map (((tags i).map Datum.tagged).getD id) := by
      rw [Event.map_map, Event.map_map]
      exact congrArg e.map (funext (hd i))
    change _ = Cargo.merged ⟨((e.map (input i)).map (tag i)).map datum, num (i, k)⟩
    rw [he]
    cases tags i with
    | none => exact congrArg (fun e => Cargo.merged ⟨e, num (i, k)⟩) e.map_id.symm
    | some t => rfl
  startState_eq env n d fs num hn := by
    change (pure (.merge (.new (.nothing fs.length))) : Act FoldState) = _
    rw [hn]
    rfl
  reduce_eq env name num m x := reduce_merge name num datum m x
  emission?_eq num m := emission?_merge num datum m
  deliver_eq num m d := rfl
  finalize_eq env num m c d fs := finalize_merge num datum m c false d fs
  dispose_eq env folder c num x := rfl
  value_eq num m := rfl

/-- A selection of data, which are tagged by their side. -/
def select : Guise (.select Datum Datum) :=
  merging (fun | .left => some "left" | .right => some "right") (fun | .left => id | .right => id)
    (fun | .left d => .tagged "left" d | .right d => .tagged "right" d)
    fun i d => by cases i <;> rfl

/-- A merge of data. -/
def merge (n : Nat) : Guise (.merge Datum n) :=
  merging (fun _ => none) (fun _ => id) id fun _ _ => rfl

end Guise

end ResumeOnce.Reactor

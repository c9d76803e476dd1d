/-!
# Versioned cells

A cell holds a snapshot that is only ever replaced as a whole. An update looks at
the current snapshot, decides, and puts its next snapshot in place if nobody else
did so in between; otherwise it decides anew on what it finds then. A cell counts
its commits, so that a commit of an equal value is told apart from none.

* `Cell.update`: an update that nobody interferes with;
* `Cell.updateAgainst`: an update with other commits between its look and its own.
-/

namespace ResumeOnce

/-- What an update decides on a snapshot: put the next one in place, or leave it. -/
inductive Decision (σ : Type u) (ρ : Type v) where
  | commit (next : σ) (outcome : ρ)
  | abort (outcome : ρ)

namespace Decision

/-- The outcome of a decision. -/
def outcome : Decision σ ρ → ρ
  | commit _ r => r
  | abort r => r

/-- The snapshot that a decision leaves, given the one it was made on. -/
def result (current : σ) : Decision σ ρ → σ
  | commit next _ => next
  | abort _ => current

end Decision

/-- A snapshot and the number of commits so far. -/
structure Cell (σ : Type u) where
  current : σ
  version : Nat
  deriving Inhabited, Repr

namespace Cell

/-- A cell with its first snapshot. -/
def new (s : σ) : Cell σ := ⟨s, 0⟩

/-- The cell with the next snapshot in place. -/
def commit (c : Cell σ) (next : σ) : Cell σ := ⟨next, c.version + 1⟩

/-- The cell after the commits of others, each computed from the snapshot it finds. -/
def interfere (c : Cell σ) (others : List (σ → σ)) : Cell σ :=
  others.foldl (fun c f => c.commit (f c.current)) c

/-- What an update comes to: its outcome, how often it decided, and the cell. -/
structure Updated (σ : Type u) (ρ : Type v) where
  outcome : ρ
  attempts : Nat
  cell : Cell σ

/-- An update that nobody interferes with. -/
def update (c : Cell σ) (decide : σ → Decision σ ρ) : Updated σ ρ :=
  match decide c.current with
  | .abort r => ⟨r, 1, c⟩
  | .commit next r => ⟨r, 1, c.commit next⟩

/-- An update against others: between its look and its commit in the first attempt the
    commits of the first round land, in the second attempt those of the second, and so on;
    behind the last round nobody interferes. -/
def updateAgainst (decide : σ → Decision σ ρ) : List (List (σ → σ)) → Cell σ → Updated σ ρ
  | [], c => c.update decide
  | others :: rounds, c =>
    let disturbed := c.interfere others
    match decide c.current with
    | .abort r => ⟨r, 1, disturbed⟩
    | .commit next r =>
      if disturbed.version = c.version then ⟨r, 1, disturbed.commit next⟩
      else
        let later := updateAgainst decide rounds disturbed
        { later with attempts := later.attempts + 1 }

end Cell

end ResumeOnce

import ImpTree.Error

/-!
# Checks that annotate

A check walks over a node, fills its annotation slots and gives a verdict.  When it fails it leaves
the annotations that it has made so far, so node and verdict are kept side by side.

* `Checked` — the node after a check, and the verdict.
* `Checked.andThen` — the next step of a check, if the ones before it passed.
* `Checked.each` — the same check for every node of a list, until one fails.
-/

namespace ImpTree

/-- What a check leaves behind. -/
structure Checked (ν α : Type) where
  /-- The node with the annotations made so far. -/
  node : ν
  /-- The result of the check, or the first error. -/
  verdict : Except Error α

namespace Checked

variable {ν μ σ α β : Type}

/-- A check that passed. -/
def pass (node : ν) (a : α) : Checked ν α := ⟨node, .ok a⟩

/-- A check that failed. -/
def fail (node : ν) (e : Error) : Checked ν α := ⟨node, .error e⟩

/-- A check without steps of its own. -/
def done (node : ν) (verdict : Except Error α) : Checked ν α := ⟨node, verdict⟩

/-- Puts the checked node into a larger one. -/
def inside (c : Checked ν α) (build : ν → μ) : Checked μ α := ⟨build c.node, c.verdict⟩

/-- Goes on with the next step if the check passed; if it failed, the error stands and `build` puts
the node into the larger one. -/
def andThen (c : Checked ν α) (build : ν → μ) (next : ν → α → Checked μ β) : Checked μ β :=
  match c.verdict with
  | .ok a => next c.node a
  | .error e => ⟨build c.node, .error e⟩

/-- Checks the nodes of a list one after the other, each in the state that the one before it leaves,
until one fails. -/
def each (check : ν → σ → Checked ν σ) : List ν → σ → Checked (List ν) σ
  | [], state => pass [] state
  | node :: rest, state =>
    (check node state).andThen (· :: rest) fun node state =>
      (each check rest state).inside (node :: ·)

/-! ## How the steps compute -/

@[simp]
theorem andThen_pass (node : ν) (a : α) (build : ν → μ) (next : ν → α → Checked μ β) :
    (pass node a).andThen build next = next node a := rfl

@[simp]
theorem andThen_fail (node : ν) (e : Error) (build : ν → μ) (next : ν → α → Checked μ β) :
    (fail node e).andThen build next = fail (build node) e := rfl

@[simp]
theorem inside_pass (node : ν) (a : α) (build : ν → μ) :
    (pass node a).inside build = pass (build node) a := rfl

@[simp]
theorem inside_fail (node : ν) (e : Error) (build : ν → μ) :
    (fail node e : Checked ν α).inside build = fail (build node) e := rfl

/-- A check either passed or failed. -/
theorem eq_pass_or_eq_fail (c : Checked ν α) :
    (∃ a, c = pass c.node a) ∨ ∃ e, c = fail c.node e := by
  obtain ⟨node, verdict⟩ := c
  cases verdict with
  | ok a => exact .inl ⟨a, rfl⟩
  | error e => exact .inr ⟨e, rfl⟩

end Checked

end ImpTree

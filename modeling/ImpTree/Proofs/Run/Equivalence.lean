import ImpTree.Proofs.Run.Raising

/-!
# What a computation comes to

A computation comes to an outcome, a result or an error, if it does so when it is given enough
rounds.  It then does so within any larger number of rounds, and it comes to one outcome only.

* `Program.ComesTo` — a computation comes to an outcome.
* `Program.comesTo_bind` — what one computation after the other comes to.
* `Program.Equivalent` — two statements that come to the same outcomes.
-/

namespace ImpTree

open Filter (atTop eventually_ge_atTop)

variable {α β : Type} {p : Program} {sink : Sink} {s : State}

/-- An end that comes out comes out of the better computation. -/
theorem Eval.Approximates.of_ended {m m' : Eval α} {o : Outcome α} (h : m.Approximates m')
    (hm : m s = o) (ho : o ≠ .unfinished) : m' s = o := by
  rcases h s with hs | hs
  · exact absurd (hm.symm.trans hs) ho
  · exact hs.trans hm

/-! ## With enough rounds -/

/-- With enough rounds, the computation comes to the outcome, which is a result or an error. -/
def Program.ComesTo (p : Program) (sink : Sink) (m : Host → Eval α) (s : State) (o : Outcome α) :
    Prop :=
  o ≠ .unfinished ∧ ∃ rounds, m (p.host sink rounds) s = o

namespace Program.ComesTo

variable {m : Host → Eval α} {o o' : Outcome α}

/-- What a computation comes to is what it comes to within any larger number of rounds. -/
theorem eventually (hm : Host.Grows m) (h : p.ComesTo sink m s o) :
    ∀ᶠ rounds in atTop, m (p.host sink rounds) s = o := by
  obtain ⟨ho, n, hn⟩ := h
  filter_upwards [eventually_ge_atTop n] with n' hle
  exact (hm (p.host_approximates sink hle)).of_ended hn ho

/-- A result that comes out. -/
theorem of_done {rounds : Nat} {a : α} {s₁ : State} (h : m (p.host sink rounds) s = .done a s₁) :
    p.ComesTo sink m s (.done a s₁) :=
  ⟨by simp, rounds, h⟩

/-- An error that comes out. -/
theorem of_failed {rounds : Nat} {e : Error} {writes : List String}
    (h : m (p.host sink rounds) s = .failed e writes) :
    p.ComesTo sink m s (.failed e writes) :=
  ⟨by simp, rounds, h⟩

theorem of_eventually (ho : o ≠ .unfinished)
    (h : ∀ᶠ rounds in atTop, m (p.host sink rounds) s = o) : p.ComesTo sink m s o :=
  ⟨ho, h.exists⟩

/-- A computation comes to one outcome only. -/
theorem unique (hm : Host.Grows m) (h : p.ComesTo sink m s o) (h' : p.ComesTo sink m s o') :
    o = o' := by
  obtain ⟨n, hn, hn'⟩ := ((h.eventually hm).and (h'.eventually hm)).exists
  exact hn.symm.trans hn'

end Program.ComesTo

/-- One computation after the other: the first one fails, or the second one goes on with what the
first one comes to. -/
theorem Program.comesTo_bind {m : Host → Eval α} {f : Host → α → Eval β} {o : Outcome β}
    (hm : Host.Grows m) (hf : ∀ a, Host.Grows fun host => f host a) :
    p.ComesTo sink (fun host => m host >>= f host) s o ↔
      (∃ e writes, o = .failed e writes ∧ p.ComesTo sink m s (.failed e writes)) ∨
        ∃ a s₁, p.ComesTo sink m s (.done a s₁) ∧
          p.ComesTo sink (fun host => f host a) s₁ o := by
  constructor
  · rintro ⟨ho, n, hn⟩
    simp only [Eval.bind_apply] at hn
    cases hms : m (p.host sink n) s with
    | unfinished =>
      rw [hms] at hn
      exact absurd hn.symm ho
    | failed e writes =>
      rw [hms] at hn
      exact .inl ⟨e, writes, hn.symm, .of_failed hms⟩
    | done a s₁ =>
      rw [hms] at hn
      exact .inr ⟨a, s₁, .of_done hms, ho, n, hn⟩
  · rintro (⟨e, writes, rfl, h⟩ | ⟨a, s₁, h, h'⟩)
    · refine .of_eventually (by simp) ?_
      filter_upwards [h.eventually hm] with n hn
      exact Eval.bind_of_failed hn
    · refine .of_eventually h'.1 ?_
      filter_upwards [h.eventually hm, h'.eventually (hf a)] with n hn hn'
      rw [Eval.bind_of_done hn, hn']

/-! ## Equivalent statements -/

/-- In the scope, whatever was written before, the statements come to the same outcomes: one ends if
and only if the other one does, with the same result or error, the same output and the same
scope. -/
def Program.Equivalent (p : Program) (scope : Scope) (stmt stmt' : Stmt) : Prop :=
  ∀ sink writes o, p.ComesTo sink (fun host => stmt.execute host) ⟨scope, writes⟩ o ↔
    p.ComesTo sink (fun host => stmt'.execute host) ⟨scope, writes⟩ o

end ImpTree

import ImpTree.Run

/-!
# What a computation can come to

A requirement on the outcome of a computation: on its result and the state it leaves, and on the
error if it fails.  Nothing is required of a computation that needs more rounds.

* `Outcome.Meets` — the requirement; `Except.Meets` — the same of a result or an error by itself.
* `Outcome.Meets.bind`, `Outcome.Meets.inChild`, `Outcome.Meets.inCall`, `Outcome.Meets.loop` — how
  the requirement is met by computations that are put together.
* `RunResult.ofOutcome?_eq_ok`, `RunResult.ofOutcome?_eq_error` — runs that are computations.
-/

namespace ImpTree

variable {α β : Type}

/-- A result is as `post` says, and an error is one that `excuse` allows. -/
def Outcome.Meets (o : Outcome α) (post : α → State → Prop) (excuse : Error → Prop) : Prop :=
  match o with
  | .done a state => post a state
  | .failed e _ => excuse e
  | .unfinished => True

/-- The same of a result or an error without a state. -/
def Except.Meets (x : Except Error α) (post : α → Prop) (excuse : Error → Prop) : Prop :=
  match x with
  | .ok a => post a
  | .error e => excuse e

/-- The requirement holds of a result. -/
theorem Except.Meets.of_ok {x : Except Error α} {a : α} {post : α → Prop} {excuse : Error → Prop}
    (h : Except.Meets x post excuse) (hx : x = .ok a) : post a := by
  subst hx
  exact h

/-- The requirement holds of an error. -/
theorem Except.Meets.of_error {x : Except Error α} {e : Error} {post : α → Prop}
    {excuse : Error → Prop} (h : Except.Meets x post excuse) (hx : x = .error e) : excuse e := by
  subst hx
  exact h

/-- One step after the other, each of which may fail. -/
theorem Except.Meets.bind {x : Except Error α} {f : α → Except Error β} {mid : α → Prop}
    {post : β → Prop} {excuse : Error → Prop} (hx : Except.Meets x mid excuse)
    (hf : ∀ a, mid a → Except.Meets (f a) post excuse) : Except.Meets (x >>= f) post excuse := by
  cases x with
  | ok a => exact hf a hx
  | error e => exact hx

namespace Outcome.Meets

variable {o : Outcome α} {m : Eval α} {f : α → Eval β} {state : State}
  {mid post post' : α → State → Prop} {last : β → State → Prop} {excuse excuse' : Error → Prop}

theorem mono (h : o.Meets post excuse) (hpost : ∀ a s, o = .done a s → post a s → post' a s)
    (hexcuse : ∀ e, excuse e → excuse' e) : o.Meets post' excuse' := by
  cases o with
  | done a s => exact hpost a s rfl h
  | failed e writes => exact hexcuse e h
  | unfinished => trivial

/-- The requirement holds of a result that comes out. -/
theorem of_done {a : α} {s : State} (h : o.Meets post excuse) (ho : o = .done a s) : post a s := by
  subst ho
  exact h

/-- The requirement holds of an error that comes out. -/
theorem of_failed {e : Error} {writes : List String} (h : o.Meets post excuse)
    (ho : o = .failed e writes) : excuse e := by
  subst ho
  exact h

/-- One computation after the other: what the first leaves is what the second starts with. -/
theorem bind (hm : (m state).Meets mid excuse)
    (hf : ∀ a s, m state = .done a s → mid a s → (f a s).Meets last excuse) :
    ((m >>= f) state).Meets last excuse := by
  rw [Eval.bind_apply]
  cases hstate : m state with
  | done a s =>
    rw [hstate] at hm
    exact hf a s hstate hm
  | failed e writes =>
    rw [hstate] at hm
    exact hm
  | unfinished => trivial

/-- A computation in a frame of its own. -/
theorem inChild
    (h : (m { state with scope := state.scope.child }).Meets
      (fun a s => post a { s with scope := s.scope.leave }) excuse) :
    (Eval.inChild m state).Meets post excuse := by
  rw [Eval.inChild]
  cases hm : m { state with scope := state.scope.child } with
  | done a s => rw [hm] at h; exact h
  | failed e writes => rw [hm] at h; exact h
  | unfinished => trivial

/-- A computation in a frame directly inside the root. -/
theorem inCall
    (h : (m { state with scope := state.scope.global.child }).Meets
      (fun a s => post a { s with scope := ⟨state.scope.inner, s.scope.root⟩ }) excuse) :
    (Eval.inCall m state).Meets post excuse := by
  rw [Eval.inCall]
  cases hm : m { state with scope := state.scope.global.child } with
  | done a s => rw [hm] at h; exact h
  | failed e writes => rw [hm] at h; exact h
  | unfinished => trivial

/-- A loop: `inv` holds before every round; an error of a later round must be one that is allowed
in the rounds before it. -/
theorem loop {condition : Eval Bool} {body : Eval (Option α)} {inv : State → Prop}
    {entered : State → State → Prop} {post : Option α → State → Prop}
    {excuse : State → Error → Prop}
    (hcondition : ∀ s, inv s → (condition s).Meets
      (fun holds s₁ => if holds then entered s s₁ else post none s₁) (excuse s))
    (hbody : ∀ s s₁, inv s → condition s = .done true s₁ → entered s s₁ → (body s₁).Meets
      (fun flow s₂ => match flow with
        | none => inv s₂ ∧ (body s₁ = .done none s₂ → ∀ e, excuse s₂ e → excuse s e)
        | some a => post (some a) s₂) (excuse s)) :
    ∀ (rounds : Nat) (s : State), inv s →
      (Eval.loop condition body rounds s).Meets post (excuse s) := by
  intro rounds
  induction rounds with
  | zero => exact fun s _ => trivial
  | succ rounds ih =>
    intro s hs
    have hc := hcondition s hs
    rw [Eval.loop]
    cases hcs : condition s with
    | unfinished => trivial
    | failed e writes => rw [hcs] at hc; exact hc
    | done holds s₁ =>
      rw [hcs] at hc
      cases holds with
      | false => exact hc
      | true =>
        have hb := hbody s s₁ hs hcs hc
        cases hbs : body s₁ with
        | unfinished => simp only [hbs]; trivial
        | failed e writes => rw [hbs] at hb; simp only [hbs]; exact hb
        | done flow s₂ =>
          rw [hbs] at hb
          cases flow with
          | some a => simp only [hbs]; exact hb
          | none =>
            simp only [hbs]
            exact (ih s₂ hb.1).mono (fun _ _ _ h => h) (hb.2 rfl)

end Outcome.Meets

/-! ## Runs -/

namespace RunResult

variable {o : Outcome Value} {writes : List String}

/-- A run that succeeds is a computation that ends. -/
theorem ofOutcome?_eq_ok {v : Value} (h : ofOutcome? o = some ⟨.ok v, writes⟩) :
    ∃ s, o = .done v s := by
  cases o with
  | done v' s =>
    cases h
    exact ⟨s, rfl⟩
  | failed e writes' => cases h
  | unfinished => cases h

/-- A run with an error is a computation that fails with it, after the same writes. -/
theorem ofOutcome?_eq_error {e : Error} (h : ofOutcome? o = some ⟨.error e, writes⟩) :
    o = .failed e writes.reverse := by
  cases o with
  | done v s => cases h
  | failed e' accepted =>
    cases h
    rw [List.reverse_reverse]
  | unfinished => cases h

end RunResult

end ImpTree

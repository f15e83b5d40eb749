import ImpTree.Proofs.Run.Outcomes
import ImpTree.Proofs.Run.Steps

/-!
# What an expression does to the scope

An expression changes the scope through the functions that it calls and in no other way.  So what
every call does to the scope, any expression does, if doing it again and again comes to the same.

* `Host.Acts` — what every call of a declared function does to the scope.
* `Expr.evaluate_acts` — **an expression does to the scope what calls do.**
* `Program.host_sameInner`, `Expr.inner_evaluate` — calls and expressions leave the inner frames as
  they were.
-/

namespace ImpTree

/-! ## Reading and writing -/

section Reading

variable {α : Type} {m : Eval α} {R : Scope → Scope → Prop}

/-- Whatever the computation comes to, the scopes before and after it are related. -/
def Eval.Acts (R : Scope → Scope → Prop) (m : Eval α) : Prop :=
  ∀ s, (m s).Meets (fun _ s' => R s.scope s'.scope) fun _ => True

namespace Eval.Acts

theorem of_done (h : m.Acts R) {s s' : State} {a : α} (hm : m s = .done a s') :
    R s.scope s'.scope := (h s).of_done hm

/-- A result does nothing to the scope. -/
theorem pure (hrefl : ∀ s, R s s) (a : α) : Acts R (Pure.pure a : Eval α) := fun s => hrefl s.scope

/-- An error, or a result without further computation, does nothing to the scope. -/
theorem lift (hrefl : ∀ s, R s s) (x : Except Error α) : Acts R (Eval.lift x) := by
  intro s
  cases x with
  | ok a => exact hrefl s.scope
  | error e => trivial

/-- One computation after the other. -/
theorem bind {β : Type} {f : α → Eval β} (htrans : ∀ {s t u}, R s t → R t u → R s u)
    (hm : m.Acts R) (hf : ∀ a, (f a).Acts R) : Acts R (m >>= f) := by
  intro s
  refine (hm s).bind fun a t _ ht => ?_
  exact (hf a t).mono (fun _ _ _ hu => htrans ht hu) fun _ h => h

/-- Reading the scope does nothing to it. -/
theorem scope (hrefl : ∀ s, R s s) : Acts R Eval.scope := fun s => hrefl s.scope

/-- Looking up a name does nothing to the scope. -/
theorem lookup (hrefl : ∀ s, R s s) (name : String) (span : Span) :
    Acts R (Eval.lookup name span) := by
  intro s
  rw [Eval.lookup, Eval.bind_of_done Eval.scope_apply]
  exact lift hrefl _ s

/-- Writing does nothing to the scope. -/
theorem writeAll (hrefl : ∀ s, R s s) (htrans : ∀ {s t u}, R s t → R t u → R s u) (sink : Sink) :
    ∀ texts : List String, Acts R (Eval.writeAll sink texts) := by
  intro texts
  induction texts with
  | nil => exact pure hrefl ()
  | cons text rest ih =>
    have hwrite : Acts R (Eval.write sink text) := by
      intro s
      rw [Eval.write]
      cases sink.refusal? s.writes with
      | none => exact hrefl s.scope
      | some reason => trivial
    exact hwrite.bind htrans fun _ => ih

end Eval.Acts

/-- A built-in function does nothing to the scope. -/
theorem Builtin.invoke_acts (hrefl : ∀ s, R s s) (htrans : ∀ {s t u}, R s t → R t u → R s u)
    (sink : Sink) (arguments : List Value) (function : Builtin) :
    (function.invoke sink arguments).Acts R := by
  have hlines : ∀ values : List Value, (printLines sink values).Acts R := by
    intro values
    induction values with
    | nil => exact .pure hrefl ()
    | cons v rest ih => exact (Eval.Acts.writeAll hrefl htrans sink _).bind htrans fun _ => ih
  cases function with
  | print => exact (hlines arguments).bind htrans fun _ => .pure hrefl _

end Reading

/-! ## Expressions -/

section Expressions

variable {R : Scope → Scope → Prop} {host : Host}

/-- Every call of a declared function does this to the scope. -/
def Host.Acts (R : Scope → Scope → Prop) (host : Host) : Prop :=
  ∀ index arguments, (host.call index arguments).Acts R

variable (hrefl : ∀ s, R s s) (htrans : ∀ {s t u}, R s t → R t u → R s u)

include hrefl htrans

namespace Expr

mutual

/-- **An expression does to the scope what calls do.** -/
theorem evaluate_acts (h : host.Acts R) : ∀ e : Expr, (e.evaluate host).Acts R
  | .literal value span ty => .pure hrefl _
  | .group inner span ty => evaluate_acts h inner
  | .binary op left right span ty => by
    rw [evaluate]
    refine (evaluate_acts h left).bind htrans fun a => ?_
    by_cases hop : op = .and ∨ op = .or
    · rw [if_pos hop]
      refine (Eval.Acts.lift hrefl _).bind htrans fun decided => ?_
      by_cases hdecided : decided = (op == .or)
      · rw [if_pos hdecided]
        exact .pure hrefl _
      · rw [if_neg hdecided]
        exact (evaluate_acts h right).bind htrans fun b =>
          (Eval.Acts.lift hrefl _).bind htrans fun _ => .pure hrefl _
    · rw [if_neg hop]
      exact (evaluate_acts h right).bind htrans fun b => .lift hrefl _
  | .var name binding span ty => by
    rw [evaluate]
    exact (Eval.Acts.lookup hrefl name span).bind htrans fun _ => .pure hrefl _
  | .element name offset binding span ty => by
    rw [evaluate]
    exact (evaluate_acts h offset).bind htrans fun _ =>
      (Eval.Acts.lookup hrefl name span).bind htrans fun _ => .lift hrefl _
  | .call name arguments binding span ty => by
    rw [evaluate]
    refine (evaluateAll_acts h arguments).bind htrans fun values =>
      (Eval.Acts.scope hrefl).bind htrans fun scope =>
        (Eval.Acts.lift hrefl _).bind htrans fun callee => ?_
    cases callee.target with
    | builtin function => exact Builtin.invoke_acts hrefl htrans host.sink values function
    | declared index => exact h index values
  | .list elements span ty => by
    rw [evaluate]
    exact (evaluateAll_acts h elements).bind htrans fun _ => .pure hrefl _

/-- So do expressions, one after the other. -/
theorem evaluateAll_acts (h : host.Acts R) : ∀ es : List Expr, (evaluateAll host es).Acts R
  | [] => .pure hrefl _
  | e :: rest => by
    rw [evaluateAll]
    exact (evaluate_acts h e).bind htrans fun _ =>
      (evaluateAll_acts h rest).bind htrans fun _ => .pure hrefl _

end

/-- So does a condition. -/
theorem evaluateCondition_acts (h : host.Acts R) (condition : Expr) :
    (condition.evaluateCondition host).Acts R :=
  (evaluate_acts hrefl htrans h condition).bind htrans fun _ => .lift hrefl _

/-- So does an initial value. -/
theorem evaluateOption_acts (h : host.Acts R) (value : Option Expr) :
    (evaluateOption host value).Acts R := by
  cases value with
  | none => exact .pure hrefl _
  | some e => exact evaluate_acts hrefl htrans h e

end Expr

end Expressions

/-! ## Calls -/

/-- The inner frames are the same, with the same names and values. -/
def Scope.SameInner (s s' : Scope) : Prop := s'.inner = s.inner

theorem Scope.SameInner.trans {s t u : Scope} (h : s.SameInner t) (h' : t.SameInner u) :
    s.SameInner u := Eq.trans h' h

/-- A computation in a frame directly inside the root gives the inner frames back as they were. -/
theorem Eval.inCall_sameInner {α : Type} (m : Eval α) : (Eval.inCall m).Acts Scope.SameInner := by
  intro s
  refine Outcome.Meets.inCall ?_
  cases m { s with scope := s.scope.global.child } with
  | done a after => rfl
  | failed e writes => trivial
  | unfinished => trivial

/-- **Calls give the inner frames back as they were**, whatever program they belong to. -/
theorem Program.host_sameInner (p : Program) (sink : Sink) (rounds : Nat) :
    (p.host sink rounds).Acts Scope.SameInner := by
  intro index arguments
  show (callWithin sink p.functions rounds index arguments).Acts Scope.SameInner
  cases rounds with
  | zero => exact fun _ => trivial
  | succ depth =>
    rw [callWithin]
    cases p.functions[index]? with
    | none => exact fun _ => trivial
    | some f => exact Eval.inCall_sameInner _

/-- An expression leaves the inner frames as they are. -/
theorem Expr.inner_evaluate {p : Program} {sink : Sink} {rounds : Nat} {e : Expr} {s s' : State}
    {v : Value} (h : e.evaluate (p.host sink rounds) s = .done v s') :
    s'.scope.inner = s.scope.inner :=
  (Expr.evaluate_acts (R := Scope.SameInner) (fun _ => rfl) Scope.SameInner.trans
    (p.host_sameInner sink rounds) e).of_done h

end ImpTree

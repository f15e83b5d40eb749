import ImpTree.Proofs.Run.Discipline
import ImpTree.Proofs.Run.Paired

/-!
# Calls do not see the variables of their callers

A function that is called sees the root and its own arguments.  So an expression depends on the
inner frames through the names that it reads itself, and changes nothing in them.

* `Scope.inner?` — the innermost variable of a name that does not stand in the root.
* `Outcome.atRoot` — what is left of an outcome when the inner frames are left out.
* `Program.call_atRoot` — **a call depends on the root and nothing else of the scope.**
* `Program.calls_isolated` — **lexical isolation of calls.**
-/

namespace ImpTree

open Relation (ReflTransGen)

/-! ## What is seen of a scope -/

/-- The innermost variable of a name that does not stand in the root, if there is one. -/
def Scope.inner? (s : Scope) (name : String) : Option Variable :=
  s.inner.findSome? fun f => f.var? name

/-- A name is looked up in the inner frames first, then in the root. -/
theorem Scope.var?_eq_inner?_or (s : Scope) (name : String) :
    s.var? name = (s.inner? name).or (s.root.var? name) := by
  rw [var?, frames, List.findSome?_append, inner?, List.findSome?_cons]
  cases s.root.var? name <;> rfl

/-- The same outcome without the inner frames of the scope. -/
def Outcome.atRoot {α : Type} : Outcome α → Outcome α
  | .done a s => .done a { s with scope := s.scope.global }
  | .failed e writes => .failed e writes
  | .unfinished => .unfinished

/-- Two scopes have the same root, and the given inner frames. -/
structure Scope.Around (inner inner' : List Frame) (s s' : Scope) : Prop where
  /-- The inner frames of the first scope. -/
  left : s.inner = inner
  /-- The inner frames of the second scope. -/
  right : s'.inner = inner'
  /-- The roots are the same. -/
  root : s.root = s'.root

section Around

variable {α : Type} {inner inner' : List Frame}

/-- Outcomes that go together differ in the inner frames only. -/
theorem Outcome.Pairs.atRoot_eq {o o' : Outcome α}
    (h : Outcome.Pairs id (Scope.Around inner inner') o o') : o'.atRoot = o.atRoot := by
  cases h with
  | done h => rw [atRoot, atRoot, Scope.global, Scope.global, h.root]
  | failed => rw [Error.mapSpan_id]
  | unfinished => rfl

/-- A computation in a frame directly inside the root sees nothing of the inner frames. -/
theorem Eval.inCall_around (m : Eval α) :
    Eval.Pairs id (Scope.Around inner inner') (Eval.inCall m) (Eval.inCall m) := by
  intro s s' h writes
  have henter : s'.global.child = s.global.child := by
    rw [Scope.global, Scope.global, h.root]
  rw [inCall, inCall, henter]
  cases m ⟨s.global.child, writes⟩ with
  | done a t => exact .done ⟨h.left, h.right, rfl⟩
  | failed e writes' => exact .failed_id e writes'
  | unfinished => exact .unfinished

/-- A call of a declared function sees nothing of the inner frames. -/
theorem Program.call_around (p : Program) (sink : Sink) (rounds index : Nat)
    (arguments : List Value) :
    Eval.Pairs id (Scope.Around inner inner') ((p.host sink rounds).call index arguments)
      ((p.host sink rounds).call index arguments) := by
  show Eval.Pairs id _ (callWithin sink p.functions rounds index arguments)
    (callWithin sink p.functions rounds index arguments)
  cases rounds with
  | zero => exact .unfinished
  | succ depth =>
    rw [callWithin]
    cases p.functions[index]? with
    | none => exact .fail (.unresolvedName s!"function #{index}" .nowhere)
    | some f => exact Eval.inCall_around _

/-- The names that are read are looked up with the same success, and all functions stand in the
root. -/
theorem Program.host_around (p : Program) (sink : Sink) (rounds : Nat) {reads : String → Prop}
    (hinner : ∀ f ∈ inner, f.callees = []) (hinner' : ∀ f ∈ inner', f.callees = [])
    (hreads : ∀ name, reads name →
      (inner'.findSome? fun f => f.var? name).map Variable.value =
        (inner.findSome? fun f => f.var? name).map Variable.value) :
    (p.host sink rounds).Pairs id (Scope.Around inner inner') reads (fun _ => True)
      (p.host sink rounds) := by
  refine ⟨fun name hname s s' h => ?_, ?_⟩
  · have hvalue := hreads name hname
    rw [← h.left, ← h.right] at hvalue
    rw [Scope.var?_eq_inner?_or, Scope.var?_eq_inner?_or, h.root, Option.map_or, Option.map_or]
    exact congrArg (Option.or · _) hvalue
  · rintro ⟨name, arity⟩ - span values -
    refine Host.callNamed_pairs fun s s' h => ?_
    have hoffers : s.Offers s.root.callees := ⟨rfl, h.left ▸ hinner⟩
    have hoffers' : s'.Offers s.root.callees := ⟨congrArg Frame.callees h.root.symm,
      h.right ▸ hinner'⟩
    rw [hoffers.callee?, hoffers'.callee?]
    cases Callee.among? s.root.callees name values.length with
    | none => exact .none
    | some c =>
      refine .some ?_
      cases c.target with
      | builtin function => exact Builtin.invoke_pairs sink values function
      | declared index => exact p.call_around sink rounds index values

end Around

/-! ## Programs -/

namespace Program

/-- **A call depends on the root and nothing else of the scope**: from scopes with the same root it
comes to the same result, or error, with the same output and the same root. -/
theorem call_atRoot (p : Program) (sink : Sink) (rounds index : Nat) (arguments : List Value)
    {scope scope' : Scope} (hroot : scope.root = scope'.root) (writes : List String) :
    ((p.host sink rounds).call index arguments ⟨scope', writes⟩).atRoot =
      ((p.host sink rounds).call index arguments ⟨scope, writes⟩).atRoot :=
  (p.call_around sink rounds index arguments scope scope' ⟨rfl, rfl, hroot⟩ writes).atRoot_eq

/-- **Lexical isolation of calls.**  In every scope that arises in a run, an expression that has a
value leaves the inner frames exactly as they were, whatever it calls.  In two such scopes with the
same root, in which every name that the expression reads itself has the same value in the inner
frames or is in neither of them, it comes to the same value or error, with the same output and the
same new root.  A call, in any scope, leaves the inner frames as they were and depends on the root
only. -/
theorem calls_isolated (p : Program) :
    (∀ scope, p.Arises scope → ∀ sink rounds writes (e : Expr) v t,
      e.evaluate (p.host sink rounds) ⟨scope, writes⟩ = .done v t →
        t.scope.inner = scope.inner) ∧
    (∀ scope scope', p.Arises scope → p.Arises scope' → scope.root = scope'.root →
      ∀ e : Expr, (∀ name ∈ e.reads,
        (scope'.inner? name).map Variable.value = (scope.inner? name).map Variable.value) →
      ∀ sink rounds writes,
        (e.evaluate (p.host sink rounds) ⟨scope', writes⟩).atRoot =
          (e.evaluate (p.host sink rounds) ⟨scope, writes⟩).atRoot) ∧
    ∀ sink rounds index arguments writes,
      (∀ scope v t, (p.host sink rounds).call index arguments ⟨scope, writes⟩ = .done v t →
        t.scope.inner = scope.inner) ∧
      ∀ scope scope' : Scope, scope.root = scope'.root →
        ((p.host sink rounds).call index arguments ⟨scope', writes⟩).atRoot =
          ((p.host sink rounds).call index arguments ⟨scope, writes⟩).atRoot := by
  refine ⟨fun scope _ sink rounds writes e v t hend => Expr.inner_evaluate hend,
    fun scope scope' hscope hscope' hroot e hreads sink rounds writes => ?_,
    fun sink rounds index arguments writes => ⟨fun scope v t hend => ?_,
      fun scope scope' hroot => p.call_atRoot sink rounds index arguments hroot writes⟩⟩
  · have hhost := p.host_around sink rounds hscope.lexical.callees hscope'.lexical.callees hreads
    have hpairs := Expr.evaluate_pairs hhost e (fun _ hname => hname) (fun _ _ => trivial)
    have hexpr : e.mapSpans id = e := Expr.mapSpans_eq_self fun _ _ => rfl
    rw [hexpr] at hpairs
    exact (hpairs scope scope' ⟨rfl, rfl, hroot⟩ writes).atRoot_eq
  · exact (p.host_sameInner sink rounds index arguments).of_done hend

/-- A program whose `main` has a local variable of the name of the parameter of `add`, which changes
the parameter and a global. -/
def adding : Program :=
  ⟨[Build.global "total" true none (some (Build.literal (.integer 1)))],
    [Build.function "main" [] (some "Integer")
      [Build.declaration "n" none (some (Build.literal (.integer 5))),
        Build.ret (Build.call "add" [Build.literal (.integer 2)])],
      Build.function "add" [("n", "Integer")] (some "Integer")
        [Build.assignment (Build.var "total") (Build.binary .add (Build.var "total")
            (Build.var "n")),
          Build.assignment (Build.var "n") (Build.literal (.integer 0)),
          Build.ret (Build.var "total")]]⟩

/-- The scope of the program that adds, when all is declared, with these frames inside the root. -/
def addingScope (total : Int) (inner : List Frame) : Scope :=
  ⟨inner, ⟨[⟨⟨"total", .any, true⟩, .integer total⟩],
    ⟨⟨"add", [.any], .any⟩, .declared 1⟩ :: ⟨⟨"main", [], .any⟩, .declared 0⟩ ::
      Scope.initial.root.callees⟩⟩

/-- The frame of `main`, after its declaration. -/
def addingFrame : Frame := ⟨[⟨⟨"n", .any, true⟩, .integer 5⟩], []⟩

/-- The call of `add` leaves the local variable of `main` and comes to the same with and without
it. -/
theorem calls_isolated_adding :
    (Build.call "add" [Build.literal (.integer 2)]).evaluate (adding.host .unbounded 2)
        ⟨addingScope 1 [addingFrame], []⟩ =
      .done (.integer 3) ⟨addingScope 3 [addingFrame], []⟩ ∧
    (addingScope 3 [addingFrame]).inner = (addingScope 1 [addingFrame]).inner ∧
    ((Build.call "add" [Build.literal (.integer 2)]).evaluate (adding.host .unbounded 2)
        ⟨addingScope 1 [], []⟩).atRoot =
      ((Build.call "add" [Build.literal (.integer 2)]).evaluate (adding.host .unbounded 2)
        ⟨addingScope 1 [addingFrame], []⟩).atRoot := by
  have hisolated := calls_isolated adding
  have hglobals : adding.Ends .unbounded (fun host => declareGlobals host adding.globals)
      ⟨.initial, []⟩ () ⟨(addingScope 1 []).withCallees Scope.initial.root.callees, []⟩ :=
    ⟨0, by cbv⟩
  have hmain : adding.Step .unbounded .start
      ⟨.call 0 [], ⟨addingScope 1 [], []⟩, adding.known, []⟩ :=
    .main hglobals (by cbv) (by cbv)
  have hbody : adding.Step .unbounded ⟨.call 0 [], ⟨addingScope 1 [], []⟩, adding.known, []⟩
      ⟨.block _, ⟨addingScope 1 [⟨[], []⟩], []⟩, _, _⟩ := .body rfl rfl
  have hdeclared : adding.Ends .unbounded
      (fun host => (Build.declaration "n" none (some (Build.literal (.integer 5)))).execute host)
      ⟨addingScope 1 [⟨[], []⟩], []⟩ none ⟨addingScope 1 [addingFrame], []⟩ := ⟨0, by cbv⟩
  have hat : adding.Arises (addingScope 1 []) := ⟨_, _, .single hmain, rfl⟩
  have hinside : adding.Arises (addingScope 1 [addingFrame]) :=
    ⟨_, _, ((ReflTransGen.single hmain).tail hbody).tail (.nextStmts hdeclared), rfl⟩
  have hend : (Build.call "add" [Build.literal (.integer 2)]).evaluate (adding.host .unbounded 2)
      ⟨addingScope 1 [addingFrame], []⟩ =
    .done (.integer 3) ⟨addingScope 3 [addingFrame], []⟩ := by cbv
  exact ⟨hend, hisolated.1 _ hinside _ _ _ _ _ _ hend,
    hisolated.2.1 _ _ hinside hat rfl _ (fun _ hname => absurd hname List.not_mem_nil) _ _ _⟩

end Program

end ImpTree

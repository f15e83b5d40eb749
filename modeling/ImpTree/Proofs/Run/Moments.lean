import ImpTree.Run
import ImpTree.Proofs.Scope.Names
import Mathlib.Logic.Relation

/-!
# The moments of a run

A run is taken apart into moments: something is to be done in a state.  What is to be done may
involve doing a part of it first, or going on with the rest of it afterwards, and each of these is a
moment of its own.  Moments do not depend on how many rounds a run is given, so a run that never
ends has moments, too.

Beside the state, a moment keeps what the annotations say of the names in scope, and the frames of
the functions that wait for a call to end.

* `Task` — what there is to do.
* `Program.Ends` — a computation ends if it is given enough rounds.
* `Moment`, `Program.Step` — a moment, and the moments that follow from it directly.
* `Program.Reaches` — the moments of a run, and `Program.LeadsTo`, those that follow from a task.
-/

namespace ImpTree

/-! ## Tasks -/

/-- What there is to do at a moment of a run. -/
inductive Task where
  /-- The whole program. -/
  | program
  /-- The globals that are not yet declared. -/
  | globals (rest : List Global)
  /-- A call of the function at a position of the program. -/
  | call (index : Nat) (arguments : List Value)
  /-- Statements one after the other. -/
  | block (stmts : List Stmt)
  /-- One statement. -/
  | stmt (stmt : Stmt)
  /-- The arms of a switch that are not yet tried. -/
  | cases (condition : Value) (arms : List Case)
  /-- Expressions one after the other. -/
  | exprs (es : List Expr)
  /-- One expression. -/
  | expr (e : Expr)
  /-- Nothing more: an expression, a statement or a call has just been finished. -/
  | finished

/-- With enough rounds, the computation ends with the result in the second state. -/
def Program.Ends {α : Type} (p : Program) (sink : Sink) (m : Host → Eval α) (s : State) (a : α)
    (s' : State) : Prop :=
  ∃ rounds, m (p.host sink rounds) s = .done a s'

/-! ## What the annotations say of names -/

/-- The scope with the variable that a slot notes, if it notes one. -/
def Scope.noting (known : Scope) : Slot VariableBinding → Scope
  | some binding => known.withVariable ⟨binding, .nil⟩
  | none => known

/-- What is known after a statement: a declaration notes its variable. -/
def Scope.after (known : Scope) : Stmt → Scope
  | .declaration _ _ _ binding _ => known.noting binding
  | _ => known

/-- The scope with parameters of the given names and types. -/
def Scope.notingParameters : Scope → List String → List Ty → Scope
  | known, name :: names, ty :: tys =>
    (known.withVariable ⟨⟨name, ty, true⟩, .nil⟩).notingParameters names tys
  | known, _, _ => known

/-- What is known to the body of a function: the whole program and the parameters. -/
def FunctionDef.inside (f : FunctionDef) (known : Scope) : Scope :=
  known.global.child.notingParameters f.parameters ((f.binding.map (·.parameterTypes)).getD [])

/-- The scope with the functions that stand at the positions from `index` on. -/
def Scope.notingFunctions : Scope → Nat → List FunctionDef → Scope
  | known, _, [] => known
  | known, index, f :: rest =>
    match f.binding with
    | some binding => (known.withCallee ⟨binding, .declared index⟩).notingFunctions (index + 1) rest
    | none => known.notingFunctions (index + 1) rest

/-- What is known of the globals and functions of a program. -/
def Program.known (p : Program) : Scope :=
  let early := p.globals.foldl (fun (known : Scope) (g : Global) => known.noting g.binding) .initial
  early.notingFunctions 0 p.functions

/-! ## Moments -/

/-- The inner frames of a function that waits for a call to end: as they are known, and as they
are. -/
structure Waiting where
  /-- What the annotations say of the frames. -/
  known : List Frame
  /-- The frames with their values. -/
  actual : List Frame

/-- A moment of a run. -/
structure Moment where
  /-- What there is to do. -/
  task : Task
  /-- The state in which it is to be done. -/
  state : State
  /-- What the annotations say of the names in scope. -/
  known : Scope
  /-- The functions that wait for a call to end, the latest first. -/
  waiting : List Waiting

/-- A state with the scope in which a block is executed. -/
def State.enter (s : State) : State := { s with scope := s.scope.child }

/-- A state with the scope in which the arguments of a call are declared. -/
def State.enterCall (s : State) : State := { s with scope := s.scope.global.child }

section Steps

variable (p : Program) (sink : Sink)

/-- The second moment follows directly from the first one: its task is a part of the first task, or
the rest of it, or it is finished. -/
inductive Program.Step : Moment → Moment → Prop where
  /-- A program starts with its globals. -/
  | globals {s known waiting} :
      Step ⟨.program, s, known, waiting⟩ ⟨.globals p.globals, s, known, waiting⟩
  /-- After the globals and the functions are declared, `main` is called. -/
  | main {s s₁ s₂ known waiting index}
      (hglobals : p.Ends sink (fun host => declareGlobals host p.globals) s () s₁)
      (hfunctions : declareFunctions 0 p.functions s₁ = .done () s₂)
      (hmain : s₂.scope.mainIndex = .ok index) :
      Step ⟨.program, s, known, waiting⟩ ⟨.call index [], s₂, p.known, waiting⟩
  /-- The initial value of the first global. -/
  | globalValue {g rest e s known waiting} (hvalue : g.value = some e) :
      Step ⟨.globals (g :: rest), s, known, waiting⟩ ⟨.expr e, s, known, waiting⟩
  /-- The globals after the first one. -/
  | nextGlobal {g rest v s s₁ s₂ known waiting}
      (hvalue : p.Ends sink (fun host => Expr.evaluateOption host g.value) s v s₁)
      (hdeclare : Eval.declare ⟨g.name, .any, g.isMutable⟩ v g.span s₁ = .done () s₂) :
      Step ⟨.globals (g :: rest), s, known, waiting⟩
        ⟨.globals rest, s₂, known.noting g.binding, waiting⟩
  /-- The body of a function that is called. -/
  | body {index arguments f s s₁ known waiting} (hf : p.functions[index]? = some f)
      (harguments : declareArguments f.span f.parameters arguments s.enterCall = .done () s₁) :
      Step ⟨.call index arguments, s, known, waiting⟩
        ⟨.block f.body, s₁, f.inside known, ⟨known.inner, s.scope.inner⟩ :: waiting⟩
  /-- The first statement of a block. -/
  | firstStmt {stmt rest s known waiting} :
      Step ⟨.block (stmt :: rest), s, known, waiting⟩ ⟨.stmt stmt, s, known, waiting⟩
  /-- The statements after the first one, unless that ended the function. -/
  | nextStmts {stmt rest s s₁ known waiting}
      (hstmt : p.Ends sink (fun host => stmt.execute host) s none s₁) :
      Step ⟨.block (stmt :: rest), s, known, waiting⟩
        ⟨.block rest, s₁, known.after stmt, waiting⟩
  /-- The call of an expression statement. -/
  | expression {e span s known waiting} :
      Step ⟨.stmt (.expression e span), s, known, waiting⟩ ⟨.expr e, s, known, waiting⟩
  /-- The initial value of a declaration. -/
  | initial {name typeName e binding span s known waiting} :
      Step ⟨.stmt (.declaration name typeName (some e) binding span), s, known, waiting⟩
        ⟨.expr e, s, known, waiting⟩
  /-- The new value of a variable. -/
  | assigned {name binding place ty e span s known waiting} :
      Step ⟨.stmt (.assignment (.var name binding place ty) e span), s, known, waiting⟩
        ⟨.expr e, s, known, waiting⟩
  /-- The index of an element that gets a new value. -/
  | assignedOffset {name offset binding place ty e span s known waiting} :
      Step ⟨.stmt (.assignment (.element name offset binding place ty) e span), s, known, waiting⟩
        ⟨.expr offset, s, known, waiting⟩
  /-- The new value of an element, after the index. -/
  | assignedElement {name offset binding place ty e span index s s₁ known waiting}
      (hoffset : p.Ends sink (fun host => offset.evaluate host) s index s₁) :
      Step ⟨.stmt (.assignment (.element name offset binding place ty) e span), s, known, waiting⟩
        ⟨.expr e, s₁, known, waiting⟩
  /-- The condition of an if. -/
  | ifCondition {condition thenBody elseBody span s known waiting} :
      Step ⟨.stmt (.ifElse condition thenBody elseBody span), s, known, waiting⟩
        ⟨.expr condition, s, known, waiting⟩
  /-- The first block of an if. -/
  | thenBody {condition thenBody elseBody span s s₁ known waiting}
      (hcondition : p.Ends sink (fun host => condition.evaluate host) s (.boolean true) s₁) :
      Step ⟨.stmt (.ifElse condition thenBody elseBody span), s, known, waiting⟩
        ⟨.block thenBody, s₁.enter, known.child, waiting⟩
  /-- The second block of an if. -/
  | elseBody {condition thenBody elseBody span s s₁ known waiting}
      (hcondition : p.Ends sink (fun host => condition.evaluate host) s (.boolean false) s₁) :
      Step ⟨.stmt (.ifElse condition thenBody elseBody span), s, known, waiting⟩
        ⟨.block elseBody, s₁.enter, known.child, waiting⟩
  /-- The condition of a switch. -/
  | switchCondition {condition cases span s known waiting} :
      Step ⟨.stmt (.switch condition cases span), s, known, waiting⟩
        ⟨.expr condition, s, known, waiting⟩
  /-- The arms of a switch, after the condition. -/
  | arms {condition cases span v s s₁ known waiting}
      (hcondition : p.Ends sink (fun host => condition.evaluate host) s v s₁) :
      Step ⟨.stmt (.switch condition cases span), s, known, waiting⟩
        ⟨.cases v cases, s₁, known, waiting⟩
  /-- The condition of a loop, in this round. -/
  | whileCondition {condition body span s known waiting} :
      Step ⟨.stmt (.whileLoop condition body span), s, known, waiting⟩
        ⟨.expr condition, s, known, waiting⟩
  /-- The body of a loop, in this round. -/
  | whileBody {condition body span s s₁ known waiting}
      (hcondition : p.Ends sink (fun host => condition.evaluate host) s (.boolean true) s₁) :
      Step ⟨.stmt (.whileLoop condition body span), s, known, waiting⟩
        ⟨.block body, s₁.enter, known.child, waiting⟩
  /-- The rounds of a loop after this one. -/
  | again {condition body span s s₁ s₂ known waiting}
      (hcondition : p.Ends sink (fun host => condition.evaluate host) s (.boolean true) s₁)
      (hbody : p.Ends sink (fun host => Eval.inChild (Stmt.executeBlock host body)) s₁ none s₂) :
      Step ⟨.stmt (.whileLoop condition body span), s, known, waiting⟩
        ⟨.stmt (.whileLoop condition body span), s₂, known, waiting⟩
  /-- The result of a function. -/
  | result {e span s known waiting} :
      Step ⟨.stmt (.ret e span), s, known, waiting⟩ ⟨.expr e, s, known, waiting⟩
  /-- The value of the first arm. -/
  | armValue {v e body span rest s known waiting} :
      Step ⟨.cases v (.mk (some e) body span :: rest), s, known, waiting⟩
        ⟨.expr e, s, known, waiting⟩
  /-- The statements of the first arm, if its value fits. -/
  | armBody {v x e body span rest s s₁ known waiting}
      (hvalue : p.Ends sink (fun host => e.evaluate host) s x s₁) (hsame : x.same v = true) :
      Step ⟨.cases v (.mk (some e) body span :: rest), s, known, waiting⟩
        ⟨.block body, s₁.enter, known.child, waiting⟩
  /-- The arms after the first one, if its value does not fit. -/
  | nextArms {v x e body span rest s s₁ known waiting}
      (hvalue : p.Ends sink (fun host => e.evaluate host) s x s₁) (hsame : x.same v = false) :
      Step ⟨.cases v (.mk (some e) body span :: rest), s, known, waiting⟩
        ⟨.cases v rest, s₁, known, waiting⟩
  /-- The statements of an arm without a value. -/
  | defaultBody {v body span rest s known waiting} :
      Step ⟨.cases v (.mk none body span :: rest), s, known, waiting⟩
        ⟨.block body, s.enter, known.child, waiting⟩
  /-- The first of several expressions. -/
  | firstExpr {e rest s known waiting} :
      Step ⟨.exprs (e :: rest), s, known, waiting⟩ ⟨.expr e, s, known, waiting⟩
  /-- The expressions after the first one. -/
  | nextExprs {e rest v s s₁ known waiting}
      (he : p.Ends sink (fun host => e.evaluate host) s v s₁) :
      Step ⟨.exprs (e :: rest), s, known, waiting⟩ ⟨.exprs rest, s₁, known, waiting⟩
  /-- The expression in parentheses. -/
  | inner {e span ty s known waiting} :
      Step ⟨.expr (.group e span ty), s, known, waiting⟩ ⟨.expr e, s, known, waiting⟩
  /-- The left operand. -/
  | left {op left right span ty s known waiting} :
      Step ⟨.expr (.binary op left right span ty), s, known, waiting⟩
        ⟨.expr left, s, known, waiting⟩
  /-- The right operand of `&&` or `||`, if the left one leaves the result open. -/
  | undecided {op left right span ty decided s s₁ known waiting} (hop : op = .and ∨ op = .or)
      (hleft : p.Ends sink (fun host => left.evaluate host) s (.boolean decided) s₁)
      (hopen : decided ≠ (op == .or)) :
      Step ⟨.expr (.binary op left right span ty), s, known, waiting⟩
        ⟨.expr right, s₁, known, waiting⟩
  /-- The right operand of another operator. -/
  | right {op left right span ty a s s₁ known waiting} (hop : ¬(op = .and ∨ op = .or))
      (hleft : p.Ends sink (fun host => left.evaluate host) s a s₁) :
      Step ⟨.expr (.binary op left right span ty), s, known, waiting⟩
        ⟨.expr right, s₁, known, waiting⟩
  /-- The index of an element. -/
  | offset {name offset binding span ty s known waiting} :
      Step ⟨.expr (.element name offset binding span ty), s, known, waiting⟩
        ⟨.expr offset, s, known, waiting⟩
  /-- The arguments of a call. -/
  | arguments {name arguments binding span ty s known waiting} :
      Step ⟨.expr (.call name arguments binding span ty), s, known, waiting⟩
        ⟨.exprs arguments, s, known, waiting⟩
  /-- The call of a declared function, after its arguments. -/
  | callee {name arguments binding span ty values callee index s s₁ known waiting}
      (harguments : p.Ends sink (fun host => Expr.evaluateAll host arguments) s values s₁)
      (hcallee : s₁.scope.callee? name values.length = some callee)
      (htarget : callee.target = .declared index) :
      Step ⟨.expr (.call name arguments binding span ty), s, known, waiting⟩
        ⟨.call index values, s₁, known, waiting⟩
  /-- The elements of a list. -/
  | elements {elements span ty s known waiting} :
      Step ⟨.expr (.list elements span ty), s, known, waiting⟩
        ⟨.exprs elements, s, known, waiting⟩
  /-- A call is finished. -/
  | callFinished {index arguments v s s₁ known waiting}
      (hcall : p.Ends sink (fun host => host.call index arguments) s v s₁) :
      Step ⟨.call index arguments, s, known, waiting⟩ ⟨.finished, s₁, known, waiting⟩
  /-- An expression is finished. -/
  | exprFinished {e v s s₁ known waiting}
      (he : p.Ends sink (fun host => e.evaluate host) s v s₁) :
      Step ⟨.expr e, s, known, waiting⟩ ⟨.finished, s₁, known, waiting⟩
  /-- A statement is finished. -/
  | stmtFinished {stmt flow s s₁ known waiting}
      (hstmt : p.Ends sink (fun host => stmt.execute host) s flow s₁) :
      Step ⟨.stmt stmt, s, known, waiting⟩ ⟨.finished, s₁, known.after stmt, waiting⟩

/-- The first moment of a run. -/
def Moment.start : Moment := ⟨.program, ⟨.initial, []⟩, .initial, []⟩

/-- The moment belongs to the run of the program with the sink. -/
def Program.Reaches (m : Moment) : Prop := Relation.ReflTransGen (p.Step sink) .start m

/-- The task leads from the state, whatever is known there, to a task and a state as required. -/
def Program.LeadsTo (task : Task) (s : State) (goal : Task → State → Prop) : Prop :=
  ∀ known waiting, ∃ m, Relation.ReflTransGen (p.Step sink) ⟨task, s, known, waiting⟩ m ∧
    goal m.task m.state

end Steps

namespace Program.LeadsTo

variable {p : Program} {sink : Sink} {task task' : Task} {s s' : State}
  {goal : Task → State → Prop}

/-- Nothing is to be done to come to the task itself. -/
theorem here (h : goal task s) : p.LeadsTo sink task s goal := fun _ _ => ⟨_, .refl, h⟩

/-- What leads on from a later moment leads on from the moments before it. -/
theorem of_step
    (hstep : ∀ known waiting, ∃ known' waiting',
      p.Step sink ⟨task, s, known, waiting⟩ ⟨task', s', known', waiting'⟩)
    (h : p.LeadsTo sink task' s' goal) : p.LeadsTo sink task s goal := by
  intro known waiting
  obtain ⟨known', waiting', hs⟩ := hstep known waiting
  obtain ⟨m, hm, hgoal⟩ := h known' waiting'
  exact ⟨m, .head hs hm, hgoal⟩

end Program.LeadsTo

end ImpTree

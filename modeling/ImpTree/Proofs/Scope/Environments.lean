import ImpTree.Proofs.Scope.Operations
import Mathlib

/-!
# Scopes are stacks of environments

An environment maps names to what they are bound to, and remembers the values that were set since.
A stack of environments says what a scope is meant to do: a name is looked up in the innermost
environment that has it, and a variable has the value that was set last.

* `Environment`, `Environments` — an environment and a stack of them.
* `Environments.step`, `Environments.history` — what operations on scopes mean for a stack.
* `Frame.Models`, `Scope.Models` — a scope that stands for a stack.
* `Scope.Models.step`, `Scope.Models.history` — **scopes answer like the stacks they stand for**,
  operation by operation and over whole sequences.
* `Scope.stack_of_environments` — **a scope is a stack of environments.**
-/

namespace ImpTree

open Scope (Op Answer Place)

/-! ## Stacks of environments -/

/-- What an environment knows of a variable. -/
structure Entry where
  /-- What does not change. -/
  binding : VariableBinding
  /-- The value that the variable is declared with. -/
  initial : Value
  /-- The values that are set through this binding after its declaration, the latest first. -/
  assigned : List Value

/-- The value that was set last; the initial one if none was set. -/
def Entry.last (e : Entry) : Value := e.assigned.head?.getD e.initial

/-- One more value is set. -/
def Entry.set (e : Entry) (value : Value) : Entry := { e with assigned := value :: e.assigned }

/-- The variable with the value that was set last. -/
def Entry.variable (e : Entry) : Variable := ⟨e.binding, e.last⟩

/-- What names are bound to: variables by their name, functions by their name and their number of
arguments. -/
structure Environment where
  /-- The variables. -/
  vars : String → Option Entry
  /-- The functions. -/
  callees : String → Nat → Option Callee

namespace Environment

/-- The environment without names. -/
def empty : Environment := ⟨fun _ => none, fun _ _ => none⟩

/-- The environment with one more variable. -/
def withVariable (env : Environment) (binding : VariableBinding) (value : Value) : Environment :=
  { env with vars := Function.update env.vars binding.name (some ⟨binding, value, []⟩) }

/-- The environment with one more function. -/
def withCallee (env : Environment) (c : Callee) : Environment :=
  { env with callees := fun name arity =>
      if c.binding.name = name ∧ c.binding.arity = arity then some c else env.callees name arity }

/-- The environment after a value is set through the binding of a name. -/
def record (env : Environment) (name : String) (value : Value) : Environment :=
  { env with vars := Function.update env.vars name ((env.vars name).map (·.set value)) }

end Environment

/-- A stack of environments, never empty. -/
structure Environments where
  /-- The environments inside the outermost one, the innermost first. -/
  inner : List Environment
  /-- The outermost environment. -/
  root : Environment

namespace Environments

/-- The outermost environment alone: all it knows is `print` with one argument. -/
def initial : Environments :=
  ⟨[], ⟨fun _ => none, fun name arity =>
    if "print" = name ∧ 1 = arity then some ⟨Builtin.print.binding, .builtin .print⟩ else none⟩⟩

/-- The innermost environment. -/
def innermost (E : Environments) : Environment := E.inner.head?.getD E.root

/-- The stack with another innermost environment. -/
def withInnermost (E : Environments) (env : Environment) : Environments :=
  match E.inner with
  | [] => { E with root := env }
  | _ :: rest => { E with inner := env :: rest }

/-- The environments in which a name is looked up, the innermost first. -/
def seen (E : Environments) : Place → List Environment
  | .here => E.inner ++ [E.root]
  | .global => [E.root]

/-- The innermost binding of a variable. -/
def var? (E : Environments) (place : Place) (name : String) : Option Entry :=
  (E.seen place).findSome? fun env => env.vars name

/-- The innermost function of a name and number of arguments. -/
def callee? (E : Environments) (place : Place) (name : String) (arity : Nat) : Option Callee :=
  (E.seen place).findSome? fun env => env.callees name arity

/-- Sets a value in the first of some environments that has the name, or else in a last one. -/
def recordIn (name : String) (value : Value) : List Environment → Environment →
    List Environment × Environment
  | [], last => ([], last.record name value)
  | env :: rest, last =>
    if (env.vars name).isSome then (env.record name value :: rest, last)
    else (env :: (recordIn name value rest last).1, (recordIn name value rest last).2)

/-- The stack after a value is set through the innermost binding of a name. -/
def record (E : Environments) : Place → String → Value → Environments
  | .here, name, value =>
    ⟨(recordIn name value E.inner E.root).1, (recordIn name value E.inner E.root).2⟩
  | .global, name, value => { E with root := E.root.record name value }

/-- **What an operation means**: its answer, and the stack after it. -/
def step (E : Environments) : Op → Answer × Environments
  | .enter => (.done, { E with inner := .empty :: E.inner })
  | .leave => (.done, { E with inner := E.inner.drop 1 })
  | .declareVariable binding value span =>
    if (E.innermost.vars binding.name).isSome then
      (.error (.duplicateBinding binding.name span), E)
    else
      (.variable ⟨binding, value⟩, E.withInnermost (E.innermost.withVariable binding value))
  | .declareFunction callee span =>
    if (E.innermost.callees callee.binding.name callee.binding.arity).isSome then
      (.error (.duplicateBinding (callName callee.binding.name callee.binding.arity) span), E)
    else
      (.function callee, E.withInnermost (E.innermost.withCallee callee))
  | .findVariable place name span =>
    match E.var? place name with
    | some e => (.variable e.variable, E)
    | none => (.error (.unresolvedName name span), E)
  | .findFunction place name arity span =>
    match E.callee? place name arity with
    | some c => (.function c, E)
    | none => (.error (.unresolvedName (callName name arity) span), E)
  | .update place name change span =>
    match E.var? place name with
    | some e => (.variable e.variable, E.record place name (change e.last))
    | none => (.error (.unresolvedName name span), E)

/-- The stack after operations, one after the other. -/
def perform (E : Environments) : List Op → Environments
  | [] => E
  | op :: rest => (E.step op).2.perform rest

/-- Operations, one after the other, with their answers. -/
def history (E : Environments) : List Op → List (Op × Answer)
  | [] => []
  | op :: rest => (op, (E.step op).1) :: (E.step op).2.history rest

end Environments

/-! ## Scopes that stand for stacks -/

/-- The frame has the variables and functions of the environment, with the values set last. -/
structure Frame.Models (f : Frame) (env : Environment) : Prop where
  /-- The variables. -/
  var? : ∀ name, f.var? name = (env.vars name).map Entry.variable
  /-- The functions. -/
  callee? : ∀ name arity, f.callee? name arity = env.callees name arity

namespace Frame

variable {f : Frame} {env : Environment} {name : String}

theorem Models.empty : Frame.empty.Models .empty := ⟨fun _ => rfl, fun _ _ => rfl⟩

/-- A variable is there in both or in neither. -/
theorem Models.isSome_var? (h : f.Models env) (name : String) :
    (f.var? name).isSome = (env.vars name).isSome := by
  rw [h.var?, Option.isSome_map]

theorem Models.withVariable (h : f.Models env) (binding : VariableBinding) (value : Value) :
    Models { f with vars := ⟨binding, value⟩ :: f.vars } (env.withVariable binding value) where
  var? := by
    intro name
    rw [Frame.var?, List.find?_cons]
    by_cases hname : name = binding.name
    · subst hname
      simp [Environment.withVariable, Entry.variable, Entry.last]
    · have hother : (binding.name == name) = false := by simp [Ne.symm hname]
      rw [hother]
      simp only [Environment.withVariable, Function.update_of_ne hname]
      exact h.var? name
  callee? := h.callee?

theorem Models.withCallee (h : f.Models env) (c : Callee) :
    Models { f with callees := c :: f.callees } (env.withCallee c) where
  var? := h.var?
  callee? := by
    intro name arity
    rw [Frame.callee?, List.find?_cons]
    by_cases hkey : c.binding.name = name ∧ c.binding.arity = arity
    · simp [Environment.withCallee, hkey]
    · have hother : (c.binding.name == name && c.binding.arity == arity) = false := by
        simpa [Bool.and_eq_false_iff, ← not_and_or] using hkey
      rw [hother]
      simp only [Environment.withCallee, if_neg hkey]
      exact h.callee? name arity

/-- The variables of a frame after an assignment. -/
theorem var?_assign (f : Frame) (name other : String) (value : Value) :
    (f.assign name value).var? other =
      if other = name then (f.var? other).map fun v => { v with value } else f.var? other := by
  have hnames : ((fun v : Variable => v.binding.name == other) ∘ fun v =>
      if v.binding.name == name then { v with value } else v) =
        fun v => v.binding.name == other := by
    funext v
    simp only [Function.comp_apply]
    split <;> rfl
  rw [Frame.var?, Frame.assign, List.find?_map, hnames, Frame.var?]
  cases hfound : f.vars.find? fun v => v.binding.name == other with
  | none => simp
  | some v =>
    have hv : v.binding.name = other := by simpa using List.find?_some hfound
    by_cases hother : other = name <;> simp [hv, hother]

theorem Models.assign (h : f.Models env) (name : String) (value : Value) :
    (f.assign name value).Models (env.record name value) where
  var? := by
    intro other
    rw [var?_assign]
    simp only [Environment.record]
    by_cases hother : other = name
    · subst hother
      rw [if_pos rfl, Function.update_self, h.var?]
      cases env.vars other <;> rfl
    · rw [if_neg hother, Function.update_of_ne hother]
      exact h.var? other
  callee? := h.callee?

end Frame

namespace Scope

/-- The scope stands for the stack: frame by frame, it has what the environments have. -/
structure Models (s : Scope) (E : Environments) : Prop where
  /-- The inner frames. -/
  inner : List.Forall₂ Frame.Models s.inner E.inner
  /-- The root. -/
  root : s.root.Models E.root

namespace Models

variable {s : Scope} {E : Environments} {name : String}

/-- The root alone stands for the outermost environment alone. -/
theorem initial : Scope.initial.Models .initial where
  inner := .nil
  root := by
    refine ⟨fun _ => rfl, fun name arity => ?_⟩
    have hprint : Builtin.print.binding.name = "print" ∧ Builtin.print.binding.arity = 1 :=
      ⟨rfl, rfl⟩
    by_cases hkey : "print" = name ∧ 1 = arity
    · obtain ⟨rfl, rfl⟩ := hkey
      rfl
    · have hother : ("print" == name && 1 == arity) = false := by
        simpa [Bool.and_eq_false_iff, ← not_and_or] using hkey
      simp only [Environments.initial, if_neg hkey]
      show List.find? _ [_] = none
      rw [List.find?_cons]
      simp [hprint, hother]

theorem child (h : s.Models E) : s.child.Models ⟨.empty :: E.inner, E.root⟩ :=
  ⟨.cons .empty h.inner, h.root⟩

theorem leave (h : s.Models E) : s.leave.Models ⟨E.inner.drop 1, E.root⟩ :=
  ⟨List.forall₂_drop 1 h.inner, h.root⟩

theorem innermost (h : s.Models E) : s.innermost.Models E.innermost := by
  obtain ⟨inner, root⟩ := s
  obtain ⟨envs, outermost⟩ := E
  obtain ⟨hinner, hroot⟩ := h
  cases hinner with
  | nil => exact hroot
  | cons hf _ => exact hf

theorem withInnermost (h : s.Models E) {f : Frame} {env : Environment} (hf : f.Models env) :
    (s.withInnermost f).Models (E.withInnermost env) := by
  obtain ⟨inner, root⟩ := s
  obtain ⟨envs, outermost⟩ := E
  obtain ⟨hinner, hroot⟩ := h
  cases hinner with
  | nil => exact ⟨.nil, hf⟩
  | cons _ hrest => exact ⟨.cons hf hrest, hroot⟩

/-- The frames that are searched stand for the environments that are searched. -/
theorem seen (h : s.Models E) (place : Place) :
    List.Forall₂ Frame.Models (s.seen place).frames (E.seen place) := by
  cases place with
  | here => exact List.rel_append h.inner (.cons h.root .nil)
  | global => exact .cons h.root .nil

/-- **A variable is found with the value set last**, and where it is found there is one. -/
theorem var? (h : s.Models E) (place : Place) (name : String) :
    (s.seen place).var? name = (E.var? place name).map Entry.variable := by
  rw [Scope.var?, Environments.var?]
  have hseen := h.seen place
  generalize (s.seen place).frames = fs at hseen ⊢
  generalize E.seen place = envs at hseen ⊢
  induction hseen with
  | nil => rfl
  | @cons f env _ _ hf _ ih =>
    rw [List.findSome?_cons, List.findSome?_cons, hf.var?]
    cases env.vars name with
    | none => exact ih
    | some e => rfl

/-- The same function is found. -/
theorem callee? (h : s.Models E) (place : Place) (name : String) (arity : Nat) :
    (s.seen place).callee? name arity = E.callee? place name arity := by
  rw [Scope.callee?, Environments.callee?]
  have hseen := h.seen place
  generalize (s.seen place).frames = fs at hseen ⊢
  generalize E.seen place = envs at hseen ⊢
  induction hseen with
  | nil => rfl
  | @cons f env _ _ hf _ ih =>
    rw [List.findSome?_cons, List.findSome?_cons, hf.callee?]
    cases env.callees name arity with
    | none => exact ih
    | some c => rfl

/-- **A value is set through the binding that is found.** -/
theorem assignFrom (h : s.Models E) (place : Place) (name : String) (value : Value) :
    (s.assignFrom place name value).Models (E.record place name value) := by
  cases place with
  | global => exact ⟨h.inner, h.root.assign name value⟩
  | here =>
    have hframes : ∀ {fs : List Frame} {envs : List Environment},
        List.Forall₂ Frame.Models fs envs →
          List.Forall₂ Frame.Models (assignIn name value fs s.root).1
              (Environments.recordIn name value envs E.root).1 ∧
            (assignIn name value fs s.root).2.Models
              (Environments.recordIn name value envs E.root).2 := by
      intro fs envs hfs
      induction hfs with
      | nil => exact ⟨.nil, h.root.assign name value⟩
      | @cons f env _ _ hf hrest ih =>
        rw [assignIn, Environments.recordIn, hf.isSome_var?]
        split
        · exact ⟨.cons (hf.assign name value) hrest, h.root⟩
        · exact ⟨.cons hf ih.1, ih.2⟩
    exact ⟨(hframes h.inner).1, (hframes h.inner).2⟩

/-- **A scope answers like the stack that it stands for**, and stands for the stack afterwards. -/
theorem step (h : s.Models E) (op : Op) :
    (s.step op).1 = (E.step op).1 ∧ (s.step op).2.Models (E.step op).2 := by
  cases op with
  | enter => exact ⟨rfl, h.child⟩
  | leave => exact ⟨rfl, h.leave⟩
  | declareVariable binding value span =>
    rw [Scope.step, Environments.step, addVariable, h.innermost.isSome_var?]
    by_cases hold : (E.innermost.vars binding.name).isSome = true
    · rw [if_pos hold, if_pos hold]
      exact ⟨rfl, h⟩
    · rw [if_neg hold, if_neg hold]
      exact ⟨rfl, h.withInnermost (h.innermost.withVariable binding value)⟩
  | declareFunction callee span =>
    rw [Scope.step, Environments.step]
    simp only [addFunction, h.innermost.callee?]
    by_cases hold : (E.innermost.callees callee.binding.name callee.binding.arity).isSome = true
    · rw [if_pos hold, if_pos hold]
      exact ⟨rfl, h⟩
    · rw [if_neg hold, if_neg hold]
      exact ⟨rfl, h.withInnermost (h.innermost.withCallee callee)⟩
  | findVariable place name span =>
    rw [Scope.step, Environments.step, findVariable, h.var?]
    cases E.var? place name <;> exact ⟨rfl, h⟩
  | findFunction place name arity span =>
    rw [Scope.step, Environments.step, findFunction, h.callee?]
    cases E.callee? place name arity <;> exact ⟨rfl, h⟩
  | update place name change span =>
    rw [Scope.step, Environments.step, findVariable, h.var?]
    cases E.var? place name with
    | none => exact ⟨rfl, h⟩
    | some e => exact ⟨rfl, h.assignFrom place name (change e.last)⟩

/-- So does a scope over whole sequences of operations. -/
theorem history : ∀ {ops : List Op} {s : Scope} {E : Environments}, s.Models E →
    s.history ops = E.history ops ∧ (s.perform ops).Models (E.perform ops) := by
  intro ops
  induction ops with
  | nil =>
    intro s E h
    exact ⟨rfl, h⟩
  | cons op rest ih =>
    intro s E h
    obtain ⟨hanswer, hafter⟩ := h.step op
    obtain ⟨hhistory, hperform⟩ := ih hafter
    refine ⟨?_, hperform⟩
    rw [Scope.history, Environments.history, hanswer, hhistory]

end Models

/-! ## What follows for scopes -/

/-- What is looked up in the root is answered as by the root alone. -/
theorem step_global (s : Scope) (name : String) (arity : Nat) (change : Value → Value)
    (span : Span) :
    (s.step (.findVariable .global name span)).1 =
        (s.global.step (.findVariable .here name span)).1 ∧
      (s.step (.findFunction .global name arity span)).1 =
        (s.global.step (.findFunction .here name arity span)).1 ∧
      (s.step (.update .global name change span)).1 =
        (s.global.step (.update .here name change span)).1 ∧
      (s.step (.update .global name change span)).2.global =
        (s.global.step (.update .here name change span)).2 := by
  simp only [step, seen]
  refine ⟨?_, ?_, ?_⟩
  · cases s.global.findVariable name span <;> rfl
  · cases s.global.findFunction name arity span <;> rfl
  · cases s.global.findVariable name span <;> exact ⟨rfl, rfl⟩

/-- A declaration fails exactly if the innermost environment has the name already. -/
theorem declareVariable_answer (ops : List Op) (binding : VariableBinding) (value : Value)
    (span : Span) :
    ((initial.perform ops).step (.declareVariable binding value span)).1 =
      if ((Environments.initial.perform ops).innermost.vars binding.name).isSome then
        .error (.duplicateBinding binding.name span)
      else .variable ⟨binding, value⟩ := by
  have hafter : (initial.perform ops).Models (Environments.initial.perform ops) :=
    (Models.history .initial).2
  rw [(hafter.step _).1, Environments.step]
  split <;> rfl

/-- So does the declaration of a function, with the number of arguments. -/
theorem declareFunction_answer (ops : List Op) (callee : Callee) (span : Span) :
    ((initial.perform ops).step (.declareFunction callee span)).1 =
      if ((Environments.initial.perform ops).innermost.callees callee.binding.name
          callee.binding.arity).isSome then
        .error (.duplicateBinding (callName callee.binding.name callee.binding.arity) span)
      else .function callee := by
  have hafter : (initial.perform ops).Models (Environments.initial.perform ops) :=
    (Models.history .initial).2
  rw [(hafter.step _).1, Environments.step]
  split <;> rfl

/-- **A scope is a stack of environments.**  Over every sequence of operations it answers like the
stack: a look-up finds the innermost binding of the name, with the value that was set through this
binding last.  A declaration fails exactly if the innermost environment has the name already.  An
operation that fails changes no later answer.  Leaving a scope restores what was there when it was
entered, except for the values of variables outside that were set meanwhile.  What is looked up in
the root is answered as by the root, which is what remains when all scopes are left.  And operations
on variables and operations on functions do not change each other's answers. -/
theorem stack_of_environments :
    (∀ ops, initial.history ops = Environments.initial.history ops) ∧
    (∀ ops binding value span,
      ((initial.perform ops).step (.declareVariable binding value span)).1 =
        if ((Environments.initial.perform ops).innermost.vars binding.name).isSome then
          .error (.duplicateBinding binding.name span)
        else .variable ⟨binding, value⟩) ∧
    (∀ ops callee span,
      ((initial.perform ops).step (.declareFunction callee span)).1 =
        if ((Environments.initial.perform ops).innermost.callees callee.binding.name
            callee.binding.arity).isSome then
          .error (.duplicateBinding (callName callee.binding.name callee.binding.arity) span)
        else .function callee) ∧
    (∀ (s : Scope) op e, (s.step op).1 = .error e →
      ∀ later, (s.step op).2.history later = s.history later) ∧
    (∀ (s : Scope) block, Op.Balanced 0 block →
      s.perform (.enter :: block ++ [.leave]) = s.perform (s.child.outward s.depth block) ∧
        ∀ op ∈ s.child.outward s.depth block,
          ∃ place name change span, op = .update place name change span) ∧
    (∀ s : Scope, s.perform (List.replicate s.depth .leave) = s.global ∧
      ∀ name arity change span,
        (s.step (.findVariable .global name span)).1 =
            (s.global.step (.findVariable .here name span)).1 ∧
          (s.step (.findFunction .global name arity span)).1 =
            (s.global.step (.findFunction .here name arity span)).1 ∧
          (s.step (.update .global name change span)).1 =
            (s.global.step (.update .here name change span)).1 ∧
          (s.step (.update .global name change span)).2.global =
            (s.global.step (.update .here name change span)).2) ∧
    ∀ (s : Scope) ops,
      (s.history ops).filter (fun x => !x.1.onFunctions) =
          s.history (ops.filter fun op => !op.onFunctions) ∧
        (s.history ops).filter (fun x => !x.1.onVariables) =
          s.history (ops.filter fun op => !op.onVariables) := by
  refine ⟨fun ops => (Models.history .initial).1, declareVariable_answer, declareFunction_answer,
    fun s op e h later => ?_,
    fun s block h => ⟨perform_block h s, fun op hop => update_of_mem_outward hop⟩,
    fun s => ⟨perform_leave s, step_global s⟩, fun s ops => ⟨?_, ?_⟩⟩
  · rw [step_of_error h]
  · exact history_filter step_variablesOnly variablesOnly_step ops s
  · exact history_filter step_functionsOnly functionsOnly_step ops s

/-- Two variables are declared. -/
def twoDeclared : Scope :=
  initial.perform [.declareVariable ⟨"x", .integer, true⟩ (.integer 1) .nowhere,
    .declareVariable ⟨"y", .integer, true⟩ (.integer 1) .nowhere]

/-- One of them is declared once more, and both are set. -/
def shadowing : List Op :=
  [.declareVariable ⟨"x", .integer, true⟩ (.integer 2) .nowhere,
    .set .here "x" (.integer 3) .nowhere, .set .here "y" (.integer 4) .nowhere]

/-- After the scope is left in which `x` is declared once more, the first `x` has its value again,
and `y` has the value that was set meanwhile.  A second `y` cannot be declared. -/
theorem stack_of_environments_shadowing :
    (twoDeclared.perform (.enter :: shadowing ++ [.leave])).var? "x" =
        some ⟨⟨"x", .integer, true⟩, .integer 1⟩ ∧
      (twoDeclared.perform (.enter :: shadowing ++ [.leave])).var? "y" =
        some ⟨⟨"y", .integer, true⟩, .integer 4⟩ ∧
      (twoDeclared.step (.declareVariable ⟨"y", .integer, true⟩ .nil .nowhere)).1 =
        .error (.duplicateBinding "y" .nowhere) ∧
      (twoDeclared.step (.declareVariable ⟨"y", .integer, true⟩ .nil .nowhere)).2.history
          shadowing =
        twoDeclared.history shadowing := by
  obtain ⟨-, -, -, hfails, hblock, -⟩ := stack_of_environments
  have hbalanced : Op.Balanced 0 shadowing := by simp [shadowing, Op.Balanced, Op.opens, Op.set]
  have hagain : (twoDeclared.step (.declareVariable ⟨"y", .integer, true⟩ .nil .nowhere)).1 =
      .error (.duplicateBinding "y" .nowhere) := by cbv
  refine ⟨?_, ?_, hagain, hfails _ _ _ hagain _⟩
  · rw [(hblock _ _ hbalanced).1]
    cbv
  · rw [(hblock _ _ hbalanced).1]
    cbv

end Scope

end ImpTree

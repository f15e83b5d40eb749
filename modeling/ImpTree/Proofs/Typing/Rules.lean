import ImpTree.Analysis
import ImpTree.Proofs.Typing.Values

/-!
# Typing rules

What it means for a tree to be well typed, said by rules and not by a procedure.  A rule relates a
node to the scope of the names that are known where the node stands.

Two propositions set how much the rules ask for.  If `noted` holds, the annotation slots hold what
the rules find; without it they may hold anything.  If `missing` does not hold, the rules leave no
room for missing values: a variable without an initial value has a type that `null` belongs to, a
function whose result must be there ends with a result, and only values of a definite type are put
in order.

* `Expr.Typed`, `Expr.AllTyped` — the rules for expressions.
* `Stmt.Typed`, `Stmt.BlockTyped`, `Stmt.CasesTyped` — the rules for statements.
* `FunctionDef.Typed`, `Program.Typed` — the rules for functions and whole programs.
* `Stmt.returns`, `Stmt.blockReturns` — does a statement surely end its function with a result?
-/

namespace ImpTree

/-- If `noted` holds, the slot holds the annotation. -/
def Slot.Notes {α : Type} (noted : Prop) (slot : Slot α) (a : α) : Prop := noted → slot = some a

/-! ## Expressions -/

mutual

/-- The expression has the type where the names of a scope are known. -/
inductive Expr.Typed (noted missing : Prop) (known : Scope) : Expr → Ty → Prop where
  /-- A constant in range. -/
  | literal {value : Literal} {span : Span} {slot : Slot Ty} {ty : Ty}
      (hty : value.ty span = .ok ty) (hslot : slot.Notes noted ty) :
      Expr.Typed noted missing known (.literal value span slot) ty
  /-- Parentheses around an operator and its operands. -/
  | group {inner : Expr} {span : Span} {slot : Slot Ty} {ty : Ty}
      (hbinary : inner.isBinary = true) (hinner : Expr.Typed noted missing known inner ty)
      (hslot : slot.Notes noted ty) :
      Expr.Typed noted missing known (.group inner span slot) ty
  /-- Two operands to which the operator gives a type. -/
  | binary {op : BinaryOp} {left right : Expr} {span : Span} {slot : Slot Ty}
      {leftTy rightTy ty : Ty} (hleft : Expr.Typed noted missing known left leftTy)
      (hright : Expr.Typed noted missing known right rightTy)
      (hty : op.resultTy leftTy rightTy span = .ok ty)
      (hdef : missing ∨ (op.IsOrdering → leftTy ≠ .comparable)) (hslot : slot.Notes noted ty) :
      Expr.Typed noted missing known (.binary op left right span slot) ty
  /-- The innermost variable of the name. -/
  | var {name : String} {binding : Slot VariableBinding} {span : Span} {slot : Slot Ty}
      {found : Variable} (hfound : known.var? name = some found)
      (hbinding : binding.Notes noted found.binding) (hslot : slot.Notes noted found.binding.ty) :
      Expr.Typed noted missing known (.var name binding span slot) found.binding.ty
  /-- An element of the list that the innermost variable of the name holds. -/
  | element {name : String} {offset : Expr} {binding : Slot VariableBinding} {span : Span}
      {slot : Slot Ty} {found : Variable} {ty : Ty}
      (hoffset : Expr.Typed noted missing known offset .integer)
      (hfound : known.var? name = some found) (hlist : found.binding.ty = .list ty)
      (hbinding : binding.Notes noted found.binding) (hslot : slot.Notes noted ty) :
      Expr.Typed noted missing known (.element name offset binding span slot) ty
  /-- The function of the name and number of arguments, on arguments that its parameters accept. -/
  | call {name : String} {arguments : List Expr} {binding : Slot FunctionBinding} {span : Span}
      {slot : Slot Ty} {callee : Callee} {tys : List Ty}
      (hfound : known.callee? name arguments.length = some callee)
      (harguments : Expr.AllTyped noted missing known arguments tys)
      (haccepts : List.Forall₂ (fun parameter ty => parameter.accepts ty = true)
        callee.binding.parameterTypes tys)
      (hbinding : binding.Notes noted callee.binding)
      (hslot : slot.Notes noted callee.binding.returnType) :
      Expr.Typed noted missing known (.call name arguments binding span slot)
        callee.binding.returnType
  /-- Elements of one type; there is at least one. -/
  | list {elements : List Expr} {span : Span} {slot : Slot Ty} {tys : List Ty} {ty : Ty}
      (helements : Expr.AllTyped noted missing known elements tys) (hne : tys ≠ [])
      (hsame : ∀ t ∈ tys, t = ty) (hslot : slot.Notes noted (.list ty)) :
      Expr.Typed noted missing known (.list elements span slot) (.list ty)

/-- The expressions have the types, one by one. -/
inductive Expr.AllTyped (noted missing : Prop) (known : Scope) : List Expr → List Ty → Prop where
  /-- There is no expression and no type. -/
  | nil : Expr.AllTyped noted missing known [] []
  /-- The first expression has the first type, and so on. -/
  | cons {e : Expr} {rest : List Expr} {ty : Ty} {tys : List Ty}
      (he : Expr.Typed noted missing known e ty)
      (hrest : Expr.AllTyped noted missing known rest tys) :
      Expr.AllTyped noted missing known (e :: rest) (ty :: tys)

end

/-- The type that is noted for an expression is the one that the rules find. -/
theorem Expr.Typed.ty_eq {noted missing : Prop} {known : Scope} {e : Expr} {ty : Ty} (hn : noted)
    (h : e.Typed noted missing known ty) : e.ty = some ty := by
  cases h with
  | literal _ hslot => exact hslot hn
  | group _ _ hslot => exact hslot hn
  | binary _ _ _ _ hslot => exact hslot hn
  | var _ _ hslot => exact hslot hn
  | element _ _ _ _ hslot => exact hslot hn
  | call _ _ _ _ hslot => exact hslot hn
  | list _ _ _ hslot => exact hslot hn

/-! ## Declarations -/

/-- A declaration with these parts declares a variable of the type: the named type, whose initial
value it must accept, or else the type of the initial value. -/
inductive Declares (types : TypeNames) (noted missing : Prop) (known : Scope) :
    Option String → Option Expr → Ty → Prop where
  /-- A type and no initial value; the variable starts with a missing one. -/
  | named {name : String} {ty : Ty} (hname : types.lookup name = some ty)
      (hnil : Value.nil.Fits missing ty) : Declares types noted missing known (some name) none ty
  /-- A type and an initial value that it accepts. -/
  | both {name : String} {value : Expr} {ty source : Ty} (hname : types.lookup name = some ty)
      (hvalue : value.Typed noted missing known source) (haccepts : ty.accepts source = true) :
      Declares types noted missing known (some name) (some value) ty
  /-- An initial value of the type. -/
  | inferred {value : Expr} {ty : Ty} (hvalue : value.Typed noted missing known ty) :
      Declares types noted missing known none (some value) ty

/-! ## Statements -/

mutual

/-- The statement surely ends its function with a result. -/
def Stmt.returns : Stmt → Bool
  | .ret _ _ => true
  | .ifElse _ thenBody elseBody _ => Stmt.blockReturns thenBody && Stmt.blockReturns elseBody
  | .switch _ cases _ => Stmt.casesReturn cases
  | .expression .. | .declaration .. | .assignment .. | .whileLoop .. => false

/-- One of the statements surely ends the function with a result. -/
def Stmt.blockReturns : List Stmt → Bool
  | [] => false
  | stmt :: rest => stmt.returns || Stmt.blockReturns rest

/-- Every arm surely ends the function with a result. -/
def Stmt.casesReturn : List Case → Bool
  | [] => true
  | .mk _ body _ :: rest => Stmt.blockReturns body && Stmt.casesReturn rest

end

mutual

/-- The statement is well typed in a function with results of type `result`; the second scope is
known after it. -/
inductive Stmt.Typed (types : TypeNames) (noted missing : Prop) (result : Ty) :
    Scope → Stmt → Scope → Prop where
  /-- A call made for its effects. -/
  | expression {known : Scope} {expr : Expr} {span : Span} {ty : Ty} (hcall : expr.isCall = true)
      (hexpr : expr.Typed noted missing known ty) :
      Stmt.Typed types noted missing result known (.expression expr span) known
  /-- A new variable, whose name the innermost frame does not have yet. -/
  | declaration {known after : Scope} {name : String} {typeName : Option String}
      {value : Option Expr} {binding : Slot VariableBinding} {span : Span} {ty : Ty}
      (hty : Declares types noted missing known typeName value ty)
      (hadd : known.addVariable ⟨name, ty, true⟩ .nil span = .ok after)
      (hbinding : binding.Notes noted ⟨name, ty, true⟩) :
      Stmt.Typed types noted missing result known (.declaration name typeName value binding span)
        after
  /-- A new value for a variable; what the slots note says that it is mutable. -/
  | assigned {known : Scope} {name : String} {binding : Slot VariableBinding} {place : Span}
      {slot : Slot Ty} {value : Expr} {span : Span} {found : Variable} {source : Ty}
      (hplace : Expr.Typed noted missing known (.var name binding place slot) found.binding.ty)
      (hfound : known.var? name = some found) (hvalue : value.Typed noted missing known source)
      (haccepts : found.binding.ty.accepts source = true)
      (hmutable : noted → found.binding.isMutable = true) :
      Stmt.Typed types noted missing result known
        (.assignment (.var name binding place slot) value span) known
  /-- A new value for an element of a list; what the slots note says that the list is mutable. -/
  | assignedElement {known : Scope} {name : String} {offset : Expr} {binding : Slot VariableBinding}
      {place : Span} {slot : Slot Ty} {value : Expr} {span : Span} {found : Variable}
      {target source : Ty}
      (hplace : Expr.Typed noted missing known (.element name offset binding place slot) target)
      (hoffset : offset.Typed noted missing known .integer)
      (hfound : known.var? name = some found) (hlist : found.binding.ty = .list target)
      (hvalue : value.Typed noted missing known source) (haccepts : target.accepts source = true)
      (hmutable : noted → found.binding.isMutable = true) :
      Stmt.Typed types noted missing result known
        (.assignment (.element name offset binding place slot) value span) known
  /-- Two blocks after a condition. -/
  | ifElse {known afterThen afterElse : Scope} {condition : Expr} {thenBody elseBody : List Stmt}
      {span : Span} (hcondition : condition.Typed noted missing known .boolean)
      (hthen : Stmt.BlockTyped types noted missing result known.child thenBody afterThen)
      (helse : Stmt.BlockTyped types noted missing result known.child elseBody afterElse) :
      Stmt.Typed types noted missing result known (.ifElse condition thenBody elseBody span) known
  /-- Arms whose values have the type of the condition. -/
  | switch {known : Scope} {condition : Expr} {cases : List Case} {span : Span} {ty : Ty}
      (hcondition : condition.Typed noted missing known ty)
      (hcases : Stmt.CasesTyped types noted missing result known ty cases) :
      Stmt.Typed types noted missing result known (.switch condition cases span) known
  /-- A block after a condition. -/
  | whileLoop {known after : Scope} {condition : Expr} {body : List Stmt} {span : Span}
      (hcondition : condition.Typed noted missing known .boolean)
      (hbody : Stmt.BlockTyped types noted missing result known.child body after) :
      Stmt.Typed types noted missing result known (.whileLoop condition body span) known
  /-- A result of exactly the function's type. -/
  | ret {known : Scope} {value : Expr} {span : Span}
      (hvalue : value.Typed noted missing known result) :
      Stmt.Typed types noted missing result known (.ret value span) known

/-- The statements are well typed one after the other. -/
inductive Stmt.BlockTyped (types : TypeNames) (noted missing : Prop) (result : Ty) :
    Scope → List Stmt → Scope → Prop where
  /-- There is no statement. -/
  | nil {known : Scope} : Stmt.BlockTyped types noted missing result known [] known
  /-- What is known after a statement is known to the rest. -/
  | cons {known next after : Scope} {stmt : Stmt} {rest : List Stmt}
      (hstmt : Stmt.Typed types noted missing result known stmt next)
      (hrest : Stmt.BlockTyped types noted missing result next rest after) :
      Stmt.BlockTyped types noted missing result known (stmt :: rest) after

/-- The arms are well typed for a condition of type `ty`: every arm but the last has a value, and
the last one has none. -/
inductive Stmt.CasesTyped (types : TypeNames) (noted missing : Prop) (result : Ty) :
    Scope → Ty → List Case → Prop where
  /-- The arm for all other values. -/
  | last {known after : Scope} {ty : Ty} {body : List Stmt} {span : Span}
      (hbody : Stmt.BlockTyped types noted missing result known.child body after) :
      Stmt.CasesTyped types noted missing result known ty [.mk none body span]
  /-- An arm for one value. -/
  | cons {known after : Scope} {ty : Ty} {value : Expr} {body : List Stmt} {span : Span}
      {rest : List Case} (hvalue : value.Typed noted missing known ty)
      (hbody : Stmt.BlockTyped types noted missing result known.child body after)
      (hrest : Stmt.CasesTyped types noted missing result known ty rest) :
      Stmt.CasesTyped types noted missing result known ty (.mk (some value) body span :: rest)

end

/-! ## Programs -/

/-- Globals are well typed one after the other, each with the names of those before it. -/
inductive GlobalsTyped (types : TypeNames) (noted missing : Prop) :
    Scope → List Global → Scope → Prop where
  /-- There is no global. -/
  | nil {known : Scope} : GlobalsTyped types noted missing known [] known
  /-- A new variable, whose name no global before it has. -/
  | cons {known next after : Scope} {g : Global} {rest : List Global} {ty : Ty}
      (hty : Declares types noted missing known g.typeName g.value ty)
      (hadd : known.addVariable ⟨g.name, ty, g.isMutable⟩ .nil g.span = .ok next)
      (hbinding : g.binding.Notes noted ⟨g.name, ty, g.isMutable⟩)
      (hrest : GlobalsTyped types noted missing next rest after) :
      GlobalsTyped types noted missing known (g :: rest) after

/-- As many results come out as there are elements. -/
theorem Except.length_of_mapM {α β : Type} {f : α → Except Error β} : ∀ {xs : List α} {ys : List β},
    xs.mapM f = .ok ys → ys.length = xs.length := by
  intro xs
  induction xs with
  | nil =>
    intro ys h
    cases h
    rfl
  | cons x xs ih =>
    intro ys h
    rw [List.mapM_cons] at h
    obtain ⟨y, -, h⟩ := Except.bind_ok_inv h
    obtain ⟨rest, hrest, h⟩ := Except.bind_ok_inv h
    cases h
    rw [List.length_cons, List.length_cons, ih hrest]

/-- What a signature says: the name, one type for every parameter, and the type of the result. -/
theorem FunctionDef.signature_eq_ok {types : TypeNames} {f : FunctionDef}
    {binding : FunctionBinding} (h : f.signature types = .ok binding) :
    binding.name = f.name ∧ binding.arity = f.parameters.length ∧
      f.returnTy types = .ok binding.returnType := by
  rw [FunctionDef.signature] at h
  split at h
  · cases h
  · rename_i hlength
    obtain ⟨parameterTypes, hparameters, h⟩ := Except.bind_ok_inv h
    obtain ⟨returnType, hreturn, h⟩ := Except.bind_ok_inv h
    cases h
    exact ⟨rfl, (Except.length_of_mapM hparameters).trans (Decidable.not_not.1 hlength).symm,
      hreturn⟩

/-- Functions from a position on are declared one after the other under their signatures. -/
inductive FunctionsDeclared (types : TypeNames) (noted : Prop) :
    Scope → Nat → List FunctionDef → List FunctionBinding → Scope → Prop where
  /-- There is no function. -/
  | nil {known : Scope} {index : Nat} : FunctionsDeclared types noted known index [] [] known
  /-- A new function, whose name and number of arguments no function before it has. -/
  | cons {known next after : Scope} {index : Nat} {f : FunctionDef} {rest : List FunctionDef}
      {binding : FunctionBinding} {bindings : List FunctionBinding}
      (hsignature : f.signature types = .ok binding)
      (hadd : known.addFunction ⟨binding, .declared index⟩ f.span = .ok next)
      (hbinding : f.binding.Notes noted binding)
      (hrest : FunctionsDeclared types noted next (index + 1) rest bindings after) :
      FunctionsDeclared types noted known index (f :: rest) (binding :: bindings) after

/-- The function is well typed under its signature where the whole program is known. -/
structure FunctionDef.Typed (types : TypeNames) (noted missing : Prop) (known : Scope)
    (f : FunctionDef) (binding : FunctionBinding) : Prop where
  /-- The signature is the function's own. -/
  signature : f.signature types = .ok binding
  /-- The slot notes the signature. -/
  note : f.binding.Notes noted binding
  /-- The body is well typed where the parameters are known, too. -/
  body : ∃ inside after,
    declareParameters f.span f.parameters binding.parameterTypes known.child = .ok inside ∧
      Stmt.BlockTyped types noted missing binding.returnType inside f.body after
  /-- A function that ends without a result has a type that a missing value fits. -/
  returns : Value.nil.Fits missing binding.returnType ∨ Stmt.blockReturns f.body = true

/-- The program is well typed; `early` is known after its globals, `known` to its functions. -/
structure Program.Typed (types : TypeNames) (noted missing : Prop) (early known : Scope)
    (p : Program) : Prop where
  /-- The globals are well typed where nothing but the built-in functions is known. -/
  globals : GlobalsTyped types noted missing .initial p.globals early
  /-- The functions are declared, then checked. -/
  functions : ∃ bindings, FunctionsDeclared types noted early 0 p.functions bindings known ∧
    List.Forall₂ (FunctionDef.Typed types noted missing known) p.functions bindings
  /-- There is a `main` that returns an integer. -/
  main : ∃ f ∈ p.functions, f.isMain = true ∧ f.returnTy types = .ok .integer

end ImpTree

import ImpTree.Error
import ImpTree.Tree.Notes

/-!
# Trees at other places

A tree with every span replaced by its image under a map, and the spans that a tree consists of.

* `Error.mapSpan` — an error that points at the image of its place.
* `Expr.mapSpans`, `Stmt.mapSpans`, `Program.mapSpans` — a tree whose nodes stand elsewhere.
* `Expr.nodeSpans`, `Stmt.nodeSpans`, `Program.nodeSpans` — the spans of all nodes of a tree.
* `Program.mapSpans_eq_self` — a map that fixes all spans of a tree does not change the tree.
* `Program.notes_mapSpans` — the annotations of a tree do not depend on its spans.
-/

namespace ImpTree

/-! ## Errors -/

/-- The same error at the image of its place, if it has one. -/
def Error.mapSpan (σ : Span → Span) : Error → Error
  | .entryPoint reason => .entryPoint reason
  | .unknownType name span => .unknownType name (σ span)
  | .unresolvedName name span => .unresolvedName name (σ span)
  | .duplicateBinding name span => .duplicateBinding name (σ span)
  | .typeMismatch expected got span => .typeMismatch expected got (σ span)
  | .literalRange literal span => .literalRange literal (σ span)
  | .invalidForm reason span => .invalidForm reason (σ span)
  | .divisionByZero span => .divisionByZero (σ span)
  | .negativeExponent exponent span => .negativeExponent exponent (σ span)
  | .indexOutOfBounds index length span => .indexOutOfBounds index length (σ span)
  | .io reason => .io reason

@[simp]
theorem Error.mapSpan_id (e : Error) : e.mapSpan id = e := by cases e <;> rfl

/-- The place of the error that is left is the image of the place it had. -/
@[simp]
theorem Error.span?_mapSpan (σ : Span → Span) (e : Error) :
    (e.mapSpan σ).span? = e.span?.map σ := by
  cases e <;> rfl

/-! ## Expressions -/

mutual

/-- The same expression with every span replaced by its image. -/
def Expr.mapSpans (σ : Span → Span) : Expr → Expr
  | .literal value span ty => .literal value (σ span) ty
  | .group inner span ty => .group (inner.mapSpans σ) (σ span) ty
  | .binary op left right span ty =>
    .binary op (left.mapSpans σ) (right.mapSpans σ) (σ span) ty
  | .var name binding span ty => .var name binding (σ span) ty
  | .element name offset binding span ty => .element name (offset.mapSpans σ) binding (σ span) ty
  | .call name arguments binding span ty =>
    .call name (Expr.mapAllSpans σ arguments) binding (σ span) ty
  | .list elements span ty => .list (Expr.mapAllSpans σ elements) (σ span) ty

/-- The same expressions with every span replaced by its image. -/
def Expr.mapAllSpans (σ : Span → Span) : List Expr → List Expr
  | [] => []
  | e :: rest => e.mapSpans σ :: Expr.mapAllSpans σ rest

end

mutual

/-- The spans of an expression and of the expressions inside it. -/
def Expr.nodeSpans : Expr → List Span
  | .literal _ span _ => [span]
  | .group inner span _ => span :: inner.nodeSpans
  | .binary _ left right span _ => span :: (left.nodeSpans ++ right.nodeSpans)
  | .var _ _ span _ => [span]
  | .element _ offset _ span _ => span :: offset.nodeSpans
  | .call _ arguments _ span _ => span :: Expr.allNodeSpans arguments
  | .list elements span _ => span :: Expr.allNodeSpans elements

/-- The spans of expressions and of the expressions inside them. -/
def Expr.allNodeSpans : List Expr → List Span
  | [] => []
  | e :: rest => e.nodeSpans ++ Expr.allNodeSpans rest

end

/-- The spans of an expression that may be missing. -/
def Expr.optionNodeSpans : Option Expr → List Span
  | some e => e.nodeSpans
  | none => []

namespace Expr

variable {σ : Span → Span}

@[simp]
theorem span_mapSpans (e : Expr) : (e.mapSpans σ).span = σ e.span := by cases e <;> rfl

@[simp]
theorem length_mapAllSpans (es : List Expr) : (mapAllSpans σ es).length = es.length := by
  induction es with
  | nil => rfl
  | cons _ rest ih => exact congrArg Nat.succ ih

mutual

/-- A map that fixes the spans of an expression does not change the expression. -/
theorem mapSpans_eq_self : ∀ {e : Expr}, (∀ s ∈ e.nodeSpans, σ s = s) → e.mapSpans σ = e
  | .literal value span ty, h => by
    rw [mapSpans, h span (by simp [nodeSpans])]
  | .group inner span ty, h => by
    simp only [nodeSpans, List.forall_mem_cons] at h
    rw [mapSpans, h.1, mapSpans_eq_self h.2]
  | .binary op left right span ty, h => by
    simp only [nodeSpans, List.forall_mem_cons, List.forall_mem_append] at h
    rw [mapSpans, h.1, mapSpans_eq_self h.2.1, mapSpans_eq_self h.2.2]
  | .var name binding span ty, h => by
    rw [mapSpans, h span (by simp [nodeSpans])]
  | .element name offset binding span ty, h => by
    simp only [nodeSpans, List.forall_mem_cons] at h
    rw [mapSpans, h.1, mapSpans_eq_self h.2]
  | .call name arguments binding span ty, h => by
    simp only [nodeSpans, List.forall_mem_cons] at h
    rw [mapSpans, h.1, mapAllSpans_eq_self h.2]
  | .list elements span ty, h => by
    simp only [nodeSpans, List.forall_mem_cons] at h
    rw [mapSpans, h.1, mapAllSpans_eq_self h.2]

/-- Nor does it change several expressions. -/
theorem mapAllSpans_eq_self : ∀ {es : List Expr}, (∀ s ∈ allNodeSpans es, σ s = s) →
    mapAllSpans σ es = es
  | [], _ => rfl
  | e :: rest, h => by
    simp only [allNodeSpans, List.forall_mem_append] at h
    rw [mapAllSpans, mapSpans_eq_self h.1, mapAllSpans_eq_self h.2]

end

/-- Nor does it change an expression that may be missing. -/
theorem map_mapSpans_eq_self {value : Option Expr} (h : ∀ s ∈ optionNodeSpans value, σ s = s) :
    value.map (mapSpans σ) = value := by
  cases value with
  | none => rfl
  | some e => exact congrArg some (mapSpans_eq_self h)

mutual

/-- The annotations of an expression do not depend on its spans. -/
theorem notes_mapSpans : ∀ e : Expr, (e.mapSpans σ).notes = e.notes
  | .literal value span ty => rfl
  | .group inner span ty => by
    rw [mapSpans, notes, notes, notes_mapSpans inner]
  | .binary op left right span ty => by
    rw [mapSpans, notes, notes, notes_mapSpans left, notes_mapSpans right]
  | .var name binding span ty => rfl
  | .element name offset binding span ty => by
    rw [mapSpans, notes, notes, notes_mapSpans offset]
  | .call name arguments binding span ty => by
    rw [mapSpans, notes, notes, listNotes_mapAllSpans arguments]
  | .list elements span ty => by
    rw [mapSpans, notes, notes, listNotes_mapAllSpans elements]

/-- Nor do those of several expressions. -/
theorem listNotes_mapAllSpans : ∀ es : List Expr, listNotes (mapAllSpans σ es) = listNotes es
  | [] => rfl
  | e :: rest => by
    rw [mapAllSpans, listNotes, listNotes, notes_mapSpans e, listNotes_mapAllSpans rest]

end

/-- Nor do those of an expression that may be missing. -/
theorem optionNotes_mapSpans (value : Option Expr) :
    optionNotes (value.map (mapSpans σ)) = optionNotes value := by
  cases value with
  | none => rfl
  | some e => exact notes_mapSpans e

end Expr

/-! ## Statements -/

mutual

/-- The same statement with every span replaced by its image. -/
def Stmt.mapSpans (σ : Span → Span) : Stmt → Stmt
  | .expression expr span => .expression (expr.mapSpans σ) (σ span)
  | .declaration name typeName value binding span =>
    .declaration name typeName (value.map (Expr.mapSpans σ)) binding (σ span)
  | .assignment receiver value span =>
    .assignment (receiver.mapSpans σ) (value.mapSpans σ) (σ span)
  | .ifElse condition thenBody elseBody span =>
    .ifElse (condition.mapSpans σ) (Stmt.mapBlockSpans σ thenBody) (Stmt.mapBlockSpans σ elseBody)
      (σ span)
  | .switch condition cases span =>
    .switch (condition.mapSpans σ) (Stmt.mapCasesSpans σ cases) (σ span)
  | .whileLoop condition body span =>
    .whileLoop (condition.mapSpans σ) (Stmt.mapBlockSpans σ body) (σ span)
  | .ret value span => .ret (value.mapSpans σ) (σ span)

/-- The same statements with every span replaced by its image. -/
def Stmt.mapBlockSpans (σ : Span → Span) : List Stmt → List Stmt
  | [] => []
  | stmt :: rest => stmt.mapSpans σ :: Stmt.mapBlockSpans σ rest

/-- The same arm with every span replaced by its image. -/
def Case.mapSpans (σ : Span → Span) : Case → Case
  | .mk value body span =>
    .mk (value.map (Expr.mapSpans σ)) (Stmt.mapBlockSpans σ body) (σ span)

/-- The same arms with every span replaced by its image. -/
def Stmt.mapCasesSpans (σ : Span → Span) : List Case → List Case
  | [] => []
  | arm :: rest => arm.mapSpans σ :: Stmt.mapCasesSpans σ rest

end

mutual

/-- The spans of a statement and of the nodes inside it. -/
def Stmt.nodeSpans : Stmt → List Span
  | .expression expr span => span :: expr.nodeSpans
  | .declaration _ _ value _ span => span :: Expr.optionNodeSpans value
  | .assignment receiver value span => span :: (receiver.nodeSpans ++ value.nodeSpans)
  | .ifElse condition thenBody elseBody span =>
    span :: (condition.nodeSpans ++
      (Stmt.blockNodeSpans thenBody ++ Stmt.blockNodeSpans elseBody))
  | .switch condition cases span => span :: (condition.nodeSpans ++ Stmt.casesNodeSpans cases)
  | .whileLoop condition body span => span :: (condition.nodeSpans ++ Stmt.blockNodeSpans body)
  | .ret value span => span :: value.nodeSpans

/-- The spans of statements and of the nodes inside them. -/
def Stmt.blockNodeSpans : List Stmt → List Span
  | [] => []
  | stmt :: rest => stmt.nodeSpans ++ Stmt.blockNodeSpans rest

/-- The spans of an arm of a switch and of the nodes inside it. -/
def Case.nodeSpans : Case → List Span
  | .mk value body span => span :: (Expr.optionNodeSpans value ++ Stmt.blockNodeSpans body)

/-- The spans of the arms of a switch and of the nodes inside them. -/
def Stmt.casesNodeSpans : List Case → List Span
  | [] => []
  | arm :: rest => arm.nodeSpans ++ Stmt.casesNodeSpans rest

end

namespace Stmt

variable {σ : Span → Span}

@[simp]
theorem isEmpty_mapBlockSpans (block : List Stmt) :
    (mapBlockSpans σ block).isEmpty = block.isEmpty := by cases block <;> rfl

@[simp]
theorem isEmpty_mapCasesSpans (cases : List Case) :
    (mapCasesSpans σ cases).isEmpty = cases.isEmpty := by cases cases <;> rfl

mutual

/-- A map that fixes the spans of a statement does not change the statement. -/
theorem mapSpans_eq_self : ∀ {stmt : Stmt}, (∀ s ∈ stmt.nodeSpans, σ s = s) →
    stmt.mapSpans σ = stmt
  | .expression expr span, h => by
    simp only [nodeSpans, List.forall_mem_cons] at h
    rw [mapSpans, h.1, Expr.mapSpans_eq_self h.2]
  | .declaration name typeName value binding span, h => by
    simp only [nodeSpans, List.forall_mem_cons] at h
    rw [mapSpans, h.1, Expr.map_mapSpans_eq_self h.2]
  | .assignment receiver value span, h => by
    simp only [nodeSpans, List.forall_mem_cons, List.forall_mem_append] at h
    rw [mapSpans, h.1, Expr.mapSpans_eq_self h.2.1, Expr.mapSpans_eq_self h.2.2]
  | .ifElse condition thenBody elseBody span, h => by
    simp only [nodeSpans, List.forall_mem_cons, List.forall_mem_append] at h
    rw [mapSpans, h.1, Expr.mapSpans_eq_self h.2.1, mapBlockSpans_eq_self h.2.2.1,
      mapBlockSpans_eq_self h.2.2.2]
  | .switch condition cases span, h => by
    simp only [nodeSpans, List.forall_mem_cons, List.forall_mem_append] at h
    rw [mapSpans, h.1, Expr.mapSpans_eq_self h.2.1, mapCasesSpans_eq_self h.2.2]
  | .whileLoop condition body span, h => by
    simp only [nodeSpans, List.forall_mem_cons, List.forall_mem_append] at h
    rw [mapSpans, h.1, Expr.mapSpans_eq_self h.2.1, mapBlockSpans_eq_self h.2.2]
  | .ret value span, h => by
    simp only [nodeSpans, List.forall_mem_cons] at h
    rw [mapSpans, h.1, Expr.mapSpans_eq_self h.2]

/-- Nor does it change a block. -/
theorem mapBlockSpans_eq_self : ∀ {block : List Stmt}, (∀ s ∈ blockNodeSpans block, σ s = s) →
    mapBlockSpans σ block = block
  | [], _ => rfl
  | stmt :: rest, h => by
    simp only [blockNodeSpans, List.forall_mem_append] at h
    rw [mapBlockSpans, mapSpans_eq_self h.1, mapBlockSpans_eq_self h.2]

/-- Nor does it change the arms of a switch. -/
theorem mapCasesSpans_eq_self : ∀ {cases : List Case}, (∀ s ∈ casesNodeSpans cases, σ s = s) →
    mapCasesSpans σ cases = cases
  | [], _ => rfl
  | .mk value body span :: rest, h => by
    simp only [casesNodeSpans, Case.nodeSpans, List.forall_mem_append, List.forall_mem_cons] at h
    rw [mapCasesSpans, Case.mapSpans, h.1.1, Expr.map_mapSpans_eq_self h.1.2.1,
      mapBlockSpans_eq_self h.1.2.2, mapCasesSpans_eq_self h.2]

end

mutual

/-- The annotations of a statement do not depend on its spans. -/
theorem notes_mapSpans : ∀ stmt : Stmt, (stmt.mapSpans σ).notes = stmt.notes
  | .expression expr span => by
    rw [mapSpans, notes, notes, Expr.notes_mapSpans]
  | .declaration name typeName value binding span => by
    rw [mapSpans, notes, notes, Expr.optionNotes_mapSpans]
  | .assignment receiver value span => by
    rw [mapSpans, notes, notes, Expr.notes_mapSpans, Expr.notes_mapSpans]
  | .ifElse condition thenBody elseBody span => by
    rw [mapSpans, notes, notes, Expr.notes_mapSpans, blockNotes_mapBlockSpans thenBody,
      blockNotes_mapBlockSpans elseBody]
  | .switch condition cases span => by
    rw [mapSpans, notes, notes, Expr.notes_mapSpans, casesNotes_mapCasesSpans cases]
  | .whileLoop condition body span => by
    rw [mapSpans, notes, notes, Expr.notes_mapSpans, blockNotes_mapBlockSpans body]
  | .ret value span => by
    rw [mapSpans, notes, notes, Expr.notes_mapSpans]

/-- Nor do those of a block. -/
theorem blockNotes_mapBlockSpans : ∀ block : List Stmt,
    blockNotes (mapBlockSpans σ block) = blockNotes block
  | [] => rfl
  | stmt :: rest => by
    rw [mapBlockSpans, blockNotes, blockNotes, notes_mapSpans stmt, blockNotes_mapBlockSpans rest]

/-- Nor do those of the arms of a switch. -/
theorem casesNotes_mapCasesSpans : ∀ cases : List Case,
    casesNotes (mapCasesSpans σ cases) = casesNotes cases
  | [] => rfl
  | .mk value body span :: rest => by
    rw [mapCasesSpans, casesNotes, casesNotes, Case.mapSpans, Case.notes, Case.notes,
      Expr.optionNotes_mapSpans, blockNotes_mapBlockSpans body, casesNotes_mapCasesSpans rest]

end

end Stmt

/-! ## Programs -/

/-- The same global with every span replaced by its image. -/
def Global.mapSpans (σ : Span → Span) (g : Global) : Global :=
  { g with value := g.value.map (Expr.mapSpans σ), span := σ g.span }

/-- The same function with every span replaced by its image. -/
def FunctionDef.mapSpans (σ : Span → Span) (f : FunctionDef) : FunctionDef :=
  { f with body := Stmt.mapBlockSpans σ f.body, span := σ f.span }

/-- The same program with every span replaced by its image. -/
def Program.mapSpans (σ : Span → Span) (p : Program) : Program :=
  ⟨p.globals.map (Global.mapSpans σ), p.functions.map (FunctionDef.mapSpans σ)⟩

/-- The spans of a global and of the nodes inside it. -/
def Global.nodeSpans (g : Global) : List Span := g.span :: Expr.optionNodeSpans g.value

/-- The spans of a function and of the nodes inside it. -/
def FunctionDef.nodeSpans (f : FunctionDef) : List Span := f.span :: Stmt.blockNodeSpans f.body

/-- The spans of all nodes of a program. -/
def Program.nodeSpans (p : Program) : List Span :=
  p.globals.flatMap Global.nodeSpans ++ p.functions.flatMap FunctionDef.nodeSpans

section Programs

variable {σ : Span → Span}

theorem Global.mapSpans_eq_self {g : Global} (h : ∀ s ∈ g.nodeSpans, σ s = s) :
    g.mapSpans σ = g := by
  simp only [Global.nodeSpans, List.forall_mem_cons] at h
  rw [Global.mapSpans, h.1, Expr.map_mapSpans_eq_self h.2]

theorem FunctionDef.mapSpans_eq_self {f : FunctionDef} (h : ∀ s ∈ f.nodeSpans, σ s = s) :
    f.mapSpans σ = f := by
  simp only [FunctionDef.nodeSpans, List.forall_mem_cons] at h
  rw [FunctionDef.mapSpans, h.1, Stmt.mapBlockSpans_eq_self h.2]

/-- Where nothing is moved, a function stays as it is. -/
@[simp]
theorem FunctionDef.mapSpans_id (f : FunctionDef) : f.mapSpans id = f :=
  mapSpans_eq_self fun _ _ => rfl

/-- A map that fixes the spans of a program does not change the program. -/
theorem Program.mapSpans_eq_self {p : Program} (h : ∀ s ∈ p.nodeSpans, σ s = s) :
    p.mapSpans σ = p := by
  simp only [Program.nodeSpans, List.forall_mem_append, List.forall_mem_flatMap] at h
  have hglobals : p.globals.map (Global.mapSpans σ) = p.globals :=
    List.map_congr_left (fun g hg => Global.mapSpans_eq_self (h.1 g hg)) |>.trans (List.map_id _)
  have hfunctions : p.functions.map (FunctionDef.mapSpans σ) = p.functions :=
    List.map_congr_left (fun f hf => FunctionDef.mapSpans_eq_self (h.2 f hf))
      |>.trans (List.map_id _)
  rw [Program.mapSpans, hglobals, hfunctions]

/-- The annotations of a program do not depend on its spans. -/
theorem Program.notes_mapSpans (p : Program) : (p.mapSpans σ).notes = p.notes := by
  simp only [Program.notes, Program.mapSpans, List.flatMap_map, Global.mapSpans,
    FunctionDef.mapSpans, Expr.optionNotes_mapSpans, Stmt.blockNotes_mapBlockSpans]

end Programs

end ImpTree

import ImpTree.Proofs.Json.Decoded
import ImpTree.Proofs.Tree.Erase
import ImpTree.Tree.Build
import ImpTree.Tree.Decode
import ImpTree.Tree.Encode

/-!
# Trees come back from their documents

Writing a tree and reading the document gives the tree again, with empty slots, as long as the
brackets of the document are not nested deeper than the reader allows; beyond that the reader fails.
There is one lemma for each decoder, a mutual induction over expressions and one over statements.

* `Expr.readsAs_toJson`, `Stmt.readsAs_toJson`, `Program.readsAs_toJson` — documents.
* `Program.parse?_text` — what the text of a program is read as.
* `Program.text_round_trip` — **a fresh program comes back from its text**.
-/

namespace ImpTree

open Json

/-! ## Proper documents -/

@[simp]
theorem Span.isProper_toJson (s : Span) : s.toJson.IsProper := by
  simp [Span.toJson]

theorem Literal.isProper_toJson (value : Literal) : value.toJson.IsProper := by
  cases value <;> simp [Literal.toJson, form]

mutual

/-- The document of an expression is a proper one. -/
theorem Expr.isProper_toJson : ∀ e : Expr, e.toJson.IsProper
  | .literal value _ _ => by simp [Expr.toJson, Expr.node, form, value.isProper_toJson]
  | .group inner _ _ => by simp [Expr.toJson, Expr.node, form, inner.isProper_toJson]
  | .binary _ left right _ _ => by
    simp [Expr.toJson, Expr.node, form, left.isProper_toJson, right.isProper_toJson]
  | .var _ _ _ _ => by simp [Expr.toJson, Expr.node, form]
  | .element _ offset _ _ _ => by simp [Expr.toJson, Expr.node, form, offset.isProper_toJson]
  | .call _ arguments _ _ _ => by
    simpa [Expr.toJson, Expr.node, form] using Expr.isProper_of_mem_listToJson arguments
  | .list elements _ _ => by
    simpa [Expr.toJson, Expr.node, form] using Expr.isProper_of_mem_listToJson elements

/-- So are the documents of expressions. -/
theorem Expr.isProper_of_mem_listToJson : ∀ es : List Expr,
    ∀ j ∈ Expr.listToJson es, j.IsProper
  | [] => by simp [Expr.listToJson]
  | e :: rest => by
    rw [Expr.listToJson, List.forall_mem_cons]
    exact ⟨e.isProper_toJson, Expr.isProper_of_mem_listToJson rest⟩

end

mutual

/-- The document of a statement is a proper one. -/
theorem Stmt.isProper_toJson : ∀ stmt : Stmt, stmt.toJson.IsProper
  | .expression expr _ => by simp [Stmt.toJson, form, expr.isProper_toJson]
  | .declaration _ _ _ _ _ => by simp [Stmt.toJson, form, Expr.isProper_toJson]
  | .assignment receiver value _ => by
    simp [Stmt.toJson, form, receiver.isProper_toJson, value.isProper_toJson]
  | .ifElse condition thenBody elseBody _ => by
    simpa [Stmt.toJson, form, condition.isProper_toJson] using
      And.intro (Stmt.isProper_of_mem_blockToJson thenBody)
        (Stmt.isProper_of_mem_blockToJson elseBody)
  | .switch condition cases _ => by
    simpa [Stmt.toJson, form, condition.isProper_toJson] using
      Stmt.isProper_of_mem_casesToJson cases
  | .whileLoop condition body _ => by
    simpa [Stmt.toJson, form, condition.isProper_toJson] using
      Stmt.isProper_of_mem_blockToJson body
  | .ret value _ => by simp [Stmt.toJson, form, value.isProper_toJson]

/-- So are the documents of statements. -/
theorem Stmt.isProper_of_mem_blockToJson : ∀ block : List Stmt,
    ∀ j ∈ Stmt.blockToJson block, j.IsProper
  | [] => by simp [Stmt.blockToJson]
  | stmt :: rest => by
    rw [Stmt.blockToJson, List.forall_mem_cons]
    exact ⟨stmt.isProper_toJson, Stmt.isProper_of_mem_blockToJson rest⟩

/-- So is the document of an arm of a switch. -/
theorem Case.isProper_toJson : ∀ arm : Case, arm.toJson.IsProper
  | .mk _ body _ => by
    simpa [Case.toJson, Expr.isProper_toJson] using Stmt.isProper_of_mem_blockToJson body

/-- So are the documents of the arms of a switch. -/
theorem Stmt.isProper_of_mem_casesToJson : ∀ cases : List Case,
    ∀ j ∈ Stmt.casesToJson cases, j.IsProper
  | [] => by simp [Stmt.casesToJson]
  | arm :: rest => by
    rw [Stmt.casesToJson, List.forall_mem_cons]
    exact ⟨arm.isProper_toJson, Stmt.isProper_of_mem_casesToJson rest⟩

end

theorem Global.isProper_toJson (g : Global) : g.toJson.IsProper := by
  simp [Global.toJson, Expr.isProper_toJson]

theorem FunctionDef.isProper_toJson (f : FunctionDef) : f.toJson.IsProper := by
  simpa [FunctionDef.toJson] using Stmt.isProper_of_mem_blockToJson f.body

/-- The document of a program is a proper one. -/
theorem Program.isProper_toJson (p : Program) : p.toJson.IsProper := by
  simp [Program.toJson, Global.isProper_toJson, FunctionDef.isProper_toJson]

/-! ## Spans, constants and operators -/

/-- A span is read with its two offsets. -/
theorem Span.readsAs_offsets {start stop : Json} {s : Span} (hstart : start.uint64? = some s.start)
    (hstop : stop.uint64? = some s.stop) (hplain : start.depth = 0 ∧ stop.depth = 0) :
    (record [("start", start), ("end", stop)]).ReadsAs Span.decode s := by
  refine readsAs_record ["start", "end"] [start, stop] 2 (by decide) rfl (fun _ => rfl)
    fun n j hfields => ?_
  rw [Span.decode, hfields]
  simp [hstart, hstop, hplain]

/-- A span is read back. -/
theorem Span.readsAs_toJson (s : Span) : s.toJson.ReadsAs Span.decode s :=
  readsAs_offsets (uint64?_nat s.start) (uint64?_nat s.stop) ⟨rfl, rfl⟩

/-- The span of a record is read back. -/
@[simp]
theorem Span.decodeField_some (n : Nat) (s : Span) :
    Span.decodeField n (some s.toJson) = if s.toJson.depth ≤ n then some s else none :=
  s.readsAs_toJson n

/-- The content of a constant is read with the name of its form. -/
theorem Literal.readsAs_form {name : String} {content : Json} {value : Literal}
    (hplain : content.depth = 0) (hnull : content ≠ null)
    (h : Literal.decodeForm name content = some value) :
    (form name content).ReadsAs Literal.decode value := by
  refine Json.readsAs_form ?_ (fun n => ?_) (readsAs_plain hplain h)
  · rw [Literal.decode, word?_form hnull]
    rfl
  · rw [Literal.decode, word?_form hnull]
    rfl

/-- A constant is read back. -/
theorem Literal.readsAs_toJson (value : Literal) : value.toJson.ReadsAs Literal.decode value := by
  cases value with
  | nil =>
    intro n
    rw [Literal.decode, Literal.toJson, word?_text]
    exact (if_pos (Nat.zero_le n)).symm
  | boolean b => exact readsAs_form rfl Json.noConfusion rfl
  | integer k =>
    refine readsAs_form rfl Json.noConfusion ?_
    rw [decodeForm, text?_text, Option.bind_some, Integer.parse?_text, Option.map_some]
  | decimal d =>
    refine readsAs_form rfl Json.noConfusion ?_
    rw [decodeForm, text?_text, Option.bind_some, Decimal.parse?_text, Option.map_some]
  | character c =>
    refine readsAs_form rfl Json.noConfusion ?_
    rw [decodeForm, char?_singleton, Option.map_some]
  | string s => exact readsAs_form rfl Json.noConfusion rfl

/-- An operator is read back. -/
@[simp]
theorem BinaryOp.decode_symbol (n : Nat) (op : BinaryOp) :
    BinaryOp.decode n (.text op.symbol) = some op := by
  rw [BinaryOp.decode, word?_text, Option.bind_eq_bind, Option.bind_some, ofSymbol?_symbol]

/-! ## Expressions -/

namespace Expr

/-- A node is read with its form and its place. -/
theorem readsAs_node {kind : Json} {e : Expr} {span : Span}
    (h : kind.ReadsAs (decodeKind · · span) e) : (Expr.node kind span).ReadsAs Expr.decode e := by
  refine readsAs_record ["kind", "span"] [kind, span.toJson] 1 (by decide) rfl (fun _ => rfl)
    fun n j hfields => ?_
  rw [Expr.decode, hfields]
  by_cases hspan : span.toJson.depth ≤ n <;> simp [h n, hspan]

/-- Operands are read with the operator between them. -/
theorem readsAs_binary {left right : Json} {l r : Expr} {op : BinaryOp} {span : Span}
    (hleft : left.ReadsAs Expr.decode l) (hright : right.ReadsAs Expr.decode r) :
    (record [("op", .text op.symbol), ("left", left), ("right", right)]).ReadsAs
      (decodeBinary · · span) (.binary op l r span none) := by
  refine readsAs_record ["op", "left", "right"] [.text op.symbol, left, right] 3 (by decide) rfl
    (fun _ => rfl) fun n j hfields => ?_
  rw [decodeBinary, hfields]
  simp [hleft n, hright n, ite_and]

/-- A variable is read back. -/
theorem readsAs_var {name : String} {span : Span} :
    (record [("name", .text name), ("offset", null)]).ReadsAs (decodeAccess · · span)
      (.var name none span none) := by
  refine readsAs_record ["name", "offset"] [.text name, null] 1 (by decide) rfl (fun _ => rfl)
    fun n j hfields => ?_
  rw [decodeAccess, hfields]
  simp [Json.optional]

/-- An element of a list is read with its index. -/
theorem readsAs_element {offset : Json} {name : String} {e : Expr} {span : Span}
    (h : offset.ReadsAs Expr.decode e) (hnull : offset ≠ null) :
    (record [("name", .text name), ("offset", offset)]).ReadsAs (decodeAccess · · span)
      (.element name e none span none) := by
  refine readsAs_record ["name", "offset"] [.text name, offset] 1 (by decide) rfl (fun _ => rfl)
    fun n j hfields => ?_
  rw [decodeAccess, hfields]
  by_cases hdepth : offset.depth ≤ n <;> simp [optional_of_ne_null hnull, h n, hdepth]

/-- A call is read with its arguments. -/
theorem readsAs_call {arguments : Json} {name : String} {es : List Expr} {span : Span}
    (h : arguments.ReadsAs decodeList es) :
    (record [("name", .text name), ("arguments", arguments)]).ReadsAs (decodeCall · · span)
      (.call name es none span none) := by
  refine readsAs_record ["name", "arguments"] [.text name, arguments] 2 (by decide) rfl
    (fun _ => rfl) fun n j hfields => ?_
  rw [decodeCall, hfields]
  simp [h n]

theorem toJson_ne_null (e : Expr) : e.toJson ≠ null := by
  cases e <;> exact Json.noConfusion

mutual

/-- **The document of an expression is read back.** -/
theorem readsAs_toJson : ∀ e : Expr, e.toJson.ReadsAs Expr.decode e.erase
  | .literal value span _ =>
    readsAs_node (readsAs_form rfl (fun _ => rfl)
      (value.readsAs_toJson.build (Expr.literal · span none)))
  | .group inner span _ =>
    readsAs_node (readsAs_form rfl (fun _ => rfl)
      ((readsAs_toJson inner).build (Expr.group · span none)))
  | .binary op left right span _ =>
    readsAs_node (readsAs_form rfl (fun _ => rfl)
      (readsAs_binary (readsAs_toJson left) (readsAs_toJson right)))
  | .var name _ span _ => readsAs_node (readsAs_form rfl (fun _ => rfl) readsAs_var)
  | .element name offset _ span _ =>
    readsAs_node (readsAs_form rfl (fun _ => rfl)
      (readsAs_element (readsAs_toJson offset) offset.toJson_ne_null))
  | .call name arguments _ span _ =>
    readsAs_node (readsAs_form rfl (fun _ => rfl) (readsAs_call (readsAs_list arguments)))
  | .list elements span _ =>
    readsAs_node (readsAs_form rfl (fun _ => rfl)
      ((readsAs_list elements).build (Expr.list · span none)))

/-- So are the documents of expressions, in a list. -/
theorem readsAs_list (es : List Expr) :
    (Json.list (listToJson es)).ReadsAs decodeList (eraseAll es) :=
  Json.readsAs_list (fun _ => rfl) (fun _ => rfl) (readAs_all es)

/-- So are the documents of expressions, one by one. -/
theorem readAs_all : ∀ es : List Expr,
    List.Forall₂ (fun j e => j.ReadsAs Expr.decode e) (listToJson es) (eraseAll es)
  | [] => .nil
  | e :: rest => .cons (readsAs_toJson e) (readAs_all rest)

end

/-- A value that may be missing is read back. -/
@[simp]
theorem optional_toJson (value : Option Expr) (n : Nat) :
    Json.optional (Expr.decode n) (some (option Expr.toJson value)) =
      if (option Expr.toJson value).depth ≤ n then some (value.map Expr.erase) else none :=
  optional_option readsAs_toJson toJson_ne_null value n

end Expr

/-! ## Statements -/

namespace Stmt

/-- A call made for its effects is read back. -/
theorem readsAs_expression (expr : Expr) (span : Span) :
    (record [("expr", expr.toJson), ("span", span.toJson)]).ReadsAs decodeExpression
      (.expression expr.erase span) := by
  refine readsAs_record ["expr", "span"] [expr.toJson, span.toJson] 1 (by decide) rfl
    (fun _ => rfl) fun n j hfields => ?_
  rw [decodeExpression, hfields]
  simp [expr.readsAs_toJson n, ite_and]

/-- A declaration is read back. -/
theorem readsAs_declaration (name : String) (typeName : Option String) (value : Option Expr)
    (span : Span) :
    (record [("name", .text name), ("type_name", .option Json.text typeName),
      ("value", .option Expr.toJson value), ("span", span.toJson)]).ReadsAs decodeDeclaration
      (.declaration name typeName (value.map Expr.erase) none span) := by
  refine readsAs_record ["name", "type_name", "value", "span"]
    [.text name, .option Json.text typeName, .option Expr.toJson value, span.toJson] 1 (by decide)
    rfl (fun _ => rfl) fun n j hfields => ?_
  rw [decodeDeclaration, hfields]
  simp [ite_and]

/-- An assignment is read back. -/
theorem readsAs_assignment (receiver value : Expr) (span : Span) :
    (record [("receiver", receiver.toJson), ("value", value.toJson),
      ("span", span.toJson)]).ReadsAs decodeAssignment
      (.assignment receiver.erase value.erase span) := by
  refine readsAs_record ["receiver", "value", "span"]
    [receiver.toJson, value.toJson, span.toJson] 2 (by decide) rfl (fun _ => rfl)
    fun n j hfields => ?_
  rw [decodeAssignment, hfields]
  simp [receiver.readsAs_toJson n, value.readsAs_toJson n, ite_and]

/-- The end of a function is read back. -/
theorem readsAs_ret (value : Expr) (span : Span) :
    (record [("value", value.toJson), ("span", span.toJson)]).ReadsAs decodeReturn
      (.ret value.erase span) := by
  refine readsAs_record ["value", "span"] [value.toJson, span.toJson] 1 (by decide) rfl
    (fun _ => rfl) fun n j hfields => ?_
  rw [decodeReturn, hfields]
  simp [value.readsAs_toJson n, ite_and]

/-- A choice is read with its two blocks. -/
theorem readsAs_ifElse {thenBody elseBody : Json} {thenBlock elseBlock : List Stmt}
    (condition : Expr) (span : Span) (hthen : thenBody.ReadsAs decodeBlock thenBlock)
    (helse : elseBody.ReadsAs decodeBlock elseBlock) :
    (record [("condition", condition.toJson), ("then_statements", thenBody),
      ("else_statements", elseBody), ("span", span.toJson)]).ReadsAs decodeIf
      (.ifElse condition.erase thenBlock elseBlock span) := by
  refine readsAs_record ["condition", "then_statements", "else_statements", "span"]
    [condition.toJson, thenBody, elseBody, span.toJson] 2 (by decide) rfl (fun _ => rfl)
    fun n j hfields => ?_
  rw [decodeIf, hfields]
  simp [condition.readsAs_toJson n, hthen n, helse n, ite_and]

/-- A switch is read with its arms. -/
theorem readsAs_switch {arms : Json} {cases : List Case} (condition : Expr) (span : Span)
    (h : arms.ReadsAs decodeCases cases) :
    (record [("condition", condition.toJson), ("cases", arms), ("span", span.toJson)]).ReadsAs
      decodeSwitch (.switch condition.erase cases span) := by
  refine readsAs_record ["condition", "cases", "span"] [condition.toJson, arms, span.toJson] 2
    (by decide) rfl (fun _ => rfl) fun n j hfields => ?_
  rw [decodeSwitch, hfields]
  simp [condition.readsAs_toJson n, h n, ite_and]

/-- A loop is read with its block. -/
theorem readsAs_whileLoop {body : Json} {block : List Stmt} (condition : Expr) (span : Span)
    (h : body.ReadsAs decodeBlock block) :
    (record [("condition", condition.toJson), ("statements", body),
      ("span", span.toJson)]).ReadsAs decodeWhile (.whileLoop condition.erase block span) := by
  refine readsAs_record ["condition", "statements", "span"] [condition.toJson, body, span.toJson] 2
    (by decide) rfl (fun _ => rfl) fun n j hfields => ?_
  rw [decodeWhile, hfields]
  simp [condition.readsAs_toJson n, h n, ite_and]

/-- An arm of a switch is read with its block. -/
theorem readsAs_case {body : Json} {block : List Stmt} (value : Option Expr) (span : Span)
    (h : body.ReadsAs decodeBlock block) :
    (record [("value", .option Expr.toJson value), ("statements", body),
      ("span", span.toJson)]).ReadsAs Case.decode (.mk (value.map Expr.erase) block span) := by
  refine readsAs_record ["value", "statements", "span"]
    [.option Expr.toJson value, body, span.toJson] 2 (by decide) rfl (fun _ => rfl)
    fun n j hfields => ?_
  rw [Case.decode, hfields]
  simp [h n, ite_and]

mutual

/-- **The document of a statement is read back.** -/
theorem readsAs_toJson : ∀ stmt : Stmt, stmt.toJson.ReadsAs Stmt.decode stmt.erase
  | .expression expr span => readsAs_form rfl (fun _ => rfl) (readsAs_expression expr span)
  | .declaration name typeName value _ span =>
    readsAs_form rfl (fun _ => rfl) (readsAs_declaration name typeName value span)
  | .assignment receiver value span =>
    readsAs_form rfl (fun _ => rfl) (readsAs_assignment receiver value span)
  | .ifElse condition thenBody elseBody span =>
    readsAs_form rfl (fun _ => rfl)
      (readsAs_ifElse condition span (readsAs_block thenBody) (readsAs_block elseBody))
  | .switch condition cases span =>
    readsAs_form rfl (fun _ => rfl) (readsAs_switch condition span (readsAs_cases cases))
  | .whileLoop condition body span =>
    readsAs_form rfl (fun _ => rfl) (readsAs_whileLoop condition span (readsAs_block body))
  | .ret value span => readsAs_form rfl (fun _ => rfl) (readsAs_ret value span)

/-- So is the document of a block. -/
theorem readsAs_block (block : List Stmt) :
    (Json.list (blockToJson block)).ReadsAs decodeBlock (eraseBlock block) :=
  readsAs_list (fun _ => rfl) (fun _ => rfl) (readAs_statements block)

/-- So are the documents of statements, one by one. -/
theorem readAs_statements : ∀ block : List Stmt,
    List.Forall₂ (fun j stmt => j.ReadsAs Stmt.decode stmt) (blockToJson block) (eraseBlock block)
  | [] => .nil
  | stmt :: rest => .cons (readsAs_toJson stmt) (readAs_statements rest)

/-- So is the document of an arm of a switch. -/
theorem readsAs_caseToJson : ∀ arm : Case, arm.toJson.ReadsAs Case.decode arm.erase
  | .mk value body span => readsAs_case value span (readsAs_block body)

/-- So are the documents of arms of a switch, in a list. -/
theorem readsAs_cases (cases : List Case) :
    (Json.list (casesToJson cases)).ReadsAs decodeCases (eraseCases cases) :=
  readsAs_list (fun _ => rfl) (fun _ => rfl) (readAs_arms cases)

/-- So are the documents of arms of a switch, one by one. -/
theorem readAs_arms : ∀ cases : List Case,
    List.Forall₂ (fun j arm => j.ReadsAs Case.decode arm) (casesToJson cases) (eraseCases cases)
  | [] => .nil
  | arm :: rest => .cons (readsAs_caseToJson arm) (readAs_arms rest)

end

end Stmt

/-! ## Programs -/

/-- A global is read back. -/
theorem Global.readsAs_toJson (g : Global) : g.toJson.ReadsAs Global.decode g.erase := by
  refine readsAs_record ["name", "mutable", "type_name", "value", "span"]
    [.text g.name, .bool g.isMutable, .option Json.text g.typeName, .option Expr.toJson g.value,
      g.span.toJson] 2 (by decide) rfl (fun _ => rfl) fun n j hfields => ?_
  rw [Global.decode, hfields]
  simp [Global.erase, ite_and]

/-- Texts are read back. -/
theorem Json.readsAs_texts (texts : List String) :
    (Json.list (texts.map Json.text)).ReadsAs Json.decodeTexts texts := by
  have hread := readsAs_listOf (fun s => readsAs_plain (depth_text s) (text?_text s)) texts
  rwa [List.map_id'] at hread

/-- A function is read back. -/
theorem FunctionDef.readsAs_toJson (f : FunctionDef) :
    f.toJson.ReadsAs FunctionDef.decode f.erase := by
  refine readsAs_record ["name", "parameters", "parameter_type_names", "return_type_name",
    "statements", "span"]
    [.text f.name, .list (f.parameters.map Json.text), .list (f.parameterTypeNames.map Json.text),
      .option Json.text f.returnTypeName, .list (Stmt.blockToJson f.body), f.span.toJson] 5
    (by decide) rfl (fun _ => rfl) fun n j hfields => ?_
  rw [FunctionDef.decode, hfields]
  simp [readsAs_texts f.parameters n, readsAs_texts f.parameterTypeNames n,
    Stmt.readsAs_block f.body n, FunctionDef.erase, ite_and]

namespace Program

/-- **The document of a program is read back.** -/
theorem readsAs_toJson (p : Program) : p.toJson.ReadsAs Program.decodeWithin p.erase := by
  refine readsAs_record ["globals", "functions"]
    [.list (p.globals.map Global.toJson), .list (p.functions.map FunctionDef.toJson)] 0 (by decide)
    rfl (fun _ => rfl) fun n j hfields => ?_
  rw [Program.decodeWithin, hfields]
  simp [readsAs_listOf Global.readsAs_toJson p.globals n,
    readsAs_listOf FunctionDef.readsAs_toJson p.functions n, Program.erase, ite_and]

/-- **What the text of a program is read as**: the program with empty slots, if the brackets of the
text are not nested too deep, and nothing if they are. -/
theorem parse?_text (p : Program) :
    Program.parse? p.text = if nesting p.text ≤ maxDepth then some p.erase else none := by
  have hjson : Json.parse? p.text = some p.toJson := parse?_compact p.isProper_toJson
  have hnesting : nesting p.text = p.toJson.depth := nesting_compact p.isProper_toJson
  rw [Program.parse?, hjson, hnesting]
  exact p.readsAs_toJson maxDepth

/-- **A fresh program comes back from its text.**  If no slot of a program holds anything and at
most 127 brackets of its text are nested, the text is read as the very same program, and the program
that was read has the very same text. -/
theorem text_round_trip {p : Program} (hfresh : p.IsFresh) (hnests : nesting p.text ≤ 127) :
    Program.parse? p.text = some p ∧
      (Program.parse? p.text).map Program.text = some p.text := by
  have hwithin : nesting p.text ≤ maxDepth := hnests
  have hread : Program.parse? p.text = some p := by
    rw [parse?_text, if_pos hwithin]
    exact congrArg some hfresh
  exact ⟨hread, by rw [hread, Option.map_some]⟩

/-- A program with characters that are escaped in texts, a decimal with zeros at its end and a span
up to the last offset. -/
def quoting : Program :=
  ⟨[⟨"a\"\\\n\x01", true, some "Decimal",
      some (.literal (.decimal ⟨-100, 2⟩) ⟨3, 18446744073709551615⟩ none), .nowhere, none⟩],
    [Build.function "main" [] (some "Integer")
      [Build.switch (Build.literal (.character '\r'))
        [Build.case (Build.literal (.string "[\"[")) [], Build.defaultCase []],
        Build.ret (Build.literal (.integer (-7)))]]⟩

/-- Escaped characters, the scale of a decimal and the bounds of a span are kept. -/
theorem text_round_trip_quoting :
    quoting.IsFresh ∧ nesting quoting.text ≤ 127 ∧ Program.parse? quoting.text = some quoting := by
  have hfresh : quoting.IsFresh := rfl
  have hnests : nesting quoting.text ≤ 127 := by
    rw [text, nesting_compact quoting.isProper_toJson]
    decide
  exact ⟨hfresh, hnests, (text_round_trip hfresh hnests).1⟩

end Program

end ImpTree

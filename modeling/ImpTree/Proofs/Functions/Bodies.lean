import ImpTree.Proofs.Functions.Order
import ImpTree.Proofs.Spans.Checked
import ImpTree.Proofs.Typing.Preservation

/-!
# Bodies are checked one by one

A body is checked where the globals and the signatures of all functions are known.  So its verdict
and its annotations do not depend on the other bodies, and bodies of accepted programs with the same
interface can be put together freely.

* `FunctionDef.SameHeader`, `Program.SameInterface` — functions and programs that differ in bodies.
* `FunctionDef.Declarable.of_sameHeader`, `Scope.knowing_of_sameHeader` — headers decide what can
  be declared and what the bodies know.
* `FunctionDef.checked_of_body` — the same body gets the same verdict and annotations.
* `Program.checking_modular` — **checking is modular.**
-/

namespace ImpTree

variable {types : TypeNames}

/-! ## Headers -/

/-- Two functions with the same name, parameters and names of types; their bodies and places may
differ. -/
structure FunctionDef.SameHeader (f g : FunctionDef) : Prop where
  /-- The names are the same. -/
  name : g.name = f.name
  /-- The parameters are the same. -/
  parameters : g.parameters = f.parameters
  /-- The names of the parameters' types are the same. -/
  parameterTypeNames : g.parameterTypeNames = f.parameterTypeNames
  /-- The names of the results' types are the same. -/
  returnTypeName : g.returnTypeName = f.returnTypeName

namespace FunctionDef

variable {f g : FunctionDef} {fs gs : List FunctionDef} {cs : List Callee}

namespace SameHeader

theorem key (h : f.SameHeader g) : g.key = f.key := by
  simp [FunctionDef.key, h.name, h.parameters]

theorem isMain (h : f.SameHeader g) : g.isMain = f.isMain := by
  simp [FunctionDef.isMain, h.name, h.parameters]

/-- Results have the same type; only the place of an error may differ. -/
theorem returnTy (h : f.SameHeader g) :
    g.returnTy types = (f.returnTy types).mapError (Error.mapSpan fun _ => g.span) := by
  rw [← returnTy_mapSpans]
  simp only [FunctionDef.returnTy, h.returnTypeName]
  rfl

/-- Signatures are the same; only the place of an error may differ. -/
theorem signature (h : f.SameHeader g) :
    g.signature types = (f.signature types).mapError (Error.mapSpan fun _ => g.span) := by
  rw [← signature_mapSpans]
  simp only [FunctionDef.signature, h.name, h.parameters, h.parameterTypeNames,
    FunctionDef.returnTy, h.returnTypeName]
  rfl

/-- A function with a signature gives it to every function with the same header. -/
theorem signature_eq_ok (h : f.SameHeader g) {binding : FunctionBinding}
    (hf : f.signature types = .ok binding) : g.signature types = .ok binding := by
  rw [h.signature, hf]
  rfl

theorem signed (h : f.SameHeader g) (hf : ∃ binding, f.signature types = .ok binding) :
    g.signed types = f.signed types := by
  obtain ⟨binding, hf⟩ := hf
  rw [signed_of_signature hf, signed_of_signature (h.signature_eq_ok hf)]

/-- Functions with the same headers have the same keys. -/
theorem map_key (h : List.Forall₂ SameHeader fs gs) :
    gs.map FunctionDef.key = fs.map FunctionDef.key := by
  induction h with
  | nil => rfl
  | cons hf _ ih => rw [List.map_cons, List.map_cons, hf.key, ih]

/-- Functions at the same position have the same header. -/
theorem of_getElem? (h : List.Forall₂ SameHeader fs gs) :
    ∀ {i : Nat} {g : FunctionDef}, gs[i]? = some g → ∃ f, fs[i]? = some f ∧ f.SameHeader g := by
  induction h with
  | nil =>
    intro i g hg
    simp at hg
  | @cons f _ _ _ hf _ ih =>
    intro i g hg
    cases i with
    | zero =>
      simp only [List.getElem?_cons_zero, Option.some_inj] at hg
      exact ⟨f, rfl, hg ▸ hf⟩
    | succ i => exact ih hg

theorem trans {e : FunctionDef} (h : e.SameHeader f) (h' : f.SameHeader g) : e.SameHeader g :=
  ⟨h'.name.trans h.name, h'.parameters.trans h.parameters,
    h'.parameterTypeNames.trans h.parameterTypeNames, h'.returnTypeName.trans h.returnTypeName⟩

theorem symm (h : f.SameHeader g) : g.SameHeader f :=
  ⟨h.name.symm, h.parameters.symm, h.parameterTypeNames.symm, h.returnTypeName.symm⟩

/-- The first `main` stands at the same position. -/
theorem find?_isMain (h : List.Forall₂ SameHeader fs gs) :
    Option.Rel SameHeader (fs.find? FunctionDef.isMain) (gs.find? FunctionDef.isMain) := by
  induction h with
  | nil => exact .none
  | @cons f g _ _ hf _ ih =>
    rw [List.find?_cons, List.find?_cons, hf.isMain]
    cases f.isMain with
    | true => exact .some hf
    | false => exact ih

end SameHeader

/-- **Headers decide what can be declared.** -/
theorem Declarable.of_sameHeader (h : Declarable types cs fs)
    (hheaders : List.Forall₂ SameHeader fs gs) : Declarable types cs gs := by
  have hmem : ∀ g ∈ gs, ∃ f ∈ fs, f.SameHeader g := by
    clear h
    induction hheaders with
    | nil => exact List.forall_mem_nil _
    | @cons f g _ _ hf _ ih =>
      intro x hx
      rcases List.mem_cons.1 hx with rfl | hx
      · exact ⟨f, List.mem_cons_self, hf⟩
      · obtain ⟨y, hy, hxy⟩ := ih x hx
        exact ⟨y, List.mem_cons_of_mem f hy, hxy⟩
  refine ⟨fun g hg => ?_, ?_, fun g hg => ?_⟩
  · obtain ⟨f, hf, hfg⟩ := hmem g hg
    obtain ⟨binding, hbinding⟩ := h.signature f hf
    exact ⟨binding, hfg.signature_eq_ok hbinding⟩
  · rw [SameHeader.map_key hheaders]
    exact h.distinct
  · obtain ⟨f, hf, hfg⟩ := hmem g hg
    rw [hfg.name, hfg.parameters]
    exact h.new f hf

/-- Functions with the same headers are known in the same way. -/
theorem declaring_of_sameHeader (hheaders : List.Forall₂ SameHeader fs gs) :
    ∀ {cs : List Callee} {index : Nat},
      (∀ f ∈ fs, ∃ binding, f.signature types = .ok binding) →
        Callee.declaring (FunctionDef.signed types) cs index gs =
          Callee.declaring (FunctionDef.signed types) cs index fs := by
  induction hheaders with
  | nil =>
    intro cs index _
    rfl
  | cons hf _ ih =>
    intro cs index hsignature
    rw [List.forall_mem_cons] at hsignature
    rw [Callee.declaring, Callee.declaring, hf.signed hsignature.1, ih hsignature.2]

end FunctionDef

/-- **Headers decide what the bodies know.** -/
theorem Scope.knowing_of_sameHeader {early : Scope} {fs gs : List FunctionDef}
    (h : FunctionDef.Declarable types early.root.callees fs)
    (hheaders : List.Forall₂ FunctionDef.SameHeader fs gs) :
    early.knowing types gs = early.knowing types fs := by
  rw [Scope.knowing, Scope.knowing, FunctionDef.declaring_of_sameHeader hheaders h.signature]

/-! ## Bodies -/

namespace FunctionDef

variable {f g : FunctionDef} {known : Scope}

/-- A body is checked where the parameters of its function have been declared. -/
theorem checked_of_parameters {inside : Scope}
    (h : declareParameters f.span f.parameters (f.signed types).parameterTypes known.child =
      .ok inside) :
    f.checked types known =
      (Stmt.checkBlock types (some (f.signed types).returnType) f.body inside).andThen
        (fun body => { f.declared types with body })
        fun body _ => .pass { f.declared types with body } () := by
  have h' : declareParameters (f.declared types).span (f.declared types).parameters
      (f.signed types).parameterTypes known.child = .ok inside := h
  rw [checked, Analyzer.fst_checkFunction, h']
  rfl

/-- Parameters that cannot be declared fail the check of their function. -/
theorem checked_of_parameters_error {e : Error}
    (h : declareParameters f.span f.parameters (f.signed types).parameterTypes known.child =
      .error e) : f.checked types known = .fail (f.declared types) e := by
  have h' : declareParameters (f.declared types).span (f.declared types).parameters
      (f.signed types).parameterTypes known.child = .error e := h
  rw [checked, Analyzer.fst_checkFunction, h']

/-- A function passes where its parameters can be declared and its body passes. -/
theorem checked_eq_pass {f' : FunctionDef} :
    f.checked types known = .pass f' () ↔
      ∃ inside body after,
        declareParameters f.span f.parameters (f.signed types).parameterTypes known.child =
            .ok inside ∧
          Stmt.checkBlock types (some (f.signed types).returnType) f.body inside =
            .pass body after ∧
          f' = { f.declared types with body } := by
  constructor
  · intro h
    cases hparameters :
        declareParameters f.span f.parameters (f.signed types).parameterTypes known.child with
    | error e =>
      rw [checked_of_parameters_error hparameters] at h
      exact absurd h Checked.fail_ne_pass
    | ok inside =>
      rw [checked_of_parameters hparameters] at h
      obtain ⟨body, after, hbody, h⟩ := Checked.andThen_eq_pass h
      cases h
      exact ⟨inside, body, after, rfl, hbody, rfl⟩
  · rintro ⟨inside, body, after, hparameters, hbody, rfl⟩
    rw [checked_of_parameters hparameters, hbody, Checked.andThen_pass]

/-- **The same body under the same header gets the same verdict and the same annotations.** -/
theorem checked_of_body (hheader : f.SameHeader g) (hsigned : g.signed types = f.signed types)
    (hbody : g.body = f.body) (h : (f.checked types known).verdict = .ok ()) :
    (g.checked types known).verdict = .ok () ∧
      (g.checked types known).node.body = (f.checked types known).node.body := by
  have hpass : f.checked types known = .pass (f.checked types known).node () := by
    rw [Checked.pass, ← h]
  obtain ⟨inside, body, after, hparameters, hchecked, hf⟩ := checked_eq_pass.1 hpass
  -- the place of a function matters to the error of a parameter only
  have hparameters' : declareParameters g.span g.parameters (g.signed types).parameterTypes
      known.child = .ok inside := by
    have hmoved := declareParameters_mapSpan (σ := fun _ => g.span) f.span f.parameters
      (f.signed types).parameterTypes known.child
    rw [hheader.parameters, hsigned, hmoved, hparameters]
    rfl
  have hg : g.checked types known = .pass { g.declared types with body } () := by
    refine checked_eq_pass.2 ⟨inside, body, after, hparameters', ?_, rfl⟩
    rw [hsigned, hbody, hchecked]
  rw [hg, hf]
  exact ⟨rfl, rfl⟩

end FunctionDef

/-! ## Programs -/

namespace Program

variable {p q r : Program}

/-- Two programs with the same globals and, position by position, the same headers. -/
structure SameInterface (p q : Program) : Prop where
  /-- The globals are the same. -/
  globals : q.globals = p.globals
  /-- The headers are the same. -/
  headers : List.Forall₂ FunctionDef.SameHeader p.functions q.functions

/-- The body of the function at a position, if there is one. -/
def body? (p : Program) (i : Nat) : Option (List Stmt) := p.functions[i]?.map FunctionDef.body

theorem body?_map (gs : List Global) (change : FunctionDef → FunctionDef) (fs : List FunctionDef)
    (i : Nat) : (Program.mk gs (fs.map change)).body? i =
      fs[i]?.map fun f => (change f).body := by
  rw [body?, List.getElem?_map, Option.map_map]
  rfl

/-- Whether there is a `main` to start from is a matter of headers. -/
theorem SameInterface.entryPoint (h : p.SameInterface q) (hp : p.entryPoint types = .ok ()) :
    q.entryPoint types = .ok () := by
  have hmain := FunctionDef.SameHeader.find?_isMain h.headers
  rw [Program.entryPoint] at hp ⊢
  generalize p.functions.find? FunctionDef.isMain = main at hmain hp
  generalize q.functions.find? FunctionDef.isMain = main' at hmain ⊢
  cases hmain with
  | none => cases hp
  | @some f g hfg =>
    simp only [hfg.returnTy]
    cases hty : f.returnTy types with
    | error e => simp [hty] at hp
    | ok ty =>
      simp only [hty] at hp
      cases ty <;> first | rfl | cases hp

/-- Functions at the same position have the same header in any two such programs. -/
theorem SameInterface.trans (hq : p.SameInterface q) (hr : p.SameInterface r) :
    q.SameInterface r := by
  refine ⟨hr.globals.trans hq.globals.symm, ?_⟩
  have hlength : q.functions.length = r.functions.length :=
    hq.headers.length_eq.symm.trans hr.headers.length_eq
  refine List.forall₂_of_length_eq_of_get hlength fun i hi hi' => ?_
  obtain ⟨f, hf, hfq⟩ := FunctionDef.SameHeader.of_getElem? hq.headers (List.getElem?_eq_getElem hi)
  obtain ⟨f', hf', hfr⟩ := FunctionDef.SameHeader.of_getElem? hr.headers
    (List.getElem?_eq_getElem hi')
  rw [hf, Option.some_inj] at hf'
  subst hf'
  exact hfq.symm.trans hfr

/-- **Where the whole of an accepted program is known, a body of that program** passes under the
same header of another program, and gets the same annotations. -/
theorem SameInterface.checked_body (h : p.SameInterface r) {known : Scope} {i : Nat}
    {g : FunctionDef} (hg : r.functions[i]? = some g) (hbody : r.body? i = p.body? i)
    (hsignature : ∀ f ∈ p.functions, ∃ binding, f.signature types = .ok binding)
    (hp : ∀ f ∈ p.functions, (f.checked types known).verdict = .ok ()) :
    (g.checked types known).verdict = .ok () ∧
      ∃ f, p.functions[i]? = some f ∧
        (g.checked types known).node.body = (f.checked types known).node.body := by
  obtain ⟨f, hf, hfg⟩ := FunctionDef.SameHeader.of_getElem? h.headers hg
  have hmem : f ∈ p.functions := List.mem_of_getElem? hf
  have hsame : g.body = f.body := by
    simpa [body?, hf, hg] using hbody
  obtain ⟨hverdict, hnode⟩ := FunctionDef.checked_of_body hfg (hfg.signed (hsignature f hmem)) hsame
    (hp f hmem)
  exact ⟨hverdict, f, hf, hnode⟩

/-- So the annotated bodies are the same wherever the bodies are. -/
theorem SameInterface.annotated_body (h : p.SameInterface r) {known : Scope} {i : Nat}
    (hbody : r.body? i = p.body? i)
    (hsignature : ∀ f ∈ p.functions, ∃ binding, f.signature types = .ok binding)
    (hp : ∀ f ∈ p.functions, (f.checked types known).verdict = .ok ()) :
    r.functions[i]?.map (fun g => (g.checked types known).node.body) =
      p.functions[i]?.map fun f => (f.checked types known).node.body := by
  cases hg : r.functions[i]? with
  | none =>
    have hf : p.functions[i]? = none := by
      simpa [body?, hg, eq_comm] using hbody
    rw [hf, Option.map_none]
  | some g =>
    obtain ⟨-, f, hf, hnode⟩ := h.checked_body hg hbody hsignature hp
    rw [hf, Option.map_some, Option.map_some, hnode]

/-- What an accepted program comes to, in terms of what its bodies know. -/
theorem analyze_of_accepted (h : (p.analyze types).verdict = .ok ()) :
    ∃ globals early,
      Checked.each (Global.check types) p.globals .initial = .pass globals early ∧
        FunctionDef.Declarable types early.root.callees p.functions ∧
        (∀ f ∈ p.functions,
          (f.checked types (early.knowing types p.functions)).verdict = .ok ()) ∧
        (p.analyze types).node = ⟨globals, p.functions.map fun f =>
          (f.checked types (early.knowing types p.functions)).node⟩ ∧
        p.entryPoint types = .ok () := by
  have hpass : p.analyze types = .pass (p.analyze types).node () := by
    rw [Checked.pass, ← h]
  obtain ⟨hentry, globals, early, hglobals, hdeclarable, hbodies, hnode⟩ := analyze_eq_pass.1 hpass
  exact ⟨globals, early, hglobals, hdeclarable, hbodies, hnode, hentry⟩

/-- **Checking is modular.**  Take two accepted programs with the same globals and headers, and a
third one that has each body from one of them.  The third program is accepted, its globals get the
annotations that they got before, and so does each body: those that it got in the program it is
from. -/
theorem checking_modular (hp : (p.analyze types).verdict = .ok ())
    (hq : (q.analyze types).verdict = .ok ()) (hpq : p.SameInterface q) (hpr : p.SameInterface r)
    (hbodies : ∀ i, r.body? i = p.body? i ∨ r.body? i = q.body? i) :
    (r.analyze types).verdict = .ok () ∧
      (r.analyze types).node.globals = (p.analyze types).node.globals ∧
      ∀ i,
        (r.body? i = p.body? i →
          (r.analyze types).node.body? i = (p.analyze types).node.body? i) ∧
        (r.body? i = q.body? i →
          (r.analyze types).node.body? i = (q.analyze types).node.body? i) := by
  obtain ⟨globals, early, hglobals, hdeclarable, hpasses, hpnode, hentry⟩ := analyze_of_accepted hp
  obtain ⟨globals', early', hglobals', hdeclarable', hpasses', hqnode, -⟩ := analyze_of_accepted hq
  -- the globals are the same, and so is what the bodies know
  have hsame : globals' = globals ∧ early' = early := by
    rw [hpq.globals, hglobals] at hglobals'
    cases hglobals'
    exact ⟨rfl, rfl⟩
  obtain ⟨rfl, rfl⟩ := hsame
  have hqr : q.SameInterface r := hpq.trans hpr
  have hknowing := Scope.knowing_of_sameHeader hdeclarable hpq.headers
  have hknowing' := Scope.knowing_of_sameHeader hdeclarable hpr.headers
  rw [hknowing] at hpasses' hqnode
  generalize early'.knowing types p.functions = known at *
  have hr : r.analyze types =
      .pass ⟨globals', r.functions.map fun g => (g.checked types known).node⟩ () := by
    refine analyze_eq_pass.2 ⟨hpr.entryPoint hentry, globals', early', hpr.globals ▸ hglobals,
      hdeclarable.of_sameHeader hpr.headers, fun g hg => ?_, by rw [hknowing']⟩
    obtain ⟨i, hi⟩ := List.getElem?_of_mem hg
    rw [hknowing']
    rcases hbodies i with hbody | hbody
    · exact (hpr.checked_body hi hbody hdeclarable.signature hpasses).1
    · exact (hqr.checked_body hi hbody hdeclarable'.signature hpasses').1
  rw [hr, hpnode, hqnode]
  refine ⟨rfl, rfl, fun i => ⟨fun hbody => ?_, fun hbody => ?_⟩⟩
  · rw [Checked.pass, body?_map, body?_map]
    exact hpr.annotated_body hbody hdeclarable.signature hpasses
  · rw [Checked.pass, body?_map, body?_map]
    exact hqr.annotated_body hbody hdeclarable'.signature hpasses'

/-- The program that adds up 1, 2 and 3, with other bodies: `add` forgets what was added before, and
`main` has no loop. -/
def forgetting : Program :=
  ⟨summing.globals,
    [Build.function "add" [("n", "Integer")] (some "Integer")
      [Build.assignment (Build.var "total") (Build.var "n"), Build.ret (Build.var "total")],
    Build.function "main" [] (some "Integer")
      [Build.ret (Build.call "add" [Build.literal (.integer 7)])]]⟩

/-- The loop that adds up 1, 2 and 3, with the `add` that forgets. -/
def summingForgetting : Program :=
  ⟨summing.globals, forgetting.functions.take 1 ++ summing.functions.drop 1⟩

/-- The loop that adds up 1, 2 and 3 can be put together with the `add` that forgets: both bodies
keep their annotations. -/
theorem checking_modular_summing :
    (summingForgetting.analyze .builtin).verdict = .ok () ∧
      (summingForgetting.analyze .builtin).node.body? 0 =
        (forgetting.analyze .builtin).node.body? 0 ∧
      (summingForgetting.analyze .builtin).node.body? 1 =
        (summing.analyze .builtin).node.body? 1 := by
  have hsumming : (summing.analyze .builtin).verdict = .ok () := by cbv
  have hforgetting : (forgetting.analyze .builtin).verdict = .ok () := by cbv
  have hheaders : summing.SameInterface forgetting :=
    ⟨rfl, .cons ⟨rfl, rfl, rfl, rfl⟩ (.cons ⟨rfl, rfl, rfl, rfl⟩ .nil)⟩
  have hheaders' : summing.SameInterface summingForgetting :=
    ⟨rfl, .cons ⟨rfl, rfl, rfl, rfl⟩ (.cons ⟨rfl, rfl, rfl, rfl⟩ .nil)⟩
  have hbodies : ∀ i, summingForgetting.body? i = summing.body? i ∨
      summingForgetting.body? i = forgetting.body? i := by
    intro i
    cases i with
    | zero => exact .inr rfl
    | succ i => exact .inl rfl
  obtain ⟨hverdict, -, hannotations⟩ :=
    checking_modular hsumming hforgetting hheaders hheaders' hbodies
  exact ⟨hverdict, (hannotations 0).2 rfl, (hannotations 1).1 rfl⟩

end Program

end ImpTree

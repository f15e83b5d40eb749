import ImpTree.Proofs.Run.Swapped
import ImpTree.Proofs.Scope.Declaring

/-!
# From the globals to `main`

A run evaluates its globals before there are functions to call, then declares its functions and
calls one of them.

* `declareGlobals_pairs` — while globals are evaluated, built-in functions are the only ones.
* `declareFunctions_done` — what a run knows after it has declared its functions.
* `declareFunctions_of_distinct` — when all functions can be declared.
* `Program.runWithin_of_pairs` — **two runs go together** if the functions that they may call do.
-/

namespace ImpTree

variable {σ : Span → Span}

/-! ## Before functions are declared -/

/-- The scope is a root that has the built-in functions and no others. -/
structure Scope.Early (s : Scope) : Prop where
  /-- The root is alone. -/
  inner : s.inner = []
  /-- The functions are those of the start. -/
  callees : s.root.callees = Scope.initial.root.callees

theorem Scope.Early.offers {s : Scope} (h : s.Early) : s.Offers Scope.initial.root.callees :=
  ⟨h.callees, h.inner ▸ List.forall_mem_nil _⟩

/-- The functions known at the start are built in. -/
theorem Callee.among?_initial {c : Callee} {name : String} {arity : Nat}
    (h : Callee.among? Scope.initial.root.callees name arity = some c) :
    ∃ b, c.target = .builtin b := by
  obtain ⟨b, -, rfl⟩ := List.mem_map.1 (List.mem_of_find?_eq_some h)
  exact ⟨b, rfl⟩

/-- The scopes are the same, and no functions are declared yet. -/
def Scope.BothEarly (s s' : Scope) : Prop := s = s' ∧ s.Early

section Early

variable {host host' : Host}

/-- As long as no functions are declared, calls go together whatever functions there will be. -/
theorem Host.pairs_early (hsink : host'.sink = host.sink) :
    host.Pairs σ Scope.BothEarly (fun _ => True) (fun _ => True) host' := by
  refine ⟨?_, ?_⟩
  · rintro name - s s' ⟨rfl, -⟩
    rfl
  · rintro ⟨name, arity⟩ - span values -
    refine Host.callNamed_pairs ?_
    rintro s s' ⟨rfl, h⟩
    cases hfound : s.callee? name values.length with
    | none => exact .none
    | some c =>
      rw [h.offers.callee?] at hfound
      obtain ⟨b, hb⟩ := Callee.among?_initial hfound
      refine .some ?_
      rw [hb, Target.invoke, Target.invoke, hsink]
      exact Builtin.invoke_pairs host.sink values b

/-- The declaration of a global. -/
theorem Eval.declare_early (binding : VariableBinding) (value : Value) (span : Span) :
    Eval.Pairs σ Scope.BothEarly (Eval.declare binding value span)
      (Eval.declare binding value (σ span)) := by
  rintro s s' ⟨rfl, h⟩ writes
  rw [Eval.declare, Eval.declare, bind_of_done scope_apply, bind_of_done scope_apply,
    Scope.addVariable_mapSpan]
  cases hadd : s.addVariable binding value span with
  | error e => exact .failed
  | ok after =>
    obtain ⟨-, rfl⟩ := Scope.addVariable_eq_ok.1 hadd
    exact .done ⟨rfl, Scope.inner_withVariable_eq_nil.2 h.inner,
      (h.offers.withVariable ⟨binding, value⟩).root⟩

/-- **Globals are evaluated alike**, whatever functions the two programs have. -/
theorem declareGlobals_pairs (hsink : host'.sink = host.sink) : ∀ globals : List Global,
    Eval.Pairs σ Scope.BothEarly (declareGlobals host globals)
      (declareGlobals host' (globals.map (Global.mapSpans σ))) := by
  intro globals
  induction globals with
  | nil => exact .pure ()
  | cons g rest ih =>
    have hvalue : Eval.Pairs σ Scope.BothEarly (Expr.evaluateOption host g.value)
        (Expr.evaluateOption host' (g.value.map (Expr.mapSpans σ))) := by
      cases g.value with
      | none => exact .pure _
      | some e =>
        exact Expr.evaluate_pairs (Host.pairs_early hsink) e (fun _ _ => trivial)
          fun _ _ => trivial
    rw [List.map_cons, declareGlobals, declareGlobals]
    exact hvalue.bind fun value _ => (Eval.declare_early _ value g.span).bind fun _ _ => ih

end Early

/-! ## Functions -/

section Functions

variable {s : Scope} {writes : List String}

/-- A run declares functions under their keys. -/
theorem FunctionDef.names_runBinding : FunctionDef.Names FunctionDef.runBinding :=
  fun _ => ⟨rfl, List.length_map _⟩

/-- The functions that are known when those of a run are declared, too. -/
def Callee.declaringRun (cs : List Callee) (index : Nat) (fs : List FunctionDef) : List Callee :=
  Callee.declaring FunctionDef.runBinding cs index fs

/-- The declaration of one function in a root. -/
theorem declareFunctions_cons (hinner : s.inner = []) (index : Nat) (f : FunctionDef)
    (rest : List FunctionDef) :
    declareFunctions index (f :: rest) ⟨s, writes⟩ =
      match Callee.among? s.root.callees f.name f.parameters.length with
      | some _ => .failed (.duplicateBinding (callName f.name f.parameters.length) f.span) writes
      | none => declareFunctions (index + 1) rest
          ⟨s.withCallees (⟨f.runBinding, .declared index⟩ :: s.root.callees), writes⟩ := by
  obtain ⟨inner, root⟩ := s
  subst hinner
  rw [declareFunctions, Eval.bind_of_done Eval.scope_apply]
  have hinnermost : (Scope.mk [] root).innermost = root := rfl
  simp only [Scope.addFunction, (FunctionDef.names_runBinding f).2, hinnermost]
  have hlookup : root.callee? f.name f.parameters.length =
      Callee.among? root.callees f.name f.parameters.length := rfl
  show (Eval.lift (if (root.callee? f.name f.parameters.length).isSome = true then _ else _) >>= _)
    _ = _
  rw [hlookup]
  cases Callee.among? root.callees f.name f.parameters.length <;> rfl

/-- What a run knows after it has declared its functions. -/
theorem declareFunctions_done : ∀ {fs : List FunctionDef} {index : Nat} {s : Scope} {t : State},
    s.inner = [] → declareFunctions index fs ⟨s, writes⟩ = .done () t →
      t.scope = s.withCallees (Callee.declaringRun s.root.callees index fs) := by
  intro fs
  induction fs with
  | nil =>
    intro index s t _ h
    cases h
    rfl
  | cons f rest ih =>
    intro index s t hinner h
    rw [declareFunctions_cons hinner] at h
    cases hfound : Callee.among? s.root.callees f.name f.parameters.length with
    | some c => rw [hfound] at h; cases h
    | none =>
      rw [hfound] at h
      exact ih (s := s.withCallees (⟨f.runBinding, .declared index⟩ :: s.root.callees)) hinner h

/-- All functions can be declared if no two of them have the same key and none has the key of a
function that is known already. -/
theorem declareFunctions_of_distinct : ∀ {fs : List FunctionDef} {index : Nat} {s : Scope},
    s.inner = [] → (fs.map FunctionDef.key).Nodup →
      (∀ f ∈ fs, Callee.among? s.root.callees f.name f.parameters.length = none) →
        declareFunctions index fs ⟨s, writes⟩ =
          .done () ⟨s.withCallees (Callee.declaringRun s.root.callees index fs), writes⟩ := by
  intro fs
  induction fs with
  | nil => exact fun _ _ _ => rfl
  | cons f rest ih =>
    intro index s hinner hnodup hnew
    rw [List.map_cons, List.nodup_cons] at hnodup
    rw [List.forall_mem_cons] at hnew
    rw [declareFunctions_cons hinner, hnew.1]
    refine ih hinner hnodup.2 fun g hg => ?_
    rw [Scope.withCallees, Callee.among?_declared FunctionDef.names_runBinding]
    split
    · rename_i hkey
      exact absurd (hkey ▸ List.mem_map_of_mem hg) hnodup.1
    · exact hnew.2 g hg

/-- Functions are declared alike wherever they stand. -/
theorem declareFunctions_mapSpans : ∀ (fs : List FunctionDef) (index : Nat) {s : Scope},
    s.inner = [] →
      Outcome.Pairs σ Eq (declareFunctions index fs ⟨s, writes⟩)
        (declareFunctions index (fs.map (FunctionDef.mapSpans σ)) ⟨s, writes⟩) := by
  intro fs
  induction fs with
  | nil => exact fun _ _ _ => .done rfl
  | cons f rest ih =>
    intro index s hinner
    rw [List.map_cons, declareFunctions_cons hinner, declareFunctions_cons hinner]
    show Outcome.Pairs σ Eq _ (match Callee.among? s.root.callees f.name f.parameters.length with
      | some _ => _
      | none => _)
    cases Callee.among? s.root.callees f.name f.parameters.length with
    | some c => exact .failed
    | none => exact ih (index + 1) hinner

end Functions

/-! ## Runs -/

/-- The same result, with an error at the image of its place. -/
def RunResult.mapSpan (σ : Span → Span) (r : RunResult) : RunResult :=
  { r with verdict := r.verdict.mapError (Error.mapSpan σ) }

theorem RunResult.mapSpan_id (r : RunResult) : r.mapSpan id = r := by
  obtain ⟨verdict, writes⟩ := r
  cases verdict with
  | ok v => rfl
  | error e => rw [mapSpan, Except.mapError_error, Error.mapSpan_id]

/-- Outcomes that go together are the same results but for the place of an error. -/
theorem RunResult.ofOutcome?_pairs {Q : Scope → Scope → Prop} {o o' : Outcome Value}
    (h : Outcome.Pairs σ Q o o') :
    RunResult.ofOutcome? o' = (RunResult.ofOutcome? o).map (RunResult.mapSpan σ) := by
  cases h <;> rfl

section Runs

variable {p q : Program} {cs cs' : List Callee} {calls : String × Nat → Prop}

/-- The call of `main` in both runs. -/
theorem Program.main_pairs {s s' : Scope} {rounds : Nat} {sink : Sink} {writes : List String}
    (hswap : s.Swaps cs cs' s') (hpairs : Callee.Pairs σ calls p.functions q.functions cs cs')
    (hmain : calls ("main", 0)) :
    Outcome.Pairs σ (Scope.Swaps cs cs')
      ((Eval.lift s.mainIndex >>= fun main => (p.host sink rounds).call main []) ⟨s, writes⟩)
      ((Eval.lift s'.mainIndex >>= fun main => (q.host sink rounds).call main [])
        ⟨s', writes⟩) := by
  have hfound := hpairs _ hmain
  rw [← hswap.offers.callee?, ← hswap.offers'.callee?] at hfound
  simp only [Scope.mainIndex]
  generalize s.callee? "main" 0 = found at hfound ⊢
  generalize s'.callee? "main" 0 = found' at hfound ⊢
  cases hfound with
  | none => exact .failed
  | @some c c' htarget =>
    obtain ⟨binding, target⟩ := c
    obtain ⟨binding', target'⟩ := c'
    cases htarget with
    | builtin function => exact .failed
    | declared hf hf' hcalls =>
      exact callWithin_swaps hpairs rounds hf hf' hcalls [] s s' hswap writes

/-- **Two runs go together** if the globals are the same, functions are declared with the same
success, and those that may be called mean the same. -/
theorem Program.runWithin_of_pairs (hglobals : q.globals = p.globals.map (Global.mapSpans σ))
    (hfunctions : ∀ s : Scope, s.Early → ∀ writes, Outcome.Pairs σ (Scope.Swaps cs cs')
      (declareFunctions 0 p.functions ⟨s, writes⟩) (declareFunctions 0 q.functions ⟨s, writes⟩))
    (hpairs : Callee.Pairs σ calls p.functions q.functions cs cs') (hmain : calls ("main", 0))
    (rounds : Nat) (sink : Sink) :
    q.runWithin rounds sink = (p.runWithin rounds sink).map (RunResult.mapSpan σ) := by
  refine RunResult.ofOutcome?_pairs (Q := Scope.Swaps cs cs') ?_
  rw [Program.start, Program.start, hglobals]
  have hearly : Scope.BothEarly .initial .initial := ⟨rfl, rfl, rfl⟩
  have hpairs₀ := declareGlobals_pairs (σ := σ)
    (show (q.host sink rounds).sink = (p.host sink rounds).sink from rfl) p.globals
  refine (hpairs₀ _ _ hearly []).bind ?_
  rintro - s s' writes - ⟨rfl, hs⟩
  refine (hfunctions s hs writes).bind ?_
  rintro - t t' writes' - ht
  rw [Eval.bind_of_done Eval.scope_apply, Eval.bind_of_done Eval.scope_apply, ← bind_assoc,
    ← bind_assoc]
  refine (Program.main_pairs ht hpairs hmain).bind ?_
  rintro result u u' writes'' - hu
  exact ((Eval.Pairs.flush sink).bind fun _ _ => .pure result) u u' hu writes''

end Runs

end ImpTree

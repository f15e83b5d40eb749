import ImpTree.Proofs.Functions.Callable
import ImpTree.Proofs.Run.Congruence
import Mathlib.Data.Set.Card

/-!
# Programs that end

Globals are evaluated before functions are declared, so that they can only call built-in functions
and come to an end.  A program ends as a whole if `main` calls, directly or not, only functions
without loops, and none of these can call itself again.

* `Eval.Finishes` — a computation that ends wherever the given functions are known.
* `Program.declareGlobals_ends` — **globals are always evaluated to the end.**
* `Program.Calls`, `Program.rank` — which function calls which, and how deep calls can nest.
* `Program.callWithin_finishes` — **a call ends within its rank.**
* `Program.ends_without_recursion` — **programs without loops and recursion end.**
-/

namespace ImpTree

variable {α β : Type} {cs : List Callee}

/-! ## Computations that end -/

/-- The outcome is an end, and a result leaves a scope with the given functions. -/
def Outcome.Finishes (cs : List Callee) : Outcome α → Prop
  | .done _ s => s.scope.Offers cs
  | .failed _ _ => True
  | .unfinished => False

/-- An end is the result of a run. -/
theorem Outcome.Finishes.exists_result {o : Outcome Value} (h : o.Finishes cs) :
    ∃ r, RunResult.ofOutcome? o = some r := by
  cases o with
  | done v s => exact ⟨_, rfl⟩
  | failed e writes => exact ⟨_, rfl⟩
  | unfinished => exact h.elim

/-- The computation ends from every scope with the given functions. -/
def Eval.Finishes (cs : List Callee) (m : Eval α) : Prop :=
  ∀ s, s.scope.Offers cs → (m s).Finishes cs

namespace Eval.Finishes

variable {m : Eval α} {f : α → Eval β}

theorem pure (a : α) : Finishes cs (Pure.pure a : Eval α) := fun _ hs => hs

theorem fail (e : Error) : Finishes cs (Eval.fail e : Eval α) := fun _ _ => trivial

theorem lift (x : Except Error α) : Finishes cs (Eval.lift x) := by
  cases x with
  | ok a => exact pure a
  | error e => exact fail e

theorem scope : Finishes cs Eval.scope := fun _ hs => hs

/-- One computation after the other; the second one for the results of the first one only. -/
theorem bind (hm : m.Finishes cs) (hf : ∀ a, (∃ s t, m s = .done a t) → (f a).Finishes cs) :
    (m >>= f).Finishes cs := by
  intro s hs
  have hfirst := hm s hs
  rw [bind_apply]
  cases h : m s with
  | done a t =>
    rw [h] at hfirst
    exact hf a ⟨s, t, h⟩ t hfirst
  | failed e writes => trivial
  | unfinished =>
    rw [h] at hfirst
    exact hfirst

theorem declare (binding : VariableBinding) (value : Value) (span : Span) :
    Finishes cs (Eval.declare binding value span) := by
  intro s hs
  rw [Eval.declare, bind_of_done scope_apply]
  cases hadd : s.scope.addVariable binding value span with
  | error e => trivial
  | ok after =>
    obtain ⟨-, rfl⟩ := Scope.addVariable_eq_ok.1 hadd
    exact hs.withVariable ⟨binding, value⟩

/-- A computation in a frame of its own. -/
theorem inChild (h : m.Finishes cs) : (Eval.inChild m).Finishes cs := by
  intro s hs
  have hinside := h { s with scope := s.scope.child } hs.child
  rw [Eval.inChild]
  cases hm : m { s with scope := s.scope.child } with
  | done a t =>
    rw [hm] at hinside
    exact Scope.Offers.leave hinside
  | failed e writes => trivial
  | unfinished =>
    rw [hm] at hinside
    exact hinside

/-- A computation in a frame directly inside the root. -/
theorem inCall (h : m.Finishes cs) : (Eval.inCall m).Finishes cs := by
  intro s hs
  have hinside := h { s with scope := s.scope.global.child } hs.global.child
  rw [Eval.inCall]
  cases hm : m { s with scope := s.scope.global.child } with
  | done a t =>
    rw [hm] at hinside
    exact ⟨hinside.root, hs.inner⟩
  | failed e writes => trivial
  | unfinished =>
    rw [hm] at hinside
    exact hinside

/-- Coming to an end goes through all ways of putting computations together, loops apart. -/
theorem congruence : Congruence (fun _ => True) fun m _ => m.Finishes cs where
  pure := pure
  fail := fail
  lookup _ _ _ := scope.bind fun _ _ => lift _
  declare := declare
  assign name _ value := by
    intro s hs
    exact hs.assign name value
  bind := bind
  inChild := inChild
  inCall := inCall

theorem write (sink : Sink) (text : String) : Finishes cs (Eval.write sink text) := by
  intro s hs
  rw [Eval.write]
  cases sink.refusal? s.writes with
  | none => exact hs
  | some reason => trivial

theorem flush (sink : Sink) : Finishes cs (Eval.flush sink) := by
  rw [Eval.flush]
  cases sink.flushRefusal? with
  | none => exact pure ()
  | some reason => exact fail _

end Eval.Finishes

/-- Calls by name end if the declared functions that they may find do. -/
theorem Host.related_of_finishes {host : Host} {calls : String × Nat → Prop}
    (h : ∀ key, calls key → ∀ c index, Callee.among? cs key.1 key.2 = some c →
      c.target = .declared index → ∀ values, (host.call index values).Finishes cs) :
    host.Related (fun m _ => m.Finishes cs) calls False host where
  call := by
    intro key hkey span values hlength s hs
    rw [callNamed, Eval.bind_of_done Eval.scope_apply, Scope.findFunction, hs.callee?, hlength]
    cases hfound : Callee.among? cs key.1 key.2 with
    | none => trivial
    | some c =>
      have htarget : (c.target.invoke host values).Finishes cs := by
        cases hc : c.target with
        | builtin function =>
          exact function.invoke_related Eval.Finishes.congruence host.sink host.sink
            (fun text _ => .write host.sink text) values
        | declared index => exact h key hkey c index hfound hc values
      exact htarget s hs
  loop hloops := hloops.elim

/-! ## Globals -/

/-- **Globals are always evaluated to the end**: while they are, only built-in functions are
known. -/
theorem declareGlobals_finishes (host : Host) (globals : List Global) :
    (declareGlobals host globals).Finishes Scope.initial.root.callees := by
  have hhost : host.Related (fun m _ => m.Finishes Scope.initial.root.callees) (fun _ => True)
      False host := by
    refine Host.related_of_finishes fun key _ c index hfound htarget => ?_
    obtain ⟨b, hb⟩ := Callee.among?_initial hfound
    rw [hb] at htarget
    cases htarget
  exact declareGlobals_related Eval.Finishes.congruence hhost globals (fun _ _ _ _ => trivial)
    fun _ _ _ _ => trivial

/-! ## Declarations -/

/-- Functions that have all been declared had keys of their own. -/
theorem distinct_of_declareFunctions {writes : List String} : ∀ {fs : List FunctionDef}
    {index : Nat} {s : Scope} {t : State}, s.inner = [] →
      declareFunctions index fs ⟨s, writes⟩ = .done () t →
        (fs.map FunctionDef.key).Nodup ∧
          ∀ f ∈ fs, Callee.among? s.root.callees f.name f.parameters.length = none := by
  intro fs
  induction fs with
  | nil => exact fun _ _ => ⟨List.nodup_nil, List.forall_mem_nil _⟩
  | cons f rest ih =>
    intro index s t hinner h
    rw [declareFunctions_cons hinner] at h
    cases hfound : Callee.among? s.root.callees f.name f.parameters.length with
    | some c =>
      rw [hfound] at h
      cases h
    | none =>
      rw [hfound] at h
      obtain ⟨hdistinct, hnew⟩ :=
        ih (s := s.withCallees (⟨f.runBinding, .declared index⟩ :: s.root.callees)) hinner h
      -- the first function would be found under the key of a later one with the same key
      have hlater : ∀ g ∈ rest, f.key ≠ g.key ∧
          Callee.among? s.root.callees g.name g.parameters.length = none := by
        intro g hg
        have hg' := hnew g hg
        rw [Scope.withCallees, Callee.among?_declared FunctionDef.names_runBinding] at hg'
        split at hg'
        · cases hg'
        · exact ⟨‹_›, hg'⟩
      rw [List.map_cons, List.nodup_cons, List.forall_mem_cons]
      refine ⟨⟨fun hmem => ?_, hdistinct⟩, hfound, fun g hg => (hlater g hg).2⟩
      obtain ⟨g, hg, hkey⟩ := List.mem_map.1 hmem
      exact (hlater g hg).1 hkey.symm

/-- Declaring functions comes to an end. -/
theorem declareFunctions_ends : ∀ (fs : List FunctionDef) (index : Nat) (s : State),
    declareFunctions index fs s ≠ .unfinished := by
  intro fs
  induction fs with
  | nil =>
    intro index s h
    cases h
  | cons f rest ih =>
    intro index s
    rw [declareFunctions, Eval.bind_of_done Eval.scope_apply]
    cases s.scope.addFunction ⟨f.runBinding, .declared index⟩ f.span with
    | error e =>
      intro h
      cases h
    | ok after => exact ih (index + 1) { s with scope := after }

namespace Program

variable {p : Program} {key key' : String × Nat}

/-- A function that is found under a key is the function of this key. -/
theorem function?_of_among? (hp : p.DistinctKeys) {name : String} {arity : Nat} {c : Callee}
    {index : Nat} (hfound : Callee.among?
      (Callee.declaringRun Scope.initial.root.callees 0 p.functions) name arity = some c)
    (htarget : c.target = .declared index) :
    ∃ f, p.function? (name, arity) = some f ∧ p.functions[index]? = some f := by
  cases hf : p.function? (name, arity) with
  | none =>
    rw [Callee.declaringRun, Callee.among?_declaring_of_notMem FunctionDef.names_runBinding
      (notMem_of_function? hf)] at hfound
    obtain ⟨b, hb⟩ := Callee.among?_initial hfound
    rw [hb] at htarget
    cases htarget
  | some f =>
    obtain ⟨hkey, i, hi⟩ := getElem?_of_function? hf
    cases hkey
    rw [Callee.declaringRun, Callee.among?_declaring_of_getElem? FunctionDef.names_runBinding
      hp.distinct hi] at hfound
    cases hfound
    cases htarget
    rw [Nat.zero_add]
    exact ⟨f, rfl, hi⟩

/-! ## Ranks -/

/-- The body of the function of the first key has a call of the second key. -/
def Calls (p : Program) (key key' : String × Nat) : Prop :=
  ∃ f, p.function? key = some f ∧ key' ∈ Stmt.blockCalls f.body

/-- The keys of the functions that a call of a key may lead to, its own among them. -/
def below (p : Program) (key : String × Nat) : Set (String × Nat) :=
  {k | k ∈ p.functions.map FunctionDef.key ∧ Relation.ReflTransGen p.Calls key k}

/-- How deep calls may nest: the number of functions that a call may lead to. -/
noncomputable def rank (p : Program) (key : String × Nat) : Nat := (p.below key).ncard

theorem below_subset (p : Program) (key : String × Nat) :
    p.below key ⊆ (p.functions.map FunctionDef.key).toFinset := by
  intro k hk
  simpa using hk.1

theorem finite_below (p : Program) (key : String × Nat) : (p.below key).Finite :=
  (Finset.finite_toSet _).subset (p.below_subset key)

/-- There are not more ranks than functions. -/
theorem rank_le (p : Program) (key : String × Nat) : p.rank key ≤ p.functions.length := by
  have hcard := Set.ncard_le_ncard (p.below_subset key) (Finset.finite_toSet _)
  rw [Set.ncard_coe_finset] at hcard
  have hlength := List.toFinset_card_le (p.functions.map FunctionDef.key)
  rw [List.length_map] at hlength
  exact hcard.trans hlength

theorem mem_below_self {f : FunctionDef} (hf : p.function? key = some f) : key ∈ p.below key := by
  obtain ⟨hkey, i, hi⟩ := getElem?_of_function? hf
  exact ⟨hkey ▸ List.mem_map_of_mem (List.mem_of_getElem? hi), .refl⟩

/-- The rank of a function is positive. -/
theorem rank_pos {f : FunctionDef} (hf : p.function? key = some f) : 0 < p.rank key :=
  (Set.ncard_pos (p.finite_below key)).2 ⟨key, mem_below_self hf⟩

/-- **Ranks decrease along calls** where no function can call itself again. -/
theorem rank_lt (hcall : p.Calls key key') (hacyclic : ¬Relation.TransGen p.Calls key key) :
    p.rank key' < p.rank key := by
  refine Set.ncard_lt_ncard ⟨fun k hk => ⟨hk.1, .head hcall hk.2⟩, fun hsubset => ?_⟩
    (p.finite_below key)
  obtain ⟨f, hf, -⟩ := id hcall
  exact hacyclic (.head' hcall (hsubset (mem_below_self hf)).2)

/-! ## Calls -/

/-- Among the functions that a run may call, none has a loop, and none can call itself again. -/
structure Straight (p : Program) : Prop where
  /-- Bodies have no loops. -/
  loopFree : ∀ key f, p.Callable key → p.function? key = some f →
    ∀ part ∈ Stmt.blockParts f.body, part.isLoop = false
  /-- Calls do not come back. -/
  acyclic : ∀ key, p.Callable key → ¬Relation.TransGen p.Calls key key

/-- **A call ends within its rank**, by induction on the depth. -/
theorem callWithin_finishes (hp : p.Straight) (hdistinct : p.DistinctKeys) (sink : Sink) :
    ∀ (depth : Nat) {key : String × Nat} {f : FunctionDef} {index : Nat}, p.Callable key →
      p.function? key = some f → p.functions[index]? = some f → p.rank key ≤ depth →
        ∀ values, (callWithin sink p.functions depth index values).Finishes
          (Callee.declaringRun Scope.initial.root.callees 0 p.functions) := by
  intro depth
  induction depth with
  | zero =>
    intro key f index _ hf _ hrank
    have hpos := rank_pos hf
    omega
  | succ depth ih =>
    intro key f index hkey hf hindex hrank values
    have hhost : Host.Related
        (fun m _ => m.Finishes (Callee.declaringRun Scope.initial.root.callees 0 p.functions))
        (fun key' => key' ∈ Stmt.blockCalls f.body) False
        ⟨sink, depth, callWithin sink p.functions depth⟩
        ⟨sink, depth, callWithin sink p.functions depth⟩ := by
      refine Host.related_of_finishes fun key' hcall c index' hfound htarget => ?_
      obtain ⟨f', hf', hindex'⟩ := function?_of_among? hdistinct hfound htarget
      have hlt := rank_lt ⟨f, hf, hcall⟩ (hp.acyclic key hkey)
      exact ih (hkey.body hf hcall) hf' hindex' (by omega)
    rw [callWithin, hindex]
    refine FunctionDef.apply_related Eval.Finishes.congruence hhost f values (fun _ _ => trivial)
      (fun _ h => h) ?_
    intro part hpart hloop
    rw [hp.loopFree key f hkey hf part hpart] at hloop
    cases hloop

/-! ## Runs -/

/-- When the globals have been evaluated, the root is alone and has the built-in functions only. -/
theorem early_of_declareGlobals {host : Host} {globals : List Global} {t : State}
    (h : declareGlobals host globals ⟨.initial, []⟩ = .done () t) : t.scope.Early := by
  have hpairs := declareGlobals_pairs (σ := id) (show host.sink = host.sink from rfl) globals
    .initial .initial ⟨rfl, rfl, rfl⟩ []
  rw [h] at hpairs
  generalize declareGlobals host (globals.map (Global.mapSpans id)) _ = o at hpairs
  cases hpairs with
  | done hearly => exact hearly.2

/-- Functions that have all been declared have keys of their own, and they are what is known
afterwards. -/
theorem offers_of_declareFunctions {s : Scope} {writes : List String} {t : State} (hs : s.Early)
    (h : declareFunctions 0 p.functions ⟨s, writes⟩ = .done () t) :
    p.DistinctKeys ∧
      t.scope.Offers (Callee.declaringRun Scope.initial.root.callees 0 p.functions) := by
  obtain ⟨hdistinct, hnew⟩ := distinct_of_declareFunctions hs.inner h
  rw [hs.callees] at hnew
  refine ⟨⟨hdistinct, fun hmem => ?_⟩, ?_⟩
  · obtain ⟨f, hf, hkey⟩ := List.mem_map.1 hmem
    have hprint := hnew f hf
    rw [show f.name = "print" from congrArg Prod.fst hkey,
      show f.parameters.length = 1 from congrArg Prod.snd hkey] at hprint
    cases hprint
  · rw [declareFunctions_done hs.inner h, hs.callees]
    exact ⟨rfl, hs.inner ▸ List.forall_mem_nil _⟩

/-- `main` is called at a position of the program. -/
theorem callee?_of_mainIndex {s : Scope} {index : Nat} (h : s.mainIndex = .ok index) :
    ∃ c, s.callee? "main" 0 = some c ∧ c.target = .declared index := by
  rw [Scope.mainIndex] at h
  split at h
  · cases h
    exact ⟨_, ‹_›, rfl⟩
  · cases h

/-- The call of `main` and the flush end where all functions are declared. -/
theorem main_finishes (hp : p.Straight) (hdistinct : p.DistinctKeys) (sink : Sink) {rounds : Nat}
    (hrounds : p.functions.length ≤ rounds) :
    Eval.Finishes (Callee.declaringRun Scope.initial.root.callees 0 p.functions) do
      let main ← Eval.lift (← Eval.scope).mainIndex
      let result ← (p.host sink rounds).call main []
      Eval.flush sink
      return result := by
  intro s hs
  rw [Eval.bind_of_done Eval.scope_apply]
  cases hmain : s.scope.mainIndex with
  | error e => trivial
  | ok index =>
    obtain ⟨c, hfound, htarget⟩ := callee?_of_mainIndex hmain
    rw [hs.callee?] at hfound
    obtain ⟨f, hf, hindex⟩ := function?_of_among? hdistinct hfound htarget
    have hcall := callWithin_finishes hp hdistinct sink rounds .main hf hindex
      ((p.rank_le _).trans hrounds) []
    exact (hcall.bind fun v _ => (Eval.Finishes.flush sink).bind fun _ _ => .pure v) s hs

/-- **Programs without loops and recursion end.**  Whatever the program is, the evaluation of its
globals comes to an end: while they are evaluated no declared function can be called.  And if none
of the functions that `main` may call, directly or not, has a loop, and none of them can call itself
again, the run as a whole comes to an end, with a value or an error and to every sink: as many
rounds as there are functions are enough. -/
theorem ends_without_recursion (p : Program) :
    (∀ sink rounds,
      declareGlobals (p.host sink rounds) p.globals ⟨.initial, []⟩ ≠ .unfinished) ∧
    ((∀ key f, p.Callable key → p.function? key = some f →
        ∀ part ∈ Stmt.blockParts f.body, part.isLoop = false) →
      (∀ key, p.Callable key → ¬Relation.TransGen p.Calls key key) →
        ∀ sink rounds, p.functions.length ≤ rounds → ∃ r, p.runWithin rounds sink = some r) := by
  have hoffers : Scope.initial.Offers Scope.initial.root.callees := ⟨rfl, List.forall_mem_nil _⟩
  have hglobals : ∀ sink rounds,
      declareGlobals (p.host sink rounds) p.globals ⟨.initial, []⟩ ≠ .unfinished := by
    intro sink rounds h
    have hends := declareGlobals_finishes (p.host sink rounds) p.globals ⟨.initial, []⟩ hoffers
    rw [h] at hends
    exact hends
  refine ⟨hglobals, fun hloops hacyclic sink rounds hrounds => ?_⟩
  rw [runWithin, start, Eval.bind_apply]
  cases hearly : declareGlobals (p.host sink rounds) p.globals ⟨.initial, []⟩ with
  | unfinished => exact absurd hearly (hglobals sink rounds)
  | failed e writes => exact ⟨_, rfl⟩
  | done _ s =>
    dsimp only
    rw [Eval.bind_apply]
    cases hfunctions : declareFunctions 0 p.functions s with
    | unfinished => exact absurd hfunctions (declareFunctions_ends _ _ _)
    | failed e writes => exact ⟨_, rfl⟩
    | done _ t =>
      obtain ⟨hdistinct, ht⟩ :=
        offers_of_declareFunctions (early_of_declareGlobals hearly) hfunctions
      exact (main_finishes ⟨hloops, hacyclic⟩ hdistinct sink hrounds t ht).exists_result

/-- A program that squares a tenth as often as a scale has bits. -/
def squaring : Program :=
  ⟨[], [Build.function "main" [] none
    (Build.declaration "x" (some "Decimal") (some (Build.literal (.decimal ⟨1, 1⟩))) ::
      List.replicate 32 (Build.assignment (Build.var "x")
        (Build.binary .mul (Build.var "x") (Build.var "x"))) ++
      [Build.expression (Build.call "print" [Build.var "x"])])]⟩

/-- A scale that is too large does not stop a program: here it has wrapped around to zero. -/
example : squaring.runWithin 1 (.lines 1) = some ⟨.ok .nil, ["1", "\n"]⟩ := by cbv

/-- A program that doubles a number in a function of its own, and prints it there. -/
def doubling : Program :=
  ⟨[],
    [Build.function "double" [("n", "Integer")] (some "Integer")
      [Build.expression (Build.call "print" [Build.var "n"]),
        Build.ret (Build.binary .add (Build.var "n") (Build.var "n"))],
    Build.function "main" [] (some "Integer")
      [Build.ret (Build.call "double"
        [Build.call "double" [Build.literal (.integer 3)]])]]⟩

/-- In the program that doubles, `main` calls `double`, and `double` calls `print`. -/
theorem calls_doubling {key key' : String × Nat} (h : doubling.Calls key key') :
    key = ("main", 0) ∧ key' = ("double", 1) ∨ key = ("double", 1) ∧ key' = ("print", 1) := by
  obtain ⟨f, hf, hcall⟩ := h
  obtain ⟨hkey, i, hi⟩ := getElem?_of_function? hf
  subst hkey
  match i, hi with
  | 0, hi =>
    cases hi
    exact .inr ⟨rfl, List.mem_singleton.1 hcall⟩
  | 1, hi =>
    cases hi
    have hcall' : key' ∈ [("double", 1), ("double", 1)] := hcall
    exact .inl ⟨rfl, by simpa using hcall'⟩

/-- How far `print` is away in the program that doubles. -/
def doublingLevel (key : String × Nat) : Nat :=
  if key = ("main", 0) then 2 else if key = ("double", 1) then 1 else 0

/-- The program that doubles comes to an end, also where the sink is full after one line. -/
theorem ends_without_recursion_doubling :
    (∃ r, doubling.runWithin 2 (.lines 1) = some r) ∧
      doubling.runWithin 2 (.lines 1) = some ⟨.error (.io "sink full"), ["3", "\n"]⟩ := by
  have hlevel : ∀ key key', Relation.TransGen doubling.Calls key key' →
      doublingLevel key' < doublingLevel key := by
    intro key key' h
    have hcall : ∀ {key key'}, doubling.Calls key key' →
        doublingLevel key' < doublingLevel key := by
      intro key key' h
      rcases calls_doubling h with ⟨rfl, rfl⟩ | ⟨rfl, rfl⟩ <;> decide
    induction h with
    | single h => exact hcall h
    | tail _ h ih => exact (hcall h).trans ih
  have hloops : ∀ key f, doubling.Callable key → doubling.function? key = some f →
      ∀ part ∈ Stmt.blockParts f.body, part.isLoop = false := by
    intro key f _ hf part hpart
    have hmem : f ∈ doubling.functions := List.mem_of_find?_eq_some hf
    have hall : doubling.functions.all
        (fun f => (Stmt.blockParts f.body).all fun part => !part.isLoop) = true := by cbv
    simpa using List.all_eq_true.1 (List.all_eq_true.1 hall f hmem) part hpart
  have hacyclic : ∀ key, doubling.Callable key → ¬Relation.TransGen doubling.Calls key key :=
    fun key _ h => Nat.lt_irrefl _ (hlevel key key h)
  exact ⟨(ends_without_recursion doubling).2 hloops hacyclic (.lines 1) 2 (le_refl 2), by cbv⟩

end Program

end ImpTree

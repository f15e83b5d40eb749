import ImpTree.Proofs.Functions.Order
import ImpTree.Proofs.Run.Declared
import ImpTree.Proofs.Typing.Preservation

/-!
# Functions that are never called

A run depends on the functions that `main` calls, directly or not, and on no others; where these
stand in the program does not matter.

* `Program.Callable` — what a run may call by name and number of arguments.
* `Program.DistinctKeys` — every function of the program can be called.
* `Program.runWithin_of_callable` — **programs that agree on what they may call run alike.**
* `Program.function_order_irrelevant` — **neither the order of the functions matters, nor functions
  that are never called.**
-/

namespace ImpTree

namespace Program

/-- The function of a program that has a key. -/
def function? (p : Program) (key : String × Nat) : Option FunctionDef :=
  p.functions.find? fun f => f.key == key

/-- What a run may call: `main`, and what stands in the body of a function that it may call. -/
inductive Callable (p : Program) : String × Nat → Prop where
  /-- The first call. -/
  | main : Callable p ("main", 0)
  /-- A call in the body of a function. -/
  | body {key key' : String × Nat} {f : FunctionDef} (h : Callable p key)
      (hf : p.function? key = some f) (hcall : key' ∈ Stmt.blockCalls f.body) : Callable p key'

/-- No two functions have the same key, and none has the key of a built-in function. -/
structure DistinctKeys (p : Program) : Prop where
  /-- The keys of the functions differ. -/
  distinct : (p.functions.map FunctionDef.key).Nodup
  /-- None of them is the key of `print`. -/
  new : ("print", 1) ∉ p.functions.map FunctionDef.key

variable {p q : Program}

/-- A function that has a key stands at a position of the program. -/
theorem getElem?_of_function? {key : String × Nat} {f : FunctionDef}
    (h : p.function? key = some f) : f.key = key ∧ ∃ i : Nat, p.functions[i]? = some f :=
  ⟨by simpa using List.find?_some h, List.getElem?_of_mem (List.mem_of_find?_eq_some h)⟩

/-- A key that no function has. -/
theorem notMem_of_function? {key : String × Nat} (h : p.function? key = none) :
    key ∉ p.functions.map FunctionDef.key := by
  rw [function?, List.find?_eq_none] at h
  intro hmem
  obtain ⟨f, hf, hkey⟩ := List.mem_map.1 hmem
  exact h f hf (by simpa using hkey)

/-- Before functions are declared, `print` with one argument is the only one that is known. -/
theorem among?_initial_of_ne {name : String} {arity : Nat} (h : (name, arity) ≠ ("print", 1)) :
    Callee.among? Scope.initial.root.callees name arity = none := by
  refine List.find?_eq_none.2 fun c hc => ?_
  obtain ⟨b, -, rfl⟩ := List.mem_map.1 hc
  cases b with
  | print =>
    intro hkey
    simp only [Bool.and_eq_true, beq_iff_eq] at hkey
    exact h (Prod.ext hkey.1.symm hkey.2.symm)

/-- Functions with keys of their own can all be declared. -/
theorem DistinctKeys.declared (h : p.DistinctKeys) {s : Scope} (hs : s.Early)
    (writes : List String) :
    declareFunctions 0 p.functions ⟨s, writes⟩ =
      .done () ⟨s.withCallees (Callee.declaringRun Scope.initial.root.callees 0 p.functions),
        writes⟩ := by
  rw [← hs.callees]
  refine declareFunctions_of_distinct hs.inner h.distinct fun f hf => ?_
  rw [hs.callees]
  exact among?_initial_of_ne fun hkey => h.new (hkey ▸ List.mem_map_of_mem hf)

/-- What is found under a key that may be called means the same in both programs. -/
theorem calleePairs_of_callable (hp : p.DistinctKeys) (hq : q.DistinctKeys)
    (hsame : ∀ key, p.Callable key → q.function? key = p.function? key) :
    Callee.Pairs id p.Callable p.functions q.functions
      (Callee.declaringRun Scope.initial.root.callees 0 p.functions)
      (Callee.declaringRun Scope.initial.root.callees 0 q.functions) := by
  rintro ⟨name, arity⟩ hkey
  have hq? := hsame _ hkey
  cases hp? : p.function? (name, arity) with
  | some f =>
    rw [hp?] at hq?
    obtain ⟨hname, i, hi⟩ := getElem?_of_function? hp?
    obtain ⟨-, j, hj⟩ := getElem?_of_function? hq?
    cases hname
    rw [Callee.declaringRun, Callee.declaringRun,
      Callee.among?_declaring_of_getElem? FunctionDef.names_runBinding hp.distinct hi,
      Callee.among?_declaring_of_getElem? FunctionDef.names_runBinding hq.distinct hj,
      Nat.zero_add, Nat.zero_add]
    exact .some (.declared hi (hj.trans (congrArg some f.mapSpans_id.symm))
      fun _ hcall => hkey.body hp? hcall)
  | none =>
    rw [hp?] at hq?
    rw [Callee.declaringRun, Callee.declaringRun,
      Callee.among?_declaring_of_notMem FunctionDef.names_runBinding (notMem_of_function? hp?),
      Callee.among?_declaring_of_notMem FunctionDef.names_runBinding (notMem_of_function? hq?)]
    cases hfound : Callee.among? Scope.initial.root.callees name arity with
    | none => exact .none
    | some c =>
      obtain ⟨b, hb⟩ := Callee.among?_initial hfound
      refine .some ?_
      rw [hb]
      exact .builtin b

/-- **Programs that agree on what they may call run alike**, to every sink and within any number of
rounds. -/
theorem runWithin_of_callable (hglobals : q.globals = p.globals) (hp : p.DistinctKeys)
    (hq : q.DistinctKeys) (hsame : ∀ key, p.Callable key → q.function? key = p.function? key)
    (rounds : Nat) (sink : Sink) : q.runWithin rounds sink = p.runWithin rounds sink := by
  have hmapped : q.globals = p.globals.map (Global.mapSpans id) := by
    have hfixed : ∀ g ∈ p.globals, g.mapSpans id = g :=
      fun g _ => Global.mapSpans_eq_self fun _ _ => rfl
    rw [hglobals, List.map_congr_left hfixed, List.map_id']
  rw [runWithin_of_pairs hmapped (fun s hs writes => ?_)
    (calleePairs_of_callable hp hq hsame) .main rounds sink]
  · cases p.runWithin rounds sink with
    | none => rfl
    | some r => exact congrArg some r.mapSpan_id
  · rw [hp.declared hs, hq.declared hs]
    exact .done ⟨⟨rfl, hs.offers.inner⟩, rfl⟩

/-- **Neither the order of functions matters, nor functions that are never called.**  For programs
with the same globals: if the functions of one are those of the other in another order, one is
accepted if the other is, and then every function has the same annotations.  And if the functions of
each have keys of their own and the programs agree on everything that `main` may call, directly or
not, both runs come to the same end with the same output, whatever other functions there are. -/
theorem function_order_irrelevant (p q : Program) (hglobals : q.globals = p.globals) :
    (q.functions.Perm p.functions → ∀ a : Analyzer,
      ((a.analyze q).1.verdict = .ok () ↔ (a.analyze p).1.verdict = .ok ()) ∧
      ((a.analyze p).1.verdict = .ok () →
        (a.analyze q).1.node.globals = (a.analyze p).1.node.globals ∧
        ∀ i j : Nat, q.functions[j]? = p.functions[i]? →
          (a.analyze q).1.node.functions[j]? = (a.analyze p).1.node.functions[i]?)) ∧
    (p.DistinctKeys → q.DistinctKeys →
      (∀ key, p.Callable key → q.function? key = p.function? key) →
        ∀ rounds sink, q.runWithin rounds sink = p.runWithin rounds sink) := by
  refine ⟨fun hperm a => ?_, runWithin_of_callable hglobals⟩
  rw [a.fst_analyze p, a.fst_analyze q]
  have hpass : ∀ {r : Program}, (r.analyze a.types).verdict = .ok () →
      r.analyze a.types = .pass (r.analyze a.types).node () := by
    intro r h
    rw [Checked.pass, ← h]
  refine ⟨⟨fun h => ?_, fun h => ?_⟩, fun h => ?_⟩
  · obtain ⟨annotate, -, hp⟩ := analyze_perm hglobals.symm hperm.symm (hpass h)
    rw [hp]
    rfl
  · obtain ⟨annotate, -, hq⟩ := analyze_perm hglobals hperm (hpass h)
    rw [hq]
    rfl
  · obtain ⟨annotate, hp, hq⟩ := analyze_perm hglobals hperm (hpass h)
    rw [hq]
    refine ⟨rfl, fun i j hsame => ?_⟩
    show (q.functions.map annotate)[j]? = _
    rw [hp, List.getElem?_map, List.getElem?_map, hsame]

/-- The program that adds up 1, 2 and 3, with `main` before the function that it calls. -/
def summingReversed : Program := ⟨summing.globals, summing.functions.reverse⟩

/-- The same program with one more function, which nothing but itself calls. -/
def summingIdle : Program :=
  ⟨summing.globals,
    Build.function "idle" [] none [Build.expression (Build.call "idle" [])] ::
      summing.functions.reverse⟩

/-- The program that adds up 1, 2 and 3 calls `main` and `add` only. -/
theorem callable_summing {key : String × Nat} (h : summing.Callable key) :
    key = ("main", 0) ∨ key = ("add", 1) := by
  have hmain : (summing.function? ("main", 0)).map (fun f => Stmt.blockCalls f.body) =
      some [("add", 1)] := by cbv
  have hadd : (summing.function? ("add", 1)).map (fun f => Stmt.blockCalls f.body) =
      some [] := by cbv
  induction h with
  | main => exact .inl rfl
  | body _ hf hcall ih =>
    rcases ih with rfl | rfl
    · rw [hf, Option.map_some, Option.some_inj] at hmain
      rw [hmain, List.mem_singleton] at hcall
      exact .inr hcall
    · rw [hf, Option.map_some, Option.some_inj] at hadd
      rw [hadd] at hcall
      exact absurd hcall List.not_mem_nil

/-- The program that adds up 1, 2 and 3 is accepted with its functions in the other order, with the
same annotations, and has the same value when there is a function that is never called. -/
theorem function_order_irrelevant_summing :
    (summingReversed.analyze .builtin).verdict = .ok () ∧
      (summingReversed.analyze .builtin).node.functions[0]? =
        (summing.analyze .builtin).node.functions[1]? ∧
      summingIdle.runWithin 6 .unbounded = some ⟨.ok (.integer 6), []⟩ := by
  have hreversed := function_order_irrelevant summing summingReversed rfl
  have hidle := function_order_irrelevant summing summingIdle rfl
  have haccepted : (summing.analyze .builtin).verdict = .ok () := by cbv
  obtain ⟨hiff, hsame⟩ := hreversed.1 (List.reverse_perm _) (.new .builtin)
  have hdistinct : summing.DistinctKeys := ⟨by decide, by decide⟩
  have hdistinctIdle : summingIdle.DistinctKeys := ⟨by decide, by decide⟩
  have hagree : ∀ key, summing.Callable key →
      summingIdle.function? key = summing.function? key := by
    intro key hkey
    rcases callable_summing hkey with rfl | rfl <;> cbv
  refine ⟨hiff.2 haccepted, (hsame haccepted).2 1 0 rfl, ?_⟩
  rw [hidle.2 hdistinct hdistinctIdle hagree]
  cbv

end Program

end ImpTree

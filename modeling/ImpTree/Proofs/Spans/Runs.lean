import ImpTree.Proofs.Run.Declared
import ImpTree.Proofs.Spans.Checked
import ImpTree.Tree.Build
import Mathlib

/-!
# Runs of trees at other places

What a program does depends on its spans in nothing but the places of errors, and these are places
of the program.

* `Callee.pairs_mapSpans` — a program and the program at other places offer the same functions.
* `Program.runWithin_mapSpans` — a run of the program at other places.
* `Program.mem_nodeSpans_of_fixed` — an error that moves with the program points into the program.
* `Program.spans_are_metadata` — **spans decide nothing, and errors point into the program.**
-/

namespace ImpTree

variable {σ : Span → Span}

/-! ## Runs -/

/-- What a run finds under a name means the same in the program at other places. -/
theorem Callee.pairs_mapSpans (fs : List FunctionDef) :
    Callee.Pairs σ (fun _ => True) fs (fs.map (FunctionDef.mapSpans σ))
      (declaringRun Scope.initial.root.callees 0 fs)
      (declaringRun Scope.initial.root.callees 0 fs) := by
  rintro ⟨name, arity⟩ -
  cases hfound : among? (declaringRun Scope.initial.root.callees 0 fs) name arity with
  | none => exact .none
  | some c =>
    refine .some ?_
    rcases among?_declaring FunctionDef.names_runBinding hfound with ⟨i, f, hf, htarget⟩ | hearly
    · rw [htarget, Nat.zero_add]
      exact .declared hf (by rw [List.getElem?_map, hf]; rfl) fun _ _ => trivial
    · obtain ⟨b, hb⟩ := among?_initial hearly
      rw [hb]
      exact .builtin b

/-- The functions of the program at other places are declared with the same success. -/
theorem declareFunctions_swaps (fs : List FunctionDef) {s : Scope} (hs : s.Early)
    (writes : List String) :
    Outcome.Pairs σ
      (Scope.Swaps (Callee.declaringRun Scope.initial.root.callees 0 fs)
        (Callee.declaringRun Scope.initial.root.callees 0 fs))
      (declareFunctions 0 fs ⟨s, writes⟩)
      (declareFunctions 0 (fs.map (FunctionDef.mapSpans σ)) ⟨s, writes⟩) := by
  have hpairs : Outcome.Pairs σ Eq (declareFunctions 0 fs ⟨s, writes⟩)
      (declareFunctions 0 (fs.map (FunctionDef.mapSpans σ)) ⟨s, writes⟩) :=
    declareFunctions_mapSpans fs 0 hs.inner
  generalize hdone : declareFunctions 0 fs ⟨s, writes⟩ = o at hpairs ⊢
  generalize declareFunctions 0 (fs.map (FunctionDef.mapSpans σ)) ⟨s, writes⟩ = o' at hpairs ⊢
  cases hpairs with
  | failed => exact .failed
  | unfinished => exact .unfinished
  | @done _ t t' _ heq =>
    subst heq
    have ht : t = s.withCallees (Callee.declaringRun s.root.callees 0 fs) :=
      declareFunctions_done hs.inner hdone
    rw [hs.callees] at ht
    subst ht
    exact .done ⟨⟨rfl, hs.offers.inner⟩, rfl⟩

/-- **A run is moved with the program**: to every sink and within any number of rounds, a program
whose spans are replaced has the output and the value of the program, or its error at the image of
its place. -/
theorem Program.runWithin_mapSpans (p : Program) (rounds : Nat) (sink : Sink) :
    (p.mapSpans σ).runWithin rounds sink =
      (p.runWithin rounds sink).map (RunResult.mapSpan σ) :=
  Program.runWithin_of_pairs (q := p.mapSpans σ) rfl
    (fun _ hs writes => declareFunctions_swaps p.functions hs writes)
    (Callee.pairs_mapSpans p.functions) trivial rounds sink

/-! ## Places of errors -/

namespace Program

variable {p : Program}

/-- Fixes the spans of a program and moves every other one. -/
def movingOthers (p : Program) (span : Span) : Span :=
  if span ∈ p.nodeSpans then span else if span = .nowhere then ⟨0, 1⟩ else .nowhere

/-- A span that is not moved belongs to the program. -/
theorem mem_nodeSpans_of_fixed {span : Span} (h : p.movingOthers span = span) :
    span ∈ p.nodeSpans := by
  by_cases hspan : span ∈ p.nodeSpans
  · exact hspan
  · rw [movingOthers, if_neg hspan] at h
    by_cases hnowhere : span = .nowhere
    · rw [if_pos hnowhere, hnowhere] at h
      exact absurd h (by decide)
    · rw [if_neg hnowhere] at h
      exact absurd h.symm hnowhere

/-- A program does not change when all other spans are moved. -/
theorem mapSpans_movingOthers (p : Program) : p.mapSpans p.movingOthers = p :=
  mapSpans_eq_self fun _ hspan => if_pos hspan

/-- An error that stays the same when all other spans are moved points into the program. -/
theorem span_mem_of_fixed {e : Error} {span : Span} (h : e.mapSpan p.movingOthers = e)
    (hspan : e.span? = some span) : span ∈ p.nodeSpans := by
  have hmoved := e.span?_mapSpan p.movingOthers
  rw [h, hspan, Option.map_some, Option.some_inj] at hmoved
  exact mem_nodeSpans_of_fixed hmoved.symm

/-- **Spans decide nothing, and errors point into the program.**  If every span of a program is
replaced by its image, a check makes the same annotations, also where it fails, and a check or a run
comes to the same end but for the place of its error, which is the image of the place it had.  The
place of every error is the span of a node of the program. -/
theorem spans_are_metadata (σ : Span → Span) (p : Program) :
    (∀ a : Analyzer,
      (a.analyze (p.mapSpans σ)).1.node = (a.analyze p).1.node.mapSpans σ ∧
      (a.analyze (p.mapSpans σ)).1.node.notes = (a.analyze p).1.node.notes ∧
      (a.analyze (p.mapSpans σ)).1.verdict =
        (a.analyze p).1.verdict.mapError (Error.mapSpan σ)) ∧
    (∀ rounds sink, (p.mapSpans σ).runWithin rounds sink =
      (p.runWithin rounds sink).map (RunResult.mapSpan σ)) ∧
    (∀ (a : Analyzer) e span, (a.analyze p).1.verdict = .error e → e.span? = some span →
      span ∈ p.nodeSpans) ∧
    ∀ rounds sink r e span, p.runWithin rounds sink = some r → r.verdict = .error e →
      e.span? = some span → span ∈ p.nodeSpans := by
  refine ⟨fun a => ?_, fun rounds sink => p.runWithin_mapSpans rounds sink,
    fun a e span hverdict hspan => ?_, fun rounds sink r e span hrun hverdict hspan => ?_⟩
  · rw [a.analyze_mapSpans p]
    exact ⟨rfl, notes_mapSpans _, rfl⟩
  · have hmoved := congrArg Checked.verdict (a.analyze_mapSpans (σ := p.movingOthers) p)
    rw [mapSpans_movingOthers] at hmoved
    have hfixed : e.mapSpan p.movingOthers = e := by
      rw [Checked.mapSpans, hverdict, Except.mapError_error, Except.error.injEq] at hmoved
      exact hmoved.symm
    exact span_mem_of_fixed hfixed hspan
  · have hmoved := p.runWithin_mapSpans (σ := p.movingOthers) rounds sink
    rw [mapSpans_movingOthers, hrun, Option.map_some, Option.some_inj] at hmoved
    have hfixed : e.mapSpan p.movingOthers = e := by
      have hsame := congrArg RunResult.verdict hmoved
      rw [RunResult.mapSpan, hverdict, Except.mapError_error, Except.error.injEq] at hsame
      exact hsame.symm
    exact span_mem_of_fixed hfixed hspan

/-- A program that divides by zero, in a text where the quotient stands at `10..15`. -/
def dividing : Program :=
  ⟨[], [Build.function "main" [] (some "Integer")
    [Build.ret ((Build.binary .div (Build.literal (.integer 1))
      (Build.literal (.integer 0))).withSpan ⟨10, 15⟩)]]⟩

/-- A quotient that is moved by a hundred bytes fails a hundred bytes later, and in both programs
the error points at a node. -/
theorem spans_are_metadata_dividing :
    dividing.runWithin 1 .unbounded = some ⟨.error (.divisionByZero ⟨10, 15⟩), []⟩ ∧
      (dividing.mapSpans fun span => ⟨span.start + 100, span.stop + 100⟩).runWithin 1 .unbounded =
        some ⟨.error (.divisionByZero ⟨110, 115⟩), []⟩ ∧
      ⟨10, 15⟩ ∈ dividing.nodeSpans := by
  have hmetadata := spans_are_metadata (fun span => ⟨span.start + 100, span.stop + 100⟩) dividing
  have hrun : dividing.runWithin 1 .unbounded = some ⟨.error (.divisionByZero ⟨10, 15⟩), []⟩ := by
    cbv
  refine ⟨hrun, ?_, hmetadata.2.2.2 1 .unbounded _ _ _ hrun rfl rfl⟩
  rw [hmetadata.2.1, hrun]
  rfl

end Program

end ImpTree

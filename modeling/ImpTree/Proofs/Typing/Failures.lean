import ImpTree.Proofs.Run.Raising
import ImpTree.Proofs.Typing.Checker
import ImpTree.Proofs.Typing.NullFree
import ImpTree.Proofs.Typing.Preservation

/-!
# What a checked program can fail with

* `Program.names_resolved` — **names, bindings and forms**: a checked program that was fresh never
  fails for one of them.
* `Program.null_free_progress` — **progress**: if no missing value comes in, a run returns an
  integer or fails for a reason that no type excludes.
* `Program.analysis_error_iff` — **errors of the wrong phase**: a run of a checked program fails
  with an error that is reported as one of the analysis exactly if it comes to a clash.
-/

namespace ImpTree

variable {types : TypeNames} {p : Program} {sink : Sink} {rounds : Nat} {writes : List String}
  {e : Error}

/-! ## Names, bindings and forms -/

/-- **Names, bindings and forms.**  A checked program that was fresh never fails for a name that is
bound nowhere or declared twice, for a form that is not allowed or for its entry point. -/
theorem Program.names_resolved (hfresh : p.IsFresh)
    (haccepted : (p.analyze types).verdict = .ok ())
    (hrun : (p.analyze types).node.runWithin rounds sink = some ⟨.error e, writes⟩) :
    (∀ name span, e ≠ .unresolvedName name span) ∧
      (∀ name span, e ≠ .duplicateBinding name span) ∧
      (∀ reason span, e ≠ .invalidForm reason span) ∧ ∀ reason, e ≠ .entryPoint reason := by
  have hrules : ∃ early whole, (p.analyze types).node.Typed types True True early whole :=
    Program.typed_of_analyze haccepted fun _ => hfresh
  obtain ⟨early, whole, htyped⟩ := hrules
  rcases htyped.error_excused hrun with hphase | ⟨⟨-, expected, got, span, rfl⟩ | ⟨hstale, -⟩, -⟩
  · refine ⟨?_, ?_, ?_, ?_⟩
    · rintro name span rfl
      cases hphase
    · rintro name span rfl
      cases hphase
    · rintro reason span rfl
      cases hphase
    · rintro reason rfl
      cases hphase
  · exact ⟨fun _ _ h => Error.noConfusion h, fun _ _ h => Error.noConfusion h,
      fun _ _ h => Error.noConfusion h, fun _ h => Error.noConfusion h⟩
  · exact absurd trivial hstale

/-- A program whose `main` adds 1 to a variable that has no value yet. -/
def Program.addingToMissing : Program :=
  ⟨[], [Build.function "main" [] (some "Integer")
    [Build.declaration "x" (some "Integer") none,
      Build.ret (Build.binary .add (Build.var "x") (Build.literal (.integer 1)))]]⟩

/-- Adding to a missing value is a mismatch, and no error of the four kinds. -/
theorem Program.names_resolved_addingToMissing :
    Program.addingToMissing.IsFresh ∧
      (Program.addingToMissing.analyze .builtin).verdict = .ok () ∧
      ∃ e, (Program.addingToMissing.analyze .builtin).node.runWithin 2 .unbounded =
          some ⟨.error e, []⟩ ∧
        (∀ name span, e ≠ .unresolvedName name span) ∧
        (∀ name span, e ≠ .duplicateBinding name span) ∧
        (∀ reason span, e ≠ .invalidForm reason span) ∧ ∀ reason, e ≠ .entryPoint reason := by
  have hfresh : Program.addingToMissing.IsFresh := rfl
  have haccepted : (Program.addingToMissing.analyze .builtin).verdict = .ok () := by cbv
  have hrun : (Program.addingToMissing.analyze .builtin).node.runWithin 2 .unbounded =
      some ⟨.error (.typeMismatch "Integer or Decimal" "Nil" .nowhere), []⟩ := by cbv
  exact ⟨hfresh, haccepted, _, hrun, Program.names_resolved hfresh haccepted hrun⟩

/-! ## Progress -/

/-- The errors of the runtime phase. -/
theorem Error.phase_eq_runtime_iff :
    e.phase = .runtime ↔
      (∃ span, e = .divisionByZero span) ∨ (∃ exponent span, e = .negativeExponent exponent span) ∨
        (∃ index length span, e = .indexOutOfBounds index length span) ∨
        ∃ reason, e = .io reason := by
  cases e <;> simp [Error.phase]

/-- **Progress of null-free programs.**  If a checked program that was fresh is null-free, a run
that ends returns an integer, or it fails with a division by zero, a negative exponent, an index out
of bounds or a write that is refused. -/
theorem Program.null_free_progress {r : RunResult} (hfresh : p.IsFresh)
    (haccepted : (p.analyze types).verdict = .ok ())
    (hfree : (p.analyze types).node.NullFree types)
    (hrun : (p.analyze types).node.runWithin rounds sink = some r) :
    (∃ n, r.verdict = .ok (.integer n)) ∨
      ∃ e, r.verdict = .error e ∧
        ((∃ span, e = .divisionByZero span) ∨
          (∃ exponent span, e = .negativeExponent exponent span) ∨
          (∃ index length span, e = .indexOutOfBounds index length span) ∨
          ∃ reason, e = .io reason) := by
  have hrules : ∃ early whole, (p.analyze types).node.Typed types True True early whole :=
    Program.typed_of_analyze haccepted fun _ => hfresh
  obtain ⟨early, whole, htyped⟩ := hrules
  have hstrict := htyped.strict trivial hfree
  obtain ⟨verdict, writes⟩ := r
  cases verdict with
  | ok v =>
    rcases hstrict.result_fits hrun with ⟨hmissing, -⟩ | ⟨n, rfl⟩
    · exact hmissing.elim
    · exact .inl ⟨n, rfl⟩
  | error e =>
    have hphase := (hstrict.error_excused hrun).phase_eq_runtime trivial not_false
    exact .inr ⟨e, rfl, Error.phase_eq_runtime_iff.1 hphase⟩

/-- The program that adds up 1, 2 and 3 is null-free, so its run, which ends, returns an integer. -/
theorem Program.null_free_progress_summing :
    (Program.summing.analyze .builtin).node.NullFree .builtin ∧
      ∃ r, (Program.summing.analyze .builtin).node.runWithin 6 .unbounded = some r ∧
        ∃ n, r.verdict = .ok (.integer n) := by
  have hfresh : Program.summing.IsFresh := rfl
  have haccepted : (Program.summing.analyze .builtin).verdict = .ok () := by cbv
  have hreturns : ∀ f ∈ (Program.summing.analyze .builtin).node.functions,
      Stmt.blockReturns f.body = true := by decide +kernel
  have hfree : (Program.summing.analyze .builtin).node.NullFree .builtin :=
    ⟨by decide +kernel, by decide +kernel, fun f hf _ _ _ _ => hreturns f hf, by decide +kernel⟩
  have hrun : (Program.summing.analyze .builtin).node.runWithin 6 .unbounded =
      some ⟨.ok (.integer 6), []⟩ := by cbv
  refine ⟨hfree, _, hrun, ?_⟩
  rcases Program.null_free_progress hfresh haccepted hfree hrun with hok | ⟨e, he, -⟩
  · exact hok
  · cases he

/-! ## Errors of the wrong phase -/

/-- **Errors of the wrong phase.**  A run of a checked program fails with an error that is reported
as one of the analysis exactly if the run comes to a clash with that error. -/
theorem Program.analysis_error_iff (haccepted : (p.analyze types).verdict = .ok ()) (sink : Sink)
    (e : Error) :
    ((∃ rounds writes, (p.analyze types).node.runWithin rounds sink = some ⟨.error e, writes⟩) ∧
        e.phase = .analysis) ↔
      ∃ m, (p.analyze types).node.Reaches sink m ∧
        (p.analyze types).node.Clash sink m.task m.state e := by
  constructor
  · rintro ⟨⟨rounds, writes, hrun⟩, hphase⟩
    have hrules : ∃ early whole, (p.analyze types).node.Typed types p.IsFresh True early whole :=
      Program.typed_of_analyze haccepted id
    obtain ⟨early, whole, htyped⟩ := hrules
    rcases htyped.error_excused hrun with hruntime | ⟨-, hleads⟩
    · rw [hphase] at hruntime
      cases hruntime
    · exact hleads .initial []
  · rintro ⟨m, hreaches, hclash⟩
    obtain ⟨writes, hraises⟩ := hclash.raises
    obtain ⟨rounds, hfailed⟩ := (hreaches.raises hraises).exists
    refine ⟨⟨rounds, writes.reverse, ?_⟩, hclash.phase⟩
    exact congrArg RunResult.ofOutcome? hfailed

/-- Adding to a missing value is reported as an error of the analysis, although the program was
accepted; the run comes to a clash with this error. -/
theorem Program.analysis_error_addingToMissing :
    (Program.addingToMissing.analyze .builtin).verdict = .ok () ∧
      (Program.addingToMissing.analyze .builtin).node.runWithin 2 .unbounded =
        some ⟨.error (.typeMismatch "Integer or Decimal" "Nil" .nowhere), []⟩ ∧
      (Error.typeMismatch "Integer or Decimal" "Nil" .nowhere).phase = .analysis ∧
      ∃ m, (Program.addingToMissing.analyze .builtin).node.Reaches .unbounded m ∧
        (Program.addingToMissing.analyze .builtin).node.Clash .unbounded m.task m.state
          (.typeMismatch "Integer or Decimal" "Nil" .nowhere) := by
  have haccepted : (Program.addingToMissing.analyze .builtin).verdict = .ok () := by cbv
  have hrun : (Program.addingToMissing.analyze .builtin).node.runWithin 2 .unbounded =
      some ⟨.error (.typeMismatch "Integer or Decimal" "Nil" .nowhere), []⟩ := by cbv
  exact ⟨haccepted, hrun, rfl,
    (Program.analysis_error_iff haccepted .unbounded _).1 ⟨⟨2, [], hrun⟩, rfl⟩⟩

end ImpTree

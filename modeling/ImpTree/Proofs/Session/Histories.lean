import ImpTree.Proofs.Annotations.Fillings
import ImpTree.Proofs.Run.Erased
import ImpTree.Session
import ImpTree.Proofs.Typing.Preservation

/-!
# Histories of sessions

A session checks and runs programs in any order with one checker and one sink.  Whatever its history
is, each of its programs is as it was at the start or as a first check leaves it, and the checker is
as good as new.

* `Session.after` — the session after steps, one after the other.
* `Session.Coherent` — what every step preserves: `Session.Coherent.after`.
* `Session.check_history_free` — **checks do not depend on the history**.
* `Session.passes_decoupled` — **checks and runs do not meddle with each other**.
-/

namespace ImpTree

namespace Session

/-- Lists that correspond still do when corresponding elements are put in the same place. -/
theorem forall₂_set {α β : Type} {R : α → β → Prop} {xs : List α} {ys : List β} {y : β}
    (h : List.Forall₂ R xs ys) : ∀ {i : Nat}, (∀ x, xs[i]? = some x → R x y) →
    List.Forall₂ R xs (ys.set i y) := by
  induction h with
  | nil => exact fun _ => .nil
  | cons hxy hrest ih =>
    intro i hi
    cases i with
    | zero => exact .cons (hi _ rfl) hrest
    | succ i => exact .cons hxy (ih hi)

section Histories

variable [filling : Filling]

/-- The session after steps, one after the other. -/
def after (s : Session) : List SessionStep → Session
  | [] => s
  | step :: rest => (s.step step).2.after rest

/-- The answer to a step is the one that the session after the steps before it gives. -/
theorem answers_getElem? : ∀ (s : Session) (steps : List SessionStep) (k : Nat)
    {step : SessionStep}, steps[k]? = some step →
    (s.answers steps)[k]? = some ((s.after (steps.take k)).step step).1
  | s, first :: rest, 0, step, h => by
    rw [List.getElem?_cons_zero, Option.some.injEq] at h
    subst h
    rfl
  | s, first :: rest, k + 1, step, h => by
    rw [List.getElem?_cons_succ] at h
    exact answers_getElem? (s.step first).2 rest k h

/-! ## What every step preserves -/

variable {types : TypeNames} {programs : List Program}

/-- A program in a session: annotations apart it is what it was, and if it was fresh, it is as it
was or as a check leaves it. -/
structure Seen (types : TypeNames) (p q : Program) : Prop where
  /-- Annotations apart, the program is what it was. -/
  erase : q.erase = p.erase
  /-- A fresh program is as it was or as a check leaves it. -/
  fresh : p.IsFresh → q = p ∨ q = (p.analyze types).node

theorem Seen.start (p : Program) : Seen types p p := ⟨rfl, fun _ => .inl rfl⟩

/-- A check of a program that was fresh is the first check of the program. -/
theorem Seen.analyze {p q : Program} (h : Seen types p q) (hfresh : p.IsFresh) :
    q.analyze types = p.analyze types := by
  rcases h.fresh hfresh with rfl | rfl
  · rfl
  · exact Program.analyze_settled filling filling hfresh

/-- A check of a program in a session leaves it as a program in a session. -/
theorem Seen.checked {p q : Program} (h : Seen types p q) :
    Seen types p (q.analyze types).node where
  erase := (Analyzer.erase_analyze _ q).trans h.erase
  fresh hfresh := .inr (congrArg Checked.node (h.analyze hfresh))

/-- What holds of a session at any time: the checker is as good as new, the programs to start afresh
from are kept, and every program is as it was or as a check leaves it. -/
structure Coherent (types : TypeNames) (programs : List Program) (s : Session) : Prop where
  /-- The checker is as good as new. -/
  analyzer : s.analyzer = .new types
  /-- The programs of the start are kept. -/
  fresh : s.fresh = programs
  /-- The programs are as they were or as a check leaves them. -/
  seen : List.Forall₂ (Seen types) programs s.programs

/-- The program at a position of a session comes from the one that stood there at the start. -/
theorem Coherent.getD {s : Session} (h : Coherent types programs s) {i : Nat} {p : Program}
    (hp : programs[i]? = some p) : Seen types p (s.programs.getD i default) := by
  obtain ⟨hi, rfl⟩ := List.getElem?_eq_some_iff.1 hp
  have hlength : i < s.programs.length := h.seen.length_eq ▸ hi
  have hget : Seen types programs[i] s.programs[i] := h.seen.get hi hlength
  rwa [← List.getElem_eq_getD (h := hlength)]

theorem Coherent.start : Coherent types programs (.start types programs) :=
  ⟨rfl, rfl, List.forall₂_same.2 fun p _ => .start p⟩

/-- **One step** leaves a session coherent. -/
theorem Coherent.step {s : Session} (h : Coherent types programs s) (step : SessionStep) :
    Coherent types programs (s.step step).2 := by
  cases step with
  | check i =>
    refine ⟨?_, h.fresh, forall₂_set h.seen fun p hp => ?_⟩
    · show (s.analyzer.analyze (s.programs.getD i default)).2 = _
      rw [h.analyzer]
      exact Analyzer.analyze_idle rfl _
    · rw [h.analyzer]
      exact (h.getD hp).checked
  | run i => exact ⟨h.analyzer, h.fresh, h.seen⟩
  | reset i =>
    refine ⟨h.analyzer, h.fresh, forall₂_set h.seen fun p hp => ?_⟩
    rw [h.fresh, List.getD_eq_getElem?_getD, hp]
    exact .start p

/-- **Any history** leaves a session coherent. -/
theorem Coherent.after {s : Session} (h : Coherent types programs s) :
    ∀ steps : List SessionStep, Coherent types programs (s.after steps) := by
  intro steps
  induction steps generalizing s with
  | nil => exact h
  | cons step rest ih => exact ih (h.step step)

end Histories

/-! ## Checks -/

/-- **Checks do not depend on the history.**  After any steps of a session, a check of a program
that was fresh at the start comes to the verdict and leaves the annotations of a new checker on the
fresh program; the same check once more comes to the same verdict and changes no slot.  All this is
so by every filling, and every filling comes to the same: since what becomes of a slot that gets a
value other than the one it holds depends on the filling, no slot gets one. -/
theorem check_history_free [filling : Filling] {types : TypeNames} {programs : List Program}
    {steps : List SessionStep} {i : Nat} {p : Program} (hp : programs[i]? = some p)
    (hfresh : p.IsFresh) :
    let s := (Session.start types programs).after steps
    let q := s.programs.getD i default
    let result := s.analyzer.analyze q
    result.1 = p.analyze types ∧ (result.2.analyze result.1.node).1 = result.1 ∧
      ∀ other : Filling, result.1 = @Program.analyze other types p := by
  have hs : Coherent types programs ((Session.start types programs).after steps) :=
    Coherent.start.after steps
  have hchecked : ((Analyzer.new types).analyze
      (((Session.start types programs).after steps).programs.getD i default)).1 =
        p.analyze types := (hs.getD hp).analyze hfresh
  dsimp only
  rw [hs.analyzer, hchecked, Analyzer.analyze_idle rfl]
  exact ⟨rfl, Program.analyze_settled filling filling hfresh,
    fun other => Program.analyze_agrees other filling hfresh⟩

/-- A program that fails in the middle of `main`: a text is returned in the place of an integer. -/
def returningText : Program :=
  ⟨[], [Build.function "main" [] (some "Integer")
    [Build.declaration "x" none (some (Build.literal (.integer 1))),
      Build.ret (Build.literal (.string "done"))]]⟩

/-- A check that fails in the middle leaves annotations, and fails in the same way after it and
another program have been checked, also if values replace what slots hold. -/
theorem check_history_free_returningText :
    let s := (Session.start .builtin [returningText, .summing]).after [.check 0, .check 1]
    let r := @after .replacing (.start .builtin [returningText, .summing]) [.check 0, .check 1]
    (returningText.analyze .builtin).verdict =
        .error (.typeMismatch "Integer" "String" .nowhere) ∧
      (s.programs.getD 0 default).notes =
        [.function (some ⟨"main", [], .integer⟩), .declaration (some ⟨"x", .integer, true⟩),
          .literal (some .integer), .literal (some .string)] ∧
      (s.analyzer.analyze (s.programs.getD 0 default)).1 = returningText.analyze .builtin ∧
      (@Analyzer.analyze .replacing r.analyzer (r.programs.getD 0 default)).1 =
        returningText.analyze .builtin := by
  have hfresh : returningText.IsFresh := rfl
  have hfree := fun filling => @check_history_free filling .builtin [returningText, .summing]
    [.check 0, .check 1] 0 returningText rfl hfresh
  exact ⟨by cbv, by cbv, (hfree .keeping).1, (hfree .replacing).2.2 .keeping⟩

/-! ## Runs -/

/-- **Checks and runs do not meddle with each other.**  A check changes nothing but annotations,
whether the program passes or fails.  A run reads no annotations, and over a sink that refuses
nothing what was written before does not matter.  So every run in a session of checks, runs and
resets answers like a run of the program alone and without annotations, and a check with a run comes
to the run of the program as it was, or to the error of the check with nothing written. -/
theorem passes_decoupled (a : Analyzer) (p : Program) (sink : Sink) :
    (a.analyze p).1.node.erase = p.erase ∧
      (∀ rounds, p.runWithin rounds sink = p.erase.runWithin rounds sink) ∧
      ((∀ writes, sink.refusal? writes = none) → ∀ rounds earlier,
        p.runWithin rounds (sink.after earlier) = p.erase.runWithin rounds sink) ∧
      (∀ types (programs : List Program) (steps : List SessionStep) (k i : Nat),
        steps[k]? = some (.run i) → programs[i]? = some p →
        ((Session.start types programs).answers steps)[k]? =
          some (.ran (p.erase.run .unbounded))) ∧
      ∀ types, p.checkThenRun types sink =
        match (p.analyze types).verdict with
        | .ok _ => p.run sink
        | .error e => some ⟨.error e, []⟩ := by
  refine ⟨Analyzer.erase_analyze a p, fun rounds => (Program.runWithin_erase rounds sink p).symm,
    fun hsink rounds earlier => ?_, fun types programs steps k i hk hp => ?_, fun types => ?_⟩
  · rw [Sink.after_eq hsink, Program.runWithin_erase]
  · have hs : Coherent types programs ((Session.start types programs).after (steps.take k)) :=
      Coherent.start.after _
    rw [answers_getElem? _ _ _ hk, Session.step, Sink.after_eq fun _ => rfl, Program.run,
      ← Program.runWithin_erase, (hs.getD hp).erase]
    rfl
  · have hrun : (p.analyze types).node.run sink = p.run sink := by
      rw [Program.run, ← Program.runWithin_erase, Program.analyze, Analyzer.erase_analyze,
        Program.runWithin_erase]
      rfl
    rw [← hrun]
    rfl

/-- The run of a program in a session: it has been checked before, another program has failed its
check, and its own first run has changed its global. -/
theorem passes_decoupled_summing :
    ((Session.start .builtin [returningText, .summing]).answers
        [.check 1, .check 0, .run 1, .run 1])[3]? = some (.ran (Program.summing.run .unbounded)) ∧
      Program.summing.runWithin 6 .unbounded = some ⟨.ok (.integer 6), []⟩ := by
  have hfree := passes_decoupled (.new .builtin) .summing .unbounded
  exact ⟨hfree.2.2.2.1 .builtin [returningText, .summing] [.check 1, .check 0, .run 1, .run 1] 3 1
    rfl rfl, by cbv⟩

end Session

end ImpTree

import ImpTree.Analysis
import ImpTree.Run
import ImpTree.Tree.Notes

/-!
# Sessions

Several programs are checked and run in any order, one after the other, with one checker and one
sink.  Checks leave their annotations in the programs; a program may be taken afresh.

* `Program.checkThenRun` — a check, and a run if it passes.
* `Analyzer.analyzeTimes`, `Program.analyzeTimes` — several checks of one program by one checker.
* `Session` — the programs with their annotations and what has been written.
* `Session.step` — one step with its answer.
-/

namespace ImpTree

variable [Filling]

/-! ## One program -/

/-- Checks a program and runs it if the check passes; nothing is written if it does not. -/
def Program.checkThenRun (types : TypeNames) (sink : Sink) (p : Program) :
    Option RunResult :=
  let checked := p.analyze types
  match checked.verdict with
  | .ok _ => checked.node.run sink
  | .error e => some ⟨.error e, []⟩

/-- Checks a program a number of times, each time with the annotations that are there already; the
verdict is the last one. -/
def Analyzer.analyzeTimes (a : Analyzer) : Nat → Program → Checked Program Unit
  | 0, p => .pass p ()
  | 1, p => (a.analyze p).1
  | times + 2, p =>
    let (checked, a) := a.analyze p
    a.analyzeTimes (times + 1) checked.node

/-- Checks a program a number of times with a new checker. -/
def Program.analyzeTimes (types : TypeNames) (times : Nat) (p : Program) : Checked Program Unit :=
  (Analyzer.new types).analyzeTimes times p

/-! ## Several programs -/

/-- The state of a session. -/
structure Session where
  /-- The checker for all programs. -/
  analyzer : Analyzer
  /-- The programs as they were at the start. -/
  fresh : List Program
  /-- The programs with the annotations made since. -/
  programs : List Program
  /-- What all runs have written, the latest first. -/
  written : List String

/-- A step of a session on the program at a position. -/
inductive SessionStep where
  /-- Checks the program. -/
  | check (index : Nat)
  /-- Runs the program as it is. -/
  | run (index : Nat)
  /-- Takes the program afresh, without annotations. -/
  | reset (index : Nat)

/-- The answer to a step. -/
inductive SessionAnswer where
  /-- The verdict of a check, and the annotations after it. -/
  | checked (verdict : Except Error Unit) (notes : List Note)
  /-- The result of a run with what it wrote; none if it does not end. -/
  | ran (result : Option RunResult)
  /-- Nothing to say. -/
  | silent

namespace Session

/-- A session at its start. -/
def start (types : TypeNames) (programs : List Program) : Session :=
  ⟨.new types, programs, programs, []⟩

/-- One step, with the session after it. -/
def step (s : Session) : SessionStep → SessionAnswer × Session
  | .check i =>
    let (checked, analyzer) := s.analyzer.analyze (s.programs.getD i default)
    (.checked checked.verdict checked.node.notes,
      { s with analyzer, programs := s.programs.set i checked.node })
  | .run i =>
    let result := (s.programs.getD i default).run (Sink.unbounded.after s.written)
    let writes := (result.map RunResult.writes).getD []
    (.ran result, { s with written := writes.reverse ++ s.written })
  | .reset i => (.silent, { s with programs := s.programs.set i (s.fresh.getD i default) })

/-- The answers to steps, one after the other. -/
def answers (s : Session) : List SessionStep → List SessionAnswer
  | [] => []
  | step :: rest =>
    let (answer, s) := s.step step
    answer :: answers s rest

end Session

end ImpTree

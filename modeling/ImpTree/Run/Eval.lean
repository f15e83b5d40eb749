import ImpTree.Scope

/-!
# Computations of a running program

A computation takes the state of a run to a result and a new state, or ends the run with an error,
or does not end within the rounds it is given.

* `Sink` — what a program writes to: it may refuse a write, and it may refuse to be flushed.
* `State` — the scope and what has been written.
* `Eval` — a computation; `Eval.run` starts it.
* `Eval.inChild`, `Eval.inCall` — a computation in a frame of its own.
-/

namespace ImpTree

/-! ## Sinks -/

/-- What a program writes to. -/
structure Sink where
  /-- The reason for which the next write is refused, if it is.  It depends on the writes accepted
  so far, the latest first. -/
  refusal? : List String → Option String
  /-- The reason for which flushing fails, if it does. -/
  flushRefusal? : Option String

namespace Sink

/-- A sink that takes everything. -/
def unbounded : Sink := ⟨fun _ => none, none⟩

/-- The number of line ends in a list of writes. -/
def lineEnds (writes : List String) : Nat := (writes.flatMap String.toList).count '\n'

/-- A sink that refuses every write once it has accepted a number of line ends. -/
def lines (limit : Nat) : Sink :=
  ⟨fun accepted => if lineEnds accepted < limit then none else some "sink full", none⟩

/-- The same sink, whose flushing fails. -/
def failingFlush (sink : Sink) : Sink := { sink with flushRefusal? := some "flush failed" }

/-- The same sink after it has accepted some writes. -/
def after (sink : Sink) (earlier : List String) : Sink :=
  { sink with refusal? := fun accepted => sink.refusal? (accepted ++ earlier) }

end Sink

/-! ## States and outcomes -/

/-- What a computation depends on and may change. -/
structure State where
  /-- The names that are in scope, with their values. -/
  scope : Scope
  /-- The writes that the sink accepted, the latest first. -/
  writes : List String
  deriving Inhabited

/-- How a computation comes out. -/
inductive Outcome (α : Type) where
  /-- It ends with a result. -/
  | done (result : α) (state : State)
  /-- It ends with an error; of the state only the writes are left. -/
  | failed (error : Error) (writes : List String)
  /-- It needs more rounds than it was given. -/
  | unfinished
  deriving Inhabited

/-- A computation with a result in `α`. -/
def Eval (α : Type) : Type := State → Outcome α

namespace Eval

variable {α β : Type}

/-- Starts a computation in a state. -/
def run (m : Eval α) (state : State) : Outcome α := m state

/-! ## Steps -/

instance : Monad Eval where
  pure a := fun state => .done a state
  bind m f := fun state =>
    match m state with
    | .done a state => f a state
    | .failed e writes => .failed e writes
    | .unfinished => .unfinished

instance : Inhabited (Eval α) := ⟨fun _ => .unfinished⟩

/-- A computation that needs more rounds than it was given. -/
def unfinished : Eval α := fun _ => .unfinished

/-- Ends the run with an error. -/
def fail (e : Error) : Eval α := fun state => .failed e state.writes

/-- Goes on with a result, or ends the run with an error. -/
def lift : Except Error α → Eval α
  | .ok a => pure a
  | .error e => fail e

/-- The present scope. -/
def scope : Eval Scope := fun state => .done state.scope state

/-- Goes on in another scope. -/
def setScope (scope : Scope) : Eval Unit := fun state => .done () { state with scope }

/-- Declares a variable in the innermost frame. -/
def declare (binding : VariableBinding) (value : Value) (span : Span) : Eval Unit := do
  let scope ← lift ((← scope).addVariable binding value span)
  setScope scope

/-- The innermost variable of a name. -/
def lookup (name : String) (span : Span) : Eval Variable := do
  lift ((← scope).findVariable name span)

/-- Offers one write to the sink. -/
def write (sink : Sink) (text : String) : Eval Unit := fun state =>
  match sink.refusal? state.writes with
  | none => .done () { state with writes := text :: state.writes }
  | some reason => .failed (.io reason) state.writes

/-- Offers writes to the sink one after the other, until one is refused. -/
def writeAll (sink : Sink) : List String → Eval Unit
  | [] => pure ()
  | text :: rest => do
    write sink text
    writeAll sink rest

/-- Asks the sink to keep what has been written. -/
def flush (sink : Sink) : Eval Unit :=
  match sink.flushRefusal? with
  | none => pure ()
  | some reason => fail (.io reason)

/-! ## Frames -/

/-- A computation in one more frame inside the present scope, which ends with the computation. -/
def inChild (m : Eval α) : Eval α := fun state =>
  match m { state with scope := state.scope.child } with
  | .done a state => .done a { state with scope := state.scope.leave }
  | .failed e writes => .failed e writes
  | .unfinished => .unfinished

/-- A computation in a frame directly inside the root.  The frames around the call are out of sight
and come back unchanged afterwards; what happened to the root stays. -/
def inCall (m : Eval α) : Eval α := fun state =>
  match m { state with scope := state.scope.global.child } with
  | .done a after =>
    .done a { after with scope := { inner := state.scope.inner, root := after.scope.root } }
  | .failed e writes => .failed e writes
  | .unfinished => .unfinished

/-! ## Loops -/

/-- Repeats a body as long as a condition holds, for a number of rounds at most; `more` says whether
the result of a body lets the loop go on. -/
def loop (condition : Eval Bool) (body : Eval (Option α)) : Nat → State → Outcome (Option α)
  | 0, _ => .unfinished
  | rounds + 1, state =>
    match condition state with
    | .done false state => .done none state
    | .done true state =>
      match body state with
      | .done none state => loop condition body rounds state
      | .done (some a) state => .done (some a) state
      | .failed e writes => .failed e writes
      | .unfinished => .unfinished
    | .failed e writes => .failed e writes
    | .unfinished => .unfinished

/-! ## How the steps compute -/

@[simp]
theorem pure_apply (a : α) (state : State) : (pure a : Eval α) state = .done a state := rfl

@[simp]
theorem fail_apply (e : Error) (state : State) :
    (fail e : Eval α) state = .failed e state.writes := rfl

theorem bind_apply (m : Eval α) (f : α → Eval β) (state : State) :
    (m >>= f) state =
      match m state with
      | .done a state => f a state
      | .failed e writes => .failed e writes
      | .unfinished => .unfinished := rfl

instance : LawfulMonad Eval :=
  LawfulMonad.mk' Eval
    (by
      intro α m
      funext state
      show (match m state with | .done a state => _ | .failed e writes => _ | .unfinished => _) = _
      cases m state <;> rfl)
    (fun _ _ => rfl)
    (by
      intro α β γ m f g
      funext state
      simp only [bind_apply]
      cases m state <;> rfl)

@[simp]
theorem lift_ok (a : α) : lift (.ok a) = pure a := rfl

@[simp]
theorem lift_error (e : Error) : (lift (.error e) : Eval α) = fail e := rfl

/-- One round of a loop: the condition, the body, and the rest of the loop unless the body ends
it. -/
theorem loop_succ (condition : Eval Bool) (body : Eval (Option α)) (rounds : Nat) :
    loop condition body (rounds + 1) = show Eval (Option α) from do
      if ← condition then
        match ← body with
        | none => loop condition body rounds
        | some a => return some a
      else return none := by
  funext state
  rw [loop, bind_apply]
  cases condition state with
  | done holds state =>
    cases holds with
    | false => rfl
    | true =>
      simp only [if_true, bind_apply]
      cases body state with
      | done flow state => cases flow <;> rfl
      | failed e writes => rfl
      | unfinished => rfl
  | failed e writes => rfl
  | unfinished => rfl

end Eval

end ImpTree

import ImpTree.Proofs.Scope.Names

/-!
# Sequences of operations on a scope

What a program does to its scopes is a sequence of operations: entering and leaving, declaring,
looking up, setting and updating.  Each has an answer.  Here are the facts about whole sequences
that need no other model of a scope.

* `Scope.Op`, `Scope.step`, `Scope.perform`, `Scope.history` — operations, and what they come to.
* `Scope.step_of_error` — an operation that fails changes nothing.
* `Scope.perform_block` — **a scope that is left leaves behind what it set outside**, and nothing
  else.
* `Scope.perform_leave` — the root is what remains when all scopes are left.
* `Scope.history_functions`, `Scope.history_variables` — **functions and variables do not
  interfere.**
-/

namespace ImpTree

namespace Scope

/-! ## Operations -/

/-- Where an operation looks a name up. -/
inductive Place where
  /-- In the present scope. -/
  | here
  /-- In the root of the present scope. -/
  | global
  deriving DecidableEq

/-- An operation on a scope. -/
inductive Op where
  /-- One more scope inside. -/
  | enter
  /-- Back to the scope around. -/
  | leave
  /-- A new variable. -/
  | declareVariable (binding : VariableBinding) (value : Value) (span : Span)
  /-- A new function. -/
  | declareFunction (callee : Callee) (span : Span)
  /-- A variable is looked up. -/
  | findVariable (place : Place) (name : String) (span : Span)
  /-- A function is looked up. -/
  | findFunction (place : Place) (name : String) (arity : Nat) (span : Span)
  /-- A variable is looked up and its value is changed in place. -/
  | update (place : Place) (name : String) (change : Value → Value) (span : Span)

/-- A variable is looked up and set: its value before does not matter. -/
def Op.set (place : Place) (name : String) (value : Value) (span : Span) : Op :=
  .update place name (fun _ => value) span

/-- What an operation answers. -/
inductive Answer where
  /-- Nothing in particular. -/
  | done
  /-- A variable, as it was when it was found. -/
  | variable (v : Variable)
  /-- A function. -/
  | function (c : Callee)
  /-- The operation fails. -/
  | error (e : Error)

/-- The scope in which a name is looked up. -/
def seen (s : Scope) : Place → Scope
  | .here => s
  | .global => s.global

/-- Gives the variable that is found from a place another value. -/
def assignFrom (s : Scope) : Place → String → Value → Scope
  | .here, name, value => s.assign name value
  | .global, name, value => { s with root := (s.global.assign name value).root }

/-- An operation: its answer, and the scope after it. -/
def step (s : Scope) : Op → Answer × Scope
  | .enter => (.done, s.child)
  | .leave => (.done, s.leave)
  | .declareVariable binding value span =>
    match s.addVariable binding value span with
    | .ok after => (.variable ⟨binding, value⟩, after)
    | .error e => (.error e, s)
  | .declareFunction callee span =>
    match s.addFunction callee span with
    | .ok after => (.function callee, after)
    | .error e => (.error e, s)
  | .findVariable place name span =>
    match (s.seen place).findVariable name span with
    | .ok found => (.variable found, s)
    | .error e => (.error e, s)
  | .findFunction place name arity span =>
    match (s.seen place).findFunction name arity span with
    | .ok found => (.function found, s)
    | .error e => (.error e, s)
  | .update place name change span =>
    match (s.seen place).findVariable name span with
    | .ok found => (.variable found, s.assignFrom place name (change found.value))
    | .error e => (.error e, s)

/-- The scope after operations, one after the other. -/
def perform (s : Scope) : List Op → Scope
  | [] => s
  | op :: rest => (s.step op).2.perform rest

/-- Operations, one after the other, with their answers. -/
def history (s : Scope) : List Op → List (Op × Answer)
  | [] => []
  | op :: rest => (op, (s.step op).1) :: (s.step op).2.history rest

variable {s t : Scope} {op : Op} {ops rest : List Op} {name : String} {value : Value}

theorem perform_append (s : Scope) (ops rest : List Op) :
    s.perform (ops ++ rest) = (s.perform ops).perform rest := by
  induction ops generalizing s with
  | nil => rfl
  | cons op ops ih => exact ih (s.step op).2

/-! ## Operations that fail -/

/-- **An operation that fails changes nothing.** -/
theorem step_of_error {e : Error} (h : (s.step op).1 = .error e) : (s.step op).2 = s := by
  cases op with
  | enter => cases h
  | leave => cases h
  | declareVariable binding value span =>
    rw [step] at h ⊢
    cases hadd : s.addVariable binding value span with
    | ok after =>
      rw [hadd] at h
      cases h
    | error e => rfl
  | declareFunction callee span =>
    rw [step] at h ⊢
    cases hadd : s.addFunction callee span with
    | ok after =>
      rw [hadd] at h
      cases h
    | error e => rfl
  | findVariable place name span =>
    rw [step]
    cases (s.seen place).findVariable name span <;> rfl
  | findFunction place name arity span =>
    rw [step]
    cases (s.seen place).findFunction name arity span <;> rfl
  | update place name change span =>
    rw [step] at h ⊢
    cases hfind : (s.seen place).findVariable name span with
    | ok found =>
      rw [hfind] at h
      cases h
    | error e => rfl

/-! ## Scopes that are left -/

/-- The scope with more frames inside. -/
def within (s : Scope) (fs : List Frame) : Scope := ⟨fs ++ s.inner, s.root⟩

@[simp]
theorem global_within (fs : List Frame) : (s.within fs).global = s.global := rfl

/-- A variable that none of the inner frames has is found outside. -/
theorem var?_within {fs : List Frame} (h : ∀ f ∈ fs, f.var? name = none) :
    (s.within fs).var? name = s.var? name := by
  have hinner : fs.findSome? (fun f => f.var? name) = none := List.findSome?_eq_none_iff.2 h
  simp only [var?, within, frames, List.append_assoc]
  rw [List.findSome?_append, hinner, Option.none_or]

/-- An assignment to a variable that none of the inner frames has happens outside. -/
theorem assign_within {fs : List Frame} (h : ∀ f ∈ fs, f.var? name = none) :
    (s.within fs).assign name value = (s.assign name value).within fs := by
  have hinner : assignIn name value (fs ++ s.inner) s.root =
      (fs ++ (assignIn name value s.inner s.root).1, (assignIn name value s.inner s.root).2) := by
    induction fs with
    | nil => rfl
    | cons f rest ih =>
      rw [List.forall_mem_cons] at h
      rw [List.cons_append, assignIn, h.1, ih h.2]
      rfl
  rw [assign, within, hinner]
  rfl

/-- An assignment to a variable that one of the inner frames has stays inside, whatever is
outside. -/
theorem assign_within_inside (value : Value) {fs : List Frame}
    (h : ¬∀ f ∈ fs, f.var? name = none) : ∃ fs' : List Frame, fs'.length = fs.length ∧
      ∀ s : Scope, (s.within fs).assign name value = s.within fs' := by
  have hinner : ∃ fs' : List Frame, fs'.length = fs.length ∧ ∀ outer last,
      assignIn name value (fs ++ outer) last = (fs' ++ outer, last) := by
    induction fs with
    | nil => exact absurd (List.forall_mem_nil _) h
    | cons f rest ih =>
      by_cases hf : (f.var? name).isSome
      · refine ⟨f.assign name value :: rest, rfl, fun outer last => ?_⟩
        rw [List.cons_append, assignIn, if_pos hf]
        rfl
      · rw [List.forall_mem_cons, Option.not_isSome_iff_eq_none.1 hf] at h
        obtain ⟨fs', hlength, hfs'⟩ := ih fun hrest => h ⟨rfl, hrest⟩
        refine ⟨f :: fs', congrArg Nat.succ hlength, fun outer last => ?_⟩
        rw [List.cons_append, assignIn, if_neg hf, hfs']
        rfl
  obtain ⟨fs', hlength, hfs'⟩ := hinner
  exact ⟨fs', hlength, fun s => by rw [assign, within, hfs']; rfl⟩

/-- How many scopes are open after an operation. -/
def Op.opens (n : Nat) : Op → Nat
  | .enter => n + 1
  | .leave => n - 1
  | _ => n

/-- Where a number of scopes is open, the operations leave these scopes and the ones that they enter
themselves, and no others. -/
def Op.Balanced : Nat → List Op → Prop
  | n, [] => n = 0
  | n, op :: rest => (op = .leave → n ≠ 0) ∧ Balanced (op.opens n) rest

/-- Does the operation change a variable that stands outside a number of inner frames? -/
def Op.reachesOut (s : Scope) (inside : Nat) : Op → Bool
  | .update .here name _ _ => (s.inner.take inside).all fun f => (f.var? name).isNone
  | .update .global _ _ _ => true
  | _ => false

/-- Those of the operations that change variables of a scope of the given depth, or of the scopes
around it. -/
def outward (depth : Nat) (s : Scope) : List Op → List Op
  | [] => []
  | op :: rest =>
    if op.reachesOut s (s.depth - depth) then op :: (s.step op).2.outward depth rest
    else (s.step op).2.outward depth rest

/-- What reaches out changes a value. -/
theorem update_of_mem_outward {depth : Nat} : ∀ {ops : List Op} {s : Scope},
    op ∈ s.outward depth ops → ∃ place name change span, op = .update place name change span := by
  intro ops
  induction ops with
  | nil => exact nofun
  | cons first rest ih =>
    intro s h
    rw [outward] at h
    split at h
    · rename_i hout
      rcases List.mem_cons.1 h with rfl | h
      · cases op with
        | update place name change span => exact ⟨place, name, change, span, rfl⟩
        | _ => cases hout
      · exact ih h
    · exact ih h

theorem depth_within (s : Scope) (fs : List Frame) : (s.within fs).depth - s.depth = fs.length := by
  simp [depth, within]

/-- An operation reaches out if it changes a variable that none of the inner frames has. -/
theorem reachesOut_here {fs : List Frame} {change : Value → Value} {span : Span} :
    (Op.update .here name change span).reachesOut (s.within fs) fs.length = true ↔
      ∀ f ∈ fs, f.var? name = none := by
  simp [Op.reachesOut, within]

/-- **What one operation does to a scope with frames inside**: it changes the inner frames, or it
does outside what it would do there without them. -/
theorem step_within {fs : List Frame} {n : Nat} (hfs : fs.length = n + 1)
    (hleave : op = .leave → n ≠ 0) :
    ∃ fs' : List Frame, fs'.length = op.opens n + 1 ∧
      ((s.within fs).step op).2 =
        (if op.reachesOut (s.within fs) fs.length then (s.step op).2 else s).within fs' := by
  obtain ⟨f, rest, rfl⟩ := List.exists_cons_of_length_eq_add_one hfs
  have hrest : rest.length = n := Nat.succ.inj hfs
  cases op with
  | enter => exact ⟨.empty :: f :: rest, congrArg (· + 1) hfs, rfl⟩
  | leave =>
    have hn := hleave rfl
    exact ⟨rest, by simp only [Op.opens]; omega, rfl⟩
  | declareVariable binding value span =>
    rw [step]
    cases hadd : (s.within (f :: rest)).addVariable binding value span with
    | ok after =>
      obtain ⟨-, rfl⟩ := addVariable_eq_ok.1 hadd
      exact ⟨{ f with vars := ⟨binding, value⟩ :: f.vars } :: rest, hfs, rfl⟩
    | error e => exact ⟨f :: rest, hfs, rfl⟩
  | declareFunction callee span =>
    rw [step]
    cases hadd : (s.within (f :: rest)).addFunction callee span with
    | ok after =>
      obtain ⟨-, rfl⟩ := addFunction_eq_ok.1 hadd
      exact ⟨{ f with callees := callee :: f.callees } :: rest, hfs, rfl⟩
    | error e => exact ⟨f :: rest, hfs, rfl⟩
  | findVariable place name span =>
    rw [step]
    cases ((s.within (f :: rest)).seen place).findVariable name span <;>
      exact ⟨f :: rest, hfs, rfl⟩
  | findFunction place name arity span =>
    rw [step]
    cases ((s.within (f :: rest)).seen place).findFunction name arity span <;>
      exact ⟨f :: rest, hfs, rfl⟩
  | update place name change span =>
    cases place with
    | global =>
      have hout : (Op.update .global name change span).reachesOut (s.within (f :: rest))
          (f :: rest).length = true := rfl
      refine ⟨f :: rest, hfs, ?_⟩
      rw [if_pos hout, step, step, seen, seen, global_within]
      cases s.global.findVariable name span <;> rfl
    | here =>
      by_cases h : ∀ g ∈ f :: rest, g.var? name = none
      · refine ⟨f :: rest, hfs, ?_⟩
        rw [if_pos (reachesOut_here.2 h), step, step, seen, seen, findVariable, findVariable,
          var?_within h]
        cases s.var? name with
        | none => rfl
        | some found => exact assign_within h
      · rw [if_neg (mt reachesOut_here.1 h), step]
        cases ((s.within (f :: rest)).seen .here).findVariable name span with
        | error e => exact ⟨f :: rest, hfs, rfl⟩
        | ok found =>
          obtain ⟨fs', hlength, hassign⟩ := assign_within_inside (change found.value) h
          exact ⟨fs', hlength.trans hfs, hassign s⟩

theorem length_assignIn (name : String) (value : Value) : ∀ (fs : List Frame) (last : Frame),
    (assignIn name value fs last).1.length = fs.length := by
  intro fs last
  induction fs with
  | nil => rfl
  | cons f rest ih =>
    rw [assignIn]
    split
    · rfl
    · exact congrArg Nat.succ ih

/-- An operation that reaches out enters and leaves nothing. -/
theorem depth_step_of_reachesOut {n : Nat} (h : op.reachesOut t n = true) :
    (s.step op).2.depth = s.depth := by
  cases op with
  | update place name change span =>
    rw [step]
    cases (s.seen place).findVariable name span with
    | error e => rfl
    | ok found =>
      cases place with
      | here => exact length_assignIn name _ s.inner s.root
      | global => rfl
  | _ => cases h

/-- What operations do to a scope with frames inside, by induction on the operations: the scope
outside changes by those that reach out. -/
theorem perform_within : ∀ {ops : List Op} {s : Scope} {fs : List Frame} {n : Nat},
    fs.length = n + 1 → Op.Balanced n ops →
      ∃ f : Frame, (s.within fs).perform ops =
        (s.perform ((s.within fs).outward s.depth ops)).within [f] := by
  intro ops
  induction ops with
  | nil =>
    intro s fs n hfs hbalanced
    subst hbalanced
    obtain ⟨f, rfl⟩ := List.length_eq_one_iff.1 hfs
    exact ⟨f, rfl⟩
  | cons op rest ih =>
    intro s fs n hfs hbalanced
    obtain ⟨hleave, hbalanced⟩ := hbalanced
    obtain ⟨fs', hlength, hstep⟩ := step_within (s := s) hfs hleave
    rw [perform, outward, depth_within, hstep]
    by_cases hout : op.reachesOut (s.within fs) fs.length = true
    · rw [if_pos hout, if_pos hout, perform, ← depth_step_of_reachesOut (s := s) hout]
      exact ih hlength hbalanced
    · rw [if_neg hout, if_neg hout]
      exact ih hlength hbalanced

/-- **A scope that is left leaves behind what it set outside**, and nothing else: entering a scope,
operations inside, and leaving it come to those operations that change variables outside. -/
theorem perform_block {block : List Op} (h : Op.Balanced 0 block) (s : Scope) :
    s.perform (.enter :: block ++ [.leave]) =
      s.perform (s.child.outward s.depth block) := by
  have hchild : [Frame.empty].length = 0 + 1 := rfl
  obtain ⟨f, hblock⟩ := perform_within (s := s) hchild h
  rw [List.cons_append, perform, perform_append]
  exact congrArg leave hblock

/-- The root is what remains when all scopes are left. -/
theorem perform_leave (s : Scope) :
    s.perform (List.replicate s.depth .leave) = s.global := by
  obtain ⟨inner, root⟩ := s
  induction inner with
  | nil => rfl
  | cons f rest ih => exact ih

end Scope

/-! ## Two kinds of names -/

/-- The frame without its functions. -/
def Frame.variablesOnly (f : Frame) : Frame := ⟨f.vars, []⟩

/-- The frame without its variables. -/
def Frame.functionsOnly (f : Frame) : Frame := ⟨[], f.callees⟩

namespace Scope

variable {s : Scope} {op : Op} {name : String} {value : Value}

/-- Does the operation declare, look up or change a variable? -/
def Op.onVariables : Op → Bool
  | .declareVariable _ _ _ | .findVariable _ _ _ | .update _ _ _ _ => true
  | _ => false

/-- Does the operation declare or look up a function? -/
def Op.onFunctions : Op → Bool
  | .declareFunction _ _ | .findFunction _ _ _ _ => true
  | _ => false

/-- The scope with every frame changed in the same way. -/
def mapFrames (change : Frame → Frame) (s : Scope) : Scope := ⟨s.inner.map change, change s.root⟩

section MapFrames

variable (change : Frame → Frame)

theorem seen_mapFrames (place : Place) :
    (s.mapFrames change).seen place = (s.seen place).mapFrames change := by
  cases place <;> rfl

theorem innermost_mapFrames : (s.mapFrames change).innermost = change s.innermost := by
  obtain ⟨_ | ⟨f, rest⟩, root⟩ := s <;> rfl

theorem withInnermost_mapFrames (f : Frame) :
    (s.mapFrames change).withInnermost (change f) = (s.withInnermost f).mapFrames change := by
  obtain ⟨_ | ⟨g, rest⟩, root⟩ := s <;> rfl

theorem leave_mapFrames : (s.mapFrames change).leave = s.leave.mapFrames change := by
  obtain ⟨_ | ⟨g, rest⟩, root⟩ := s <;> rfl

theorem var?_mapFrames (h : ∀ f, (change f).var? name = f.var? name) :
    (s.mapFrames change).var? name = s.var? name := by
  simp [var?, frames, mapFrames, List.findSome?_append, List.findSome?_map, Function.comp_def, h]

theorem callee?_mapFrames {arity : Nat}
    (h : ∀ f, (change f).callee? name arity = f.callee? name arity) :
    (s.mapFrames change).callee? name arity = s.callee? name arity := by
  simp [callee?, frames, mapFrames, List.findSome?_append, List.findSome?_map, Function.comp_def,
    h]

end MapFrames

/-! ### Variables -/

/-- An assignment sees variables only. -/
theorem assign_variablesOnly :
    (s.mapFrames Frame.variablesOnly).assign name value =
      (s.assign name value).mapFrames Frame.variablesOnly := by
  have hframes : ∀ (fs : List Frame) (last : Frame),
      assignIn name value (fs.map Frame.variablesOnly) last.variablesOnly =
        ((assignIn name value fs last).1.map Frame.variablesOnly,
          (assignIn name value fs last).2.variablesOnly) := by
    intro fs last
    induction fs with
    | nil => rfl
    | cons f rest ih =>
      have hf : f.variablesOnly.var? name = f.var? name := rfl
      rw [List.map_cons, assignIn, assignIn, ih, hf]
      split <;> rfl
  simp only [assign, mapFrames, hframes]

theorem addVariable_variablesOnly (binding : VariableBinding) (span : Span) :
    (s.mapFrames Frame.variablesOnly).addVariable binding value span =
      (s.addVariable binding value span).map (mapFrames Frame.variablesOnly) := by
  have hfound : s.innermost.variablesOnly.var? binding.name = s.innermost.var? binding.name := rfl
  rw [addVariable, addVariable, innermost_mapFrames, hfound]
  split
  · rfl
  · exact congrArg Except.ok (withInnermost_mapFrames Frame.variablesOnly
      { s.innermost with vars := ⟨binding, value⟩ :: s.innermost.vars })

theorem findVariable_variablesOnly (place : Place) (span : Span) :
    ((s.mapFrames Frame.variablesOnly).seen place).findVariable name span =
      (s.seen place).findVariable name span := by
  rw [seen_mapFrames, findVariable, findVariable,
    var?_mapFrames Frame.variablesOnly fun _ => rfl]

theorem assignFrom_variablesOnly (place : Place) :
    (s.mapFrames Frame.variablesOnly).assignFrom place name value =
      (s.assignFrom place name value).mapFrames Frame.variablesOnly := by
  cases place with
  | global => rfl
  | here => exact assign_variablesOnly

/-- An operation that has nothing to do with functions sees variables only. -/
theorem step_variablesOnly (h : op.onFunctions = false) :
    (s.mapFrames Frame.variablesOnly).step op =
      ((s.step op).1, (s.step op).2.mapFrames Frame.variablesOnly) := by
  cases op with
  | enter => rfl
  | leave => exact congrArg (Answer.done, ·) (leave_mapFrames _)
  | declareVariable binding value span =>
    rw [step, step, addVariable_variablesOnly]
    cases s.addVariable binding value span <;> rfl
  | findVariable place name span =>
    rw [step, step, findVariable_variablesOnly]
    cases (s.seen place).findVariable name span <;> rfl
  | update place name change span =>
    rw [step, step, findVariable_variablesOnly]
    cases (s.seen place).findVariable name span with
    | ok found => exact congrArg (Answer.variable found, ·) (assignFrom_variablesOnly place)
    | error e => rfl
  | declareFunction callee span => cases h
  | findFunction place name arity span => cases h

/-- An operation on functions leaves the variables alone. -/
theorem variablesOnly_step (h : op.onFunctions = true) :
    (s.step op).2.mapFrames Frame.variablesOnly = s.mapFrames Frame.variablesOnly := by
  cases op with
  | declareFunction callee span =>
    rw [step]
    cases hadd : s.addFunction callee span with
    | error e => rfl
    | ok after =>
      obtain ⟨-, rfl⟩ := addFunction_eq_ok.1 hadd
      obtain ⟨_ | ⟨f, rest⟩, root⟩ := s <;> rfl
  | findFunction place name arity span =>
    rw [step]
    cases (s.seen place).findFunction name arity span <;> rfl
  | _ => cases h

/-! ### Functions -/

/-- An assignment leaves the functions alone. -/
theorem functionsOnly_assign :
    (s.assign name value).mapFrames Frame.functionsOnly = s.mapFrames Frame.functionsOnly := by
  have hframes : ∀ (fs : List Frame) (last : Frame),
      (assignIn name value fs last).1.map Frame.functionsOnly = fs.map Frame.functionsOnly ∧
        (assignIn name value fs last).2.functionsOnly = last.functionsOnly := by
    intro fs last
    induction fs with
    | nil => exact ⟨rfl, rfl⟩
    | cons f rest ih =>
      rw [assignIn]
      split
      · exact ⟨rfl, rfl⟩
      · exact ⟨congrArg (f.functionsOnly :: ·) ih.1, ih.2⟩
  obtain ⟨hinner, hroot⟩ := hframes s.inner s.root
  simp only [assign, mapFrames, hinner, hroot]

theorem addFunction_functionsOnly (callee : Callee) (span : Span) :
    (s.mapFrames Frame.functionsOnly).addFunction callee span =
      (s.addFunction callee span).map (mapFrames Frame.functionsOnly) := by
  have hfound : s.innermost.functionsOnly.callee? callee.binding.name callee.binding.arity =
      s.innermost.callee? callee.binding.name callee.binding.arity := rfl
  simp only [addFunction, innermost_mapFrames, hfound]
  split
  · rfl
  · exact congrArg Except.ok (withInnermost_mapFrames Frame.functionsOnly
      { s.innermost with callees := callee :: s.innermost.callees })

theorem findFunction_functionsOnly (place : Place) (arity : Nat) (span : Span) :
    ((s.mapFrames Frame.functionsOnly).seen place).findFunction name arity span =
      (s.seen place).findFunction name arity span := by
  rw [seen_mapFrames, findFunction, findFunction,
    callee?_mapFrames Frame.functionsOnly fun _ => rfl]

/-- An operation that has nothing to do with variables sees functions only. -/
theorem step_functionsOnly (h : op.onVariables = false) :
    (s.mapFrames Frame.functionsOnly).step op =
      ((s.step op).1, (s.step op).2.mapFrames Frame.functionsOnly) := by
  cases op with
  | enter => rfl
  | leave => exact congrArg (Answer.done, ·) (leave_mapFrames _)
  | declareFunction callee span =>
    rw [step, step, addFunction_functionsOnly]
    cases s.addFunction callee span <;> rfl
  | findFunction place name arity span =>
    rw [step, step, findFunction_functionsOnly]
    cases (s.seen place).findFunction name arity span <;> rfl
  | declareVariable binding value span => cases h
  | findVariable place name span => cases h
  | update place name change span => cases h

/-- An operation on variables leaves the functions alone. -/
theorem functionsOnly_step (h : op.onVariables = true) :
    (s.step op).2.mapFrames Frame.functionsOnly = s.mapFrames Frame.functionsOnly := by
  cases op with
  | declareVariable binding value span =>
    rw [step]
    cases hadd : s.addVariable binding value span with
    | error e => rfl
    | ok after =>
      obtain ⟨-, rfl⟩ := addVariable_eq_ok.1 hadd
      obtain ⟨_ | ⟨f, rest⟩, root⟩ := s <;> rfl
  | findVariable place name span =>
    rw [step]
    cases (s.seen place).findVariable name span <;> rfl
  | update place name change span =>
    rw [step]
    cases (s.seen place).findVariable name span with
    | error e => rfl
    | ok found =>
      cases place with
      | here => exact functionsOnly_assign
      | global => rfl
  | _ => cases h

/-! ### Histories -/

/-- Operations that a view of the scope does not notice can be left out. -/
theorem filter_history {view : Scope → Scope} {others : Op → Bool}
    (hsees : ∀ {s : Scope} {op : Op}, others op = false →
      (view s).step op = ((s.step op).1, view (s.step op).2))
    (hothers : ∀ {s : Scope} {op : Op}, others op = true → view (s.step op).2 = view s) :
    ∀ (ops : List Op) (s : Scope), (s.history ops).filter (fun x => !others x.1) =
      (view s).history (ops.filter fun op => !others op) := by
  intro ops
  induction ops with
  | nil =>
    intro s
    rfl
  | cons op rest ih =>
    intro s
    rw [history]
    cases hop : others op with
    | true =>
      rw [List.filter_cons_of_neg (by simp [hop]), List.filter_cons_of_neg (by simp [hop]), ih,
        hothers hop]
    | false =>
      rw [List.filter_cons_of_pos (by simp [hop]), List.filter_cons_of_pos (by simp [hop]), ih,
        history, hsees hop]

/-- The answers to the operations that a view sees are the same without the others. -/
theorem history_filter {view : Scope → Scope} {others : Op → Bool}
    (hsees : ∀ {s : Scope} {op : Op}, others op = false →
      (view s).step op = ((s.step op).1, view (s.step op).2))
    (hothers : ∀ {s : Scope} {op : Op}, others op = true → view (s.step op).2 = view s)
    (ops : List Op) (s : Scope) : (s.history ops).filter (fun x => !others x.1) =
      s.history (ops.filter fun op => !others op) := by
  have hkept : ∀ (ops : List Op) (s : Scope), (∀ op ∈ ops, others op = false) →
      (s.history ops).filter (fun x => !others x.1) = s.history ops := by
    intro ops
    induction ops with
    | nil =>
      intro s _
      rfl
    | cons op rest ih =>
      intro s h
      rw [List.forall_mem_cons] at h
      rw [history, List.filter_cons_of_pos (by simp [h.1]), ih _ h.2]
  have hmem : ∀ op ∈ ops.filter (fun op => !others op), others op = false := by
    simp
  rw [← hkept _ s hmem, filter_history hsees hothers, filter_history hsees hothers,
    List.filter_filter]
  simp

end Scope

end ImpTree

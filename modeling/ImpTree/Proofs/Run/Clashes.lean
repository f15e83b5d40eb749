import ImpTree.Proofs.Run.Moments
import ImpTree.Proofs.Typing.Values

/-!
# Clashes

The moments at which a run of a checked program can end with an error that is reported as one of the
analysis: a missing value stands where a truth value, a list, an index or an operand is needed, two
values of different kinds are to be put in order, or an assignment meets an immutable variable that
a stale annotation has hidden from the checker.

* `Program.Clash` — the task ends, in this state, with this error.
* `Program.Excused` — an error that a run may end with: one of the runtime phase, or one of a clash
  that the task leads to.
-/

namespace ImpTree

/-! ## The clashes -/

/-- The error says that a node stands where its form is not allowed. -/
def Error.IsForm (e : Error) : Prop := ∃ reason span, e = .invalidForm reason span

section Clashes

variable (p : Program) (sink : Sink)

/-- The task of a moment, whose parts all end, ends with the error. -/
inductive Program.Clash : Task → State → Error → Prop where
  /-- The left operand of `&&` or `||` is missing. -/
  | logicLeft {op left right span ty s s₁} (hop : op = .and ∨ op = .or)
      (hleft : p.Ends sink (fun host => left.evaluate host) s .nil s₁) :
      Clash (.expr (.binary op left right span ty)) s (Value.mismatch "Boolean" .nil left.span)
  /-- The right operand of `&&` or `||` decides and is missing. -/
  | logicRight {op left right span ty decided s s₁ s₂} (hop : op = .and ∨ op = .or)
      (hleft : p.Ends sink (fun host => left.evaluate host) s (.boolean decided) s₁)
      (hopen : decided ≠ (op == .or))
      (hright : p.Ends sink (fun host => right.evaluate host) s₁ .nil s₂) :
      Clash (.expr (.binary op left right span ty)) s (Value.mismatch "Boolean" .nil right.span)
  /-- An operand of another operator is missing. -/
  | operand {op left right span ty a b s s₁ s₂ e} (hop : ¬(op = .and ∨ op = .or))
      (hleft : p.Ends sink (fun host => left.evaluate host) s a s₁)
      (hright : p.Ends sink (fun host => right.evaluate host) s₁ b s₂)
      (hnil : a = .nil ∨ b = .nil) (happly : op.apply a b span = .error e) :
      Clash (.expr (.binary op left right span ty)) s e
  /-- Values of different kinds are put in order. -/
  | ordering {op left right span ty a b s s₁ s₂} (hop : op.IsOrdering)
      (hleft : p.Ends sink (fun host => left.evaluate host) s a s₁)
      (hright : p.Ends sink (fun host => right.evaluate host) s₁ b s₂) (hkind : a.kind ≠ b.kind) :
      Clash (.expr (.binary op left right span ty)) s (Value.mismatch a.kind b span)
  /-- The list or the index of an element is missing. -/
  | element {name offset binding span ty index found s s₁ e}
      (hoffset : p.Ends sink (fun host => offset.evaluate host) s index s₁)
      (hfound : s₁.scope.var? name = some found) (hnil : found.value = .nil ∨ index = .nil)
      (helement : found.value.elementAt index span = .error e) :
      Clash (.expr (.element name offset binding span ty)) s e
  /-- The condition of an if is missing. -/
  | ifCondition {condition thenBody elseBody span s s₁}
      (hcondition : p.Ends sink (fun host => condition.evaluate host) s .nil s₁) :
      Clash (.stmt (.ifElse condition thenBody elseBody span)) s
        (Value.mismatch "Boolean" .nil condition.span)
  /-- The condition of a loop is missing. -/
  | whileCondition {condition body span s s₁}
      (hcondition : p.Ends sink (fun host => condition.evaluate host) s .nil s₁) :
      Clash (.stmt (.whileLoop condition body span)) s
        (Value.mismatch "Boolean" .nil condition.span)
  /-- The list or the index of an element that gets a new value is missing. -/
  | assignedElement {name offset binding place ty value span index v found s s₁ s₂ e}
      (hoffset : p.Ends sink (fun host => offset.evaluate host) s index s₁)
      (hvalue : p.Ends sink (fun host => value.evaluate host) s₁ v s₂)
      (hfound : s₂.scope.var? name = some found) (hmutable : found.binding.isMutable = true)
      (hnil : found.value = .nil ∨ index = .nil)
      (helement : found.value.withElementAt index v place = .error e) :
      Clash (.stmt (.assignment (.element name offset binding place ty) value span)) s e
  /-- A variable that gets a new value is immutable. -/
  | immutable {name binding place ty value span v found s s₁}
      (hvalue : p.Ends sink (fun host => value.evaluate host) s v s₁)
      (hfound : s₁.scope.var? name = some found) (himmutable : found.binding.isMutable = false) :
      Clash (.stmt (.assignment (.var name binding place ty) value span)) s
        (.invalidForm s!"cannot assign to immutable variable `{name}`" span)
  /-- A list of which an element gets a new value is immutable. -/
  | immutableElement {name offset binding place ty value span index v found s s₁ s₂}
      (hoffset : p.Ends sink (fun host => offset.evaluate host) s index s₁)
      (hvalue : p.Ends sink (fun host => value.evaluate host) s₁ v s₂)
      (hfound : s₂.scope.var? name = some found) (himmutable : found.binding.isMutable = false) :
      Clash (.stmt (.assignment (.element name offset binding place ty) value span)) s
        (.invalidForm s!"cannot assign to immutable variable `{name}`" span)

variable {p sink} {task : Task} {s : State} {e : Error}

/-- A clash is a mismatch, or an assignment in a form that is not allowed. -/
theorem Program.Clash.isMismatch_or_isForm (h : p.Clash sink task s e) :
    e.IsMismatch ∨ e.IsForm := by
  cases h with
  | logicLeft => exact .inl (Value.isMismatch_mismatch ..)
  | logicRight => exact .inl (Value.isMismatch_mismatch ..)
  | operand _ _ _ hnil happly => exact .inl (BinaryOp.isMismatch_of_nil hnil happly)
  | ordering => exact .inl (Value.isMismatch_mismatch ..)
  | element _ _ hnil helement => exact .inl (Value.isMismatch_of_elementAt hnil helement)
  | ifCondition => exact .inl (Value.isMismatch_mismatch ..)
  | whileCondition => exact .inl (Value.isMismatch_mismatch ..)
  | assignedElement _ _ _ _ hnil helement =>
    exact .inl (Value.isMismatch_of_withElementAt hnil helement)
  | immutable => exact .inr ⟨_, _, rfl⟩
  | immutableElement => exact .inr ⟨_, _, rfl⟩

/-- The error of a clash is reported as an analysis error. -/
theorem Program.Clash.phase (h : p.Clash sink task s e) : e.phase = .analysis := by
  rcases h.isMismatch_or_isForm with hmis | ⟨reason, span, rfl⟩
  · exact hmis.phase
  · rfl

end Clashes

/-! ## Errors that are excused -/

/-- The error belongs to the runtime phase, or the task leads to a clash with it: to a mismatch, if
values may be missing, or to an immutable variable, if the slots need not hold what the rules
find. -/
def Program.Excused (p : Program) (sink : Sink) (noted missing : Prop) (task : Task) (s : State)
    (e : Error) : Prop :=
  e.phase = .runtime ∨
    (missing ∧ e.IsMismatch ∨ ¬noted ∧ e.IsForm) ∧
      p.LeadsTo sink task s fun task' s' => p.Clash sink task' s' e

namespace Program.Excused

variable {p : Program} {sink : Sink} {noted missing : Prop} {task task' : Task} {s s' : State}
  {e : Error}

/-- What excuses a later moment excuses the moments before it. -/
theorem of_step
    (hstep : ∀ known waiting, ∃ known' waiting',
      p.Step sink ⟨task, s, known, waiting⟩ ⟨task', s', known', waiting'⟩)
    (h : p.Excused sink noted missing task' s' e) : p.Excused sink noted missing task s e :=
  h.imp_right fun ⟨hwhy, hleads⟩ => ⟨hwhy, hleads.of_step hstep⟩

/-- A missing value excuses a mismatch. -/
theorem of_mismatch (hm : missing) (hmis : e.IsMismatch) (h : p.Clash sink task s e) :
    p.Excused sink noted missing task s e :=
  .inr ⟨.inl ⟨hm, hmis⟩, .here h⟩

/-- A stale annotation excuses an assignment to an immutable variable. -/
theorem of_form (hn : ¬noted) (hform : e.IsForm) (h : p.Clash sink task s e) :
    p.Excused sink noted missing task s e :=
  .inr ⟨.inr ⟨hn, hform⟩, .here h⟩

/-- Without missing values and stale annotations, only errors of the runtime phase are excused. -/
theorem phase_eq_runtime (hn : noted) (hm : ¬missing) (h : p.Excused sink noted missing task s e) :
    e.phase = .runtime := by
  rcases h with h | ⟨⟨h, -⟩ | ⟨h, -⟩, -⟩
  · exact h
  · exact absurd h hm
  · exact absurd hn h

end Program.Excused

end ImpTree

import ImpTree.Proofs.Run.Outcomes
import ImpTree.Proofs.Run.Steps
import ImpTree.Proofs.Spans.Steps
import ImpTree.Proofs.Tree.Calls

/-!
# Two runs side by side

Two computations go together if from scopes that are related, with the same output so far, they come
to the same result with scopes that are related again and the same output; or to the same error, the
second time at the image of its place; or both need more rounds.

* `Eval.Pairs` — the relation, with a lemma for every way of putting computations together.
* `Host.Pairs` — two hosts under which the names that are read have the same values, and calls go
  together.
* `Expr.evaluate_pairs` — **under such hosts an expression goes together with the expression whose
  spans are replaced.**
-/

namespace ImpTree

variable {α β : Type} {σ : Span → Span} {Q : Scope → Scope → Prop}

/-! ## Outcomes that go together -/

/-- The outcomes are the same but for the scopes, which are related, and the place of an error. -/
inductive Outcome.Pairs (σ : Span → Span) (Q : Scope → Scope → Prop) :
    Outcome α → Outcome α → Prop where
  /-- The same result with the same output. -/
  | done {a s s' writes} (h : Q s s') : Pairs σ Q (.done a ⟨s, writes⟩) (.done a ⟨s', writes⟩)
  /-- The same error with the same output. -/
  | failed {e writes} : Pairs σ Q (.failed e writes) (.failed (e.mapSpan σ) writes)
  /-- Neither ends within its rounds. -/
  | unfinished : Pairs σ Q .unfinished .unfinished

/-- One computation after the other; the second may relate scopes in another way. -/
theorem Outcome.Pairs.bind {R : Scope → Scope → Prop} {m m' : Eval α} {f f' : α → Eval β}
    {state state' : State} (hm : Outcome.Pairs σ Q (m state) (m' state'))
    (hf : ∀ a s s' writes, m state = .done a ⟨s, writes⟩ → Q s s' →
      Outcome.Pairs σ R (f a ⟨s, writes⟩) (f' a ⟨s', writes⟩)) :
    Outcome.Pairs σ R ((m >>= f) state) ((m' >>= f') state') := by
  rw [Eval.bind_apply, Eval.bind_apply]
  generalize hs : m state = o at hm
  generalize m' state' = o' at hm
  cases hm with
  | done h => exact hf _ _ _ _ hs h
  | failed => exact .failed
  | unfinished => exact .unfinished

/-- An error at the same place. -/
theorem Outcome.Pairs.failed_id (e : Error) (writes : List String) :
    Outcome.Pairs id Q (.failed e writes : Outcome α) (.failed e writes) := by
  have h : Outcome.Pairs id Q (.failed e writes : Outcome α) (.failed (e.mapSpan id) writes) :=
    .failed
  rwa [Error.mapSpan_id] at h

theorem Outcome.Pairs.mono {R : Scope → Scope → Prop} {o o' : Outcome α}
    (h : Outcome.Pairs σ Q o o') (hR : ∀ s s', Q s s' → R s s') : Outcome.Pairs σ R o o' := by
  cases h with
  | done h => exact .done (hR _ _ h)
  | failed => exact .failed
  | unfinished => exact .unfinished

/-- Outcomes with the same scopes, and errors at the same place, are the same. -/
theorem Outcome.Pairs.eq {o o' : Outcome α} (h : Outcome.Pairs id (fun s s' => s' = s) o o') :
    o' = o := by
  cases h with
  | done h => rw [h]
  | failed => rw [Error.mapSpan_id]
  | unfinished => rfl

/-- The second scope is changed. -/
theorem Outcome.Pairs.mapScope_right {R : Scope → Scope → Prop} {change : Scope → Scope}
    {o o' : Outcome α} (h : Outcome.Pairs σ Q o o') (hR : ∀ s s', Q s s' → R s (change s')) :
    Outcome.Pairs σ R o (o'.mapScope change) := by
  cases h with
  | done h => exact .done (hR _ _ h)
  | failed => exact .failed
  | unfinished => exact .unfinished

/-- Both scopes are changed. -/
theorem Outcome.Pairs.mapScope {R : Scope → Scope → Prop} {change change' : Scope → Scope}
    {o o' : Outcome α} (h : Outcome.Pairs σ Q o o')
    (hR : ∀ s s', Q s s' → R (change s) (change' s')) :
    Outcome.Pairs σ R (o.mapScope change) (o'.mapScope change') := by
  cases h with
  | done h => exact .done (hR _ _ h)
  | failed => exact .failed
  | unfinished => exact .unfinished

/-- From related scopes with the same output, the outcomes go together. -/
def Eval.Pairs (σ : Span → Span) (Q : Scope → Scope → Prop) (m m' : Eval α) : Prop :=
  ∀ s s' : Scope, Q s s' → ∀ writes, Outcome.Pairs σ Q (m ⟨s, writes⟩) (m' ⟨s', writes⟩)

namespace Eval.Pairs

variable {m m' : Eval α} {f f' : α → Eval β}

/-! ### Steps -/

theorem pure (a : α) : Pairs σ Q (Pure.pure a : Eval α) (Pure.pure a) :=
  fun _ _ h _ => .done h

theorem unfinished : Pairs σ Q (Eval.unfinished : Eval α) Eval.unfinished :=
  fun _ _ _ _ => .unfinished

theorem fail (e : Error) : Pairs σ Q (Eval.fail e : Eval α) (Eval.fail (e.mapSpan σ)) :=
  fun _ _ _ _ => .failed

/-- A result or an error without further computation. -/
theorem lift (x : Except Error α) :
    Pairs σ Q (Eval.lift x) (Eval.lift (x.mapError (Error.mapSpan σ))) := by
  cases x with
  | ok a => exact pure a
  | error e => exact fail e

/-- One computation after the other. -/
theorem bind (hm : Pairs σ Q m m')
    (hf : ∀ a, (∃ s t, m s = .done a t) → Pairs σ Q (f a) (f' a)) :
    Pairs σ Q (m >>= f) (m' >>= f') := by
  intro s s' h writes
  refine (hm s s' h writes).bind fun a t t' writes' hs ht => ?_
  exact hf a ⟨_, _, hs⟩ t t' ht writes'

/-- The value of a variable that both scopes give the same value. -/
theorem lookup {name : String} {span : Span} {f g : Value → Eval β}
    (hvalue : ∀ s s' : Scope, Q s s' →
      (s'.var? name).map Variable.value = (s.var? name).map Variable.value)
    (hf : ∀ v, Pairs σ Q (f v) (g v)) :
    Pairs σ Q (Eval.lookup name span >>= fun found => f found.value)
      (Eval.lookup name (σ span) >>= fun found => g found.value) := by
  intro s s' h writes
  have hsame := hvalue s s' h
  cases hs : s.var? name with
  | none =>
    rw [hs, Option.map_none, Option.map_eq_none_iff] at hsame
    rw [lookup_bind_of_unknown hs, lookup_bind_of_unknown hsame]
    exact .failed
  | some v =>
    rw [hs, Option.map_some, Option.map_eq_some_iff] at hsame
    obtain ⟨v', hs', hv⟩ := hsame
    rw [lookup_bind_of_var? hs, lookup_bind_of_var? hs', hv]
    exact hf v.value s s' h writes

/-! ### Frames -/

/-- A computation in a frame of its own, where scopes may be related in another way. -/
theorem inChild_of_related {R : Scope → Scope → Prop} (hm : Pairs σ R m m')
    (hchild : ∀ s s', Q s s' → R s.child s'.child) (hleave : ∀ s s', R s s' → Q s.leave s'.leave) :
    Pairs σ Q (inChild m) (inChild m') := by
  intro s s' h writes
  rw [inChild_apply, inChild_apply]
  exact (hm _ _ (hchild s s' h) writes).mapScope hleave

/-- A computation in a frame directly inside the root, where scopes may be related in another
way. -/
theorem inCall_of_related {R : Scope → Scope → Prop} (hm : Pairs σ R m m')
    (henter : ∀ s s', Q s s' → R s.global.child s'.global.child)
    (hrestore : ∀ s s' t t', Q s s' → R t t' → Q ⟨s.inner, t.root⟩ ⟨s'.inner, t'.root⟩) :
    Pairs σ Q (inCall m) (inCall m') := by
  intro s s' h writes
  rw [inCall_apply, inCall_apply]
  exact (hm _ _ (henter s s' h) writes).mapScope fun t t' => hrestore s s' t t' h

/-! ### Output -/

theorem writeAll (sink : Sink) : ∀ texts : List String,
    Pairs σ Q (Eval.writeAll sink texts) (Eval.writeAll sink texts) := by
  intro texts
  induction texts with
  | nil => exact pure ()
  | cons text rest ih =>
    have hwrite : Pairs σ Q (Eval.write sink text) (Eval.write sink text) := by
      intro s s' h writes
      simp only [Eval.write]
      cases sink.refusal? writes with
      | none => exact .done h
      | some reason => exact .failed
    exact hwrite.bind fun _ _ => ih

theorem flush (sink : Sink) : Pairs σ Q (Eval.flush sink) (Eval.flush sink) := by
  rw [Eval.flush]
  cases sink.flushRefusal? with
  | none => exact pure ()
  | some reason => exact fail _

/-! ### Loops -/

/-- A loop, by induction on its rounds: each of them is the condition, the body and the rest. -/
theorem loop {condition condition' : Eval Bool} {body body' : Eval (Option α)}
    (hcondition : Pairs σ Q condition condition') (hbody : Pairs σ Q body body') :
    ∀ rounds : Nat,
      Pairs σ Q (Eval.loop condition body rounds) (Eval.loop condition' body' rounds) := by
  intro rounds
  induction rounds with
  | zero => exact unfinished
  | succ rounds ih =>
    rw [loop_succ, loop_succ]
    refine hcondition.bind fun holds _ => ?_
    cases holds with
    | false => exact pure none
    | true =>
      refine hbody.bind fun flow _ => ?_
      cases flow with
      | none => exact ih
      | some a => exact pure (some a)

end Eval.Pairs

/-- A built-in function does the same in both runs. -/
theorem Builtin.invoke_pairs (sink : Sink) (arguments : List Value) (function : Builtin) :
    Eval.Pairs σ Q (function.invoke sink arguments) (function.invoke sink arguments) := by
  have hlines : ∀ values : List Value, Eval.Pairs σ Q (printLines sink values)
      (printLines sink values) := by
    intro values
    induction values with
    | nil => exact .pure ()
    | cons v rest ih => exact (Eval.Pairs.writeAll sink _).bind fun _ _ => ih
  cases function with
  | print => exact (hlines arguments).bind fun _ _ => .pure _

/-! ## Hosts -/

/-- A call by name: the function of the name and the number of arguments, applied. -/
def Host.callNamed (host : Host) (name : String) (span : Span) (values : List Value) :
    Eval Value := do
  let callee ← Eval.lift ((← Eval.scope).findFunction name values.length span)
  callee.target.invoke host values

/-- Calls by name go together if related scopes find functions whose calls go together, or none. -/
theorem Host.callNamed_pairs {host host' : Host} {name : String} {span : Span}
    {values : List Value}
    (h : ∀ s s' : Scope, Q s s' → Option.Rel
      (fun c c' => Eval.Pairs σ Q (c.target.invoke host values) (c'.target.invoke host' values))
      (s.callee? name values.length) (s'.callee? name values.length)) :
    Eval.Pairs σ Q (host.callNamed name span values) (host'.callNamed name (σ span) values) := by
  intro s s' hscopes writes
  have hfound := h s s' hscopes
  simp only [callNamed, Eval.bind_apply, Eval.scope_apply, Scope.findFunction]
  generalize s.callee? name values.length = found at hfound ⊢
  generalize s'.callee? name values.length = found' at hfound ⊢
  cases hfound with
  | none => exact .failed
  | some htarget => exact htarget s s' hscopes writes

/-- Under both hosts the names that are read have the same values, and calls go together. -/
structure Host.Pairs (σ : Span → Span) (Q : Scope → Scope → Prop) (reads : String → Prop)
    (calls : String × Nat → Prop) (host host' : Host) : Prop where
  /-- A name that is read has the same value, or none, in both scopes. -/
  value : ∀ name, reads name → ∀ s s' : Scope, Q s s' →
    (s'.var? name).map Variable.value = (s.var? name).map Variable.value
  /-- A call that may happen does the same in both runs. -/
  call : ∀ key, calls key → ∀ (span : Span) (values : List Value), values.length = key.2 →
    Eval.Pairs σ Q (host.callNamed key.1 span values) (host'.callNamed key.1 (σ span) values)

/-! ## Expressions -/

namespace Expr

variable {reads : String → Prop} {calls : String × Nat → Prop} {host host' : Host}

/-- The value of a call: the arguments, and the call by name. -/
theorem evaluate_call (name : String) (arguments : List Expr) (binding : Slot FunctionBinding)
    (span : Span) (ty : Slot Ty) :
    (call name arguments binding span ty).evaluate host =
      evaluateAll host arguments >>= host.callNamed name span := by
  rw [evaluate]
  rfl

/-- There are as many values as expressions. -/
theorem length_evaluateAll : ∀ {es : List Expr} {s t : State} {values : List Value},
    evaluateAll host es s = .done values t → values.length = es.length := by
  intro es
  induction es with
  | nil =>
    intro s t values h
    cases h
    rfl
  | cons e rest ih =>
    intro s t values h
    rw [evaluateAll, Eval.bind_apply] at h
    cases he : e.evaluate host s with
    | done v s₁ =>
      simp only [he, Eval.bind_apply] at h
      cases hrest : evaluateAll host rest s₁ with
      | done vs s₂ =>
        rw [hrest] at h
        cases h
        exact congrArg Nat.succ (ih hrest)
      | failed e writes => rw [hrest] at h; cases h
      | unfinished => rw [hrest] at h; cases h
    | failed e writes => rw [he] at h; cases h
    | unfinished => rw [he] at h; cases h

mutual

/-- **An expression goes together with the expression whose spans are replaced**, under hosts for
which its reads and calls go together. -/
theorem evaluate_pairs (h : host.Pairs σ Q reads calls host') : ∀ e : Expr,
    (∀ name ∈ e.reads, reads name) → (∀ key ∈ e.calls, calls key) →
      Eval.Pairs σ Q (e.evaluate host) ((e.mapSpans σ).evaluate host')
  | .literal value span ty, _, _ => .pure _
  | .group inner span ty, hreads, hcalls => evaluate_pairs h inner hreads hcalls
  | .binary op left right span ty, hreads, hcalls => by
    rw [Expr.reads, List.forall_mem_append] at hreads
    rw [Expr.calls, List.forall_mem_append] at hcalls
    rw [mapSpans, evaluate, evaluate]
    refine (evaluate_pairs h left hreads.1 hcalls.1).bind fun a _ => ?_
    have hright := evaluate_pairs h right hreads.2 hcalls.2
    by_cases hop : op = .and ∨ op = .or
    · rw [if_pos hop, if_pos hop, span_mapSpans, span_mapSpans, Value.truth_mapSpan]
      refine (Eval.Pairs.lift _).bind fun decided _ => ?_
      by_cases hdecided : decided = (op == .or)
      · rw [if_pos hdecided, if_pos hdecided]
        exact .pure _
      · rw [if_neg hdecided, if_neg hdecided]
        refine hright.bind fun b _ => ?_
        rw [Value.truth_mapSpan]
        exact (Eval.Pairs.lift _).bind fun _ _ => .pure _
    · rw [if_neg hop, if_neg hop]
      refine hright.bind fun b _ => ?_
      rw [BinaryOp.apply_mapSpan]
      exact .lift _
  | .var name binding span ty, hreads, _ => by
    rw [mapSpans, evaluate, evaluate]
    exact .lookup (h.value name (hreads name (List.mem_singleton_self _))) .pure
  | .element name offset binding span ty, hreads, hcalls => by
    rw [Expr.reads, List.forall_mem_cons] at hreads
    rw [mapSpans, evaluate, evaluate]
    refine (evaluate_pairs h offset hreads.2 hcalls).bind fun index _ => ?_
    refine Eval.Pairs.lookup (f := fun v => Eval.lift (v.elementAt index span))
      (g := fun v => Eval.lift (v.elementAt index (σ span))) (h.value name hreads.1) fun v => ?_
    rw [Value.elementAt_mapSpan]
    exact .lift _
  | .call name arguments binding span ty, hreads, hcalls => by
    rw [Expr.calls, List.forall_mem_cons] at hcalls
    rw [mapSpans, evaluate_call, evaluate_call]
    refine (evaluateAll_pairs h arguments hreads hcalls.2).bind fun values hvalues => ?_
    obtain ⟨s, t, hvalues⟩ := hvalues
    exact h.call _ hcalls.1 span values (length_evaluateAll hvalues)
  | .list elements span ty, hreads, hcalls => by
    rw [mapSpans, evaluate, evaluate]
    exact (evaluateAll_pairs h elements hreads hcalls).bind fun _ _ => .pure _

/-- So do expressions, one after the other. -/
theorem evaluateAll_pairs (h : host.Pairs σ Q reads calls host') : ∀ es : List Expr,
    (∀ name ∈ allReads es, reads name) → (∀ key ∈ allCalls es, calls key) →
      Eval.Pairs σ Q (evaluateAll host es) (evaluateAll host' (mapAllSpans σ es))
  | [], _, _ => .pure _
  | e :: rest, hreads, hcalls => by
    rw [allReads, List.forall_mem_append] at hreads
    rw [allCalls, List.forall_mem_append] at hcalls
    rw [mapAllSpans, evaluateAll, evaluateAll]
    exact (evaluate_pairs h e hreads.1 hcalls.1).bind fun _ _ =>
      (evaluateAll_pairs h rest hreads.2 hcalls.2).bind fun _ _ => .pure _

end

end Expr

end ImpTree

import ImpTree.Proofs.Run.Congruence

/-!
# Writes that are refused

A sink that refuses a write cuts a computation off at this write.  Up to there the computation is
the one that writes to a sink that takes everything.

* `Sink.Accepts`, `Sink.firstRefusal?` — what a sink does with writes that are offered one by one.
* `Outcome.Cuts` — an outcome, and what is left of it if a write is refused.
* `Eval.Silent` — a computation that writes nothing.
* `Eval.Cuts`, `Eval.Cuts.congruence` — **a computation that is cut off**, and that this goes
  through all ways of putting computations together.
-/

namespace ImpTree

variable {α β : Type} {sink : Sink}

/-! ## Writes that are offered one by one -/

namespace Sink

/-- The sink accepts the writes one after the other; the latest stands first. -/
def Accepts (sink : Sink) : List String → Prop
  | [] => True
  | _ :: earlier => sink.Accepts earlier ∧ sink.refusal? earlier = none

/-- The writes before the first one that is refused, the latest first, and the reason. -/
def firstRefusal? (sink : Sink) : List String → Option (List String × String)
  | [] => none
  | _ :: earlier => (sink.firstRefusal? earlier).or ((sink.refusal? earlier).map (earlier, ·))

/-- Without a refusal everything is accepted. -/
theorem firstRefusal?_eq_none : ∀ {writes : List String},
    sink.firstRefusal? writes = none ↔ sink.Accepts writes := by
  intro writes
  induction writes with
  | nil => simp [firstRefusal?, Accepts]
  | cons text earlier ih => simp [firstRefusal?, Accepts, ih]

/-- What is refused first stays so, whatever is offered later. -/
theorem firstRefusal?_append {earlier : List String} {refused : List String × String}
    (h : sink.firstRefusal? earlier = some refused) :
    ∀ later : List String, sink.firstRefusal? (later ++ earlier) = some refused := by
  intro later
  induction later with
  | nil => exact h
  | cons text later ih => simp [firstRefusal?, ih]

/-- The first refusal: a write that is refused after others that are accepted. -/
theorem firstRefusal?_of_refused {accepted : List String} {text reason : String}
    (haccepted : sink.Accepts accepted) (hrefused : sink.refusal? accepted = some reason)
    (later : List String) :
    sink.firstRefusal? (later ++ text :: accepted) = some (accepted, reason) := by
  refine firstRefusal?_append ?_ later
  simp [firstRefusal?, firstRefusal?_eq_none.2 haccepted, hrefused]

/-- Every first refusal is of this kind. -/
theorem refused_of_firstRefusal? {accepted : List String} {reason : String} :
    ∀ {writes : List String}, sink.firstRefusal? writes = some (accepted, reason) →
      sink.Accepts accepted ∧ sink.refusal? accepted = some reason ∧
        ∃ later text, writes = later ++ text :: accepted := by
  intro writes
  induction writes with
  | nil =>
    intro h
    cases h
  | cons text earlier ih =>
    intro h
    rw [firstRefusal?] at h
    cases hearlier : sink.firstRefusal? earlier with
    | some refused =>
      rw [hearlier, Option.some_or] at h
      obtain ⟨haccepted, hrefused, later, first, rfl⟩ := ih (hearlier.trans h)
      exact ⟨haccepted, hrefused, text :: later, first, rfl⟩
    | none =>
      rw [hearlier, Option.none_or, Option.map_eq_some_iff] at h
      obtain ⟨_, hrefused, h⟩ := h
      cases h
      exact ⟨firstRefusal?_eq_none.1 hearlier, hrefused, [], text, rfl⟩

/-- With later writes, the earlier ones are accepted. -/
theorem Accepts.of_append {later earlier : List String} (h : sink.Accepts (later ++ earlier)) :
    sink.Accepts earlier := by
  induction later with
  | nil => exact h
  | cons text later ih => exact ih h.1

end Sink

/-! ## Outcomes that are cut off -/

/-- The writes that an outcome leaves, the latest first, if it leaves any. -/
def Outcome.writes? : Outcome α → Option (List String)
  | .done _ s => some s.writes
  | .failed _ writes => some writes
  | .unfinished => none

@[simp]
theorem Outcome.writes?_mapScope (change : Scope → Scope) (o : Outcome α) :
    (o.mapScope change).writes? = o.writes? := by
  cases o <;> rfl

/-- The second outcome is the first one, if its writes are accepted; if not, it is the error of the
first refusal. -/
inductive Outcome.Cuts (sink : Sink) : Outcome α → Outcome α → Prop where
  /-- All writes are accepted. -/
  | kept {o} (h : ∀ writes ∈ o.writes?, sink.firstRefusal? writes = none) : Cuts sink o o
  /-- One of the writes is refused. -/
  | refused {o accepted reason}
      (h : ∀ writes ∈ o.writes?, sink.firstRefusal? writes = some (accepted, reason)) :
      Cuts sink o (.failed (.io reason) accepted)

namespace Outcome.Cuts

variable {o o' : Outcome α} {a : α} {s : State}

/-- A result comes out of both, with writes that are all accepted. -/
theorem of_done (h : Cuts sink o (.done a s)) : o = .done a s ∧ sink.Accepts s.writes := by
  cases h with
  | kept h => exact ⟨rfl, Sink.firstRefusal?_eq_none.1 (h _ rfl)⟩

/-- An outcome whose writes are accepted stays as it is. -/
theorem eq_of_accepts {writes : List String} (h : Cuts sink o o') (ho : o.writes? = some writes)
    (haccepts : sink.Accepts writes) : o' = o := by
  cases h with
  | kept _ => rfl
  | refused h =>
    have hrefused := h writes ho
    rw [Sink.firstRefusal?_eq_none.2 haccepts] at hrefused
    cases hrefused

/-- An outcome with a write that is refused becomes an error. -/
theorem eq_of_refused {writes accepted : List String} {reason : String} (h : Cuts sink o o')
    (ho : o.writes? = some writes)
    (hrefused : sink.firstRefusal? writes = some (accepted, reason)) :
    o' = .failed (.io reason) accepted := by
  cases h with
  | kept h =>
    rw [h writes ho] at hrefused
    cases hrefused
  | refused h =>
    rw [h writes ho] at hrefused
    cases hrefused
    rfl

/-- What becomes of the scope does not matter. -/
theorem mapScope (change : Scope → Scope) (h : Cuts sink o o') :
    Cuts sink (o.mapScope change) (o'.mapScope change) := by
  cases h with
  | kept h => exact .kept (by simpa using h)
  | refused h => exact .refused (by simpa using h)

end Outcome.Cuts

/-! ## Computations that are cut off -/

/-- The computation writes nothing. -/
def Eval.Silent (m : Eval α) : Prop := ∀ s, ∀ writes ∈ (m s).writes?, writes = s.writes

namespace Eval.Silent

theorem pure (a : α) : Silent (Pure.pure a : Eval α) := by
  rintro s writes ⟨⟩
  rfl

theorem fail (e : Error) : Silent (Eval.fail e : Eval α) := by
  rintro s writes ⟨⟩
  rfl

theorem lift (x : Except Error α) : Silent (Eval.lift x) := by
  cases x with
  | ok a => exact pure a
  | error e => exact fail e

theorem scope : Silent Eval.scope := by
  rintro s writes ⟨⟩
  rfl

theorem setScope (scope : Scope) : Silent (Eval.setScope scope) := by
  rintro s writes ⟨⟩
  rfl

theorem bind {m : Eval α} {f : α → Eval β} (hm : m.Silent) (hf : ∀ a, (f a).Silent) :
    (m >>= f).Silent := by
  intro s writes hwrites
  rw [bind_apply] at hwrites
  cases hs : m s with
  | done a t =>
    have ht : t.writes = s.writes := hm s _ (by rw [hs]; rfl)
    simp only [hs] at hwrites
    exact (hf a t writes hwrites).trans ht
  | failed e w =>
    simp only [hs] at hwrites
    exact hm s writes (by rw [hs]; exact hwrites)
  | unfinished =>
    simp only [hs] at hwrites
    cases hwrites

theorem lookup (name : String) (span : Span) : Silent (Eval.lookup name span) :=
  scope.bind fun _ => lift _

theorem declare (binding : VariableBinding) (value : Value) (span : Span) :
    Silent (Eval.declare binding value span) :=
  scope.bind fun _ => (lift _).bind setScope

/-- What a silent computation leaves has been written before. -/
theorem of_done {m : Eval α} (h : m.Silent) {s t : State} {a : α} (hm : m s = .done a t) :
    t.writes = s.writes := h s _ (by rw [hm]; rfl)

end Eval.Silent

/-- Declaring arguments writes nothing. -/
theorem declareArguments_silent (span : Span) : ∀ (names : List String) (values : List Value),
    (declareArguments span names values).Silent := by
  intro names
  induction names with
  | nil =>
    intro values
    exact .pure ()
  | cons name names ih =>
    intro values
    cases values with
    | nil => exact .pure ()
    | cons value values =>
      exact (Eval.Silent.declare (runVariable name) value span).bind fun _ => ih values

/-- Declaring functions writes nothing. -/
theorem declareFunctions_silent : ∀ (fs : List FunctionDef) (index : Nat),
    (declareFunctions index fs).Silent := by
  intro fs
  induction fs with
  | nil =>
    intro index
    exact .pure ()
  | cons f rest ih =>
    intro index
    exact Eval.Silent.scope.bind fun _ => (Eval.Silent.lift _).bind fun scope =>
      (Eval.Silent.setScope scope).bind fun _ => ih (index + 1)

/-- The first computation only adds writes, none of which is empty, and the second one is the first
one cut off where the sink refuses. -/
structure Eval.Cuts (sink : Sink) (m m' : Eval α) : Prop where
  /-- Writes are added. -/
  appends : ∀ s, ∀ writes ∈ (m s).writes?,
    ∃ added, writes = added ++ s.writes ∧ ∀ text ∈ added, text ≠ ""
  /-- The second computation is cut off. -/
  cuts : ∀ s, sink.Accepts s.writes → Outcome.Cuts sink (m s) (m' s)

namespace Eval.Cuts

variable {m m' : Eval α} {f f' : α → Eval β}

/-- What writes nothing is not cut off. -/
theorem of_silent (h : m.Silent) : Cuts sink m m where
  appends := by
    intro s writes hwrites
    exact ⟨[], h s writes hwrites, List.forall_mem_nil _⟩
  cuts := by
    intro s hs
    refine .kept fun writes hwrites => ?_
    rw [h s writes hwrites]
    exact Sink.firstRefusal?_eq_none.2 hs

theorem unfinished : Cuts sink (Eval.unfinished : Eval α) Eval.unfinished :=
  of_silent fun _ _ => nofun

/-- One computation after the other.  A refusal in the first one stays the first refusal, whatever
the second one would write. -/
theorem bind (hm : Cuts sink m m')
    (hf : ∀ a, (∃ s t, m s = .done a t) → Cuts sink (f a) (f' a)) :
    Cuts sink (m >>= f) (m' >>= f') where
  appends := by
    intro s writes hwrites
    have hfirst := hm.appends s
    rw [bind_apply] at hwrites
    cases hs : m s with
    | done a t =>
      rw [hs] at hfirst
      simp only [hs] at hwrites
      obtain ⟨added, ht, hadded⟩ := hfirst _ rfl
      obtain ⟨later, rfl, hlater⟩ := (hf a ⟨s, t, hs⟩).appends t writes hwrites
      exact ⟨later ++ added, by rw [ht, List.append_assoc],
        List.forall_mem_append.2 ⟨hlater, hadded⟩⟩
    | failed e w =>
      rw [hs] at hfirst
      simp only [hs] at hwrites
      exact hfirst writes hwrites
    | unfinished =>
      simp only [hs] at hwrites
      cases hwrites
  cuts := by
    intro s hs
    have hcuts := hm.cuts s hs
    rw [bind_apply, bind_apply]
    generalize ho : m s = o at hcuts
    generalize m' s = o' at hcuts
    cases hcuts with
    | kept h =>
      cases o with
      | done a t => exact (hf a ⟨s, t, ho⟩).cuts t (Sink.firstRefusal?_eq_none.1 (h _ rfl))
      | failed e w => exact .kept h
      | unfinished => exact .kept h
    | refused h =>
      refine .refused fun writes hwrites => ?_
      cases o with
      | done a t =>
        obtain ⟨later, rfl, -⟩ := (hf a ⟨s, t, ho⟩).appends t writes hwrites
        exact Sink.firstRefusal?_append (h _ rfl) later
      | failed e w => exact h writes hwrites
      | unfinished => cases hwrites

/-- A computation in a frame of its own. -/
theorem inChild (h : Cuts sink m m') : Cuts sink (Eval.inChild m) (Eval.inChild m') where
  appends := by
    intro s writes hwrites
    rw [inChild_apply, Outcome.writes?_mapScope] at hwrites
    exact h.appends { s with scope := s.scope.child } writes hwrites
  cuts := by
    intro s hs
    rw [inChild_apply, inChild_apply]
    exact (h.cuts { s with scope := s.scope.child } hs).mapScope _

/-- A computation in a frame directly inside the root. -/
theorem inCall (h : Cuts sink m m') : Cuts sink (Eval.inCall m) (Eval.inCall m') where
  appends := by
    intro s writes hwrites
    rw [inCall_apply, Outcome.writes?_mapScope] at hwrites
    exact h.appends { s with scope := s.scope.global.child } writes hwrites
  cuts := by
    intro s hs
    rw [inCall_apply, inCall_apply]
    exact (h.cuts { s with scope := s.scope.global.child } hs).mapScope _

/-- Being cut off respects how computations are put together. -/
theorem congruence : Congruence (fun _ => True) (Cuts sink) where
  pure a := of_silent (.pure a)
  fail e := of_silent (.fail e)
  lookup name _ span := of_silent (.lookup name span)
  declare binding value span := of_silent (.declare binding value span)
  assign _ _ _ := of_silent (Silent.scope.bind fun _ => .setScope _)
  bind := bind
  inChild := inChild
  inCall := inCall

/-! ### Output -/

/-- **A write is where a computation is cut off.** -/
theorem write {text : String} (htext : text ≠ "") :
    Cuts sink (Eval.write .unbounded text) (Eval.write sink text) where
  appends := by
    rintro s writes ⟨⟩
    exact ⟨[text], rfl, by simpa using htext⟩
  cuts := by
    intro s hs
    have hearlier := Sink.firstRefusal?_eq_none.2 hs
    simp only [Eval.write, Sink.unbounded]
    cases hrefusal : sink.refusal? s.writes with
    | none =>
      refine .kept ?_
      rintro writes ⟨⟩
      simp [Sink.firstRefusal?, hearlier, hrefusal]
    | some reason =>
      refine .refused ?_
      rintro writes ⟨⟩
      simp [Sink.firstRefusal?, hearlier, hrefusal]

end Eval.Cuts

end ImpTree

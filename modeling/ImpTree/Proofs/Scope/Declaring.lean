import ImpTree.Proofs.Scope.Offers
import ImpTree.Tree

/-!
# Functions that are declared one after the other

The functions of a program are declared in order, each under its name, the number of its parameters
and its position.

* `FunctionDef.key` — what a function is called by.
* `Callee.declaring` — what is known after functions are declared.
* `Callee.among?_declaring` — what is found afterwards is declared or was known before.
* `Callee.among?_declaring_of_getElem?` — **functions with different keys are all found.**
-/

namespace ImpTree

/-- What a function is called by: its name and the number of its parameters. -/
def FunctionDef.key (f : FunctionDef) : String × Nat := (f.name, f.parameters.length)

/-- Under the bindings, every function has its own key. -/
def FunctionDef.Names (bind : FunctionDef → FunctionBinding) : Prop :=
  ∀ f, (bind f).name = f.name ∧ (bind f).arity = f.parameters.length

namespace Callee

/-- The functions that are known after those at the positions from `index` on are declared, too. -/
def declaring (bind : FunctionDef → FunctionBinding) (cs : List Callee) (index : Nat) :
    List FunctionDef → List Callee
  | [] => cs
  | f :: rest => declaring bind (⟨bind f, .declared index⟩ :: cs) (index + 1) rest

variable {bind : FunctionDef → FunctionBinding} {cs : List Callee} {name : String} {arity : Nat}

/-- Of a declared function and others, it is the one that is found by its key. -/
theorem among?_declared (hbind : FunctionDef.Names bind) (f : FunctionDef) (target : Target) :
    among? (⟨bind f, target⟩ :: cs) name arity =
      if f.key = (name, arity) then some ⟨bind f, target⟩ else among? cs name arity := by
  by_cases h : f.key = (name, arity)
  · rw [if_pos h]
    exact List.find?_cons_of_pos (by simpa [FunctionDef.key, hbind f] using h)
  · rw [if_neg h]
    exact List.find?_cons_of_neg (by simpa [FunctionDef.key, hbind f] using h)

/-- What is found afterwards stands at a position of the program or was found before. -/
theorem among?_declaring (hbind : FunctionDef.Names bind) {c : Callee} :
    ∀ {fs : List FunctionDef} {cs : List Callee} {index : Nat},
      among? (declaring bind cs index fs) name arity = some c →
        (∃ i f, fs[i]? = some f ∧ c.target = .declared (index + i)) ∨
          among? cs name arity = some c := by
  intro fs
  induction fs with
  | nil => exact fun h => .inr h
  | cons f rest ih =>
    intro cs index h
    rcases ih h with ⟨i, g, hg, htarget⟩ | hfound
    · refine .inl ⟨i + 1, g, hg, ?_⟩
      rw [htarget, Nat.add_assoc, Nat.add_comm 1 i]
    · rw [among?_declared hbind] at hfound
      by_cases hkey : f.key = (name, arity)
      · rw [if_pos hkey, Option.some_inj] at hfound
        exact .inl ⟨0, f, rfl, by rw [← hfound]; rfl⟩
      · exact .inr (by rwa [if_neg hkey] at hfound)

/-- A key that no function has is looked up among what was known before. -/
theorem among?_declaring_of_notMem (hbind : FunctionDef.Names bind) :
    ∀ {fs : List FunctionDef} {cs : List Callee} {index : Nat},
      (name, arity) ∉ fs.map FunctionDef.key →
        among? (declaring bind cs index fs) name arity = among? cs name arity := by
  intro fs
  induction fs with
  | nil => exact fun _ => rfl
  | cons f rest ih =>
    intro cs index h
    rw [List.map_cons, List.mem_cons, not_or] at h
    rw [declaring, ih h.2, among?_declared hbind, if_neg (Ne.symm h.1)]

/-- If no two functions have the same key, each is found by its own. -/
theorem among?_declaring_of_getElem? (hbind : FunctionDef.Names bind) :
    ∀ {fs : List FunctionDef} {cs : List Callee} {index i : Nat} {f : FunctionDef},
      (fs.map FunctionDef.key).Nodup → fs[i]? = some f →
        among? (declaring bind cs index fs) f.name f.parameters.length =
          some ⟨bind f, .declared (index + i)⟩ := by
  intro fs
  induction fs with
  | nil =>
    intro cs index i f _ hf
    cases hf
  | cons g rest ih =>
    intro cs index i f hnodup hf
    rw [List.map_cons, List.nodup_cons] at hnodup
    cases i with
    | zero =>
      rw [List.getElem?_cons_zero, Option.some_inj] at hf
      subst hf
      rw [declaring, among?_declaring_of_notMem hbind hnodup.1, among?_declared hbind,
        if_pos (show g.key = (g.name, g.parameters.length) from rfl)]
      rfl
    | succ i =>
      rw [declaring, ih hnodup.2 hf, Nat.add_assoc, Nat.add_comm 1 i]

end Callee

end ImpTree

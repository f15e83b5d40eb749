import ImpTree.Feedback
import ImpTree.Proofs.Binary64.Nearest

/-!
# Ranked suggestions

A report lists its suggestions most confident first, and equally confident ones in the order in
which they were made.  Confidences compare as the numbers that they stand for, so the two zeros are
one confidence.  Of all orders of some suggestions only one is ranked and keeps the order within
every confidence.

* `Suggestion.Ranked` — most confident first.
* `Suggestion.eq_of_ranked` — there is only one such order that keeps ties.
* `Report.ranked_sorted`, `Report.perm_sorted`, `Report.filter_sorted` — what sorting does.
* `Report.sorted_stably` — **sorting is stable and descending.**
-/

namespace ImpTree

namespace Suggestion

/-- No suggestion is more confident than one before it. -/
def Ranked (suggestions : List Suggestion) : Prop :=
  suggestions.Pairwise fun a b => b.confidence.size ≤ a.confidence.size

/-- The suggestions with one confidence, in their order. -/
def withConfidence (x : ℚ) (suggestions : List Suggestion) : List Suggestion :=
  suggestions.filter fun s => s.confidence.size = x

variable {a b : Suggestion} {l l' : List Suggestion} {x : ℚ}

/-- Suggestions are compared by the numbers that their confidences stand for. -/
theorem precedes_iff : a.precedes b = true ↔ b.confidence.size ≤ a.confidence.size := by
  rw [precedes, decide_eq_true_iff, Binary64.key_le_key_iff]

theorem precedes_trans (a b c : Suggestion) (hab : a.precedes b = true)
    (hbc : b.precedes c = true) : a.precedes c = true := by
  rw [precedes_iff] at *
  exact hbc.trans hab

theorem precedes_total (a b : Suggestion) : (a.precedes b || b.precedes a) = true := by
  rw [Bool.or_eq_true, precedes_iff, precedes_iff]
  exact le_total _ _

theorem ranked_iff : Ranked l ↔ l.Pairwise fun a b => a.precedes b = true := by
  simp only [Ranked, precedes_iff]

theorem mem_withConfidence : a ∈ withConfidence x l ↔ a ∈ l ∧ a.confidence.size = x := by
  simp [withConfidence]

theorem withConfidence_ne_nil (h : a ∈ l) : withConfidence a.confidence.size l ≠ [] :=
  List.ne_nil_of_mem (mem_withConfidence.2 ⟨h, rfl⟩)

theorem withConfidence_cons (a : Suggestion) (l : List Suggestion) (x : ℚ) :
    withConfidence x (a :: l) =
      if a.confidence.size = x then a :: withConfidence x l else withConfidence x l := by
  simp [withConfidence, List.filter_cons]

/-- Equally confident suggestions may stand in any order. -/
theorem ranked_withConfidence (x : ℚ) (l : List Suggestion) : Ranked (withConfidence x l) := by
  unfold Ranked
  rw [List.pairwise_iff_forall_sublist]
  intro a b hsub
  have ha := (mem_withConfidence.1 (hsub.subset (by simp : a ∈ [a, b]))).2
  have hb := (mem_withConfidence.1 (hsub.subset (by simp : b ∈ [a, b]))).2
  rw [ha, hb]

/-- The first of ranked suggestions is at least as confident as each of them. -/
theorem Ranked.le_head (h : Ranked (a :: l)) (hb : b ∈ a :: l) :
    b.confidence.size ≤ a.confidence.size := by
  rcases List.mem_cons.1 hb with rfl | hb
  · exact le_rfl
  · exact (List.pairwise_cons.1 h).1 b hb

/-- Lists with the same suggestions of a confidence have the same members of it. -/
theorem mem_of_ties (h : withConfidence a.confidence.size l = withConfidence a.confidence.size l')
    (ha : a ∈ l) : a ∈ l' := by
  have hmem : a ∈ withConfidence a.confidence.size l' := h ▸ mem_withConfidence.2 ⟨ha, rfl⟩
  exact (mem_withConfidence.1 hmem).1

/-- **There is only one ranked order that keeps ties**, by induction: the first suggestions of two
such orders are equally confident, so both are the first one with that confidence. -/
theorem eq_of_ranked (h : Ranked l) (h' : Ranked l')
    (hties : ∀ x, withConfidence x l = withConfidence x l') : l = l' := by
  induction l generalizing l' with
  | nil =>
    cases l' with
    | nil => rfl
    | cons b l' => exact absurd (hties b.confidence.size).symm (withConfidence_ne_nil (by simp))
  | cons a l ih =>
    cases l' with
    | nil => exact absurd (hties a.confidence.size) (withConfidence_ne_nil (by simp))
    | cons b l' =>
      have ha : a ∈ b :: l' := mem_of_ties (hties _) (by simp)
      have hb : b ∈ a :: l := mem_of_ties (hties _).symm (by simp)
      have hsize : a.confidence.size = b.confidence.size :=
        le_antisymm (h'.le_head ha) (h.le_head hb)
      have hfirst := hties a.confidence.size
      rw [withConfidence_cons, withConfidence_cons, if_pos rfl, if_pos hsize.symm] at hfirst
      obtain ⟨rfl, -⟩ := List.cons.inj hfirst
      have hrest : l = l' := by
        refine ih (List.pairwise_cons.1 h).2 (List.pairwise_cons.1 h').2 fun x => ?_
        have hx := hties x
        rw [withConfidence_cons, withConfidence_cons] at hx
        split_ifs at hx with hsame
        · exact (List.cons.inj hx).2
        · exact hx
      rw [hrest]

end Suggestion

namespace Report

open Suggestion

/-- The same suggestions. -/
theorem perm_sorted (r : Report) : r.sorted.suggestions.Perm r.suggestions :=
  List.mergeSort_perm _ _

/-- Most confident first. -/
theorem ranked_sorted (r : Report) : Ranked r.sorted.suggestions :=
  ranked_iff.2 (List.pairwise_mergeSort precedes_trans precedes_total _)

/-- Equally confident suggestions keep their order: they are ranked already, and sorting keeps
ranked parts of a list in their order. -/
theorem filter_sorted (r : Report) (x : ℚ) :
    withConfidence x r.sorted.suggestions = withConfidence x r.suggestions := by
  have hpart : (withConfidence x r.suggestions).Sublist r.sorted.suggestions :=
    List.sublist_mergeSort precedes_trans precedes_total
      (ranked_iff.1 (ranked_withConfidence x _)) List.filter_sublist
  have hsub : (withConfidence x r.suggestions).Sublist (withConfidence x r.sorted.suggestions) := by
    simpa [withConfidence] using hpart.filter fun s => decide (s.confidence.size = x)
  exact (hsub.eq_of_length (r.perm_sorted.filter _).length_eq.symm).symm

/-- Sorting again changes nothing: the order is ranked and keeps ties, and there is only one. -/
theorem sorted_sorted (r : Report) : r.sorted.sorted = r.sorted := by
  have hsame : r.sorted.sorted.suggestions = r.sorted.suggestions :=
    eq_of_ranked (ranked_sorted _) r.ranked_sorted fun x => filter_sorted r.sorted x
  exact congrArg (fun suggestions => { r with suggestions }) hsame

/-- **Sorting is stable and descending.**  It changes nothing but the order of the suggestions: what
comes out are the same suggestions, most confident first, and those of one confidence, whatever
number that is, in the order in which they stood before.  This says all: there is no other list of
suggestions that is most confident first and keeps this order.  Sorting again changes nothing.  So
the report of every error lists what might help most confident first. -/
theorem sorted_stably :
    (∀ r : Report,
      { r.sorted with suggestions := r.suggestions } = r ∧
      r.sorted.suggestions.Perm r.suggestions ∧
      (r.sorted.suggestions.Pairwise fun a b => b.confidence.size ≤ a.confidence.size) ∧
      (∀ x : ℚ, (r.sorted.suggestions.filter fun s => s.confidence.size = x) =
        r.suggestions.filter fun s => s.confidence.size = x) ∧
      (∀ suggestions : List Suggestion,
        (suggestions.Pairwise fun a b => b.confidence.size ≤ a.confidence.size) →
        (∀ x : ℚ, (suggestions.filter fun s => s.confidence.size = x) =
          r.suggestions.filter fun s => s.confidence.size = x) →
        suggestions = r.sorted.suggestions) ∧
      r.sorted.sorted = r.sorted) ∧
    ∀ (e : Error) (file : String),
      (Report.ofError e file).suggestions.Perm e.suggestions ∧
        (Report.ofError e file).suggestions.Pairwise
          fun a b => b.confidence.size ≤ a.confidence.size := by
  refine ⟨fun r => ⟨rfl, r.perm_sorted, r.ranked_sorted, r.filter_sorted,
    fun suggestions hranked hties => ?_, r.sorted_sorted⟩, fun e file => ⟨?_, ?_⟩⟩
  · exact eq_of_ranked hranked r.ranked_sorted fun x => (hties x).trans (r.filter_sorted x).symm
  · exact perm_sorted _
  · exact ranked_sorted _

/-- A report with three suggestions, of which two have a zero for confidence, one with a sign and
one without. -/
def tied : Report :=
  ⟨"E0001", .error, .analysis, "", none,
    [⟨"first", ⟨true, 0⟩⟩, ⟨"better", .nearest false 1 2⟩, ⟨"second", ⟨false, 0⟩⟩]⟩

/-- The zeros keep their order behind the better suggestion. -/
theorem sorted_stably_tied :
    tied.sorted.suggestions =
      [⟨"better", .nearest false 1 2⟩, ⟨"first", ⟨true, 0⟩⟩, ⟨"second", ⟨false, 0⟩⟩] := by
  have hfirst : Binary64.size ⟨true, 0⟩ = 0 := neg_eq_zero.2 (Binary64.magnitude_eq_zero_iff.2 rfl)
  have hsecond : Binary64.size ⟨false, 0⟩ = 0 := Binary64.magnitude_eq_zero_iff.2 rfl
  have hbetter : 0 < (Binary64.nearest false 1 2).size :=
    lt_of_le_of_ne (Binary64.magnitude_nonneg _)
      (Ne.symm (mt Binary64.magnitude_eq_zero_iff.1 (by decide +kernel)))
  obtain ⟨-, -, -, -, hunique, -⟩ := sorted_stably.1 tied
  refine (hunique _ ?_ fun x => ?_).symm
  · simp [hfirst, hsecond, hbetter.le]
  · by_cases hx : 0 = x
    · subst hx
      simp [tied, hfirst, hsecond, hbetter.ne']
    · simp [tied, List.filter_cons, hfirst, hsecond, hx]

end Report

end ImpTree

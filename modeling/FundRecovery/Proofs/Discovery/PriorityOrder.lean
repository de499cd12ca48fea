import FundRecovery.Scheme.Basic

/-!
# The order in which schemes are scanned

Sorting by priority is stable, so that the sorted list is determined by the order of the schemes
within each priority.

* `ascending_sortByPriority`, `filter_sortByPriority`: the sorted list ascends, and has the schemes
  of each priority in the order in which they were given.
* `Ascending.eq_of_filter_eq`: no other list does.
* `sortByPriority_append_last`: a scheme that is given last, and whose priority is not below that of
  any other, is scanned last.
* `Reordered`: the same schemes in another order, those of one priority as before.
  `Reordered.sortByPriority_eq`: they are scanned in the same order. `Reordered.of_distinct`: any
  order will do where no two have one priority.
-/

namespace FundRecovery

/-- No scheme stands before one of a lower priority. -/
def Ascending (schemes : List PathScheme) : Prop :=
  schemes.Pairwise fun a b => a.priority ≤ b.priority

section Order

variable (a b c : PathScheme)

theorem priority_trans (hab : decide (a.priority ≤ b.priority) = true)
    (hbc : decide (b.priority ≤ c.priority) = true) : decide (a.priority ≤ c.priority) = true := by
  simp only [decide_eq_true_eq] at hab hbc ⊢
  exact UInt32.le_trans hab hbc

theorem priority_total :
    (decide (a.priority ≤ b.priority) || decide (b.priority ≤ a.priority)) = true := by
  simp only [Bool.or_eq_true, decide_eq_true_eq]
  exact UInt32.le_total a.priority b.priority

end Order

theorem ascending_sortByPriority (schemes : List PathScheme) :
    Ascending (sortByPriority schemes) := by
  have hsorted := List.pairwise_mergeSort priority_trans priority_total schemes
  exact hsorted.imp fun h => of_decide_eq_true h

/-- The schemes of one priority keep their order. -/
theorem filter_sortByPriority (schemes : List PathScheme) (priority : UInt32) :
    (sortByPriority schemes).filter (·.priority = priority) =
      schemes.filter (·.priority = priority) := by
  -- Schemes of one priority are in ascending order already, whatever their order is.
  have hequal : (schemes.filter (·.priority = priority)).Pairwise fun a b =>
      decide (a.priority ≤ b.priority) = true := by
    refine List.pairwise_iff_forall_sublist.mpr fun {a b} hab => ?_
    have ha := hab.subset List.mem_cons_self
    have hb := hab.subset (List.mem_cons_of_mem a List.mem_cons_self)
    have hpa : a.priority = priority := of_decide_eq_true (List.mem_filter.mp ha).2
    have hpb : b.priority = priority := of_decide_eq_true (List.mem_filter.mp hb).2
    rw [hpa, hpb]
    exact decide_eq_true (UInt32.le_refl priority)
  have hsub : (schemes.filter (·.priority = priority)).Sublist (sortByPriority schemes) :=
    List.sublist_mergeSort priority_trans priority_total hequal List.filter_sublist
  have hfilter := hsub.filter (·.priority = priority)
  rw [List.filter_filter] at hfilter
  simp only [Bool.and_self] at hfilter
  refine (hfilter.eq_of_length ?_).symm
  exact ((List.mergeSort_perm schemes _).filter _).length_eq.symm

/-- Lists that ascend are equal if they have the same schemes of each priority in the same order. -/
theorem Ascending.eq_of_filter_eq {schemes others : List PathScheme} (hs : Ascending schemes)
    (ho : Ascending others) (h : ∀ priority, schemes.filter (·.priority = priority) =
      others.filter (·.priority = priority)) : schemes = others := by
  have hmem (a : PathScheme) : a ∈ schemes ↔ a ∈ others := by
    have hfilter := congrArg (a ∈ ·) (h a.priority)
    simpa using hfilter
  induction schemes generalizing others with
  | nil =>
    cases others with
    | nil => rfl
    | cons b _ => exact absurd ((hmem b).mpr List.mem_cons_self) List.not_mem_nil
  | cons a schemes ih =>
    cases others with
    | nil => exact absurd ((hmem a).mp List.mem_cons_self) List.not_mem_nil
    | cons b others =>
      obtain ⟨ha, hs'⟩ := List.pairwise_cons.mp hs
      obtain ⟨hb, ho'⟩ := List.pairwise_cons.mp ho
      -- Both heads are of the lowest priority, and so the first ones of it.
      have hle : a.priority ≤ b.priority := by
        rcases List.mem_cons.mp ((hmem b).mpr List.mem_cons_self) with rfl | hmem
        · exact UInt32.le_refl _
        · exact ha b hmem
      have hge : b.priority ≤ a.priority := by
        rcases List.mem_cons.mp ((hmem a).mp List.mem_cons_self) with rfl | hmem
        · exact UInt32.le_refl _
        · exact hb a hmem
      have hsame : b.priority = a.priority := UInt32.le_antisymm hge hle
      have hheads := h a.priority
      rw [List.filter_cons_of_pos (by simp), List.filter_cons_of_pos (by simp [hsame])] at hheads
      obtain ⟨rfl, -⟩ := List.cons.inj hheads
      have hrest : ∀ priority, schemes.filter (·.priority = priority) =
          others.filter (·.priority = priority) := by
        intro priority
        have hfilter := h priority
        by_cases hp : a.priority = priority
        · simpa [List.filter_cons, hp] using hfilter
        · simpa [List.filter_cons, hp] using hfilter
      refine congrArg (a :: ·) (ih hs' ho' hrest fun c => ?_)
      have hfilter := congrArg (c ∈ ·) (hrest c.priority)
      simpa using hfilter

theorem sortByPriority_append_last {schemes : List PathScheme} {last : PathScheme}
    (h : ∀ scheme ∈ schemes, scheme.priority ≤ last.priority) :
    sortByPriority (schemes ++ [last]) = sortByPriority schemes ++ [last] := by
  have hascending : Ascending (sortByPriority schemes ++ [last]) := by
    refine List.pairwise_append.mpr
      ⟨ascending_sortByPriority schemes, List.pairwise_singleton _ _, fun a ha b hb => ?_⟩
    obtain rfl := List.mem_singleton.mp hb
    exact h a ((List.mergeSort_perm schemes _).mem_iff.mp ha)
  refine (ascending_sortByPriority _).eq_of_filter_eq hascending fun priority => ?_
  rw [filter_sortByPriority, List.filter_append, List.filter_append, filter_sortByPriority]

/-! ## Other orders -/

/-- The same schemes in another order that keeps the order of schemes of one priority. -/
structure Reordered (schemes others : List PathScheme) : Prop where
  perm : others.Perm schemes
  ties : ∀ a b, a.priority = b.priority → [a, b].Sublist others → [a, b].Sublist schemes

/-- In a list without repeats, of two items only one comes before the other. -/
theorem not_sublist_swapped {α : Type} {items : List α} (hn : items.Nodup) {a b : α}
    (hab : [a, b].Sublist items) : ¬[b, a].Sublist items := by
  induction items with
  | nil => cases hab
  | cons c rest ih =>
    obtain ⟨hc, hrest⟩ := List.nodup_cons.mp hn
    intro hba
    cases hab with
    | cons _ hab =>
      cases hba with
      | cons _ hba => exact ih hrest hab hba
      | cons_cons _ _ => exact hc (hab.subset (List.mem_cons_of_mem _ List.mem_cons_self))
    | cons_cons _ hb =>
      cases hba with
      | cons _ hba => exact hc (hba.subset (List.mem_cons_of_mem _ List.mem_cons_self))
      | cons_cons _ _ => exact hc (hb.subset List.mem_cons_self)

namespace Reordered

variable {schemes others : List PathScheme}

/-- Where no two schemes have one priority, there is no order to keep. -/
theorem of_distinct (hperm : others.Perm schemes) (h : (schemes.map (·.priority)).Nodup) :
    Reordered schemes others := by
  refine ⟨hperm, fun a b hsame hab => ?_⟩
  have hdistinct := (hab.map (·.priority)).nodup ((hperm.map _).nodup_iff.mpr h)
  simp [hsame] at hdistinct

theorem filter_eq (h : Reordered schemes others) (hn : schemes.Nodup) (priority : UInt32) :
    others.filter (·.priority = priority) = schemes.filter (·.priority = priority) := by
  have honce (a b : PathScheme) (_ : a ∈ others.filter (·.priority = priority))
      (_ : b ∈ schemes.filter (·.priority = priority)) (hab : [a, b].Sublist schemes)
      (hba : [b, a].Sublist schemes) : a = b := absurd hba (not_sublist_swapped hn hab)
  refine List.Perm.eq_of_pairwise honce ?_ ?_ (h.perm.filter _)
  · refine List.pairwise_iff_forall_sublist.mpr fun {a b} hab => ?_
    have hpriority : ∀ c ∈ [a, b], c.priority = priority := fun c hc =>
      of_decide_eq_true (List.mem_filter.mp (hab.subset hc)).2
    obtain ⟨ha, hb⟩ := List.forall_mem_cons.mp hpriority
    refine h.ties a b ?_ (hab.trans List.filter_sublist)
    rw [ha, hb b (List.mem_singleton_self b)]
  · exact List.pairwise_iff_forall_sublist.mpr fun hab => hab.trans List.filter_sublist

/-- The schemes are scanned in the same order. -/
theorem sortByPriority_eq (h : Reordered schemes others) (hn : schemes.Nodup) :
    sortByPriority others = sortByPriority schemes := by
  refine (ascending_sortByPriority others).eq_of_filter_eq (ascending_sortByPriority schemes) ?_
  intro priority
  rw [filter_sortByPriority, filter_sortByPriority, h.filter_eq hn]

end Reordered

end FundRecovery

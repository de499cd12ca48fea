import FundRecovery.GapLimit
import Mathlib.Order.Bounds.Basic

/-!
# Unused runs and the counter of a gap

A chain is left behind the first run of unused positions that is as long as the gap limit. What
makes a position unused is for the scan to say: whatever it is, the counter of the gap is the length
of the run that ends just below the next position.

* `ClosedBy`: the positions just below an index are unused, as many as the gap limit.
* `GapLimit.Counts`: the counter is the length of the run. Marking a position keeps it so.
* `Passes`: positions are marked one after the other while the gap is open.
  `Passes.isLeast`: a scan that goes on as long as it can comes to the least index that closes the
  gap.
-/

namespace FundRecovery

variable {unused unused' : Nat → Prop} {gap gap' gap'' : GapLimit} {g i k m n : Nat}

/-- The `g` positions just below `n` are all unused. -/
def ClosedBy (unused : Nat → Prop) (g n : Nat) : Prop :=
  g ≤ n ∧ ∀ i, n - g ≤ i → i < n → unused i

theorem closedBy_zero (n : Nat) : ClosedBy unused 0 n :=
  ⟨Nat.zero_le n, fun i hi hin => by omega⟩

/-- A run is longer by one than the run that ends one position before. -/
theorem closedBy_succ_iff : ClosedBy unused (k + 1) (n + 1) ↔ unused n ∧ ClosedBy unused k n := by
  constructor
  · rintro ⟨hk, hrun⟩
    exact ⟨hrun n (by omega) (Nat.lt_succ_self n), Nat.le_of_succ_le_succ hk,
      fun i hi hin => hrun i (by omega) (by omega)⟩
  · rintro ⟨hn, hk, hrun⟩
    refine ⟨Nat.succ_le_succ hk, fun i hi hin => ?_⟩
    rcases Nat.lt_succ_iff_lt_or_eq.mp hin with hlt | rfl
    · exact hrun i (by omega) hlt
    · exact hn

theorem ClosedBy.mono (h : ClosedBy unused g n) (hsub : ∀ i, unused i → unused' i) :
    ClosedBy unused' g n :=
  ⟨h.1, fun i hi hin => hsub i (h.2 i hi hin)⟩

/-- Behind a used position there is room for the whole run. -/
theorem ClosedBy.room (h : ClosedBy unused g n) (hi : ¬unused i) (hin : i < n) :
    i + 1 + g ≤ n := by
  by_contra hroom
  exact hi (h.2 i (by omega) hin)

/-! ## The counter -/

/-- The counter of the gap is the length of the unused run below position `i`. -/
def GapLimit.Counts (unused : Nat → Prop) (gap : GapLimit) (i : Nat) : Prop :=
  ∀ k, k ≤ gap.unused ↔ ClosedBy unused k i

namespace GapLimit.Counts

theorem new (g : Nat) : Counts unused (.new g) 0 := by
  intro k
  constructor
  · intro hk
    obtain rfl := Nat.le_zero.mp hk
    exact closedBy_zero 0
  · exact fun h => h.1

theorem mark (h : Counts unused gap i) {used : Bool} (hused : used = false ↔ unused i) :
    Counts unused (gap.mark used) (i + 1) := by
  intro k
  cases k with
  | zero => exact ⟨fun _ => closedBy_zero _, fun _ => Nat.zero_le _⟩
  | succ k =>
    rw [closedBy_succ_iff, ← hused, ← h k]
    cases used <;> simp [GapLimit.mark]

theorem reached_iff (h : Counts unused gap i) :
    gap.reached = true ↔ ClosedBy unused gap.limit i := by
  rw [GapLimit.reached, decide_eq_true_eq]
  exact h gap.limit

end GapLimit.Counts

/-! ## Positions in a row -/

/-- From position `i` on and below `n` the positions are marked one after the other, and the gap is
open before each of them. -/
inductive Passes (unused : Nat → Prop) : Nat → GapLimit → Nat → GapLimit → Prop where
  | refl (i : Nat) (gap : GapLimit) : Passes unused i gap i gap
  | step {i n : Nat} {gap gap' : GapLimit} {used : Bool} (hopen : gap.reached = false)
      (hused : used = false ↔ unused i) (rest : Passes unused (i + 1) (gap.mark used) n gap') :
      Passes unused i gap n gap'

namespace Passes

theorem le (h : Passes unused i gap n gap') : i ≤ n := by
  induction h with
  | refl => exact Nat.le_refl _
  | step _ _ _ ih => exact Nat.le_of_succ_le ih

theorem trans (h : Passes unused i gap m gap') (h' : Passes unused m gap' n gap'') :
    Passes unused i gap n gap'' := by
  induction h with
  | refl => exact h'
  | step hopen hused _ ih => exact .step hopen hused (ih h')

/-- Only the positions that are passed matter. -/
theorem congr (h : Passes unused i gap n gap')
    (hsame : ∀ j, i ≤ j → j < n → (unused j ↔ unused' j)) : Passes unused' i gap n gap' := by
  induction h with
  | refl i gap => exact .refl i gap
  | step hopen hused rest ih =>
    refine .step hopen (hused.trans (hsame _ (Nat.le_refl _) rest.le)) (ih fun j hj => ?_)
    exact hsame j (Nat.le_of_succ_le hj)

theorem limit (h : Passes unused i gap n gap') : gap'.limit = gap.limit := by
  induction h with
  | refl => rfl
  | step _ _ _ ih => exact ih

theorem counts (h : Passes unused i gap n gap') (hi : gap.Counts unused i) :
    gap'.Counts unused n := by
  induction h with
  | refl => exact hi
  | step _ hused _ ih => exact ih (hi.mark hused)

/-- No position is passed at which the gap is closed. -/
theorem not_closedBy (h : Passes unused i gap n gap') (hi : gap.Counts unused i) (him : i ≤ m)
    (hmn : m < n) : ¬ClosedBy unused gap.limit m := by
  induction h with
  | refl => omega
  | step hopen hused _ ih =>
    rcases Nat.eq_or_lt_of_le him with rfl | hlt
    · rw [← hi.reached_iff, hopen]
      exact Bool.false_ne_true
    · exact ih (hi.mark hused) hlt hmn

/-- Positions are passed until the gap is closed, or up to the end. -/
theorem isLeast {space : Nat} (h : Passes unused 0 (.new g) n gap') (hn : n ≤ space)
    (hend : gap'.reached = true ∨ n = space) :
    IsLeast {m | ClosedBy unused g m ∨ m = space} n := by
  have hcounts : (GapLimit.new g).Counts unused 0 := .new g
  constructor
  · rcases hend with hr | rfl
    · have hlimit : gap'.limit = g := h.limit
      exact .inl (hlimit ▸ (h.counts hcounts).reached_iff.mp hr)
    · exact .inr rfl
  · rintro m (hclosed | rfl)
    · by_contra hlt
      exact h.not_closedBy hcounts (Nat.zero_le m) (Nat.lt_of_not_le hlt) hclosed
    · exact hn

end Passes

end FundRecovery

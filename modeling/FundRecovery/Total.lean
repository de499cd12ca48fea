/-!
# Totals

Amounts, counts and sizes are words of 64 bits, and what leaves the word is lost.

* `totalOf`: the exact sum of a measure over a list. `totalOf_append`, `totalOf_perm`: it splits
  where the list does, and the order is irrelevant.
* `inWord`: what a word keeps of a number. `inWord_of_le`: a number that fits.
* `wordTotal`: a sum in words. `wordTotal_eq`: it is what a word keeps of the exact sum.
-/

namespace FundRecovery

variable {α : Type}

/-! ## Exact sums -/

/-- The sum of `measure` over the items. -/
def totalOf (measure : α → Nat) : List α → Nat
  | [] => 0
  | a :: rest => measure a + totalOf measure rest

@[simp] theorem totalOf_nil (measure : α → Nat) : totalOf measure [] = 0 := rfl

@[simp] theorem totalOf_cons (measure : α → Nat) (a : α) (rest : List α) :
    totalOf measure (a :: rest) = measure a + totalOf measure rest := rfl

@[simp] theorem totalOf_append (measure : α → Nat) (a b : List α) :
    totalOf measure (a ++ b) = totalOf measure a + totalOf measure b := by
  induction a with
  | nil => simp
  | cons x rest ih => simp [ih, Nat.add_assoc]

theorem totalOf_congr {measure measure' : α → Nat} {items : List α}
    (h : ∀ a ∈ items, measure a = measure' a) : totalOf measure items = totalOf measure' items := by
  induction items with
  | nil => rfl
  | cons a rest ih =>
    obtain ⟨ha, hrest⟩ := List.forall_mem_cons.mp h
    rw [totalOf_cons, totalOf_cons, ha, ih hrest]

theorem totalOf_le {measure measure' : α → Nat} {items : List α}
    (h : ∀ a ∈ items, measure a ≤ measure' a) : totalOf measure items ≤ totalOf measure' items := by
  induction items with
  | nil => exact Nat.le_refl 0
  | cons a rest ih =>
    obtain ⟨ha, hrest⟩ := List.forall_mem_cons.mp h
    exact Nat.add_le_add ha (ih hrest)

theorem le_totalOf (measure : α → Nat) {items : List α} {a : α} (h : a ∈ items) :
    measure a ≤ totalOf measure items := by
  induction h with
  | head => exact Nat.le_add_right _ _
  | tail _ _ ih => exact Nat.le_trans ih (Nat.le_add_left _ _)

theorem totalOf_map {β : Type} (measure : β → Nat) (f : α → β) (items : List α) :
    totalOf measure (items.map f) = totalOf (fun a => measure (f a)) items := by
  induction items with
  | nil => rfl
  | cons a rest ih => rw [List.map_cons, totalOf_cons, totalOf_cons, ih]

theorem totalOf_flatMap {β : Type} (measure : β → Nat) (f : α → List β) (items : List α) :
    totalOf measure (items.flatMap f) = totalOf (fun a => totalOf measure (f a)) items := by
  induction items with
  | nil => rfl
  | cons a rest ih => rw [List.flatMap_cons, totalOf_append, totalOf_cons, ih]

/-- The lengths of lists add up to that of the lists in sequence. -/
theorem totalOf_length (lists : List (List α)) :
    totalOf List.length lists = lists.flatten.length := by
  induction lists with
  | nil => rfl
  | cons list rest ih => rw [totalOf_cons, ih, List.flatten_cons, List.length_append]

theorem totalOf_perm {measure : α → Nat} {a b : List α} (h : a.Perm b) :
    totalOf measure a = totalOf measure b := by
  induction h with
  | nil => rfl
  | cons _ _ ih => simp [ih]
  | swap x y _ => simp only [totalOf_cons]; omega
  | trans _ _ ih₁ ih₂ => exact ih₁.trans ih₂

theorem totalOf_pos_iff {measure : α → Nat} {items : List α} :
    0 < totalOf measure items ↔ ∃ a ∈ items, 0 < measure a := by
  induction items with
  | nil => simp
  | cons a rest ih =>
    rw [totalOf_cons, Nat.add_pos_iff_pos_or_pos, ih]
    simp

/-! ## Words -/

/-- The largest number that a word holds. -/
def maxAmount : Nat := UInt64.size - 1

/-- What a word keeps of a number. -/
def inWord (n : Nat) : Nat := n % UInt64.size

theorem le_maxAmount_iff {n : Nat} : n ≤ maxAmount ↔ n < UInt64.size :=
  Nat.le_sub_one_iff_lt (by decide)

/-- A number that fits is kept. -/
theorem inWord_of_le {n : Nat} (h : n ≤ maxAmount) : inWord n = n :=
  Nat.mod_eq_of_lt (le_maxAmount_iff.mp h)

@[simp] theorem inWord_inWord (n : Nat) : inWord (inWord n) = inWord n := Nat.mod_mod _ _

@[simp] theorem inWord_inWord_add (m n : Nat) : inWord (inWord m + n) = inWord (m + n) :=
  Nat.mod_add_mod _ _ _

@[simp] theorem inWord_add_inWord (m n : Nat) : inWord (m + inWord n) = inWord (m + n) :=
  Nat.add_mod_mod _ _ _

/-- The sum of `measure` over the items, where every addition is one of words. -/
def wordTotal (measure : α → Nat) (items : List α) : Nat :=
  items.foldl (fun total a => inWord (total + measure a)) 0

theorem foldl_inWord (measure : α → Nat) (items : List α) (total : Nat) :
    items.foldl (fun total a => inWord (total + measure a)) (inWord total) =
      inWord (total + totalOf measure items) := by
  induction items generalizing total with
  | nil => rfl
  | cons a rest ih => rw [List.foldl_cons, inWord_inWord_add, ih, totalOf_cons, Nat.add_assoc]

/-- A sum in words is what a word keeps of the sum. -/
theorem wordTotal_eq (measure : α → Nat) (items : List α) :
    wordTotal measure items = inWord (totalOf measure items) :=
  (foldl_inWord measure items 0).trans (congrArg inWord (Nat.zero_add _))

theorem wordTotal_of_le {measure : α → Nat} {items : List α}
    (h : totalOf measure items ≤ maxAmount) : wordTotal measure items = totalOf measure items :=
  (wordTotal_eq measure items).trans (inWord_of_le h)

/-- Of sums that fit, the smaller one is the smaller word. -/
theorem wordTotal_mono {measure : α → Nat} {items items' : List α}
    (h : totalOf measure items ≤ totalOf measure items')
    (hfits : totalOf measure items' ≤ maxAmount) :
    wordTotal measure items ≤ wordTotal measure items' := by
  rwa [wordTotal_of_le hfits, wordTotal_of_le (Nat.le_trans h hfits)]

theorem wordTotal_congr {measure measure' : α → Nat} {items : List α}
    (h : ∀ a ∈ items, measure a = measure' a) :
    wordTotal measure items = wordTotal measure' items := by
  rw [wordTotal_eq, wordTotal_eq, totalOf_congr h]

theorem wordTotal_perm {measure : α → Nat} {a b : List α} (h : a.Perm b) :
    wordTotal measure a = wordTotal measure b := by
  rw [wordTotal_eq, wordTotal_eq, totalOf_perm h]

/-- Items that are counted in words by themselves add up to the same. -/
theorem wordTotal_inWord (measure : α → Nat) (items : List α) :
    wordTotal (fun a => inWord (measure a)) items = wordTotal measure items := by
  simp only [wordTotal, inWord_add_inWord]

end FundRecovery

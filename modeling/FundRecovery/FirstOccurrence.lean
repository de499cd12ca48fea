/-!
# First occurrences

* `firstOccurrences`: a list without the items whose key occurred before.
* `nodup_map_firstOccurrences`, `mem_map_firstOccurrences`: it has every key, and each once.
* `firstOccurrences_eq_self`: a list whose keys are distinct stays as it is.
* `firstOccurrences_eq_filter`: an item stays if no item before it has its key.
* `firstRepeat?`: the first item that occurred before.
* `firstRepeat?_eq_none_iff`: a list has no repeat exactly when its items are pairwise distinct.
-/

namespace FundRecovery

variable {α κ : Type} [DecidableEq κ]

/-- The items whose key is neither in `seen` nor the key of an item before them. -/
def firstOccurrencesFrom (key : α → κ) (seen : List κ) : List α → List α
  | [] => []
  | a :: rest =>
    if key a ∈ seen then firstOccurrencesFrom key seen rest
    else a :: firstOccurrencesFrom key (key a :: seen) rest

/-- The first item of each key, in order. -/
def firstOccurrences (key : α → κ) (items : List α) : List α := firstOccurrencesFrom key [] items

theorem firstOccurrencesFrom_sublist (key : α → κ) (seen : List κ) (items : List α) :
    (firstOccurrencesFrom key seen items).Sublist items := by
  induction items generalizing seen with
  | nil => exact .slnil
  | cons a rest ih =>
    simp only [firstOccurrencesFrom]
    split
    · exact (ih _).cons _
    · exact (ih _).cons_cons _

theorem mem_map_firstOccurrencesFrom {key : α → κ} {seen : List κ} {items : List α} {k : κ} :
    k ∈ (firstOccurrencesFrom key seen items).map key ↔ k ∈ items.map key ∧ k ∉ seen := by
  induction items generalizing seen with
  | nil => simp [firstOccurrencesFrom]
  | cons a rest ih =>
    simp only [firstOccurrencesFrom]
    split
    · rename_i h
      rw [ih]
      constructor
      · exact fun ⟨hk, hs⟩ => ⟨List.mem_cons_of_mem _ hk, hs⟩
      · rintro ⟨hk, hs⟩
        rcases List.mem_cons.mp hk with hk | hk
        · exact absurd (hk ▸ h) hs
        · exact ⟨hk, hs⟩
    · rename_i h
      rw [List.map_cons, List.mem_cons, ih, List.map_cons, List.mem_cons, List.mem_cons, not_or]
      constructor
      · rintro (hk | ⟨hk, -, hs⟩)
        · exact ⟨.inl hk, hk ▸ h⟩
        · exact ⟨.inr hk, hs⟩
      · rintro ⟨hk, hs⟩
        by_cases he : k = key a
        · exact .inl he
        · exact .inr ⟨hk.resolve_left he, he, hs⟩

theorem nodup_map_firstOccurrencesFrom (key : α → κ) (seen : List κ) (items : List α) :
    ((firstOccurrencesFrom key seen items).map key).Nodup := by
  induction items generalizing seen with
  | nil => exact .nil
  | cons a rest ih =>
    simp only [firstOccurrencesFrom]
    split
    · exact ih _
    · refine List.nodup_cons.mpr ⟨fun h => ?_, ih _⟩
      exact (mem_map_firstOccurrencesFrom.mp h).2 List.mem_cons_self

theorem firstOccurrences_sublist (key : α → κ) (items : List α) :
    (firstOccurrences key items).Sublist items := firstOccurrencesFrom_sublist key [] items

/-- No key is lost. -/
theorem mem_map_firstOccurrences {key : α → κ} {items : List α} {k : κ} :
    k ∈ (firstOccurrences key items).map key ↔ k ∈ items.map key := by
  simp only [firstOccurrences, mem_map_firstOccurrencesFrom, List.not_mem_nil, not_false_iff,
    and_true]

theorem nodup_map_firstOccurrences (key : α → κ) (items : List α) :
    ((firstOccurrences key items).map key).Nodup := nodup_map_firstOccurrencesFrom key [] items

theorem firstOccurrencesFrom_eq_self {key : α → κ} {seen : List κ} {items : List α}
    (hn : (items.map key).Nodup) (hs : ∀ a ∈ items, key a ∉ seen) :
    firstOccurrencesFrom key seen items = items := by
  induction items generalizing seen with
  | nil => rfl
  | cons a rest ih =>
    obtain ⟨ha, hrest⟩ := List.nodup_cons.mp hn
    obtain ⟨hfirst, hs⟩ := List.forall_mem_cons.mp hs
    have hseen : ∀ b ∈ rest, key b ∉ key a :: seen := by
      intro b hb hmem
      rcases List.mem_cons.mp hmem with he | hmem
      · exact ha (he ▸ List.mem_map_of_mem hb)
      · exact hs b hb hmem
    rw [firstOccurrencesFrom, if_neg hfirst, ih hrest hseen]

/-- Nothing is left out where no key repeats. -/
theorem firstOccurrences_eq_self {key : α → κ} {items : List α} (h : (items.map key).Nodup) :
    firstOccurrences key items = items :=
  firstOccurrencesFrom_eq_self h fun _ _ => List.not_mem_nil

theorem firstOccurrencesFrom_eq_filter {key : α → κ} {seen : List κ} {items : List α}
    (before : List α) (h : ∀ k, k ∈ seen ↔ k ∈ before.map key) :
    firstOccurrencesFrom key seen items =
      ((items.zipIdx before.length).filter fun x =>
        key x.1 ∉ ((before ++ items).take x.2).map key).map (·.1) := by
  induction items generalizing seen before with
  | nil => rfl
  | cons a rest ih =>
    have hnext : ∀ {seen'}, (∀ k, k ∈ seen' ↔ k ∈ (before ++ [a]).map key) →
        firstOccurrencesFrom key seen' rest =
          ((rest.zipIdx (before.length + 1)).filter fun x =>
            key x.1 ∉ ((before ++ a :: rest).take x.2).map key).map (·.1) := by
      intro seen' h'
      rw [ih _ h', List.length_append, List.append_assoc]
      rfl
    rw [firstOccurrencesFrom, List.zipIdx_cons, List.filter_cons, List.take_left]
    by_cases ha : key a ∈ seen
    · have hrepeated : key a ∈ before.map key := (h _).mp ha
      rw [if_pos ha, if_neg (by simpa using hrepeated)]
      refine hnext fun k => ?_
      rw [h, List.map_append, List.mem_append, List.map_singleton, List.mem_singleton]
      exact (or_iff_left_of_imp fun hk => hk ▸ hrepeated).symm
    · rw [if_neg ha, if_pos (by simpa using mt (h _).mpr ha), List.map_cons]
      refine congrArg (a :: ·) (hnext fun k => ?_)
      rw [List.mem_cons, h, List.map_append, List.mem_append, List.map_singleton,
        List.mem_singleton, or_comm]

/-- An item stays if its key is not among those of the items before it. -/
theorem firstOccurrences_eq_filter (key : α → κ) (items : List α) :
    firstOccurrences key items =
      (items.zipIdx.filter fun x => key x.1 ∉ (items.take x.2).map key).map (·.1) :=
  firstOccurrencesFrom_eq_filter [] fun _ => Iff.rfl

theorem mem_firstOccurrences_append {key : α → κ} {before after : List α} {a : α}
    (h : key a ∉ before.map key) : a ∈ firstOccurrences key (before ++ a :: after) := by
  rw [firstOccurrences_eq_filter, List.mem_map]
  refine ⟨(a, before.length), List.mem_filter.mpr ⟨?_, ?_⟩, rfl⟩
  · rw [List.mem_zipIdx_iff_getElem?]
    simp
  · simpa using h

theorem firstOccurrencesFrom_append_repeat {key : α → κ} {seen : List κ} {before after : List α}
    {a : α} (h : key a ∈ seen ∨ key a ∈ before.map key) :
    firstOccurrencesFrom key seen (before ++ a :: after) =
      firstOccurrencesFrom key seen (before ++ after) := by
  induction before generalizing seen with
  | nil => exact if_pos (h.resolve_right List.not_mem_nil)
  | cons b rest ih =>
    rw [List.cons_append, List.cons_append, firstOccurrencesFrom, firstOccurrencesFrom]
    by_cases hb : key b ∈ seen
    · have hrest : key a ∈ seen ∨ key a ∈ rest.map key := by
        rcases h with h | h
        · exact .inl h
        · rcases List.mem_cons.mp h with he | h
          · exact .inl (he ▸ hb)
          · exact .inr h
      rw [if_pos hb, if_pos hb, ih hrest]
    · have hrest : key a ∈ key b :: seen ∨ key a ∈ rest.map key := by
        rcases h with h | h
        · exact .inl (List.mem_cons_of_mem _ h)
        · rcases List.mem_cons.mp h with he | h
          · exact .inl (he ▸ List.mem_cons_self)
          · exact .inr h
      rw [if_neg hb, if_neg hb, ih hrest]

/-- An item whose key occurred before is passed over. -/
theorem firstOccurrences_append_repeat {key : α → κ} {before after : List α} {a : α}
    (h : key a ∈ before.map key) :
    firstOccurrences key (before ++ a :: after) = firstOccurrences key (before ++ after) :=
  firstOccurrencesFrom_append_repeat (.inr h)

/-- The items that stay are those before which their key does not occur. -/
theorem mem_firstOccurrences_iff {key : α → κ} {items : List α} {a : α} :
    a ∈ firstOccurrences key items ↔
      ∃ before after, items = before ++ a :: after ∧ key a ∉ before.map key := by
  constructor
  · intro ha
    rw [firstOccurrences_eq_filter] at ha
    obtain ⟨⟨b, i⟩, hb, rfl⟩ := List.mem_map.mp ha
    obtain ⟨hmem, hnew⟩ := List.mem_filter.mp hb
    have hi : items[i]? = some b := List.mem_zipIdx_iff_getElem?.mp hmem
    obtain ⟨hlt, rfl⟩ := List.getElem?_eq_some_iff.mp hi
    refine ⟨items.take i, items.drop (i + 1), ?_, by simpa using hnew⟩
    rw [List.getElem_cons_drop, List.take_append_drop]
  · rintro ⟨before, after, rfl, hnew⟩
    exact mem_firstOccurrences_append hnew

/-- The first item that is in `seen` or occurred before. -/
def firstRepeat? (seen : List κ) : List κ → Option κ
  | [] => none
  | a :: rest => if a ∈ seen then some a else firstRepeat? (a :: seen) rest

theorem firstRepeat?_from_eq_none_iff {seen items : List κ} :
    firstRepeat? seen items = none ↔ items.Nodup ∧ ∀ a ∈ items, a ∉ seen := by
  induction items generalizing seen with
  | nil => simp [firstRepeat?]
  | cons a rest ih =>
    by_cases h : a ∈ seen
    · simp [firstRepeat?, h]
    · simp only [firstRepeat?, h, ↓reduceIte, ih, List.nodup_cons, List.mem_cons, not_or]
      constructor
      · rintro ⟨hn, hr⟩
        exact ⟨⟨fun ha => (hr a ha).1 rfl, hn⟩, by
          rintro b (rfl | hb)
          · exact h
          · exact (hr b hb).2⟩
      · rintro ⟨⟨ha, hn⟩, hr⟩
        exact ⟨hn, fun b hb => ⟨fun e => ha (e ▸ hb), hr b (.inr hb)⟩⟩

theorem firstRepeat?_eq_none_iff {items : List κ} : firstRepeat? [] items = none ↔ items.Nodup := by
  simp [firstRepeat?_from_eq_none_iff]

end FundRecovery

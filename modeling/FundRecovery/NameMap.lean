/-!
# Maps by name

Values under distinct names, kept in ascending order of the names.

* `NameMap.get?_insert`: what a name holds after an insertion.
* `NameMap.mem_entries_iff`: what a name holds is its entry.
* `NameMap.ofList_entries`: a map is made of its entries.
-/

namespace FundRecovery

/-- Values under names that ascend strictly. -/
structure NameMap (α : Type) where
  entries : List (String × α)
  ascending : entries.Pairwise (·.1 < ·.1) := by simp
  deriving Repr

namespace NameMap

variable {α : Type}

@[ext] theorem ext {a b : NameMap α} (h : a.entries = b.entries) : a = b := by
  cases a
  cases b
  cases h
  rfl

instance [DecidableEq α] : DecidableEq (NameMap α) := fun a b =>
  decidable_of_iff (a.entries = b.entries) (by cases a; cases b; simp)

def empty : NameMap α := ⟨[], .nil⟩

instance : EmptyCollection (NameMap α) := ⟨empty⟩

instance : Inhabited (NameMap α) := ⟨empty⟩

/-- Puts `value` under `name`, in place of what the name held. -/
def insertEntry (name : String) (value : α) : List (String × α) → List (String × α)
  | [] => [(name, value)]
  | entry :: rest =>
    if name < entry.1 then (name, value) :: entry :: rest
    else if name = entry.1 then (name, value) :: rest
    else entry :: insertEntry name value rest

theorem mem_insertEntry {name : String} {value : α} {entry : String × α} :
    ∀ {entries : List (String × α)}, entry ∈ insertEntry name value entries →
      entry = (name, value) ∨ entry ∈ entries
  | [], h => by simpa [insertEntry] using h
  | e :: rest, h => by
    simp only [insertEntry] at h
    split at h
    · simpa using h
    · split at h
      · rcases List.mem_cons.mp h with h | h
        · exact .inl h
        · exact .inr (List.mem_cons_of_mem _ h)
      · rcases List.mem_cons.mp h with h | h
        · exact .inr (h ▸ List.mem_cons_self)
        · exact (mem_insertEntry h).imp_right (List.mem_cons_of_mem _)

theorem pairwise_insertEntry (name : String) (value : α) :
    ∀ {entries : List (String × α)}, entries.Pairwise (·.1 < ·.1) →
      (insertEntry name value entries).Pairwise (·.1 < ·.1)
  | [], _ => by simp [insertEntry]
  | e :: rest, h => by
    obtain ⟨hlt, hrest⟩ := List.pairwise_cons.mp h
    simp only [insertEntry]
    split
    · rename_i hname
      refine List.pairwise_cons.mpr ⟨fun x hx => ?_, h⟩
      rcases List.mem_cons.mp hx with hx | hx
      · exact hx ▸ hname
      · exact String.lt_trans hname (hlt x hx)
    · split
      · rename_i hname
        exact List.pairwise_cons.mpr ⟨fun x hx => hname ▸ hlt x hx, hrest⟩
      · rename_i hge hne
        refine List.pairwise_cons.mpr ⟨fun x hx => ?_, pairwise_insertEntry name value hrest⟩
        rcases mem_insertEntry hx with hx | hx
        · subst hx
          exact String.not_le.mp fun hle => hne (String.le_antisymm hle (String.not_lt.mp hge))
        · exact hlt x hx

def insert (m : NameMap α) (name : String) (value : α) : NameMap α :=
  ⟨insertEntry name value m.entries, pairwise_insertEntry name value m.ascending⟩

/-- Later entries replace earlier ones of the same name. -/
def ofList (entries : List (String × α)) : NameMap α :=
  entries.foldl (fun m entry => m.insert entry.1 entry.2) empty

def get? (m : NameMap α) (name : String) : Option α := m.entries.lookup name

def values (m : NameMap α) : List α := m.entries.map (·.2)

def contains (m : NameMap α) (name : String) : Bool := (m.get? name).isSome

def erase (m : NameMap α) (name : String) : NameMap α :=
  ⟨m.entries.filter (·.1 ≠ name), m.ascending.filter _⟩

theorem lookup_insertEntry (name key : String) (value : α) :
    ∀ entries : List (String × α), (insertEntry name value entries).lookup key =
      if key = name then some value else entries.lookup key
  | [] => by
    by_cases h : key = name
    · simp [insertEntry, h]
    · simp [insertEntry, List.lookup_cons, h, beq_false_of_ne h]
  | ⟨k, v⟩ :: rest => by
    have ih := lookup_insertEntry name key value rest
    simp only [insertEntry]
    split
    · by_cases h : key = name
      · simp [h]
      · simp [List.lookup_cons, h, beq_false_of_ne h]
    · split
      · rename_i hname
        subst hname
        by_cases h : key = name
        · simp [h]
        · simp [List.lookup_cons, h, beq_false_of_ne h]
      · rename_i hne
        by_cases hk : key = k
        · subst hk
          simp [Ne.symm hne]
        · simp [List.lookup_cons, beq_false_of_ne hk, ih]

theorem get?_insert (m : NameMap α) (name key : String) (value : α) :
    (m.insert name value).get? key = if key = name then some value else m.get? key :=
  lookup_insertEntry name key value m.entries

theorem nodup_names (m : NameMap α) : (m.entries.map (·.1)).Nodup :=
  List.pairwise_map.mpr (m.ascending.imp String.ne_of_lt)

theorem lookup_of_mem {name : String} {value : α} {entries : List (String × α)}
    (hn : (entries.map (·.1)).Nodup) (h : (name, value) ∈ entries) :
    entries.lookup name = some value := by
  induction entries with
  | nil => cases h
  | cons entry rest ih =>
    obtain ⟨hfresh, hrest⟩ := List.nodup_cons.mp hn
    rcases List.mem_cons.mp h with rfl | h
    · exact List.lookup_cons_self
    · have hne : name ≠ entry.1 := by
        rintro rfl
        exact hfresh (List.mem_map.mpr ⟨_, h, rfl⟩)
      rw [List.lookup_cons, beq_false_of_ne hne, ih hrest h]

theorem mem_entries_iff {m : NameMap α} {name : String} {value : α} :
    (name, value) ∈ m.entries ↔ m.get? name = some value := by
  refine ⟨lookup_of_mem m.nodup_names, fun h => ?_⟩
  obtain ⟨before, after, he, -⟩ := List.lookup_eq_some_iff.mp h
  simp [he]

/-- A name beyond the others comes last. -/
theorem insertEntry_of_lt {name : String} {value : α} {entries : List (String × α)}
    (h : ∀ e ∈ entries, e.1 < name) :
    insertEntry name value entries = entries ++ [(name, value)] := by
  induction entries with
  | nil => rfl
  | cons e rest ih =>
    obtain ⟨he, hrest⟩ := List.forall_mem_cons.mp h
    rw [insertEntry, if_neg (String.lt_asymm he), if_neg (String.ne_of_lt he).symm, ih hrest]
    rfl

theorem entries_foldl_insert {entries : List (String × α)} {m : NameMap α}
    (h : (m.entries ++ entries).Pairwise (·.1 < ·.1)) :
    (entries.foldl (fun m e => m.insert e.1 e.2) m).entries = m.entries ++ entries := by
  induction entries generalizing m with
  | nil => exact (List.append_nil _).symm
  | cons e rest ih =>
    have hlast : (m.insert e.1 e.2).entries = m.entries ++ [e] :=
      insertEntry_of_lt fun e' he' =>
        (List.pairwise_append.mp h).2.2 e' he' e List.mem_cons_self
    rw [List.append_cons, ← hlast] at h
    rw [List.foldl_cons, ih h, hlast, ← List.append_cons]

theorem ofList_entries (m : NameMap α) : ofList m.entries = m := by
  have h : (ofList m.entries).entries = m.entries := entries_foldl_insert m.ascending
  exact NameMap.ext h

end NameMap

end FundRecovery

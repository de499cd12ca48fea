import FundRecovery.Proofs.Discovery.IndividualScan

/-!
# What a bulk view holds for an address

* `find?_ofActive`, `find?_foldl_update`, `find?_erase_ne`: a view is read by address, and the last
  entry of a fetch counts.
* `Truthful`: a bulk backend that fails at any call, or tells what the lookups would tell.
* `Shows`: a view holds for each address what its lookup gives. `bulkLookup_shows`: the views that a
  truthful backend leads to do.
-/

namespace FundRecovery.Discovery

namespace BulkView

variable {view : BulkView} {address : String}

@[simp] theorem find?_empty : empty.find? address = none := rfl

theorem find?_ofActive (active : List String) :
    (ofActive active).find? address = if address ∈ active then some [] else none := by
  have hmem : address ∈ firstOccurrences id active ↔ address ∈ active := by
    have h : address ∈ (firstOccurrences id active).map id ↔ address ∈ active.map id :=
      mem_map_firstOccurrences
    rwa [List.map_id, List.map_id] at h
  rw [find?, ofActive, List.find?_map, Option.map_map]
  by_cases h : address ∈ active
  · have hfind : (firstOccurrences id active).find?
        ((fun x : String × List Utxo => decide (x.1 = address)) ∘ fun a => (a, [])) =
          some address := by
      cases hf : (firstOccurrences id active).find?
          ((fun x : String × List Utxo => decide (x.1 = address)) ∘ fun a => (a, [])) with
      | none => exact absurd (hmem.mpr h) fun hm => by simpa using List.find?_eq_none.mp hf _ hm
      | some a =>
        have ha := List.find?_some hf
        simpa using ha
    rw [hfind, if_pos h]
    rfl
  · have hfind : (firstOccurrences id active).find?
        ((fun x : String × List Utxo => decide (x.1 = address)) ∘ fun a => (a, [])) = none := by
      refine List.find?_eq_none.mpr fun a ha he => ?_
      have hae : a = address := by simpa using he
      exact h (hmem.mp (hae ▸ ha))
    rw [hfind, if_neg h]
    rfl

theorem find?_update (fetched : AddressUtxos) :
    (view.update fetched).find? address =
      (view.find? address).map fun held =>
        if fetched.address = address then fetched.utxos else held := by
  obtain ⟨entries⟩ := view
  induction entries with
  | nil => rfl
  | cons e rest ih =>
    simp only [find?, update, List.map_cons, List.find?_cons] at *
    by_cases ha : e.1 = address
    · subst ha
      by_cases hf : e.1 = fetched.address
      · simp [hf]
      · simp [hf, Ne.symm hf]
    · by_cases hf : e.1 = fetched.address
      · simpa [hf, hf ▸ ha] using ih
      · simpa [hf, ha] using ih

/-- What is left for an address after a fetch: the outputs of its last entry, or what was held. -/
def lastFetched (address : String) (fetched : List AddressUtxos) (held : List Utxo) : List Utxo :=
  fetched.foldl (fun held f => if f.address = address then f.utxos else held) held

theorem find?_foldl_update (fetched : List AddressUtxos) :
    (fetched.foldl BulkView.update view).find? address =
      (view.find? address).map (lastFetched address fetched) := by
  induction fetched generalizing view with
  | nil => exact (congrFun Option.map_id_fun _).symm
  | cons f fetched ih =>
    rw [List.foldl_cons, ih, find?_update, Option.map_map]
    rfl

/-- Where the entries for an address have what is held, it is left as it is. -/
theorem lastFetched_self {fetched : List AddressUtxos} {utxos : List Utxo}
    (hall : ∀ f ∈ fetched, f.address = address → f.utxos = utxos) :
    lastFetched address fetched utxos = utxos := by
  induction fetched with
  | nil => rfl
  | cons f fetched ih =>
    obtain ⟨hf, hrest⟩ := List.forall_mem_cons.mp hall
    rw [lastFetched, List.foldl_cons]
    split
    · rename_i ha
      rw [hf ha]
      exact ih hrest
    · exact ih hrest

/-- If the entries for an address agree, one of them is what is left. -/
theorem lastFetched_eq {fetched : List AddressUtxos} {utxos : List Utxo} (held : List Utxo)
    (hall : ∀ f ∈ fetched, f.address = address → f.utxos = utxos)
    (hsome : ∃ f ∈ fetched, f.address = address) : lastFetched address fetched held = utxos := by
  induction fetched generalizing held with
  | nil => obtain ⟨f, hf, -⟩ := hsome; simp at hf
  | cons f fetched ih =>
    obtain ⟨hf, hrest⟩ := List.forall_mem_cons.mp hall
    rw [lastFetched, List.foldl_cons]
    by_cases ha : f.address = address
    · rw [if_pos ha, hf ha]
      exact lastFetched_self hrest
    · obtain ⟨x, hx, hxa⟩ := hsome
      rcases List.mem_cons.mp hx with rfl | hx
      · exact absurd hxa ha
      · exact ih _ hrest ⟨x, hx, hxa⟩

theorem find?_erase_self (view : BulkView) (address : String) :
    (view.erase address).find? address = none := by
  rw [find?, erase, Option.map_eq_none_iff]
  exact List.find?_eq_none.mpr fun e he => by simpa using (List.mem_filter.mp he).2

theorem find?_erase_ne {other : String} (h : address ≠ other) :
    (view.erase other).find? address = view.find? address := by
  obtain ⟨entries⟩ := view
  induction entries with
  | nil => rfl
  | cons e rest ih =>
    simp only [find?, erase, List.filter_cons, List.find?_cons] at *
    by_cases he : e.1 = other
    · have hea : e.1 ≠ address := fun h' => h (h'.symm.trans he)
      simpa [he, hea, Ne.symm h] using ih
    · by_cases hea : e.1 = address
      · simp [hea, h]
      · simpa [he, hea] using ih

end BulkView

theorem mem_activeAddresses {addresses : List String} {activity : List AddressActivity}
    {address : String} :
    address ∈ activeAddresses addresses activity ↔
      address ∈ addresses ∧ ∃ r ∈ activity, r.address = address ∧ r.hasActivity = true := by
  simp only [activeAddresses, List.mem_map, List.mem_filter, Bool.and_eq_true, decide_eq_true_eq]
  constructor
  · rintro ⟨r, ⟨hr, hactive, hmem⟩, rfl⟩
    exact ⟨hmem, r, hr, rfl, hactive⟩
  · rintro ⟨hmem, r, hr, rfl, hactive⟩
    exact ⟨r, ⟨hr, hactive, hmem⟩, rfl⟩

/-! ## Backends that tell what lookups tell -/

/-- A bulk call fails, or tells the state that lookups see: an address is active exactly when it
holds outputs, and a fetch has every address that it was asked for, with the outputs it holds. Other
calls have fixed answers. -/
def Truthful (answer : (c : Call) → c.Answer) : (c : Call) → c.Answer → Prop
  | .checkActivity addresses, r => ∀ activity, r = .ok activity → ∀ address ∈ addresses,
      (∃ x ∈ activity, x.address = address ∧ x.hasActivity = true) ↔ outputsAt answer address ≠ []
  | .fetchUtxos addresses, r => ∀ fetched, r = .ok fetched →
      (∀ f ∈ fetched, f.utxos = outputsAt answer f.address) ∧
        ∀ address ∈ addresses, ∃ f ∈ fetched, f.address = address
  | c, r => r = answer c

/-- The view holds for each of the addresses what its lookup gives. -/
def BulkView.Shows (answer : (c : Call) → c.Answer) (view : BulkView) (addresses : List String) :
    Prop :=
  ∀ address ∈ addresses, view.find? address =
    if (outputsAt answer address).isEmpty then none else some (outputsAt answer address)

section Truthful

variable {answer : (c : Call) → c.Answer} {looks : Bool → Prop} {log : List Call}

/-- What a truthful backend says in bulk is what the lookups say. -/
theorem bulkLookup_shows (addresses : List String) :
    Records (Truthful answer) looks log (bulkLookup addresses) fun r log' =>
      events log' = events log ∧ ∀ view, r = .ok view → view.Shows answer addresses := by
  refine .bind (.call (Q := fun r log' => events log' = events log ∧
    Truthful answer (.checkActivity addresses) r) fun r hr => ⟨events_append_asked rfl log, hr⟩)
    fun r log₁ ⟨hlog, hr⟩ => ?_
  cases r with
  | error e => exact .done ⟨hlog, by simp⟩
  | ok activity =>
    have hactive {address : String} (ha : address ∈ addresses) :
        address ∈ activeAddresses addresses activity ↔ outputsAt answer address ≠ [] := by
      rw [mem_activeAddresses, and_iff_right ha]
      exact hr activity rfl address ha
    by_cases hnone : (activeAddresses addresses activity).isEmpty
    · simp only [hnone, ↓reduceIte]
      refine .done ⟨hlog, ?_⟩
      rintro _ ⟨rfl⟩ address ha
      have hempty : outputsAt answer address = [] := by
        refine Decidable.byContradiction fun hne => ?_
        have hmem := (hactive ha).mpr hne
        rw [List.isEmpty_iff.mp hnone] at hmem
        simp at hmem
      simp [hempty]
    · simp only [hnone, Bool.false_eq_true, ↓reduceIte]
      refine .bind (.call (Q := fun r log' => events log' = events log ∧
        Truthful answer (.fetchUtxos (activeAddresses addresses activity)) r) fun r hr =>
          ⟨(events_append_asked rfl log₁).trans hlog, hr⟩) fun r log₂ ⟨hlog, hr⟩ => ?_
      cases r with
      | error e => exact .done ⟨hlog, by simp⟩
      | ok fetched =>
        refine .done ⟨hlog, ?_⟩
        obtain ⟨hutxos, hcomplete⟩ := hr fetched rfl
        rintro _ ⟨rfl⟩ address ha
        rw [BulkView.find?_foldl_update, BulkView.find?_ofActive]
        by_cases hne : outputsAt answer address = []
        · rw [if_neg (fun hmem => (hactive ha).mp hmem hne)]
          simp [hne]
        · have hmem := (hactive ha).mpr hne
          rw [if_pos hmem, Option.map_some, BulkView.lastFetched_eq _
            (fun f hf hfa => hfa ▸ hutxos f hf) (hcomplete address hmem)]
          simp [hne]

end Truthful

end FundRecovery.Discovery

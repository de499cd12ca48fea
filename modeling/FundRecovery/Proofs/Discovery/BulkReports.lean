import FundRecovery.Proofs.Discovery.GapRuns
import FundRecovery.Proofs.Discovery.WidenedScans

/-!
# What a bulk backend reports

A bulk backend may report addresses as active that hold nothing any more. The report of a batch
counts if neither of its two queries fails: otherwise its addresses are looked up one by one, and
what was reported is as good as nothing.

* `Reported`: the bulk queries about a batch with their answers, and the active addresses that they
  lead to. `Reports`: the batches of a range of indices.
* `Resets`: the address at an index holds outputs or was reported.
* `Offers`: what the scan of a batch can take out of a view is what the addresses hold, and which of
  them were reported. `bulkLookup_offers`, `takeOrLookup_offers`: so it is at every address.
-/

namespace FundRecovery.Discovery

variable {answer : (c : Call) → c.Answer} {t : Target}

/-! ## Bulk queries with their answers -/

def Call.isBulk : Call → Bool
  | .checkActivity _ => true
  | .fetchUtxos _ => true
  | _ => false

/-- The bulk queries among queries. -/
def inBulk (asked : List Answered) : List Answered := asked.filter (·.call.isBulk)

@[simp] theorem inBulk_append (asked asked' : List Answered) :
    inBulk (asked ++ asked') = inBulk asked ++ inBulk asked' := List.filter_append ..

@[simp] theorem inBulk_derivedAs (index : UInt32) (r : Except DerivationError DerivedAddress) :
    inBulk [t.derivedAs index r] = [] := by
  unfold Target.derivedAs
  split <;> rfl

/-- The bulk queries about `addresses` with their answers, and the addresses that they lead to as
active. There are none of these where a query fails. -/
inductive Reported (addresses : List String) : List String → List Answered → Prop where
  | unchecked {e : ChainError} : Reported addresses [] [⟨.checkActivity addresses, .ok (.error e)⟩]
  | idle {activity : List AddressActivity} (hnone : activeAddresses addresses activity = []) :
    Reported addresses [] [⟨.checkActivity addresses, .ok (.ok activity)⟩]
  | unfetched {activity : List AddressActivity} {e : ChainError}
    (hsome : activeAddresses addresses activity ≠ []) :
    Reported addresses [] [⟨.checkActivity addresses, .ok (.ok activity)⟩,
      ⟨.fetchUtxos (activeAddresses addresses activity), .ok (.error e)⟩]
  | fetched {activity : List AddressActivity} {fetched : List AddressUtxos}
    (hsome : activeAddresses addresses activity ≠ []) :
    Reported addresses (activeAddresses addresses activity)
      [⟨.checkActivity addresses, .ok (.ok activity)⟩,
        ⟨.fetchUtxos (activeAddresses addresses activity), .ok (.ok fetched)⟩]

theorem Reported.inBulk {addresses active : List String} {asked : List Answered}
    (h : Reported addresses active asked) : inBulk asked = asked := by
  cases h <;> rfl

/-- Only addresses that were asked for are reported. -/
theorem Reported.mem {addresses active : List String} {asked : List Answered}
    (h : Reported addresses active asked) {address : String} (ha : address ∈ active) :
    address ∈ addresses := by
  cases h with
  | unchecked => cases ha
  | idle => cases ha
  | unfetched => cases ha
  | fetched => exact (mem_activeAddresses.mp ha).1

/-- The addresses of the chain from index `i` on and below `n`. -/
def addressesIn (answer : (c : Call) → c.Answer) (t : Target) (i n : Nat) : List String :=
  (positionsIn answer t i n).map (·.derived.address)

theorem mem_addressesIn {i n : Nat} {address : String} :
    address ∈ addressesIn answer t i n ↔
      ∃ j d, i ≤ j ∧ j < n ∧ t.derived answer j = .ok d ∧ d.address = address := by
  rw [addressesIn, positionsIn, List.mem_map]
  constructor
  · rintro ⟨p, hp, rfl⟩
    obtain ⟨j, hj, hp⟩ := List.mem_filterMap.mp hp
    have hj := List.mem_range'_1.mp hj
    exact ⟨j, p.derived, hj.1, by omega, (derived_of_positionAt hp).2, rfl⟩
  · rintro ⟨j, d, hij, hjn, hd, rfl⟩
    have hp : positionAt answer t j = some ⟨UInt32.ofNat j, d⟩ := by rw [positionAt, hd]
    exact ⟨_, List.mem_filterMap.mpr ⟨j, List.mem_range'_1.mpr ⟨hij, by omega⟩, hp⟩, rfl⟩

/-- The index behind the batch that starts at `start`. -/
def behindBatch (start : Nat) : Nat := min (start + batchSize) indexSpace

/-- The bulk queries about the batches from index `start` on and below `stop` with their answers,
and the addresses that they lead to as active. -/
inductive Reports (answer : (c : Call) → c.Answer) (t : Target) :
    Nat → Nat → List String → List Answered → Prop where
  | nil (start : Nat) : Reports answer t start start [] []
  | cons {start stop : Nat} {active others : List String} {asked rest : List Answered}
    (hfirst : Reported (addressesIn answer t start (behindBatch start)) active asked)
    (hrest : Reports answer t (behindBatch start) stop others rest) :
    Reports answer t start stop (active ++ others) (asked ++ rest)

theorem Reports.derived {start stop : Nat} {active : List String} {asked : List Answered}
    (h : Reports answer t start stop active asked) (hstart : start ≤ indexSpace)
    {address : String} (ha : address ∈ active) :
    ∃ i d, start ≤ i ∧ i < indexSpace ∧ t.derived answer i = .ok d ∧ d.address = address := by
  induction h with
  | nil => cases ha
  | cons hfirst _ ih =>
    rcases List.mem_append.mp ha with ha | ha
    · obtain ⟨i, d, hi, hin, hd⟩ := mem_addressesIn.mp (hfirst.mem ha)
      exact ⟨i, d, hi, Nat.lt_of_lt_of_le hin (Nat.min_le_right ..), hd⟩
    · obtain ⟨i, d, hi, hd⟩ := ih (Nat.min_le_right ..) ha
      rw [behindBatch] at hi
      exact ⟨i, d, by omega, hd⟩

/-- The address at position `i` holds outputs or was reported active, which resets the gap. -/
def Resets (answer : (c : Call) → c.Answer) (t : Target) (active : List String) (i : Nat) : Prop :=
  ∃ d, t.derived answer i = .ok d ∧ (outputsAt answer d.address ≠ [] ∨ d.address ∈ active)

theorem resets_iff {i : Nat} {d : DerivedAddress} (hd : t.derived answer i = .ok d)
    {active : List String} :
    Resets answer t active i ↔ outputsAt answer d.address ≠ [] ∨ d.address ∈ active := by
  constructor
  · rintro ⟨d', hd', h⟩
    obtain rfl := Except.ok.inj (hd.symm.trans hd')
    exact h
  · exact fun h => ⟨d, hd, h⟩

theorem Resets.mono {active others : List String} (hsub : active ⊆ others) {i : Nat}
    (h : Resets answer t active i) : Resets answer t others i := by
  obtain ⟨d, hd, h⟩ := h
  exact ⟨d, hd, h.imp_right fun ha => hsub ha⟩

/-! ## Views -/

/-- What there is to take for each of the addresses: its outputs, and whether it was reported
active. Without a view nothing was reported. -/
inductive Offers (answer : (c : Call) → c.Answer) (addresses : List String) :
    List String → Option BulkView → Prop where
  | single : Offers answer addresses [] none
  | bulk {active : List String} {view : BulkView} (holds : view.Holds answer addresses)
    (tells : ∀ address ∈ addresses, (view.find? address).isSome = true ↔ address ∈ active) :
    Offers answer addresses active (some view)

theorem isSome_fetched {active : List String} {fetched : List AddressUtxos} {address : String} :
    ((fetched.foldl BulkView.update (.ofActive active)).find? address).isSome = true ↔
      address ∈ active := by
  rw [BulkView.find?_foldl_update, Option.isSome_map, BulkView.find?_ofActive]
  split <;> simp_all

/-- A bulk lookup leads to a view that tells what was reported, or to none. -/
theorem bulkLookup_offers (addresses : List String) :
    Consults (Attests answer) (bulkLookup addresses) fun r u => ∃ active,
      Reported addresses active u ∧ Offers answer addresses active r.toOption := by
  refine .bind (.call (Q := fun r u => u = [⟨.checkActivity addresses, .ok r⟩] ∧
    Attests answer (.checkActivity addresses) r) rfl fun r hr => ⟨rfl, hr⟩) ?_
  rintro (e | activity) _ ⟨rfl, hr⟩
  · exact .done ⟨[], .unchecked, .single⟩
  have hactive : ∀ address ∈ addresses, outputsAt answer address ≠ [] →
      address ∈ activeAddresses addresses activity := fun address ha hheld =>
    mem_activeAddresses.mpr ⟨ha, hr activity rfl address ha hheld⟩
  by_cases hnone : activeAddresses addresses activity = []
  · simp only [hnone, List.isEmpty_nil, ↓reduceIte]
    rw [hnone] at hactive
    have hholds : BulkView.empty.Holds answer addresses :=
      holds_fetched hactive (List.forall_mem_nil _) (List.forall_mem_nil _)
    exact .done ⟨[], .idle hnone, .bulk hholds fun address _ => by simp⟩
  · simp only [List.isEmpty_iff, hnone, ↓reduceIte]
    refine .bind (.call (Q := fun r u =>
      u = [⟨.fetchUtxos (activeAddresses addresses activity), .ok r⟩] ∧
        Attests answer (.fetchUtxos (activeAddresses addresses activity)) r) rfl
      fun r hr => ⟨rfl, hr⟩) ?_
    rintro (e | fetched) _ ⟨rfl, hr⟩
    · exact .done ⟨[], .unfetched hnone, .single⟩
    · obtain ⟨hutxos, hcomplete⟩ := hr fetched rfl
      exact .done ⟨_, .fetched hnone, .bulk (holds_fetched hactive hutxos hcomplete)
        fun _ _ => isSome_fetched⟩

/-- A lookup gives the outputs of an address, or none if it fails. -/
theorem lookupUtxos_lists (address : String) (scan : SchemeScan) :
    Consults (Attests answer) (lookupUtxos t address scan) fun utxos u =>
      inBulk u = [] ∧ utxos = outputsAt answer address := by
  refine (Consults.lookupUtxos address).mono ?_
  rintro _ _ ⟨r, hr, rfl, rfl⟩
  have hanswer : r = answer (.listUtxos address) := hr
  refine ⟨rfl, ?_⟩
  rw [outputsAt, hanswer]
  cases answer (.listUtxos address) <;> rfl

/-- The outputs of an address are taken as they are, and it counts as active if it has some or was
reported. Nothing changes for the other addresses. -/
theorem takeOrLookup_offers {address : String} {rest active : List String} {view : Option BulkView}
    (hr : Offers answer (address :: rest) active view) (hfresh : address ∉ rest)
    (scan : SchemeScan) :
    Consults (Attests answer) (takeOrLookup t view address scan) fun r u =>
      inBulk u = [] ∧ (r.1 = true ↔ outputsAt answer address ≠ [] ∨ address ∈ active) ∧
        r.2.1 = outputsAt answer address ∧ Offers answer rest active r.2.2 := by
  cases hr with
  | single =>
    refine .bind (lookupUtxos_lists address scan) ?_
    rintro _ u ⟨hu, rfl⟩
    exact .done ⟨by rw [inBulk_append, hu]; rfl, by simp, rfl, .single⟩
  | @bulk _ view hholds htells =>
    have hheld := hholds address List.mem_cons_self
    have htold := htells address List.mem_cons_self
    refine .done ⟨rfl, ?_, hheld, .bulk ?_ ?_⟩
    · -- What holds outputs was reported.
      have hreported : outputsAt answer address ≠ [] → address ∈ active := fun hne => by
        rw [← hheld] at hne
        refine htold.mp ?_
        cases hfind : view.find? address with
        | none => simp [hfind] at hne
        | some utxos => rfl
      exact htold.trans ⟨.inr, fun h => h.elim hreported id⟩
    · intro other hother
      rw [BulkView.find?_erase_ne fun h : other = address => hfresh (h ▸ hother)]
      exact hholds other (List.mem_cons_of_mem _ hother)
    · intro other hother
      rw [BulkView.find?_erase_ne fun h : other = address => hfresh (h ▸ hother)]
      exact htells other (List.mem_cons_of_mem _ hother)

end FundRecovery.Discovery

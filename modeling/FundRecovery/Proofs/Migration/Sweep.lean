import FundRecovery.Proofs.Migration.Holdings
import FundRecovery.Proofs.Migration.Plans
import FundRecovery.Proofs.Program.Ensures

/-!
# Carrying out a plan on the ledger it was made of

Execution and validation list the sources anew. On a ledger that holds what the plan recorded they
find what the plan promised, whatever keys, transactions and identifiers the other collaborators
come up with.

* `Succeeds A x Q`: with answers that `A` allows, `x` ends without an error and as `Q` says.
* `Serves`: answers of a ledger, of a client that accepts the destination, of a deriver that
  derives every key, and of a builder that never fails.
* `held`: the inputs of a source. `withoutRuns_held`: each source with inputs shows up once.
* `validate_succeeds`, `execute_succeeds`: the two programs on a plan that prices a ledger.
-/

namespace FundRecovery.Migration

variable {α β : Type} {A : (c : Call) → c.Answer → Prop} {utxos : String → List Utxo}

/-! ## Success -/

/-- With answers that `A` allows, the program ends in a value that meets `Q`, without an error. -/
def Succeeds (A : (c : Call) → c.Answer → Prop) (x : Migrate α) (Q : α → Prop) : Prop :=
  Program.Ensures (I := interface) A x.run fun r _ => ∃ a, r = .ok a ∧ Q a

namespace Succeeds

variable {x : Migrate α} {f : α → Migrate β} {Q : α → Prop} {R : β → Prop}

theorem pure {a : α} (h : Q a) : Succeeds A (Pure.pure a) Q := ⟨a, rfl, h⟩

theorem bind (hx : Succeeds A x Q) (hf : ∀ a, Q a → Succeeds A (f a) R) :
    Succeeds A (x >>= f) R := by
  refine Program.Ensures.bind hx ?_
  rintro _ t ⟨a, rfl, ha⟩
  exact (hf a ha).mono fun b u hb => hb

theorem mono (hx : Succeeds A x Q) {S : α → Prop} (hQ : ∀ a, Q a → S a) : Succeeds A x S := by
  refine Program.Ensures.mono hx ?_
  rintro _ t ⟨a, rfl, ha⟩
  exact ⟨a, rfl, hQ a ha⟩

/-- A call that is answered without a failure. -/
theorem orFail {ε : Type} {wrap : ε → MigrationError} {p : Program interface (Except ε α)}
    (hp : p.Ensures A fun r _ => ∃ a, r = .ok a ∧ Q a) : Succeeds A (orFail wrap p) Q := by
  refine Program.Ensures.bind hp ?_
  rintro _ t ⟨a, rfl, ha⟩
  exact ⟨a, rfl, ha⟩

end Succeeds

/-- Answers of a ledger that holds `utxos`, of a client that accepts `destination`, of a deriver
that derives every key, and of a builder that never fails. -/
def Serves (utxos : String → List Utxo) (destination : String) : (c : Call) → c.Answer → Prop
  | .validateAddress address, r => address = destination → ∃ v, r = .ok v ∧ v.isValid = true
  | .listUtxos address, r => r = .ok (utxos address)
  | .derivePrivateKey .., r => ∃ key, r = .ok key
  | .build .., r => ∃ tx, r = .ok tx
  | .sign .., r => ∃ tx, r = .ok tx
  | .broadcast _, r => ∃ txid, r = .ok txid

/-- Collaborators without a state that serve a ledger. -/
def server (utxos : String → List Utxo) : Handler interface Unit
  | .validateAddress _, s => (.ok (.ok ⟨true, none⟩), s)
  | .listUtxos address, s => (.ok (.ok (utxos address)), s)
  | .derivePrivateKey _ path, s => (.ok (.ok path.toUTF8.toList), s)
  | .build .., s => (.ok (.ok ⟨[]⟩), s)
  | .sign tx _ key _, s => (.ok (.ok ⟨tx.bytes ++ key⟩), s)
  | .broadcast tx, s => (.ok (.ok (Hex.encode tx.bytes)), s)

theorem answers_server (destination : String) :
    (server utxos).Answers (Serves utxos destination) := by
  intro c s
  cases c with
  | validateAddress address => exact ⟨_, rfl, fun _ => ⟨_, rfl, rfl⟩⟩
  | listUtxos address => exact ⟨_, rfl, rfl⟩
  | derivePrivateKey seed path => exact ⟨_, rfl, _, rfl⟩
  | build inputs target amount => exact ⟨_, rfl, _, rfl⟩
  | sign tx index key sigHash => exact ⟨_, rfl, _, rfl⟩
  | broadcast tx => exact ⟨_, rfl, _, rfl⟩

/-! ## Inputs -/

/-- The inputs that a ledger holds for a source. -/
def held (utxos : String → List Utxo) (source : MigrationSource) : List Input :=
  (utxos source.address).map (⟨source, ·⟩)

theorem map_utxo_held (source : MigrationSource) :
    (held utxos source).map (·.utxo) = utxos source.address :=
  Holding.map_utxo_inputs ⟨source, utxos source.address⟩

theorem totalAmount_held {sources : List MigrationSource} (h : ∀ s ∈ sources, s.Backed utxos) :
    totalAmount ((sources.flatMap (held utxos)).map (·.utxo)) = wordTotal (·.balance) sources := by
  have hheld : (sources.flatMap (held utxos)).map (·.utxo) =
      sources.flatMap fun s => utxos s.address := by
    simp only [List.map_flatMap, map_utxo_held]
  rw [hheld, totalAmount_flatMap]
  exact wordTotal_congr fun s hs => (h s hs).balance.symm

theorem length_held {sources : List MigrationSource} (h : ∀ s ∈ sources, s.Backed utxos) :
    (sources.flatMap (held utxos)).length = totalOf (·.utxoCount) sources := by
  induction sources with
  | nil => rfl
  | cons s rest ih =>
    obtain ⟨hs, hrest⟩ := List.forall_mem_cons.mp h
    rw [List.flatMap_cons, List.length_append, ih hrest, totalOf_cons, hs.count, held,
      List.length_map]

/-- Each source with inputs shows up once, in order. -/
theorem withoutRuns_held {sources : List MigrationSource} (h : ∀ s ∈ sources, s.Backed utxos)
    (hn : (sources.map (·.address)).Nodup) :
    withoutRuns ((sources.flatMap (held utxos)).map (·.source.address)) =
      sources.map (·.address) := by
  let holding (s : MigrationSource) : Holding := ⟨s, utxos s.address⟩
  have hall : ∀ f ∈ sources.map holding, decide (f.utxos ≠ []) = true := by
    intro f hf
    obtain ⟨s, hs, rfl⟩ := List.mem_map.mp hf
    exact decide_eq_true (h s hs).funded
  have hnodup : ((sources.map holding).map (·.source.address)).Nodup := by rwa [List.map_map]
  have hruns := withoutRuns_inputs hnodup
  rwa [List.filter_eq_self.mpr hall, List.flatMap_map, List.map_map] at hruns

/-! ## The programs -/

/-- The migration moved what the plan says, from where and to where it says. -/
structure Fulfils (plan : MigrationPlan) (r : MigrationResult) : Prop where
  fee : r.fee = plan.estimatedFee
  totalMigrated : r.totalMigrated = plan.netAmount
  inputCount : r.inputCount = plan.totalUtxos
  sourceAddresses : r.sourceAddresses = plan.sources.map (·.address)
  destination : r.destination = plan.destination

section Programs

variable {destination : String}

theorem listUtxos_succeeds (address : String) :
    Succeeds (Serves utxos destination) (listUtxos address) (· = utxos address) :=
  .orFail fun _ hr => ⟨utxos address, hr, rfl⟩

theorem derivePrivateKey_succeeds (seed : Seed) (path : String) :
    Succeeds (Serves utxos destination) (derivePrivateKey seed path) fun _ => True :=
  .orFail fun _ ⟨key, hr⟩ => ⟨key, hr, .intro⟩

theorem build_succeeds (inputs : List Utxo) (target : String) (amount : Nat) :
    Succeeds (Serves utxos destination) (build inputs target amount) fun _ => True :=
  .orFail fun _ ⟨tx, hr⟩ => ⟨tx, hr, .intro⟩

theorem sign_succeeds (tx : RawTransaction) (index : Nat) (key : List UInt8) (sigHash : SigHash) :
    Succeeds (Serves utxos destination) (sign tx index key sigHash) fun _ => True :=
  .orFail fun _ ⟨tx, hr⟩ => ⟨tx, hr, .intro⟩

theorem broadcast_succeeds (tx : RawTransaction) :
    Succeeds (Serves utxos destination) (broadcast tx) fun _ => True :=
  .orFail fun _ ⟨txid, hr⟩ => ⟨txid, hr, .intro⟩

/-- The destination is accepted. -/
theorem validateAddress_succeeds :
    Succeeds (Serves utxos destination) (validateAddress destination) (·.isValid = true) :=
  .orFail fun _ hr => hr rfl

theorem listSources_succeeds (sources : List MigrationSource) :
    Succeeds (Serves utxos destination) (listSources sources)
      (· = sources.flatMap (held utxos)) := by
  induction sources with
  | nil => exact .pure rfl
  | cons s rest ih =>
    refine .bind (listUtxos_succeeds s.address) ?_
    rintro _ rfl
    refine .bind ih ?_
    rintro _ rfl
    exact .pure rfl

/-- Keys, signatures and the transactions between them may be any. -/
theorem signInputs_succeeds (seed : Seed) (sigHash : SigHash) (inputs : List Input) (index : Nat)
    (tx : RawTransaction) :
    Succeeds (Serves utxos destination) (signInputs seed sigHash index tx inputs)
      fun _ => True := by
  induction inputs generalizing index tx with
  | nil => exact .pure .intro
  | cons input rest ih =>
    refine .bind (derivePrivateKey_succeeds seed input.source.path) fun key _ => ?_
    exact .bind (sign_succeeds tx index key sigHash) fun tx _ => ih (index + 1) tx

/-- Sums that fit in 64 bits do not saturate. -/
theorem liveTotal_succeeds {sources : List MigrationSource} (h : ∀ s ∈ sources, s.Backed utxos)
    (total : Nat) (hfits : total + totalOf (·.balance) sources ≤ maxAmount) :
    Succeeds (Serves utxos destination) (liveTotal total sources)
      (· = total + totalOf (·.balance) sources) := by
  induction sources generalizing total with
  | nil => exact .pure rfl
  | cons s rest ih =>
    obtain ⟨hs, hrest⟩ := List.forall_mem_cons.mp h
    rw [totalOf_cons] at hfits ⊢
    refine .bind (listUtxos_succeeds s.address) ?_
    rintro _ rfl
    have hbalance : totalAmount (utxos s.address) = s.balance := hs.balance.symm
    have hmin : min (total + s.balance) maxAmount = total + s.balance := by omega
    simp only [hbalance, ne_eq, not_true_eq_false, ↓reduceIte, hmin]
    exact (ih hrest _ (by omega)).mono fun a ha => by omega

variable {plan : MigrationPlan}

/-- **A plan is valid on the ledger that it prices.** -/
theorem validate_succeeds (h : plan.Prices utxos)
    (hfits : totalOf (·.balance) plan.sources ≤ maxAmount) :
    Succeeds (Serves utxos destination) (validate plan) fun _ => True := by
  have hsources : plan.sources.isEmpty = false := by simpa using h.sources_ne_nil
  have hdistinct : distinctSources plan = plan.sources := firstOccurrences_eq_self h.distinct
  simp only [validate, hsources, hdistinct, Bool.false_eq_true, ↓reduceIte]
  refine .bind (liveTotal_succeeds h.backed 0 (by omega)) fun live hlive => ?_
  have htotal : live = plan.totalInput := by
    rw [hlive, Nat.zero_add, h.totalInput, wordTotal_of_le hfits]
  rw [if_neg (not_not_intro htotal)]
  exact .pure .intro

/-- **Execution on the ledger that a plan prices moves what the plan says.** -/
theorem execute_succeeds (h : plan.Prices utxos)
    (hfits : totalOf (·.utxoCount) plan.sources ≤ maxAmount) {seed : Seed}
    (hseed : seed.isEmpty = false) (sigHash : SigHash) :
    Succeeds (Serves utxos plan.destination) (execute sigHash seed plan) (Fulfils plan) := by
  have hsources : plan.sources.isEmpty = false := by simpa using h.sources_ne_nil
  have hdistinct : distinctSources plan = plan.sources := firstOccurrences_eq_self h.distinct
  have htotal : totalAmount ((plan.sources.flatMap (held utxos)).map (·.utxo)) = plan.totalInput :=
    (totalAmount_held h.backed).trans h.totalInput.symm
  have hcount : (plan.sources.flatMap (held utxos)).length = plan.totalUtxos :=
    (length_held h.backed).trans (h.totalUtxos.trans (wordTotal_of_le hfits)).symm
  have haddresses := withoutRuns_held h.backed h.distinct
  have hless := h.worthwhile
  simp only [execute_eq, hsources, hseed, h.destination, hdistinct, Bool.false_eq_true, ↓reduceIte]
  refine .bind validateAddress_succeeds fun v hv => ?_
  simp only [hv, Bool.not_true, Bool.false_eq_true, ↓reduceIte]
  refine .bind (listSources_succeeds plan.sources) ?_
  rintro _ rfl
  have hinputs : (plan.sources.flatMap (held utxos)).isEmpty = false := by
    rw [List.isEmpty_eq_false_iff]
    intro hnil
    rw [hnil, List.map_nil, totalAmount_nil] at htotal
    omega
  have hworth : ¬ plan.totalInput ≤ consolidationFee plan.totalUtxos plan.feeRate := by
    rw [← h.estimatedFee]
    omega
  simp only [hinputs, htotal, hcount, hworth, Bool.false_eq_true, ↓reduceIte]
  refine .bind (build_succeeds _ _ _) fun tx _ => ?_
  refine .bind (signInputs_succeeds seed sigHash _ 0 tx) fun tx _ => ?_
  refine .bind (broadcast_succeeds tx) fun txid _ => .pure ?_
  exact {
    fee := h.estimatedFee.symm
    totalMigrated := by rw [h.netAmount, h.estimatedFee]
    inputCount := rfl
    sourceAddresses := haddresses
    destination := rfl }

end Programs

end FundRecovery.Migration

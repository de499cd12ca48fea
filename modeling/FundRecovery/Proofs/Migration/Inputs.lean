import FundRecovery.Migration.Execution

/-!
# Inputs with their sources

An execution keeps the outputs that it spends in one list and the positions of their sources in
another, and looks the positions up in the plan when it signs and when it reports. Here each output
stands beside its source itself, and the sources are those that a validation visits.

* `Inputs.paired`: the two lists as one. `paired_listPositions`: listing by position is listing the
  distinct sources of the plan.
* `signInputs_paired`, `withoutRuns_paired`: looking positions up is reading the sources.
* `execute_eq`: the execution, told with outputs beside their sources.
-/

namespace FundRecovery.Migration

variable {plan : MigrationPlan}

/-- An output to spend, with the source it was listed for. -/
structure Input where
  source : MigrationSource
  utxo : Utxo
  deriving DecidableEq, Repr

/-! ## Listing -/

/-- The outputs that sources hold now, listed one source after the other. -/
def listSources : List MigrationSource → Migrate (List Input)
  | [] => return []
  | source :: rest => do
    let utxos ← listUtxos source.address
    let inputs ← listSources rest
    return utxos.map (⟨source, ·⟩) ++ inputs

namespace Inputs

/-- Each output beside the source at its position. -/
def paired (inputs : Inputs plan) : List Input :=
  (inputs.positions.zip inputs.utxos).map fun x => ⟨plan.sources.get x.1, x.2⟩

theorem map_utxo_paired (inputs : Inputs plan) : inputs.paired.map (·.utxo) = inputs.utxos := by
  rw [paired, List.map_map]
  exact List.map_snd_zip (Nat.le_of_eq inputs.length_positions.symm)

theorem length_paired (inputs : Inputs plan) : inputs.paired.length = inputs.utxos.length := by
  rw [← map_utxo_paired, List.length_map]

theorem isEmpty_paired (inputs : Inputs plan) : inputs.paired.isEmpty = inputs.utxos.isEmpty := by
  rw [← map_utxo_paired, List.isEmpty_map]

theorem map_source_paired (inputs : Inputs plan) :
    inputs.paired.map (·.source) = inputs.positions.map plan.sources.get := by
  have hpositions : (inputs.positions.zip inputs.utxos).map (·.1) = inputs.positions :=
    List.map_fst_zip (Nat.le_of_eq inputs.length_positions)
  calc inputs.paired.map (·.source)
      = ((inputs.positions.zip inputs.utxos).map (·.1)).map plan.sources.get := by
        rw [paired, List.map_map, List.map_map]
        rfl
    _ = inputs.positions.map plan.sources.get := by rw [hpositions]

theorem paired_add (inputs : Inputs plan) (position : Fin plan.sources.length)
    (utxos : List Utxo) :
    (inputs.add position utxos).paired =
      inputs.paired ++ utxos.map (⟨plan.sources.get position, ·⟩) := by
  have hzip : (List.replicate utxos.length position).zip utxos = utxos.map (position, ·) := by
    induction utxos with
    | nil => rfl
    | cons utxo rest ih => exact congrArg ((position, utxo) :: ·) ih
  rw [paired, add, List.zip_append inputs.length_positions, List.map_append, hzip, List.map_map]
  rfl

end Inputs

/-- **Listing by position is listing the sources.** -/
theorem paired_listPositions (listed : List String) (inputs : Inputs plan)
    (positions : List (Fin plan.sources.length)) :
    Inputs.paired <$> listPositions plan listed inputs positions =
      (inputs.paired ++ ·) <$> listSources
        (firstOccurrencesFrom (·.address) listed (positions.map plan.sources.get)) := by
  induction positions generalizing listed inputs with
  | nil => simp [listPositions, listSources, firstOccurrencesFrom]
  | cons position rest ih =>
    rw [List.map_cons, firstOccurrencesFrom, listPositions]
    split
    case isTrue h => exact ih listed inputs
    case isFalse h =>
      rw [listSources, map_bind, map_bind]
      refine bind_congr fun utxos => ?_
      rw [ih, Inputs.paired_add, map_bind, map_eq_pure_bind]
      simp only [map_pure, List.append_assoc]

/-! ## Looking positions up -/

/-- Signs inputs in order, the first of them number `index`. -/
def signInputs (seed : Seed) (sigHash : SigHash) (index : Nat) (tx : RawTransaction) :
    List Input → Migrate RawTransaction
  | [] => return tx
  | input :: rest => do
    let key ← derivePrivateKey seed input.source.path
    let tx ← sign tx index key sigHash
    signInputs seed sigHash (index + 1) tx rest

theorem signInputs_paired (seed : Seed) (sigHash : SigHash) (tx : RawTransaction)
    (inputs : Inputs plan) :
    signInputs seed sigHash 0 tx inputs.paired =
      signPositions seed sigHash plan 0 tx inputs.positions := by
  have hsign (index : Nat) (tx : RawTransaction) (positions : List (Fin plan.sources.length))
      (paired : List Input) (h : paired.map (·.source) = positions.map plan.sources.get) :
      signInputs seed sigHash index tx paired =
        signPositions seed sigHash plan index tx positions := by
    induction positions generalizing index tx paired with
    | nil =>
      obtain rfl : paired = [] := List.map_eq_nil_iff.mp h
      rfl
    | cons position rest ih =>
      obtain ⟨input, others, rfl, hsource, hrest⟩ := List.map_eq_cons_iff.mp h
      simp only [signPositions, signInputs, ih _ _ _ hrest, ← hsource]
  exact hsign 0 tx inputs.positions inputs.paired inputs.map_source_paired

/-- The items without those that equal the one before them. -/
def withoutRuns {α : Type} [DecidableEq α] : List α → List α
  | [] => []
  | [a] => [a]
  | a :: b :: rest => if a = b then withoutRuns (b :: rest) else a :: withoutRuns (b :: rest)

theorem foldl_unlessLast {α : Type} [DecidableEq α] (before : List α) (a : α) (items : List α) :
    items.foldl (fun done b => if done.getLast? = some b then done else done ++ [b])
      (before ++ [a]) = before ++ withoutRuns (a :: items) := by
  induction items generalizing before a with
  | nil => rfl
  | cons b rest ih =>
    rw [List.foldl_cons, List.getLast?_concat, withoutRuns]
    by_cases h : a = b
    · rw [if_pos (congrArg some h), if_pos h, ih, h]
    · rw [if_neg (mt Option.some.inj h), if_neg h, ih, List.append_assoc]
      rfl

theorem withoutRuns_paired (inputs : Inputs plan) :
    withoutRuns (inputs.paired.map (·.source.address)) = addressesAt plan inputs.positions := by
  have haddresses : inputs.paired.map (·.source.address) =
      inputs.positions.map fun position => (plan.sources.get position).address := by
    have hmap := congrArg (List.map (·.address)) inputs.map_source_paired
    rwa [List.map_map, List.map_map] at hmap
  have hfold : addressesAt plan inputs.positions =
      (inputs.positions.map fun position => (plan.sources.get position).address).foldl
        (fun done b => if done.getLast? = some b then done else done ++ [b]) [] := by
    rw [List.foldl_map]
    rfl
  rw [hfold, haddresses]
  cases inputs.positions.map fun position => (plan.sources.get position).address with
  | nil => rfl
  | cons a rest => exact (foldl_unlessLast [] a rest).symm

/-! ## The execution -/

/-- **The execution, with each output beside its source.** -/
theorem execute_eq (sigHash : SigHash) (seed : Seed) (plan : MigrationPlan) :
    execute sigHash seed plan = (do
      if plan.sources.isEmpty then throw .emptyPlan
      if seed.isEmpty then throw .emptySeed
      if Text.allBlank plan.destination then throw .emptyDestination
      let validation ← validateAddress plan.destination
      if !validation.isValid then
        throw (.invalidDestination (validation.reason.getD plan.destination))
      let inputs ← listSources (distinctSources plan)
      if inputs.isEmpty then throw .noInputs
      let utxos := inputs.map (·.utxo)
      let total := totalAmount utxos
      let fee := consolidationFee inputs.length plan.feeRate
      if total ≤ fee then throw (.dust fee total)
      let tx ← build utxos plan.destination (total - fee)
      let tx ← signInputs seed sigHash 0 tx inputs
      let txid ← broadcast tx
      return {
        txid
        totalMigrated := total - fee
        fee
        inputCount := inputs.length
        sourceAddresses := withoutRuns (inputs.map (·.source.address))
        destination := plan.destination }) := by
  have hsources : (List.finRange plan.sources.length).map plan.sources.get = plan.sources := by
    rw [List.finRange, List.map_ofFn]
    exact List.ofFn_getElem
  have hlisting : Inputs.paired <$>
      listPositions plan [] (.none plan) (List.finRange plan.sources.length) =
        listSources (distinctSources plan) := by
    rw [paired_listPositions, hsources]
    exact id_map _
  simp only [execute, ← hlisting, bind_map_left, Inputs.isEmpty_paired, Inputs.length_paired,
    Inputs.map_utxo_paired, signInputs_paired, withoutRuns_paired]

end FundRecovery.Migration

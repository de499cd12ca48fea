import FundRecovery.Proofs.Migration.Inputs

/-!
# What was listed for a source

* `Holding`: a source with the outputs that the client listed for it.
* `withoutRuns_inputs`: the inputs of holdings name each source that holds anything once, in order.
-/

namespace FundRecovery.Migration

/-- A source with what the client listed for it. -/
structure Holding where
  source : MigrationSource
  utxos : List Utxo
  deriving DecidableEq, Repr

namespace Holding

def inputs (h : Holding) : List Input := h.utxos.map (⟨h.source, ·⟩)

theorem map_utxo_inputs (h : Holding) : h.inputs.map (·.utxo) = h.utxos := by
  rw [inputs, List.map_map]
  exact List.map_id _

theorem map_address_inputs (h : Holding) :
    h.inputs.map (·.source.address) = List.replicate h.utxos.length h.source.address := by
  simp only [inputs, List.map_map, Function.comp_def, List.map_const']

end Holding

/-- The inputs of holdings spend what was listed. -/
theorem map_utxo_inputs (found : List Holding) :
    (found.flatMap Holding.inputs).map (·.utxo) = found.flatMap (·.utxos) := by
  simp only [List.map_flatMap, Holding.map_utxo_inputs]

/-- A run of one item before others becomes that item. -/
theorem withoutRuns_replicate_append {α : Type} [DecidableEq α] (n : Nat) (a : α) {rest : List α}
    (h : rest.head? ≠ some a) :
    withoutRuns (List.replicate (n + 1) a ++ rest) = a :: withoutRuns rest := by
  induction n with
  | zero =>
    cases rest with
    | nil => rfl
    | cons b rest =>
      have hne : a ≠ b := by
        rintro rfl
        exact h rfl
      exact if_neg hne
  | succ n ih => exact (if_pos rfl).trans ih

/-- Each source that holds anything shows up once, in order. -/
theorem withoutRuns_inputs {found : List Holding}
    (hn : (found.map (·.source.address)).Nodup) :
    withoutRuns ((found.flatMap Holding.inputs).map (·.source.address)) =
      (found.filter (·.utxos ≠ [])).map (·.source.address) := by
  induction found with
  | nil => rfl
  | cons h rest ih =>
    obtain ⟨hnew, hn⟩ := List.nodup_cons.mp hn
    rw [List.flatMap_cons, List.map_append, h.map_address_inputs]
    cases hlen : h.utxos.length with
    | zero =>
      have hnone : h.utxos = [] := List.eq_nil_of_length_eq_zero hlen
      simpa [hnone] using ih hn
    | succ n =>
      have hsome : h.utxos ≠ [] := by
        rintro hnone
        simp [hnone] at hlen
      rw [withoutRuns_replicate_append, ih hn, List.filter_cons_of_pos (by simpa using hsome),
        List.map_cons]
      -- The inputs that follow belong to other addresses.
      intro hhead
      obtain ⟨input, hinput, he⟩ := List.mem_map.mp (List.mem_of_head? hhead)
      obtain ⟨other, hother, hheld⟩ := List.mem_flatMap.mp hinput
      obtain ⟨u, -, rfl⟩ := List.mem_map.mp hheld
      exact hnew (List.mem_map.mpr ⟨other, hother, he⟩)

end FundRecovery.Migration

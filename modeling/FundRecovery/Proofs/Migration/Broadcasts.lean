import FundRecovery.Proofs.Migration.Courses
import FundRecovery.Proofs.Migration.Sweep
import Mathlib.Data.List.Basic

/-!
# One broadcast, or none

The exits of an execution lie after every listing, key and signature, and the transaction passes
from signature to signature. Wherever a run ends and whatever its collaborators do, nothing is
broadcast before every input is signed, and nothing happens after a broadcast.

* `broadcasts`, `signatures`: what a record holds of both.
* `Authorized before tx`: what was built is signed throughout, and `tx` is the last signature.
* `Signing.broadcasts_cases`, `execute_broadcasts_cases`: no broadcast and no value, or one
  authorized broadcast at the end.
* `Guarded`, `execute_guarded`: the execution as a whole.
* `refusing`: collaborators that refuse one signature.
-/

namespace FundRecovery.Migration

/-! ## Views of a record -/

instance : ∀ c : Call, DecidableEq c.Answer
  | .validateAddress _ => inferInstanceAs (DecidableEq (Except ChainError AddressValidation))
  | .listUtxos _ => inferInstanceAs (DecidableEq (Except ChainError (List Utxo)))
  | .derivePrivateKey .. => inferInstanceAs (DecidableEq (Except DerivationError (List UInt8)))
  | .build .. => inferInstanceAs (DecidableEq (Except TxError RawTransaction))
  | .sign .. => inferInstanceAs (DecidableEq (Except TxError RawTransaction))
  | .broadcast _ => inferInstanceAs (DecidableEq (Except TxError String))

instance : DecidableEq (Exchange interface)
  | ⟨q, r⟩, ⟨q', r'⟩ =>
    match q', decEq q q', r' with
    | _, isTrue rfl, r' => decidable_of_iff (r = r') (by simp)
    | _, isFalse h, _ => isFalse (by simp [h])

/-- The transaction that an exchange broadcasts. -/
def broadcast? : Exchange interface → Option RawTransaction
  | ⟨.broadcast tx, _⟩ => some tx
  | _ => none

/-- The index that an exchange signs, with the transaction that comes back. -/
def signature? : Exchange interface → Option (Nat × RawTransaction)
  | ⟨.sign _ index _ _, .ok (.ok tx)⟩ => some (index, tx)
  | _ => none

/-- The transactions that were broadcast, also where that failed. -/
def broadcasts (t : Record) : List RawTransaction := t.filterMap broadcast?

/-- The inputs that were signed, with what each signature gave. -/
def signatures (t : Record) : List (Nat × RawTransaction) := t.filterMap signature?

@[simp] theorem broadcasts_append (u v : Record) :
    broadcasts (u ++ v) = broadcasts u ++ broadcasts v := List.filterMap_append

@[simp] theorem signatures_append (u v : Record) :
    signatures (u ++ v) = signatures u ++ signatures v := List.filterMap_append

theorem OnlyQueries.broadcasts_eq_nil {t : Record} (h : OnlyQueries t) : broadcasts t = [] := by
  refine List.filterMap_eq_nil_iff.mpr fun x hx => ?_
  have hq := h x hx
  rcases x with ⟨q, answer⟩
  cases q <;> first | rfl | exact hq.elim

theorem OnlyQueries.signatures_eq_nil {t : Record} (h : OnlyQueries t) : signatures t = [] := by
  refine List.filterMap_eq_nil_iff.mpr fun x hx => ?_
  have hq := h x hx
  rcases x with ⟨q, answer⟩
  cases q <;> first | rfl | exact hq.elim

theorem onlyQueries_preparation (plan : MigrationPlan) (validation : AddressValidation)
    (found : List Holding) : OnlyQueries (preparation plan validation found) :=
  List.forall_mem_cons.mpr ⟨.intro, onlyQueries_listings found⟩

theorem not_mem_of_broadcasts_eq_nil {t : Record} {tx : RawTransaction}
    {answer : Except Crash (Except TxError String)} (h : broadcasts t = []) :
    ⟨.broadcast tx, answer⟩ ∉ t := by
  intro hmem
  have hnone := List.filterMap_eq_nil_iff.mp h _ hmem
  cases hnone

/-! ## From signing to the broadcast -/

/-- Signing ends before the broadcast, without a value, or it ends with the broadcast of the last
signature, after each input is signed once. -/
theorem Signing.broadcasts_cases {seed : Seed} {sigHash : SigHash} {index : Nat}
    {tx : RawTransaction} {inputs : List Input} {t : Record} {sent : Ending String}
    (h : Signing seed sigHash index tx inputs t sent) :
    (broadcasts t = [] ∧ ∃ e : Halt, sent = e.ending) ∨
    ∃ signing last answer, t = signing ++ [⟨.broadcast last, answer⟩] ∧
      sent = answered .transaction answer ∧ broadcasts signing = [] ∧
      (signatures signing).map (·.1) = List.range' index inputs.length ∧
      ((signatures signing).map (·.2)).getLast?.getD tx = last := by
  induction h with
  | broadcast answer => exact .inr ⟨[], _, answer, rfl, rfl, rfl, rfl, rfl⟩
  | keyless answer he => exact .inl ⟨rfl, _, rfl⟩
  | unsigned key answer he => exact .inl ⟨rfl, _, rfl⟩
  | @signed index tx input rest t sent key tx' _ ih =>
    obtain ⟨hnone, e, rfl⟩ | ⟨signing, last, answer, rfl, rfl, hnone, hindex, hlast⟩ := ih
    · exact .inl ⟨hnone, e, rfl⟩
    have hsigned : signatures (⟨.derivePrivateKey seed input.source.path, .ok (.ok key)⟩ ::
        ⟨.sign tx index key sigHash, .ok (.ok tx')⟩ :: signing) =
          (index, tx') :: signatures signing := rfl
    refine .inr ⟨_ :: _ :: signing, last, answer, rfl, rfl, hnone, ?_, ?_⟩
    · rw [hsigned, List.map_cons, hindex, List.length_cons, List.range'_succ]
    · rw [hsigned, List.map_cons, List.getLast?_cons, Option.getD_some, hlast]

/-- The errors of what precedes the transaction: of the plan and the seed, of the client, of what it
listed. -/
def Early : MigrationError → Prop
  | .derivation _ | .transaction _ => False
  | _ => True

theorem not_early_of_answered {α ε : Type} {wrap : ε → MigrationError} {e : MigrationError}
    {answer : Except Crash (Except ε α)} (hwrap : ∀ x, ¬ Early (wrap x))
    (h : answered wrap answer = (Halt.error e).ending) : ¬ Early e := by
  rcases answer with c | x | a <;> cases h
  exact hwrap x

/-- Signing and broadcasting reports errors of the deriver and of the builder alone. -/
theorem Signing.not_early {seed : Seed} {sigHash : SigHash} {index : Nat} {tx : RawTransaction}
    {inputs : List Input} {t : Record} {sent : Ending String} {e : MigrationError}
    (h : Signing seed sigHash index tx inputs t sent) (he : sent = (Halt.error e).ending) :
    ¬ Early e := by
  induction h with
  | broadcast answer => exact not_early_of_answered (fun _ => id) he
  | keyless answer ha =>
    obtain rfl := Halt.ending_injective he
    exact not_early_of_answered (fun _ => id) ha
  | unsigned key answer ha =>
    obtain rfl := Halt.ending_injective he
    exact not_early_of_answered (fun _ => id) ha
  | signed key tx' _ ih => exact ih he

/-- A transaction was built, each of its inputs was signed once, in order and with success, and
`tx` is what the last signature gave. -/
def Authorized (before : Record) (tx : RawTransaction) : Prop :=
  ∃ listed inputs destination amount unsigned signing,
    before = listed ++ ⟨.build inputs destination amount, .ok (.ok unsigned)⟩ :: signing ∧
    (signatures before).map (·.1) = List.range inputs.length ∧
    ((signatures before).map (·.2)).getLast? = some tx

/-- Nothing is broadcast and there is no result, or the last exchange is the only broadcast, it is
authorized, and its answer is the end. -/
theorem execute_broadcasts_cases {sigHash : SigHash} {seed : Seed} {plan : MigrationPlan}
    {t : Record} {r : Ending MigrationResult} (h : Course (execute sigHash seed plan) t r) :
    (broadcasts t = [] ∧ ∃ e : Halt, r = e.ending) ∨
    ∃ before tx answer found, t = before ++ [⟨.broadcast tx, answer⟩] ∧ broadcasts before = [] ∧
      Authorized before tx ∧
      r = (answered .transaction answer).map (·.map (resultOf plan found)) := by
  obtain ⟨e, rfl, hq⟩ | ⟨validation, found, answer, after, -, hprepared, rfl, hthen⟩ :=
    course_execute h
  · exact .inl ⟨hq.broadcasts_eq_nil, e, rfl⟩
  have hquery := onlyQueries_preparation plan validation found
  obtain ⟨e, -, rfl, rfl⟩ | ⟨tx, sent, rfl, hsigning, rfl⟩ := hthen
  · exact .inl ⟨by rw [broadcasts_append, hquery.broadcasts_eq_nil]; rfl, e, rfl⟩
  obtain ⟨hnone, e, rfl⟩ | ⟨signing, last, answer, rfl, rfl, hnone, hindex, hlast⟩ :=
    hsigning.broadcasts_cases
  · exact .inl ⟨by rw [broadcasts_append, hquery.broadcasts_eq_nil]; exact hnone, e,
      by cases e <;> rfl⟩
  refine .inr ⟨preparation plan validation found ++ _ :: signing, last, answer, found,
    by rw [List.append_assoc, List.cons_append], ?_, ?_, rfl⟩
  · rw [broadcasts_append, hquery.broadcasts_eq_nil]
    exact hnone
  refine ⟨_, _, _, _, tx, signing, rfl, ?_⟩
  have hsigned : signatures (preparation plan validation found ++
      ⟨.build (found.flatMap (·.utxos)) plan.destination
        (totalAmount (found.flatMap (·.utxos)) -
          consolidationFee (found.flatMap Holding.inputs).length plan.feeRate),
        .ok (.ok tx)⟩ :: signing) = signatures signing := by
    rw [signatures_append, hquery.signatures_eq_nil]
    rfl
  rw [hsigned]
  refine ⟨by rw [hindex, ← map_utxo_inputs, List.length_map, List.range_eq_range'], ?_⟩
  cases hsome : ((signatures signing).map (·.2)).getLast? with
  | some tx' => rw [← hlast, hsome, Option.getD_some]
  | none =>
    have hnil : signatures signing = [] := by simpa using hsome
    rw [hnil, List.map_nil, eq_comm, List.range'_eq_nil_iff, List.length_eq_zero_iff] at hindex
    exact absurd hindex hprepared.held

/-- How a run that ends as `r` keeps to one broadcast or none. -/
structure Guarded (plan : MigrationPlan) (seed : Seed) (log : Record) (r : Ending MigrationResult) :
    Prop where
  once : (broadcasts log).length ≤ 1
  /-- What comes before a broadcast authorizes it. Nothing comes after. -/
  authorized : ∀ before tx answer after, log = before ++ ⟨.broadcast tx, answer⟩ :: after →
    Authorized before tx ∧ after = []
  /-- A run without a result broadcast nothing, or what it reports is the broadcast's answer. -/
  failed : ∀ e : Halt, r = e.ending → ∀ tx answer, ⟨.broadcast tx, answer⟩ ∈ log →
    answered .transaction answer = (e.ending : Ending String)
  /-- Where anything but a query occurs, all that precedes the transaction succeeded before. -/
  prepared : OnlyQueries log ∨ ∃ validation found after, validation.isValid = true ∧
    Prepared plan seed found ∧ log = preparation plan validation found ++ after
  /-- After an early error neither the deriver nor the builder has been called. -/
  early : ∀ e : MigrationError, r = (Halt.error e).ending → Early e → OnlyQueries log
  /-- A result comes with one broadcast, of the last signature. -/
  delivered : ∀ result, r = .ok (.ok result) → ∃ before tx,
    log = before ++ [⟨.broadcast tx, .ok (.ok result.txid)⟩] ∧ broadcasts log = [tx] ∧
      ((signatures log).map (·.2)).getLast? = some tx

theorem ending_of_map {α β : Type} {f : α → β} {x : Ending α} {e : Halt}
    (h : x.map (·.map f) = e.ending) : x = e.ending := by
  rcases x with c | e' | a <;> cases e <;> cases h <;> rfl

/-- The part of an execution that precedes the transaction. -/
theorem execute_early_cases {sigHash : SigHash} {seed : Seed} {plan : MigrationPlan}
    {t : Record} {r : Ending MigrationResult} (h : Course (execute sigHash seed plan) t r) :
    OnlyQueries t ∨ (∀ e, r = (Halt.error e).ending → ¬ Early e) ∧
      ∃ validation found after, validation.isValid = true ∧ Prepared plan seed found ∧
        t = preparation plan validation found ++ after := by
  obtain ⟨e, -, hq⟩ | ⟨validation, found, answer, after, hvalid, hprepared, rfl, hthen⟩ :=
    course_execute h
  · exact .inl hq
  refine .inr ⟨?_, validation, found, _, hvalid, hprepared, rfl⟩
  rintro e rfl
  obtain ⟨e', ha, -, he⟩ | ⟨tx, sent, -, hsigning, hsent⟩ := hthen
  · obtain rfl := Halt.ending_injective he
    exact not_early_of_answered (fun _ => id) ha
  · exact hsigning.not_early (ending_of_map hsent.symm)

/-- **An execution never broadcasts partially.** Whatever the plan, and however the client, the
deriver and the builder behave from state to state, fail or crash. -/
theorem execute_guarded {σ : Type} (h : Handler interface σ) (s : σ) (sigHash : SigHash)
    (seed : Seed) (plan : MigrationPlan) :
    let run := Program.recorded h (execute sigHash seed plan).run s
    Guarded plan seed run.2 run.1 := by
  intro run
  have hcourse : Course (execute sigHash seed plan) run.2 run.1 := Program.exchanges_recorded h _ s
  have hearly := execute_early_cases hcourse
  generalize run.2 = log at hcourse hearly ⊢
  generalize run.1 = r at hcourse hearly ⊢
  have hprepared := hearly.imp_right And.right
  have hqueries (e) (he : r = (Halt.error e).ending) (hlate : Early e) : OnlyQueries log :=
    hearly.resolve_right fun hr => hr.1 e he hlate
  obtain ⟨hnone, e, rfl⟩ | ⟨before, tx, answer, found, rfl, hnone, hauth, rfl⟩ :=
    execute_broadcasts_cases hcourse
  · have habsent {tx answer} : ⟨.broadcast tx, answer⟩ ∉ log := not_mem_of_broadcasts_eq_nil hnone
    constructor
    case once => simp [hnone]
    case authorized =>
      rintro before tx answer after rfl
      exact absurd List.mem_append_cons_self habsent
    case failed => exact fun _ _ tx answer hmem => absurd hmem habsent
    case prepared => exact hprepared
    case early => exact hqueries
    case delivered => exact fun result he => absurd he (e.ending_ne_ok result)
  · have hall : broadcasts (before ++ [⟨.broadcast tx, answer⟩]) = [tx] := by
      rw [broadcasts_append, hnone]
      rfl
    have habsent {tx answer} : ⟨.broadcast tx, answer⟩ ∉ before :=
      not_mem_of_broadcasts_eq_nil hnone
    constructor
    case once => simp [hall]
    case authorized =>
      intro before' tx' answer' after he
      obtain ⟨rfl, hlast, rfl⟩ :=
        (List.append_cons_inj_of_notMem habsent List.not_mem_nil).mp he
      cases hlast
      exact ⟨hauth, rfl⟩
    case failed =>
      intro e he tx' answer' hmem
      cases List.mem_singleton.mp ((List.mem_append.mp hmem).resolve_left habsent)
      exact ending_of_map he
    case prepared => exact hprepared
    case early => exact hqueries
    case delivered =>
      intro result he
      obtain ⟨_, _, _, _, unsigned, signing, -, -, hsigned⟩ := hauth
      rcases answer with c | e | txid <;> cases he
      refine ⟨before, tx, rfl, hall, ?_⟩
      rw [signatures_append, ← hsigned]
      exact congrArg _ (congrArg _ (List.append_nil _))

/-- Collaborators that serve a ledger, but for the signature of input number `last`. -/
def refusing (utxos : String → List Utxo) (last : Nat) : Handler interface Unit
  | .sign tx index key sigHash, s =>
    if index = last then (.ok (.error (.sign index "refused")), s)
    else server utxos (.sign tx index key sigHash) s
  | c, s => server utxos c s

/-- Two inputs of one source: both are signed, and the second signature is broadcast. Where it is
refused, the first is all that was signed, and nothing is broadcast. -/
theorem execute_guarded_two_inputs :
    ∃ (utxos : String → List Utxo) (plan : MigrationPlan) (result : MigrationResult)
      (unsigned first second : RawTransaction),
      let run := Program.recorded (server utxos) (execute .all ⟨[7]⟩ plan).run ()
      let refused := Program.recorded (refusing utxos 1) (execute .all ⟨[7]⟩ plan).run ()
      Guarded plan ⟨[7]⟩ run.2 run.1 ∧ run.1 = .ok (.ok result) ∧
        signatures run.2 = [(0, first), (1, second)] ∧ broadcasts run.2 = [second] ∧
      Guarded plan ⟨[7]⟩ refused.2 refused.1 ∧
        refused.1 = .ok (.error (.transaction (.sign 1 "refused"))) ∧
        signatures refused.2 = [(0, first)] ∧ broadcasts refused.2 = [] ∧
      [unsigned, first, second].Nodup := by
  let utxos : String → List Utxo := fun _ => [⟨"t", 0, 5000, "a", 1⟩, ⟨"u", 1, 300, "a", 1⟩]
  let plan : MigrationPlan := {
    sources := [⟨"a", "m/0", 5300, 2⟩], destination := "destination", totalInput := 5300
    estimatedFee := 340, netAmount := 4960, feeRate := ⟨1000⟩, estimatedSize := 340
    totalUtxos := 2, warning := none }
  let result : MigrationResult := {
    txid := "6d2f306d2f30", totalMigrated := 4960, fee := 340, inputCount := 2
    sourceAddresses := ["a"], destination := "destination" }
  let signed (n : Nat) : RawTransaction := ⟨(List.replicate n "m/0".toUTF8.toList).flatten⟩
  exact ⟨utxos, plan, result, signed 0, signed 1, signed 2,
    execute_guarded (server utxos) () .all ⟨[7]⟩ plan, by decide +kernel, by decide +kernel,
    by decide +kernel, execute_guarded (refusing utxos 1) () .all ⟨[7]⟩ plan, by decide +kernel,
    by decide +kernel, by decide +kernel, by decide +kernel⟩

end FundRecovery.Migration

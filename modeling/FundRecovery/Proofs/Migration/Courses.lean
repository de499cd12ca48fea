import FundRecovery.Proofs.Migration.Holdings
import FundRecovery.Proofs.Program.Exchanges

/-!
# The courses that an execution can take

`Course x t r`: in the exchanges `t` the migration `x` comes to the end `r`. Collaborators may
answer anything, fail at any call or crash there, and each of this ends the course where it
happens.

* `course_bind`: the courses of migrations in sequence.
* `course_listSources`: a listing comes to its end with holdings.
* `Signing`: the courses from a built transaction to its broadcast. `course_signInputs`.
* `Prepared`, `course_execute`: an execution halts without a call of the deriver or the builder, or
  it builds what the listing found, and signs.
-/

namespace FundRecovery.Migration

variable {α β ε : Type}

/-- The calls of a run with their answers. -/
abbrev Record : Type := List (Exchange interface)

/-- How a run ends: with a value, with an error, or in the crash of a collaborator. -/
abbrev Ending (α : Type) : Type := Except Crash (Except MigrationError α)

/-- An end without a value. -/
inductive Halt where
  | crash (c : Crash)
  | error (e : MigrationError)
  deriving DecidableEq, Repr

/-- The halt as the end of a run. -/
def Halt.ending : Halt → Ending α
  | crash c => .error c
  | error e => .ok (.error e)

theorem Halt.ending_injective {e e' : Halt} (h : (e.ending : Ending α) = e'.ending) : e = e' := by
  cases e <;> cases e' <;> simp_all [Halt.ending]

theorem Halt.ending_ne_ok (e : Halt) (a : α) : e.ending ≠ .ok (.ok a) := by
  cases e <;> simp [Halt.ending]

/-- An answer as the end of a migration that consists of this call alone. -/
def answered (wrap : ε → MigrationError) (answer : Except Crash (Except ε α)) : Ending α :=
  answer.map (·.mapError wrap)

theorem eq_ok_of_answered {wrap : ε → MigrationError} {answer : Except Crash (Except ε α)} {a : α}
    (h : .ok (.ok a) = answered wrap answer) : answer = .ok (.ok a) := by
  rcases answer with c | e | b <;> cases h
  rfl

/-- In the exchanges `t` the migration comes to the end `r`. -/
def Course (x : Migrate α) (t : Record) (r : Ending α) : Prop :=
  Program.Exchanges (I := interface) x.run t r

variable {t : Record}

/-! ## Migrations in sequence -/

@[simp] theorem course_pure {a : α} {r : Ending α} :
    Course (pure a) t r ↔ t = [] ∧ r = .ok (.ok a) := Iff.rfl

@[simp] theorem course_throw {e : MigrationError} {r : Ending α} :
    Course (throw e) t r ↔ t = [] ∧ r = (Halt.error e).ending := Iff.rfl

/-- The first migration halts, or the second goes on where it comes to a value. -/
theorem course_bind {x : Migrate α} {f : α → Migrate β} {r : Ending β} :
    Course (x >>= f) t r ↔ (∃ e : Halt, r = e.ending ∧ Course x t e.ending) ∨
      ∃ a u v, t = u ++ v ∧ Course x u (.ok (.ok a)) ∧ Course (f a) v r := by
  refine Program.exchanges_bind.trans ?_
  constructor
  · rintro (⟨c, rfl, hx⟩ | ⟨e | a, u, v, rfl, hx, hf⟩)
    · exact .inl ⟨.crash c, rfl, hx⟩
    · obtain ⟨rfl, rfl⟩ : v = [] ∧ r = .ok (.error e) := hf
      exact .inl ⟨.error e, rfl, by rwa [List.append_nil]⟩
    · exact .inr ⟨a, u, v, rfl, hx, hf⟩
  · rintro (⟨c | e, rfl, hx⟩ | ⟨a, u, v, rfl, hx, hf⟩)
    · exact .inl ⟨c, rfl, hx⟩
    · exact .inr ⟨.error e, t, [], by simp, hx, rfl, rfl⟩
    · exact .inr ⟨.ok a, u, v, rfl, hx, hf⟩

/-- A call is one exchange, and its answer is the end. -/
theorem course_orFail {wrap : ε → MigrationError} {p : Program interface (Except ε α)}
    {r : Ending α} :
    Course (orFail wrap p) t r ↔ ∃ answer, p.Exchanges t answer ∧ r = answered wrap answer := by
  refine Program.exchanges_bind.trans ?_
  constructor
  · rintro (⟨c, rfl, hp⟩ | ⟨a, u, v, rfl, hp, rfl, rfl⟩)
    · exact ⟨.error c, hp, rfl⟩
    · exact ⟨.ok a, by rwa [List.append_nil], rfl⟩
  · rintro ⟨c | a, hp, rfl⟩
    · exact .inl ⟨c, rfl, hp⟩
    · exact .inr ⟨a, t, [], by simp, hp, rfl, rfl⟩

/-- A check that fails ends the migration with its error; after one that passes it goes on. -/
theorem course_check {c : Prop} [Decidable c] {e : MigrationError} {f : PUnit → Migrate α}
    {r : Ending α} (h : Course (if c then throw e >>= f else f ⟨⟩) t r) :
    (c ∧ t = [] ∧ r = (Halt.error e).ending) ∨ ¬c ∧ Course (f ⟨⟩) t r := by
  split at h
  case isTrue hc => exact .inl ⟨hc, h⟩
  case isFalse hc => exact .inr ⟨hc, h⟩

/-- A check ends the migration with its error, or nothing has happened. -/
theorem course_unless {c : Prop} [Decidable c] {e : MigrationError} {f : PUnit → Migrate α}
    {r : Ending α} (h : Course (if c then throw e >>= f else f ⟨⟩) t r) :
    (t = [] ∧ r = (Halt.error e).ending) ∨ ¬c ∧ Course (f ⟨⟩) t r :=
  (course_check h).imp_left And.right

/-- A function of the value changes the end alone. -/
theorem course_map {x : Migrate α} {f : α → β} {r : Ending β}
    (h : Course (x >>= fun a => pure (f a)) t r) :
    ∃ r', Course x t r' ∧ r = r'.map (·.map f) := by
  obtain ⟨e, rfl, hx⟩ | ⟨a, u, v, rfl, hx, rfl, rfl⟩ := course_bind.mp h
  · exact ⟨e.ending, hx, by cases e <;> rfl⟩
  · exact ⟨.ok (.ok a), by rwa [List.append_nil], rfl⟩

/-! ## Listing -/

/-- The exchange that listed a holding. -/
def Holding.listing (h : Holding) : Exchange interface :=
  ⟨.listUtxos h.source.address, .ok (.ok h.utxos)⟩

/-- The calls that only look at the chain. -/
def Call.IsQuery : Call → Prop
  | validateAddress _ | listUtxos _ => True
  | _ => False

/-- A record of queries alone. -/
def OnlyQueries (t : Record) : Prop := ∀ x ∈ t, x.request.IsQuery

theorem OnlyQueries.not_mem {x : Exchange interface} (h : OnlyQueries t)
    (hx : ¬ x.request.IsQuery) : x ∉ t := fun hmem => hx (h x hmem)

theorem onlyQueries_listings (found : List Holding) : OnlyQueries (found.map Holding.listing) := by
  intro x hx
  obtain ⟨h, -, rfl⟩ := List.mem_map.mp hx
  exact .intro

theorem onlyQueries_singleton {x : Exchange interface} (h : x.request.IsQuery) :
    OnlyQueries [x] := List.forall_mem_singleton.mpr h

theorem onlyQueries_append {u v : Record} (hu : OnlyQueries u) (hv : OnlyQueries v) :
    OnlyQueries (u ++ v) := List.forall_mem_append.mpr ⟨hu, hv⟩

theorem course_validateAddress {address : String} {r : Ending AddressValidation} :
    Course (validateAddress address) t r ↔
      ∃ answer, t = [⟨.validateAddress address, answer⟩] ∧ r = answered .chain answer :=
  course_orFail.trans (exists_congr fun _ => and_congr_left' Program.exchanges_request)

theorem course_listUtxos {address : String} {r : Ending (List Utxo)} :
    Course (listUtxos address) t r ↔
      ∃ answer, t = [⟨.listUtxos address, answer⟩] ∧ r = answered .chain answer :=
  course_orFail.trans (exists_congr fun _ => and_congr_left' Program.exchanges_request)

/-- A listing that comes to its end has an answer for each source. -/
theorem course_listSources {sources : List MigrationSource} {inputs : List Input}
    (h : Course (listSources sources) t (.ok (.ok inputs))) :
    ∃ found : List Holding, found.map (·.source) = sources ∧ t = found.map Holding.listing ∧
      inputs = found.flatMap Holding.inputs := by
  induction sources generalizing t inputs with
  | nil =>
    obtain ⟨rfl, hr⟩ := course_pure.mp h
    cases hr
    exact ⟨[], rfl, rfl, rfl⟩
  | cons source rest ih =>
    obtain ⟨e, he, -⟩ | ⟨utxos, u, v, rfl, hlist, hthen⟩ := course_bind.mp h
    · exact absurd he.symm (e.ending_ne_ok _)
    obtain ⟨e, he, -⟩ | ⟨others, v, w, rfl, hrest, hdone⟩ := course_bind.mp hthen
    · exact absurd he.symm (e.ending_ne_ok _)
    obtain ⟨rfl, hr⟩ := course_pure.mp hdone
    cases hr
    obtain ⟨answer, rfl, ha⟩ := course_listUtxos.mp hlist
    obtain rfl := eq_ok_of_answered ha
    obtain ⟨found, rfl, rfl, rfl⟩ := ih hrest
    exact ⟨⟨source, utxos⟩ :: found, rfl, by simp [Holding.listing], rfl⟩

/-- A listing that halts has asked for nothing but listings. -/
theorem course_listSources_halt {sources : List MigrationSource} {e : Halt}
    (h : Course (listSources sources) t e.ending) : OnlyQueries t := by
  induction sources generalizing t with
  | nil => exact absurd (course_pure.mp h).2 (e.ending_ne_ok _)
  | cons source rest ih =>
    obtain ⟨e', he, hlist⟩ | ⟨utxos, u, v, rfl, hlist, hthen⟩ := course_bind.mp h
    · obtain ⟨answer, rfl, -⟩ := course_listUtxos.mp hlist
      exact onlyQueries_singleton .intro
    obtain ⟨answer, rfl, -⟩ := course_listUtxos.mp hlist
    obtain ⟨e', he, hrest⟩ | ⟨others, v, w, rfl, -, hdone⟩ := course_bind.mp hthen
    · obtain rfl := Halt.ending_injective he
      exact onlyQueries_append (onlyQueries_singleton .intro) (ih hrest)
    · exact absurd (course_pure.mp hdone).2 (e.ending_ne_ok _)

/-! ## Signing -/

/-- The exchanges that sign `inputs`, the first of them number `index`, from the transaction `tx`
on, and broadcast what the last signature gave. Whatever fails ends them. -/
inductive Signing (seed : Seed) (sigHash : SigHash) :
    Nat → RawTransaction → List Input → Record → Ending String → Prop where
  | broadcast {index tx} (answer) :
    Signing seed sigHash index tx [] [⟨.broadcast tx, answer⟩] (answered .transaction answer)
  | keyless {index tx input rest} {e : Halt} (answer) :
    answered .derivation answer = (e.ending : Ending (List UInt8)) →
    Signing seed sigHash index tx (input :: rest)
      [⟨.derivePrivateKey seed input.source.path, answer⟩] e.ending
  | unsigned {index tx input rest} {e : Halt} (key answer) :
    answered .transaction answer = (e.ending : Ending RawTransaction) →
    Signing seed sigHash index tx (input :: rest)
      [⟨.derivePrivateKey seed input.source.path, .ok (.ok key)⟩,
        ⟨.sign tx index key sigHash, answer⟩] e.ending
  | signed {index tx input rest t r} (key tx') :
    Signing seed sigHash (index + 1) tx' rest t r →
    Signing seed sigHash index tx (input :: rest)
      (⟨.derivePrivateKey seed input.source.path, .ok (.ok key)⟩ ::
        ⟨.sign tx index key sigHash, .ok (.ok tx')⟩ :: t) r

theorem course_derivePrivateKey {seed : Seed} {path : String} {r : Ending (List UInt8)} :
    Course (derivePrivateKey seed path) t r ↔
      ∃ answer, t = [⟨.derivePrivateKey seed path, answer⟩] ∧ r = answered .derivation answer :=
  course_orFail.trans (exists_congr fun _ => and_congr_left' Program.exchanges_request)

theorem course_build {inputs : List Utxo} {destination : String} {amount : Nat}
    {r : Ending RawTransaction} :
    Course (build inputs destination amount) t r ↔
      ∃ answer, t = [⟨.build inputs destination amount, answer⟩] ∧
        r = answered .transaction answer :=
  course_orFail.trans (exists_congr fun _ => and_congr_left' Program.exchanges_request)

theorem course_sign {tx : RawTransaction} {index : Nat} {key : List UInt8} {sigHash : SigHash}
    {r : Ending RawTransaction} :
    Course (sign tx index key sigHash) t r ↔
      ∃ answer, t = [⟨.sign tx index key sigHash, answer⟩] ∧ r = answered .transaction answer :=
  course_orFail.trans (exists_congr fun _ => and_congr_left' Program.exchanges_request)

theorem course_broadcast {tx : RawTransaction} {r : Ending String} :
    Course (broadcast tx) t r ↔
      ∃ answer, t = [⟨.broadcast tx, answer⟩] ∧ r = answered .transaction answer :=
  course_orFail.trans (exists_congr fun _ => and_congr_left' Program.exchanges_request)

/-- Signing and broadcasting takes one of these courses. -/
theorem course_signInputs {seed : Seed} {sigHash : SigHash} {inputs : List Input} {index : Nat}
    {tx : RawTransaction} {r : Ending String}
    (h : Course (signInputs seed sigHash index tx inputs >>= broadcast) t r) :
    Signing seed sigHash index tx inputs t r := by
  induction inputs generalizing t index tx with
  | nil =>
    rw [signInputs, pure_bind] at h
    obtain ⟨answer, rfl, rfl⟩ := course_broadcast.mp h
    exact .broadcast answer
  | cons input rest ih =>
    simp only [signInputs, bind_assoc] at h
    obtain ⟨e, rfl, hkey⟩ | ⟨key, u, v, rfl, hkey, hthen⟩ := course_bind.mp h
    · obtain ⟨answer, rfl, he⟩ := course_derivePrivateKey.mp hkey
      exact .keyless answer he.symm
    obtain ⟨answer, rfl, ha⟩ := course_derivePrivateKey.mp hkey
    obtain rfl := eq_ok_of_answered ha
    obtain ⟨e, rfl, hsign⟩ | ⟨tx', u, v, rfl, hsign, hrest⟩ := course_bind.mp hthen
    · obtain ⟨answer, rfl, he⟩ := course_sign.mp hsign
      exact .unsigned key answer he.symm
    obtain ⟨answer, rfl, ha⟩ := course_sign.mp hsign
    obtain rfl := eq_ok_of_answered ha
    exact .signed key tx' (ih hrest)

/-! ## Execution -/

/-- What must hold before a transaction is built: the plan can be carried out, and what was listed
for its sources is worth more than the fee. -/
structure Prepared (plan : MigrationPlan) (seed : Seed) (found : List Holding) : Prop where
  planned : plan.sources ≠ []
  seeded : seed.isEmpty = false
  addressed : Text.allBlank plan.destination = false
  listed : found.map (·.source) = distinctSources plan
  held : found.flatMap Holding.inputs ≠ []
  worthwhile : consolidationFee (found.flatMap Holding.inputs).length plan.feeRate <
    totalAmount (found.flatMap (·.utxos))

/-- The queries of an execution that goes on to build. -/
def preparation (plan : MigrationPlan) (validation : AddressValidation) (found : List Holding) :
    Record :=
  ⟨.validateAddress plan.destination, .ok (.ok validation)⟩ :: found.map Holding.listing

/-- The result of an execution that spends what was found. -/
def resultOf (plan : MigrationPlan) (found : List Holding) (txid : String) : MigrationResult :=
  let inputs := found.flatMap Holding.inputs
  let fee := consolidationFee inputs.length plan.feeRate
  { txid
    totalMigrated := totalAmount (found.flatMap (·.utxos)) - fee
    fee
    inputCount := inputs.length
    sourceAddresses := withoutRuns (inputs.map (·.source.address))
    destination := plan.destination }

/-- **The courses of an execution.** It halts without a call of the deriver or the builder, or it is
prepared and asks the builder for a transaction that spends what was listed. What follows is the
failure of the builder, or signing. -/
theorem course_execute {sigHash : SigHash} {seed : Seed} {plan : MigrationPlan}
    {r : Ending MigrationResult} (h : Course (execute sigHash seed plan) t r) :
    (∃ e : Halt, r = e.ending ∧ OnlyQueries t) ∨
    ∃ validation found answer after,
      validation.isValid = true ∧ Prepared plan seed found ∧
      t = preparation plan validation found ++
        ⟨.build (found.flatMap (·.utxos)) plan.destination
          (totalAmount (found.flatMap (·.utxos)) -
            consolidationFee (found.flatMap Holding.inputs).length plan.feeRate), answer⟩ :: after ∧
      ((∃ e : Halt, answered .transaction answer = (e.ending : Ending RawTransaction) ∧
          after = [] ∧ r = e.ending) ∨
        ∃ tx sent, answer = .ok (.ok tx) ∧
          Signing seed sigHash 0 tx (found.flatMap Holding.inputs) after sent ∧
          r = sent.map (·.map (resultOf plan found))) := by
  have hnone : OnlyQueries [] := List.forall_mem_nil _
  rw [execute_eq] at h
  obtain ⟨rfl, rfl⟩ | ⟨hplan, h₁⟩ := course_unless h
  · exact .inl ⟨_, rfl, hnone⟩
  obtain ⟨rfl, rfl⟩ | ⟨hseed, h₂⟩ := course_unless h₁
  · exact .inl ⟨_, rfl, hnone⟩
  obtain ⟨rfl, rfl⟩ | ⟨hdest, h₃⟩ := course_unless h₂
  · exact .inl ⟨_, rfl, hnone⟩
  clear h h₁ h₂
  obtain ⟨e, rfl, hvalid⟩ | ⟨validation, _, t, rfl, hvalid, h₄⟩ := course_bind.mp h₃
  · obtain ⟨answer, rfl, he⟩ := course_validateAddress.mp hvalid
    exact .inl ⟨e, rfl, onlyQueries_singleton .intro⟩
  obtain ⟨answer, rfl, ha⟩ := course_validateAddress.mp hvalid
  obtain rfl := eq_ok_of_answered ha
  have hasked : OnlyQueries [⟨.validateAddress plan.destination, .ok (.ok validation)⟩] :=
    onlyQueries_singleton .intro
  obtain ⟨rfl, rfl⟩ | ⟨haccepted, h₅⟩ := course_unless h₄
  · exact .inl ⟨_, rfl, onlyQueries_append hasked hnone⟩
  obtain ⟨e, rfl, hlist⟩ | ⟨inputs, _, t, rfl, hlist, h₆⟩ := course_bind.mp h₅
  · exact .inl ⟨e, rfl, onlyQueries_append hasked (course_listSources_halt hlist)⟩
  obtain ⟨found, hsources, rfl, rfl⟩ := course_listSources hlist
  have hlisted := onlyQueries_append hasked (onlyQueries_listings found)
  clear h₃ h₄ h₅
  obtain ⟨rfl, rfl⟩ | ⟨hheld, h₇⟩ := course_unless h₆
  · exact .inl ⟨_, rfl, by simpa using hlisted⟩
  obtain ⟨rfl, rfl⟩ | ⟨hworth, h₈⟩ := course_unless h₇
  · exact .inl ⟨_, rfl, by simpa using hlisted⟩
  clear h₆ h₇
  rw [map_utxo_inputs] at hworth h₈
  have hprepared : Prepared plan seed found := {
    planned := by simpa using hplan
    seeded := by simpa using hseed
    addressed := by simpa using hdest
    listed := hsources
    held := by simpa using hheld
    worthwhile := by omega }
  refine .inr ⟨validation, found, ?_⟩
  obtain ⟨e, rfl, hbuild⟩ | ⟨tx, _, after, rfl, hbuild, h₉⟩ := course_bind.mp h₈
  · obtain ⟨answer, rfl, he⟩ := course_build.mp hbuild
    exact ⟨answer, [], by simpa using haccepted, hprepared, by simp [preparation],
      .inl ⟨e, he.symm, rfl, rfl⟩⟩
  obtain ⟨answer, rfl, ha⟩ := course_build.mp hbuild
  obtain rfl := eq_ok_of_answered ha
  rw [← bind_assoc] at h₉
  obtain ⟨sent, hsent, rfl⟩ := course_map h₉
  exact ⟨.ok (.ok tx), after, by simpa using haccepted, hprepared, by simp [preparation],
    .inr ⟨tx, sent, rfl, course_signInputs hsent, rfl⟩⟩

end FundRecovery.Migration

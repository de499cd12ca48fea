import FundRecovery.Proofs.Migration.Conservation
import FundRecovery.Proofs.Migration.Sweep

/-!
# Sources that a plan repeats

A plan may name a source again. Execution and validation take each address where it occurs first,
so that a copy further back is never looked at, and what is listed is listed once.

* `Repeats`: sources with copies of them put in, each behind its original.
* `execute_repeats`, `validate_repeats`: such copies do not change what a plan does.
* `ListsInOrder x addresses`: a migration lists these addresses in this order, as far as it comes.
  The rules follow the syntax of migrations; `listsInOrder_execute`, `listsInOrder_validate`.
* `Sparing`: a run lists no address twice and spends no listing twice.
* `repeats_change_nothing`: the runs on a plan with repeats are those on the plan, and sparing.
-/

namespace FundRecovery.Migration

/-! ## Repeats -/

/-- Copies of `sources` were put in, each somewhere behind its original. -/
inductive Repeats (sources : List MigrationSource) : List MigrationSource → Prop where
  | refl : Repeats sources sources
  | copy {before source after} : Repeats sources (before ++ after) → source ∈ before →
    Repeats sources (before ++ source :: after)

namespace Repeats

variable {sources sources' : List MigrationSource}

theorem isEmpty_eq (h : Repeats sources sources') : sources'.isEmpty = sources.isEmpty := by
  induction h with
  | refl => rfl
  | @copy before source after _ hsource ih =>
    cases before with
    | nil => exact absurd hsource List.not_mem_nil
    | cons first before => exact ih

theorem firstOccurrences_eq (h : Repeats sources sources') :
    firstOccurrences (·.address) sources' = firstOccurrences (·.address) sources := by
  induction h with
  | refl => rfl
  | copy _ hsource ih => rw [firstOccurrences_append_repeat (List.mem_map_of_mem hsource), ih]

end Repeats

variable {plan : MigrationPlan} {sources : List MigrationSource}

theorem execute_repeats (h : Repeats plan.sources sources) (sigHash : SigHash) (seed : Seed) :
    execute sigHash seed { plan with sources } = execute sigHash seed plan := by
  simp only [execute_eq, distinctSources, h.isEmpty_eq, h.firstOccurrences_eq]

theorem validate_repeats (h : Repeats plan.sources sources) :
    validate { plan with sources } = validate plan := by
  simp only [validate, distinctSources, h.isEmpty_eq, h.firstOccurrences_eq]

/-! ## Listings in order -/

/-- The address that a call lists. -/
def Call.listing? : Call → Option String
  | listUtxos address => some address
  | _ => none

/-- The addresses that were listed, in order, whatever came of it. -/
def listed (t : Record) : List String := t.filterMap (·.request.listing?)

@[simp] theorem listed_append (u v : Record) : listed (u ++ v) = listed u ++ listed v :=
  List.filterMap_append

/-- In each of its courses the migration lists `addresses` in order. A course that halts may stop
short of them; one that comes to a value does not. -/
def ListsInOrder {α : Type} (x : Migrate α) (addresses : List String) : Prop :=
  ∀ t r, Course x t r → listed t <+: addresses ∧ ∀ a, r = .ok (.ok a) → listed t = addresses

namespace ListsInOrder

variable {α β : Type} {x : Migrate α} {f : α → Migrate β} {addresses others : List String}

theorem pure (a : α) : ListsInOrder (Pure.pure a) [] := by
  rintro t r h
  obtain ⟨rfl, -⟩ := course_pure.mp h
  exact ⟨List.nil_prefix, fun _ _ => rfl⟩

/-- A migration that halts at once comes to no value. -/
theorem throw (e : MigrationError) : ListsInOrder (MonadExcept.throw e : Migrate α) addresses := by
  rintro t r h
  obtain ⟨rfl, rfl⟩ := course_throw.mp h
  exact ⟨List.nil_prefix, fun a he => absurd he (Halt.ending_ne_ok _ a)⟩

theorem bind (hx : ListsInOrder x addresses) (hf : ∀ a, ListsInOrder (f a) others) :
    ListsInOrder (x >>= f) (addresses ++ others) := by
  rintro t r h
  obtain ⟨e, rfl, hcourse⟩ | ⟨a, u, v, rfl, hfirst, hsecond⟩ := course_bind.mp h
  · exact ⟨(hx _ _ hcourse).1.trans (List.prefix_append _ _),
      fun b he => absurd he (e.ending_ne_ok b)⟩
  · obtain ⟨hpart, hall⟩ := hf a _ _ hsecond
    rw [listed_append, (hx _ _ hfirst).2 a rfl]
    exact ⟨(List.prefix_append_right_inj _).mpr hpart, fun b he => congrArg _ (hall b he)⟩

/-- What follows a migration that lists nothing. -/
theorem bind_nil (hx : ListsInOrder x []) (hf : ∀ a, ListsInOrder (f a) others) :
    ListsInOrder (x >>= f) others := hx.bind hf

theorem ite_throw {c : Prop} [Decidable c] {e : MigrationError} {f : PUnit → Migrate β}
    (hf : ListsInOrder (f ⟨⟩) others) :
    ListsInOrder (if c then MonadExcept.throw e >>= f else f ⟨⟩) others := by
  split
  · exact throw e
  · exact hf

/-- A call by itself lists at most what it is a call for. -/
theorem of_call {q : Call} {P : Ending α → Except Crash q.Answer → Prop}
    (hx : ∀ t r, Course x t r ↔ ∃ answer, t = [⟨q, answer⟩] ∧ P r answer) :
    ListsInOrder x q.listing?.toList := by
  intro t r h
  obtain ⟨answer, rfl, -⟩ := (hx t r).mp h
  have hlisted : listed [⟨q, answer⟩] = q.listing?.toList := by
    cases hq : q.listing? <;> simp [listed, hq]
  exact ⟨hlisted ▸ List.prefix_rfl, fun _ _ => hlisted⟩

theorem listUtxos (address : String) : ListsInOrder (Migration.listUtxos address) [address] :=
  .of_call fun _ _ => course_listUtxos

end ListsInOrder

theorem listsInOrder_listSources (sources : List MigrationSource) :
    ListsInOrder (listSources sources) (sources.map (·.address)) := by
  induction sources with
  | nil => exact .pure []
  | cons source rest ih =>
    refine .bind (.listUtxos source.address) fun utxos => ?_
    rw [← List.append_nil (rest.map _)]
    exact .bind ih fun inputs => .pure _

theorem listsInOrder_liveTotal (total : Nat) (sources : List MigrationSource) :
    ListsInOrder (liveTotal total sources) (sources.map (·.address)) := by
  induction sources generalizing total with
  | nil => exact .pure total
  | cons source rest ih =>
    refine .bind (.listUtxos source.address) fun utxos => ?_
    exact .ite_throw (ih _)

theorem listsInOrder_signInputs (seed : Seed) (sigHash : SigHash) (index : Nat)
    (tx : RawTransaction) (inputs : List Input) :
    ListsInOrder (signInputs seed sigHash index tx inputs) [] := by
  induction inputs generalizing index tx with
  | nil => exact .pure tx
  | cons input rest ih =>
    refine .bind_nil (.of_call fun _ _ => course_derivePrivateKey) fun key => ?_
    exact .bind_nil (.of_call fun _ _ => course_sign) fun tx => ih _ tx

theorem listsInOrder_execute (sigHash : SigHash) (seed : Seed) (plan : MigrationPlan) :
    ListsInOrder (execute sigHash seed plan) ((distinctSources plan).map (·.address)) := by
  rw [execute_eq]
  refine .ite_throw (.ite_throw (.ite_throw ?_))
  refine .bind_nil (.of_call fun _ _ => course_validateAddress) fun validation => .ite_throw ?_
  rw [← List.append_nil (List.map _ _)]
  refine .bind (listsInOrder_listSources _) fun inputs => .ite_throw (.ite_throw ?_)
  refine .bind_nil (.of_call fun _ _ => course_build) fun tx => ?_
  refine .bind_nil (listsInOrder_signInputs _ _ _ _ _) fun tx => ?_
  exact .bind_nil (.of_call fun _ _ => course_broadcast) fun txid => .pure _

theorem listsInOrder_validate (plan : MigrationPlan) :
    ListsInOrder (validate plan) ((distinctSources plan).map (·.address)) := by
  unfold validate
  refine .ite_throw ?_
  rw [← List.append_nil (List.map _ _)]
  refine .bind (listsInOrder_liveTotal 0 _) fun live => ?_
  split
  · exact .throw _
  · exact .pure _

/-! ## Runs -/

/-- The outputs that an exchange lists. -/
def outputs : Exchange interface → List Utxo
  | ⟨.listUtxos _, .ok (.ok utxos)⟩ => utxos
  | _ => []

/-- No address is listed twice, and no listing is spent twice: what is built spends each of the
listings before it once, and nothing else is built. -/
structure Sparing (log : Record) : Prop where
  listed : (listed log).Nodup
  spent : ∀ before inputs destination amount answer after,
    log = before ++ ⟨.build inputs destination amount, answer⟩ :: after →
      inputs = before.flatMap outputs ∧
      ∀ inputs' destination' amount' answer',
        ⟨.build inputs' destination' amount', answer'⟩ ∉ before ++ after

theorem flatMap_outputs_listings (found : List Holding) :
    (found.map Holding.listing).flatMap outputs = found.flatMap (·.utxos) := by
  rw [List.flatMap_map]
  rfl

theorem sparing_execute {sigHash : SigHash} {seed : Seed} {t : Record}
    {r : Ending MigrationResult} (h : Course (execute sigHash seed plan) t r) : Sparing t := by
  constructor
  case listed =>
    exact (nodup_map_firstOccurrences _ _).sublist (listsInOrder_execute _ _ _ _ _ h).1.sublist
  case spent =>
    intro before inputs destination amount answer after hsplit
    obtain ⟨e, -, hq⟩ | ⟨validation, found, answer', after', -, -, rfl, hthen⟩ := course_execute h
    · exact absurd (hq _ (hsplit ▸ List.mem_append_cons_self)) id
    have hqueries := onlyQueries_preparation plan validation found
    have hafter : ∀ inputs destination amount answer,
        ⟨.build inputs destination amount, answer⟩ ∉ after' := by
      intro inputs destination amount answer
      obtain ⟨-, -, rfl, -⟩ | ⟨tx, sent, -, hsigning, -⟩ := hthen
      · exact List.not_mem_nil
      · exact hsigning.not_mem_build
    obtain ⟨rfl, hbuild, rfl⟩ :=
      (List.append_cons_inj_of_notMem (hqueries.not_mem id) (hafter _ _ _ _)).mp hsplit
    cases hbuild
    constructor
    · rw [preparation, List.flatMap_cons, flatMap_outputs_listings]
      rfl
    · intro inputs' destination' amount' answer' hmem
      rcases List.mem_append.mp hmem with hmem | hmem
      · exact hqueries.not_mem id hmem
      · exact hafter _ _ _ _ hmem

theorem onlyQueries_liveTotal {total : Nat} {t : Record} {r : Ending Nat}
    (h : Course (liveTotal total sources) t r) : OnlyQueries t := by
  induction sources generalizing total t with
  | nil =>
    obtain ⟨rfl, -⟩ := course_pure.mp h
    exact List.forall_mem_nil _
  | cons source rest ih =>
    obtain ⟨e, rfl, hlist⟩ | ⟨utxos, u, v, rfl, hlist, hthen⟩ := course_bind.mp h
    · obtain ⟨answer, rfl, -⟩ := course_listUtxos.mp hlist
      exact onlyQueries_singleton .intro
    obtain ⟨answer, rfl, -⟩ := course_listUtxos.mp hlist
    obtain ⟨rfl, -⟩ | ⟨-, hrest⟩ := course_unless hthen
    · exact onlyQueries_singleton .intro
    · exact onlyQueries_append (onlyQueries_singleton .intro) (ih hrest)

/-- A validation asks for nothing but listings. -/
theorem onlyQueries_validate {t : Record} {r : Ending Unit} (h : Course (validate plan) t r) :
    OnlyQueries t := by
  unfold validate at h
  obtain ⟨rfl, -⟩ | ⟨-, hsum⟩ := course_unless h
  · exact List.forall_mem_nil _
  obtain ⟨e, -, hlive⟩ | ⟨live, u, v, rfl, hlive, hcheck⟩ := course_bind.mp hsum
  · exact onlyQueries_liveTotal hlive
  have hnone : v = [] := by
    split at hcheck
    · exact (course_throw.mp hcheck).1
    · exact (course_pure.mp hcheck).1
  rw [hnone, List.append_nil]
  exact onlyQueries_liveTotal hlive

theorem sparing_validate {t : Record} {r : Ending Unit} (h : Course (validate plan) t r) :
    Sparing t := by
  constructor
  case listed =>
    exact (nodup_map_firstOccurrences _ _).sublist (listsInOrder_validate _ _ _ h).1.sublist
  case spent =>
    rintro before inputs destination amount answer after rfl
    exact absurd (onlyQueries_validate h _ List.mem_append_cons_self) id

/-- **Repeating a source changes nothing.** Whatever the client, the deriver and the builder do, and
however often they fail or crash, a plan with copies of its sources makes the same calls, gets the
same answers and comes to the same end as the plan without them, and its runs are sparing. -/
theorem repeats_change_nothing {σ : Type} (h : Handler interface σ) (s : σ) (sigHash : SigHash)
    (seed : Seed) (hrepeats : Repeats plan.sources sources) :
    Program.recorded h (execute sigHash seed { plan with sources }).run s =
        Program.recorded h (execute sigHash seed plan).run s ∧
      Program.recorded h (validate { plan with sources }).run s =
        Program.recorded h (validate plan).run s ∧
      Sparing (Program.recorded h (execute sigHash seed plan).run s).2 ∧
      Sparing (Program.recorded h (validate plan).run s).2 := by
  rw [execute_repeats hrepeats, validate_repeats hrepeats]
  exact ⟨rfl, rfl, sparing_execute (Program.exchanges_recorded h _ s),
    sparing_validate (Program.exchanges_recorded h _ s)⟩

/-- A plan of two sources, with a copy of each and one more of the first: what holds of its
execution is read off the plan itself. -/
theorem repeats_change_nothing_two_sources :
    ∃ (utxos : String → List Utxo) (plan : MigrationPlan) (sources : List MigrationSource)
      (result : MigrationResult), plan.sources.map (·.address) = ["a", "b"] ∧
      sources.map (·.address) = ["a", "a", "b", "b", "a"] ∧ Repeats plan.sources sources ∧
      let run := Program.recorded (server utxos)
        (execute .all ⟨[7]⟩ { plan with sources := sources }).run ()
      run.1 = .ok (.ok result) ∧ result.totalMigrated = 7320 ∧
        result.sourceAddresses = ["a", "b"] ∧ listed run.2 = ["a", "b"] ∧ Sparing run.2 := by
  let utxos : String → List Utxo := fun address =>
    if address = "a" then [⟨"t", 0, 5000, "a", 1⟩] else [⟨"u", 1, 3000, "b", 1⟩]
  let a : MigrationSource := ⟨"a", "m/0", 5000, 1⟩
  let b : MigrationSource := ⟨"b", "m/1", 3000, 1⟩
  let plan : MigrationPlan := {
    sources := [a, b], destination := "destination", totalInput := 8000, estimatedFee := 680
    netAmount := 7320, feeRate := ⟨2000⟩, estimatedSize := 340, totalUtxos := 2, warning := none }
  let result : MigrationResult := {
    txid := "6d2f306d2f31", totalMigrated := 7320, fee := 680, inputCount := 2
    sourceAddresses := ["a", "b"], destination := "destination" }
  have hfirst : Repeats [a, b] ([a] ++ a :: [b]) := .copy .refl (by simp)
  have hsecond : Repeats [a, b] ([a, a, b] ++ b :: []) := .copy hfirst (by simp)
  have hrepeats : Repeats plan.sources ([a, a, b, b] ++ a :: []) := .copy hsecond (by simp)
  have hrun : (Program.recorded (server utxos) (execute .all ⟨[7]⟩ plan).run ()).1 =
      .ok (.ok result) := by decide +kernel
  have hlisted : listed (Program.recorded (server utxos) (execute .all ⟨[7]⟩ plan).run ()).2 =
      ["a", "b"] := by decide +kernel
  obtain ⟨hsame, -, hsparing, -⟩ :=
    repeats_change_nothing (server utxos) () .all ⟨[7]⟩ hrepeats
  refine ⟨utxos, plan, _, result, rfl, rfl, hrepeats, ?_⟩
  rw [hsame]
  exact ⟨hrun, rfl, rfl, hlisted, hsparing⟩

end FundRecovery.Migration

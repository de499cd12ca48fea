import FundRecovery.Discovery.Scenario
import FundRecovery.Proofs.Discovery.Environments

/-!
# Invariants of a scheme's scan

What a scan has gathered changes in a few ways only, and the log grows by what goes with each of
them. `Sustained A t J` says that `J`, a property of what is gathered and of the log, survives all
of these on the chain of `t`. `J` may also depend on the first index that is still to come.

* `Target.derivation`, `Target.Derives`: the call that derives an index, and its allowed answers.
* `Target.Asks`: the calls of a scan, apart from reports.
* `Lists`: outputs that an answer gives for an address.
* `Sustained.scanChain`, `Sustained.recordRange`: what is sustained holds at the end of a chain,
  whichever strategy is used, whatever the answers, and whenever the token is cancelled.
* `Relayed A s seed scheme chains J`: each chain sustains `J`, and hands it on to the next ones.
  `Relayed.scanScheme`, `Relayed.scanRange`: it holds at the end of all chains.
-/

namespace FundRecovery.Discovery

variable {A : (c : Call) → c.Answer → Prop} {looks : Bool → Prop} {log : List Call} {t : Target}

/-! ## Answers about one address -/

namespace Target

/-- The call that derives the address at `index`. -/
def derivation (t : Target) (index : UInt32) : Call :=
  if t.scheme.isLegacy then .deriveLegacyAddress t.seed index
  else .deriveAddress t.seed t.scheme.coinType t.chain.account t.chain.level index

/-- `A` allows the answer `r` to the derivation at `index`. -/
def Derives (A : (c : Call) → c.Answer → Prop) (t : Target) (index : UInt32)
    (r : Except DerivationError DerivedAddress) : Prop :=
  if t.scheme.isLegacy then A (.deriveLegacyAddress t.seed index) r
  else A (.deriveAddress t.seed t.scheme.coinType t.chain.account t.chain.level index) r

@[simp] theorem event?_derivation (index : UInt32) : (t.derivation index).event? = none := by
  unfold derivation
  split <;> rfl

/-- The calls of a scan of the chain, apart from its reports. -/
inductive Asks (t : Target) : Call → Prop where
  | derivation (index : UInt32) : t.Asks (t.derivation index)
  | listUtxos (address : String) : t.Asks (.listUtxos address)
  | checkActivity (addresses : List String) : t.Asks (.checkActivity addresses)
  | fetchUtxos (addresses : List String) : t.Asks (.fetchUtxos addresses)

theorem Asks.event?_eq_none {c : Call} (h : t.Asks c) : c.event? = none := by
  cases h with
  | derivation index => exact t.event?_derivation index
  | _ => rfl

end Target

/-- `A` allows an answer that gives `utxos` for an address, to a lookup or in a bulk fetch. -/
def Lists (A : (c : Call) → c.Answer → Prop) (address : String) (utxos : List Utxo) : Prop :=
  A (.listUtxos address) (.ok utxos) ∨
    ∃ addresses fetched, A (.fetchUtxos addresses) (.ok fetched) ∧ ⟨address, utxos⟩ ∈ fetched

theorem Lists.mono {B : (c : Call) → c.Answer → Prop} {address : String} {utxos : List Utxo}
    (h : Lists A address utxos) (hAB : ∀ {c a}, A c a → B c a) : Lists B address utxos := by
  obtain h | ⟨addresses, fetched, h, hmem⟩ := h
  · exact .inl (hAB h)
  · exact .inr ⟨addresses, fetched, hAB h, hmem⟩

/-- Outputs in the view come from answers. -/
def BulkView.Listed (A : (c : Call) → c.Answer → Prop) (view : BulkView) : Prop :=
  ∀ e ∈ view.entries, e.2 ≠ [] → Lists A e.1 e.2

namespace BulkView

variable {view : BulkView}

theorem listed_ofActive (active : List String) : (ofActive active).Listed A := by
  intro e he hne
  obtain ⟨a, -, rfl⟩ := List.mem_map.mp he
  exact absurd rfl hne

theorem Listed.update (h : view.Listed A) {fetched : AddressUtxos}
    (hf : Lists A fetched.address fetched.utxos) : (view.update fetched).Listed A := by
  intro e he hne
  obtain ⟨e, hmem, rfl⟩ := List.mem_map.mp he
  split at hne
  · rename_i haddr
    simpa only [haddr, ↓reduceIte] using hf
  · rename_i haddr
    simpa only [haddr, ↓reduceIte] using h e hmem hne

theorem Listed.foldl_update {fetched : List AddressUtxos} (h : view.Listed A)
    (hf : ∀ f ∈ fetched, Lists A f.address f.utxos) :
    (fetched.foldl BulkView.update view).Listed A := by
  induction fetched generalizing view with
  | nil => exact h
  | cons f fetched ih =>
    exact ih (h.update (hf f List.mem_cons_self)) fun g hg => hf g (List.mem_cons_of_mem _ hg)

theorem Listed.erase (h : view.Listed A) (address : String) : (view.erase address).Listed A :=
  fun e he => h e (List.mem_filter.mp he).1

theorem Listed.find? (h : view.Listed A) {address : String} {utxos : List Utxo}
    (hf : view.find? address = some utxos) (hne : utxos ≠ []) : Lists A address utxos := by
  simp only [BulkView.find?, Option.map_eq_some_iff] at hf
  obtain ⟨e, he, rfl⟩ := hf
  have haddr : e.1 = address := by simpa using List.find?_some he
  exact haddr ▸ h e (List.mem_of_find?_eq_some he) hne

end BulkView

/-- The positions ascend from index `n` and stay below `m`. -/
def Ascend : Nat → Nat → List Position → Prop
  | n, m, [] => n ≤ m
  | n, m, p :: rest => n ≤ p.index.toNat ∧ Ascend (p.index.toNat + 1) m rest

theorem Ascend.le {n m : Nat} {positions : List Position} (h : Ascend n m positions) : n ≤ m := by
  induction positions generalizing n with
  | nil => exact h
  | cons p rest ih => exact Nat.le_trans h.1 (Nat.le_of_succ_le (ih h.2))

theorem Ascend.of_le {n n' m : Nat} {positions : List Position} (h : Ascend n m positions)
    (hn : n' ≤ n) : Ascend n' m positions := by
  cases positions with
  | nil => exact Nat.le_trans hn h
  | cons p rest => exact ⟨Nat.le_trans hn h.1, h.2⟩

theorem Ascend.length_le {n m : Nat} {positions : List Position} (h : Ascend n m positions) :
    n + positions.length ≤ m := by
  induction positions generalizing n with
  | nil => exact h
  | cons p rest ih =>
    have hrest := ih h.2
    have hfirst := h.1
    rw [List.length_cons]
    omega

/-- A position at its own index, before others. -/
theorem ascend_cons_ofNat {n m : Nat} {derived : DerivedAddress} {rest : List Position}
    (hn : n < indexSpace) (h : Ascend (n + 1) m rest) :
    Ascend n m (⟨UInt32.ofNat n, derived⟩ :: rest) := by
  have hnat : (UInt32.ofNat n).toNat = n := UInt32.toNat_ofNat_of_lt' hn
  exact ⟨Nat.le_of_eq hnat.symm, by rwa [hnat]⟩

namespace Records

theorem derive {index : UInt32} {Q : Except DerivationError DerivedAddress → List Call → Prop}
    (h : ∀ r, t.Derives A index r → Q r (log ++ [t.derivation index])) :
    Records A looks log (t.derive index) Q := by
  unfold Target.derive Target.derivation Target.Derives at *
  split <;> rename_i hl <;> simp only [hl, ↓reduceIte] at h
  · exact call h
  · simp only [Bool.false_eq_true, ↓reduceIte] at h
    exact call h

section Positions

variable {P : List Call → Prop} (hP : ∀ {c log}, t.Asks c → P log → P (log ++ [c]))

include hP

theorem deriveBatch (hlog : P log) (start count : Nat) (hspace : start + count ≤ indexSpace) :
    Records A looks log (deriveBatch t (List.range' start count)) fun r log =>
      P log ∧ (Ascend start (start + count) r.1 ∧ ∀ p ∈ r.1, t.Derives A p.index (.ok p.derived)) ∧
        ∀ f, r.2 = some f → t.Derives A f.index (.error f.error) := by
  induction count generalizing start log with
  | zero => exact .done ⟨hlog, ⟨Nat.le_refl start, by simp⟩, by simp⟩
  | succ count ih =>
    rw [List.range'_succ]
    refine .bind (.derive (Q := fun r log => P log ∧ t.Derives A (UInt32.ofNat start) r)
      fun r hr => ?_) fun r log ⟨hlog, hr⟩ => ?_
    · exact ⟨hP (.derivation _) hlog, hr⟩
    · cases r with
      | error e =>
        exact .done ⟨hlog, ⟨Nat.le_add_right .., by simp⟩, by rintro f ⟨rfl⟩; exact hr⟩
      | ok derived =>
        refine .bind (ih hlog (start + 1) (by omega)) fun ⟨batch, failure⟩ log
          ⟨hlog, ⟨ha, hb⟩, hf⟩ => ?_
        rw [Nat.add_right_comm] at ha
        exact .done ⟨hlog, ⟨ascend_cons_ofNat (by omega) ha, List.forall_mem_cons.mpr ⟨hr, hb⟩⟩, hf⟩

theorem deriveRange (hlog : P log) (start count : Nat) (hspace : start + count ≤ indexSpace) :
    Records A looks log (deriveRange t (List.range' start count)) fun r log =>
      P log ∧ Ascend start (start + count) r.1 ∧
        ∀ p ∈ r.1, t.Derives A p.index (.ok p.derived) := by
  induction count generalizing start log with
  | zero => exact .done ⟨hlog, Nat.le_refl start, by simp⟩
  | succ count ih =>
    rw [List.range'_succ]
    refine .bind (.derive (Q := fun r log => P log ∧ t.Derives A (UInt32.ofNat start) r) fun r hr =>
      ⟨hP (.derivation _) hlog, hr⟩) fun r log ⟨hlog, hr⟩ => ?_
    cases r with
    | error e =>
      refine .bind (ih hlog (start + 1) (by omega)) fun ⟨positions, failures⟩ log
        ⟨hlog, ha, hp⟩ => ?_
      rw [Nat.add_right_comm] at ha
      exact .done ⟨hlog, ha.of_le (Nat.le_succ start), hp⟩
    | ok derived =>
      refine .bind (ih hlog (start + 1) (by omega)) fun ⟨positions, failures⟩ log
        ⟨hlog, ha, hp⟩ => ?_
      rw [Nat.add_right_comm] at ha
      exact .done ⟨hlog, ascend_cons_ofNat (by omega) ha, List.forall_mem_cons.mpr ⟨hr, hp⟩⟩

theorem bulkLookup (hlog : P log) (addresses : List String) :
    Records A looks log (bulkLookup addresses) fun r log =>
      P log ∧ ∀ view, r = .ok view → view.Listed A := by
  refine .bind (.call (Q := fun _ log => P log) fun _ _ => hP (.checkActivity _) hlog)
    fun r log hlog => ?_
  cases r with
  | error e => exact .done ⟨hlog, by simp⟩
  | ok activity =>
    by_cases ha : (activeAddresses addresses activity).isEmpty
    · simp only [ha, ↓reduceIte]
      exact .done ⟨hlog, by rintro view ⟨rfl⟩ e he; simp [BulkView.empty] at he⟩
    · simp only [ha, Bool.false_eq_true, ↓reduceIte]
      refine .bind (.call (Q := fun r log => P log ∧ A (.fetchUtxos _) r) fun r hr =>
        ⟨hP (.fetchUtxos _) hlog, hr⟩) fun r log ⟨hlog, hr⟩ => ?_
      cases r with
      | error e => exact .done ⟨hlog, by simp⟩
      | ok fetched =>
        refine .done ⟨hlog, ?_⟩
        rintro view ⟨rfl⟩
        exact (BulkView.listed_ofActive _).foldl_update fun f hf => .inr ⟨_, _, hr, hf⟩

end Positions

end Records

/-! ## Invariants -/

namespace SchemeScan

/-- One more address is counted. -/
def counted (scan : SchemeScan) : SchemeScan := { scan with scanned := scan.scanned + 1 }

/-- The event about a discovery. -/
def foundEvent (scan : SchemeScan) (d : DiscoveredAddress) : ScanProgress :=
  (scan.add d).event .found d.address
    (toString d.utxoCount ++ " UTXOs, " ++ toString d.balance ++ " sat")

end SchemeScan

/-- `J` survives whatever a scan of the chain of `t` does. Its index is the first that is still to
come. -/
structure Sustained (A : (c : Call) → c.Answer → Prop) (t : Target)
    (J : Nat → SchemeScan → List Call → Prop) : Prop where
  asked : ∀ {n scan log c}, t.Asks c → J n scan log → J n scan (log ++ [c])
  visited : ∀ {n scan log} address, J n scan log →
    J n scan.counted (log ++ reports t.options (scan.counted.event .scanning address ""))
  missed : ∀ {n scan log} address message, J n scan log →
    J n scan (log ++ reports t.options (scan.event .error address message))
  found : ∀ {n scan log index derived utxos}, n ≤ index.toNat → t.Derives A index (.ok derived) →
    Lists A derived.address utxos → utxos ≠ [] → J n scan log →
    J (index.toNat + 1) (scan.add (t.discovery scan.schemeName index derived utxos)) (log ++
      reports t.options (scan.foundEvent (t.discovery scan.schemeName index derived utxos)))
  passed : ∀ {n m scan log}, n ≤ m → J n scan log → J m scan log
  stopped : ∀ {n scan log}, J n scan log → J n { scan with cancelled := true } log
  failed : ∀ {n scan log} failure, (∀ f, failure = some f → t.Derives A f.index (.error f.error)) →
    J n scan log → J n { scan with failure } log

namespace Sustained

section Chain

variable {J : Nat → SchemeScan → List Call → Prop} {n m : Nat} {scan : SchemeScan} {gap : GapLimit}

theorem visit (h : Sustained A t J) (hs : J n scan log) (address : String) :
    Records A looks log (visit t address scan) (J n) :=
  .bind (.report (Q := fun _ log => J n scan.counted log) (h.visited address hs)) fun _ _ hs =>
    .done hs

theorem lookupUtxos (h : Sustained A t J) (hs : J n scan log) (address : String) :
    Records A looks log (lookupUtxos t address scan) fun utxos log =>
      J n scan log ∧ (utxos ≠ [] → Lists A address utxos) := by
  refine .bind (.call (Q := fun r log => J n scan log ∧ A (.listUtxos address) r)
    fun r hr => ⟨h.asked (.listUtxos address) hs, hr⟩) fun r log ⟨hs, hr⟩ => ?_
  cases r with
  | ok utxos => exact .done ⟨hs, fun _ => .inl hr⟩
  | error e =>
    refine .bind (.report (Q := fun _ log => J n scan log) (h.missed address _ hs))
      fun _ log hs => ?_
    exact .done ⟨hs, by simp⟩

theorem recordFound (h : Sustained A t J) (hs : J n scan log) {index : UInt32}
    (hn : n ≤ index.toNat) {derived : DerivedAddress} {utxos : List Utxo}
    (hd : t.Derives A index (.ok derived)) (hu : utxos ≠ [] → Lists A derived.address utxos) :
    Records A looks log (recordFound t index derived utxos scan) (J (index.toNat + 1)) := by
  cases utxos with
  | nil => exact .done (h.passed (Nat.le_succ_of_le hn) hs)
  | cons u utxos =>
    have hne : u :: utxos ≠ [] := List.cons_ne_nil _ _
    exact .bind (.report (Q := fun _ log => J (index.toNat + 1) (scan.add _) log)
      (h.found hn hd (hu hne) hne hs)) fun _ _ hs => .done hs

/-- One lookup per address sustains the invariant. -/
theorem scanIndices (h : Sustained A t J) {left index : Nat} (hs : J index scan log)
    (hspace : index + left ≤ indexSpace) :
    Records A looks log (scanIndices t left index gap scan) fun scan log => ∃ n, J n scan log := by
  induction left generalizing index gap scan log with
  | zero => exact .done ⟨index, hs⟩
  | succ left ih =>
    simp only [Discovery.scanIndices]
    split
    · exact .done ⟨index, hs⟩
    refine .bind (.isCancelled (Q := fun _ log => J index scan log) fun _ _ => hs)
      fun b log hs => ?_
    cases b with
    | true => exact .done ⟨index, h.stopped hs⟩
    | false =>
      refine .bind (.derive (Q := fun r log => J index scan log ∧ t.Derives A _ r) fun r hr =>
        ⟨h.asked (.derivation _) hs, hr⟩) fun r log ⟨hs, hr⟩ => ?_
      cases r with
      | error e => exact .done ⟨index, h.failed (some ⟨_, e⟩) (by rintro f ⟨rfl⟩; exact hr) hs⟩
      | ok derived =>
        have hnat : (UInt32.ofNat index).toNat = index :=
          UInt32.toNat_ofNat_of_lt' (show index < indexSpace by omega)
        refine .bind (h.visit hs derived.address) fun scan log hs => ?_
        refine .bind (h.lookupUtxos hs derived.address) fun utxos log ⟨hs, hu⟩ => ?_
        refine .bind (h.recordFound hs (Nat.le_of_eq hnat.symm) hr hu) fun scan log hs => ?_
        rw [hnat] at hs
        exact ih hs (by omega)

theorem takeOrLookup (h : Sustained A t J) (hs : J n scan log) {view : Option BulkView}
    (hv : ∀ v, view = some v → v.Listed A) (address : String) :
    Records A looks log (takeOrLookup t view address scan) fun r log =>
      J n scan log ∧ (r.2.1 ≠ [] → Lists A address r.2.1) ∧ ∀ v, r.2.2 = some v → v.Listed A := by
  cases view with
  | none =>
    exact .bind (h.lookupUtxos hs address) fun utxos log ⟨hs, hu⟩ => .done ⟨hs, hu, by simp⟩
  | some view =>
    have hl := hv view rfl
    refine .done ⟨hs, fun hne => ?_, by rintro v ⟨rfl⟩; exact hl.erase address⟩
    cases hf : view.find? address with
    | none => simp [hf] at hne
    | some utxos => simpa [hf] using hl.find? hf (by simpa [hf] using hne)

theorem scanBatch (h : Sustained A t J) (hs : J n scan log) {batch : List Position}
    (ha : Ascend n m batch) (hb : ∀ p ∈ batch, t.Derives A p.index (.ok p.derived))
    {view : Option BulkView} (hv : ∀ v, view = some v → v.Listed A) :
    Records A looks log (scanBatch t batch view gap scan) fun r log => J m r.2 log := by
  induction batch generalizing n view gap scan log with
  | nil => exact .done (h.passed ha hs)
  | cons p rest ih =>
    obtain ⟨hp, hrest⟩ := List.forall_mem_cons.mp hb
    simp only [Discovery.scanBatch]
    split
    · exact .done (h.passed ha.le hs)
    refine .bind (.isCancelled (Q := fun _ log => J n scan log) fun _ _ => hs) fun b log hs => ?_
    cases b with
    | true => exact .done (h.stopped (h.passed ha.le hs))
    | false =>
      refine .bind (h.visit hs p.derived.address) fun scan log hs => ?_
      refine .bind (h.takeOrLookup hs hv p.derived.address) fun r log ⟨hs, hu, hv⟩ => ?_
      exact .bind (h.recordFound hs ha.1 hp hu) fun scan log hs => ih hs ha.2 hrest hv

/-- One query per batch sustains the invariant. -/
theorem scanBatches (h : Sustained A t J) {left start : Nat} (hs : J start scan log)
    (hspace : start ≤ indexSpace) :
    Records A looks log (scanBatches t left start gap scan) fun scan log => ∃ n, J n scan log := by
  induction left generalizing start gap scan log with
  | zero => exact .done ⟨start, hs⟩
  | succ left ih =>
    simp only [Discovery.scanBatches]
    split
    · exact .done ⟨start, hs⟩
    refine .bind (.isCancelled (Q := fun _ log => J start scan log) fun _ _ => hs)
      fun b log hs => ?_
    cases b with
    | true => exact .done ⟨start, h.stopped hs⟩
    | false =>
      refine .bind (.deriveBatch (P := J start scan) h.asked hs _ _ (by omega))
        fun ⟨batch, failure⟩ log ⟨hs, ⟨ha, hb⟩, hf⟩ => ?_
      by_cases hbe : batch.isEmpty
      · simp only [hbe, ↓reduceIte]
        exact .done ⟨start, h.failed failure hf hs⟩
      simp only [hbe, Bool.false_eq_true, ↓reduceIte]
      refine .bind (.bulkLookup (P := J start scan) h.asked hs _) fun view log ⟨hs, hv⟩ => ?_
      have hview : ∀ v, view.toOption = some v → v.Listed A := by
        cases view with
        | error e => simp [Except.toOption]
        | ok view => rintro _ ⟨rfl⟩; exact hv view rfl
      refine .bind (h.scanBatch hs ha hb hview) fun ⟨gap, scan⟩ log hs => ?_
      -- The batch was cut short by the token, was the last one, or others follow.
      split
      · exact .done ⟨_, hs⟩
      split
      · split
        · exact .done ⟨_, hs⟩
        · exact .done ⟨_, h.failed failure hf hs⟩
      case isFalse hfull =>
        have hlength : start + batch.length ≤ _ := ha.length_le
        exact ih (h.passed (by omega) hs) (by omega)

/-- What is sustained from the first index on holds when the scan of the chain ends. -/
theorem scanChain (h : Sustained A t J) (hs : J 0 scan log) (s : Scanner) (gapLimit : UInt32) :
    Records A looks log (s.scanChain t gapLimit scan) fun scan log => ∃ n, J n scan log := by
  unfold Scanner.scanChain
  split
  · exact h.scanBatches hs (Nat.zero_le _)
  · exact h.scanIndices hs (by omega)

/-- In a range, positions are counted without a report. -/
theorem recordRange (h : Sustained A t J)
    (hcount : ∀ {n scan log}, J n scan log → J n scan.counted log) (hs : J n scan log)
    {positions : List Position} (ha : Ascend n m positions)
    (hp : ∀ p ∈ positions, t.Derives A p.index (.ok p.derived)) {view : BulkView}
    (hv : view.Listed A) : Records A looks log (recordRange t positions view scan) (J m) := by
  induction positions generalizing n view scan log with
  | nil => exact .done (h.passed ha hs)
  | cons p rest ih =>
    obtain ⟨hfirst, hrest⟩ := List.forall_mem_cons.mp hp
    have hheld : (view.find? p.derived.address).getD [] ≠ [] →
        Lists A p.derived.address ((view.find? p.derived.address).getD []) := by
      intro hne
      cases hf : view.find? p.derived.address with
      | none => simp [hf] at hne
      | some utxos => simpa [hf] using hv.find? hf (by simpa [hf] using hne)
    exact .bind (h.recordFound (hcount hs) ha.1 hfirst hheld) fun scan log hs =>
      ih hs ha.2 hrest (hv.erase p.derived.address)

end Chain

end Sustained

section Scheme

variable {s : Scanner} {seed : Seed} {scheme : PathScheme} {scan : SchemeScan} {chain : Chain}
  {chains : List Chain}

/-- `J` survives the scans of the chains, one after the other. It may also depend on the chains that
are left, with the one that is being scanned in front. -/
structure Relayed (A : (c : Call) → c.Answer → Prop) (s : Scanner) (seed : Seed)
    (scheme : PathScheme) (chains : List Chain)
    (J : List Chain → Nat → SchemeScan → List Call → Prop) : Prop where
  sustained : ∀ {chain rest}, chain :: rest <:+ chains →
    Sustained A ⟨s.options, seed, scheme, chain⟩ (J (chain :: rest))
  next : ∀ {chain rest n scan log}, chain :: rest <:+ chains → J (chain :: rest) n scan log →
    J rest 0 scan log

namespace Relayed

section Chains

variable {J : List Chain → Nat → SchemeScan → List Call → Prop}

theorem tail (h : Relayed A s seed scheme (chain :: chains) J) :
    Relayed A s seed scheme chains J where
  sustained hrest := h.sustained (hrest.trans (List.suffix_cons _ _))
  next hrest := h.next (hrest.trans (List.suffix_cons _ _))

theorem scanChains (h : Relayed A s seed scheme chains J) (hs : J chains 0 scan log)
    (gapLimit : UInt32) :
    Records A looks log (s.scanChains seed scheme gapLimit chains scan) fun scan log =>
      ∃ left n, J left n scan log := by
  induction chains generalizing scan log with
  | nil => exact .done ⟨_, _, hs⟩
  | cons chain rest ih =>
    have hfirst := h.sustained List.suffix_rfl
    refine .bind (.isCancelled (Q := fun _ log => J _ 0 scan log) fun _ _ => hs) fun b log hs => ?_
    cases b with
    | true => exact .done ⟨_, _, hfirst.stopped hs⟩
    | false =>
      refine .bind (hfirst.scanChain hs s gapLimit) fun scan log ⟨n, hs⟩ => ?_
      split
      · exact .done ⟨_, n, hs⟩
      · exact ih h.tail (h.next List.suffix_rfl hs)

/-- **What the chains of a scan hand on holds of its outcome and its log.** -/
theorem scanScheme
    (h : Relayed A s seed scheme (scheme.chains s.options.scanChangeAddresses) J)
    (hs : J (scheme.chains s.options.scanChangeAddresses) 0 (.start scheme.name) log)
    (gapLimit : UInt32) (priorityIndex : Nat) :
    Records A looks log (s.scanScheme seed scheme gapLimit priorityIndex) fun o log =>
      ∃ scan left n, o = SchemeScan.outcome scan priorityIndex ∧ J left n scan log :=
  .bind (h.scanChains hs gapLimit) fun scan _ ⟨left, n, hs⟩ => .done ⟨scan, left, n, rfl, hs⟩

/-- What the chains hand on holds at the end of a range, and of what was gathered when a bulk call
ended it. -/
theorem scanRange (h : Relayed A s seed scheme chains J)
    (hcount : ∀ {left n scan log}, J left n scan log → J left n scan.counted log)
    (hs : J chains 0 scan log) {start count : Nat} (hspace : start + count ≤ indexSpace)
    (noted : List ScanFailure) :
    Records A looks log
      (s.scanRange seed scheme (List.range' start count) chains noted scan) fun r log =>
        ∃ scan left n, J left n scan log ∧
          ∀ noted scan', r = .ok (noted, scan') → scan' = scan := by
  induction chains generalizing noted scan log with
  | nil => exact .done ⟨scan, _, _, hs, by rintro _ _ ⟨rfl⟩; rfl⟩
  | cons chain rest ih =>
    have hfirst := h.sustained List.suffix_rfl
    refine .bind (.isCancelled (Q := fun _ log => J _ 0 scan log) fun _ _ => hs) fun b log hs => ?_
    cases b with
    | true => exact .done ⟨_, _, _, hfirst.stopped hs, by rintro _ _ ⟨rfl⟩; rfl⟩
    | false =>
      refine .bind (.deriveRange (P := J _ 0 scan) hfirst.asked hs start count hspace)
        fun ⟨positions, failures⟩ log ⟨hs, ha, hp⟩ => ?_
      refine .bind (.bulkLookup (P := J _ 0 scan) hfirst.asked hs _) fun r log ⟨hs, hv⟩ => ?_
      cases r with
      | error e => exact .done ⟨scan, _, _, hs, by simp⟩
      | ok view =>
        have hstart := hfirst.passed (Nat.zero_le start) hs
        refine .bind (hfirst.recordRange hcount hstart ha hp (hv view rfl)) fun scan log hs => ?_
        exact ih h.tail (h.next List.suffix_rfl hs) _

end Chains

/-- What every chain sustains by itself. -/
theorem of_sustained {J : SchemeScan → List Call → Prop}
    (h : ∀ chain ∈ chains, Sustained A ⟨s.options, seed, scheme, chain⟩ fun _ => J) :
    Relayed A s seed scheme chains fun _ _ => J where
  sustained hsuffix := h _ (hsuffix.subset List.mem_cons_self)
  next _ hs := hs

end Relayed

end Scheme

end FundRecovery.Discovery

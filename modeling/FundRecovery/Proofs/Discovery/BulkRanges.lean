import FundRecovery.Proofs.Discovery.Batches
import FundRecovery.Proofs.Discovery.CancelledScans
import FundRecovery.Proofs.Discovery.GapWindow
import FundRecovery.Proofs.Discovery.Settings

/-!
# Ranges asked in bulk

A range of indices is checked on every chain with one activity check, whatever derivations fail in
it, and the token may be cancelled between any two chains.

* `Attests`: a bulk backend that reports at least the addresses that hold outputs, and fetches what
  they hold. `Serves`: bulk calls that do not fail.
* `positionsIn`, `failuresIn`: what derives in a range, and what is noted of the rest of it.
* `bulkLookup_attested`, `deriveRange_attested`, `recordRange_takes`: the three parts of a chain.
* `scanRange_covers`: the chains that are covered are the first ones, each as a whole.
* `recoverBeyondGap_exact`: so is the result of a range that a bulk backend serves.
-/

namespace FundRecovery.Discovery

variable {σ : Type} {answer : (c : Call) → c.Answer} {looks : Bool → Prop} {log : List Call}
  {t : Target}

/-! ## Backends that leave out nothing -/

/-- A bulk call fails, or reports at least the addresses that hold outputs as active, and fetches
what they hold. Other calls have fixed answers. -/
def Attests (answer : (c : Call) → c.Answer) : (c : Call) → c.Answer → Prop
  | .checkActivity addresses, r => ∀ activity, r = .ok activity → ∀ address ∈ addresses,
      outputsAt answer address ≠ [] → ∃ x ∈ activity, x.address = address ∧ x.hasActivity = true
  | .fetchUtxos addresses, r => ∀ fetched, r = .ok fetched →
      (∀ f ∈ fetched, f.address ∈ addresses → f.utxos = outputsAt answer f.address) ∧
        ∀ address ∈ addresses, outputsAt answer address ≠ [] → ∃ f ∈ fetched, f.address = address
  | c, r => r = answer c

/-- A bulk call does not fail. -/
def Serves : (c : Call) → c.Answer → Prop
  | .checkActivity _, r => ∃ activity, r = .ok activity
  | .fetchUtxos _, r => ∃ fetched, r = .ok fetched
  | _, _ => True

/-- The view leads to the outputs of each of the addresses. -/
def BulkView.Holds (answer : (c : Call) → c.Answer) (view : BulkView) (addresses : List String) :
    Prop :=
  ∀ address ∈ addresses, (view.find? address).getD [] = outputsAt answer address

/-- Active addresses have in the view what was fetched for them, others have nothing. -/
theorem holds_fetched {addresses active : List String} {fetched : List AddressUtxos}
    (hactive : ∀ address ∈ addresses, outputsAt answer address ≠ [] → address ∈ active)
    (hutxos : ∀ f ∈ fetched, f.address ∈ active → f.utxos = outputsAt answer f.address)
    (hcomplete : ∀ address ∈ active, outputsAt answer address ≠ [] →
      ∃ f ∈ fetched, f.address = address) :
    (fetched.foldl BulkView.update (.ofActive active)).Holds answer addresses := by
  intro address ha
  rw [BulkView.find?_foldl_update, BulkView.find?_ofActive]
  have hentries (hmem : address ∈ active) :
      ∀ f ∈ fetched, f.address = address → f.utxos = outputsAt answer address := by
    rintro f hf rfl
    exact hutxos f hf hmem
  by_cases hempty : outputsAt answer address = []
  · rw [hempty] at hentries ⊢
    split
    · rename_i hmem
      exact BulkView.lastFetched_self (hentries hmem)
    · rfl
  · have hmem := hactive address ha hempty
    rw [if_pos hmem]
    exact BulkView.lastFetched_eq [] (hentries hmem) (hcomplete address hmem hempty)

/-- The queries of a bulk lookup: an activity check, then a fetch of some of the addresses or none.
-/
inductive BulkQueries (addresses : List String) : List Call → Prop where
  | checked : BulkQueries addresses [.checkActivity addresses]
  | fetched {active : List String} (h : ∀ address ∈ active, address ∈ addresses) :
      BulkQueries addresses [.checkActivity addresses, .fetchUtxos active]

/-- A bulk lookup fails or has the outputs of all addresses. -/
theorem bulkLookup_attested (addresses : List String) :
    Records (Attests answer) looks log (bulkLookup addresses) fun r log' =>
      (∃ asked, BulkQueries addresses asked ∧ log' = log ++ asked) ∧
        ∀ view, r = .ok view → view.Holds answer addresses := by
  refine .bind (.call (Q := fun r log' => log' = log ++ [.checkActivity addresses] ∧
    Attests answer (.checkActivity addresses) r) fun r hr => ⟨rfl, hr⟩) ?_
  rintro (e | activity) _ ⟨rfl, hr⟩
  · exact .done ⟨⟨_, .checked, rfl⟩, by simp⟩
  have hactive : ∀ address ∈ addresses, outputsAt answer address ≠ [] →
      address ∈ activeAddresses addresses activity := fun address ha hheld =>
    mem_activeAddresses.mpr ⟨ha, hr activity rfl address ha hheld⟩
  by_cases hnone : (activeAddresses addresses activity).isEmpty
  · simp only [hnone, ↓reduceIte]
    refine .done ⟨⟨_, .checked, rfl⟩, ?_⟩
    rintro _ ⟨rfl⟩
    rw [List.isEmpty_iff.mp hnone] at hactive
    exact holds_fetched hactive (List.forall_mem_nil _) (List.forall_mem_nil _)
  · simp only [hnone, Bool.false_eq_true, ↓reduceIte]
    refine .bind (.call (Q := fun r log' => log' = log ++ [.checkActivity addresses] ++
      [.fetchUtxos (activeAddresses addresses activity)] ∧
      Attests answer (.fetchUtxos (activeAddresses addresses activity)) r)
      fun r hr => ⟨rfl, hr⟩) ?_
    have hasked : ∃ asked, BulkQueries addresses asked ∧
        log ++ [.checkActivity addresses] ++
          [.fetchUtxos (activeAddresses addresses activity)] = log ++ asked :=
      ⟨_, .fetched fun address ha => (mem_activeAddresses.mp ha).1, List.append_assoc ..⟩
    rintro (e | fetched) _ ⟨rfl, hr⟩
    · exact .done ⟨hasked, by simp⟩
    · obtain ⟨hutxos, hcomplete⟩ := hr fetched rfl
      refine .done ⟨hasked, ?_⟩
      rintro _ ⟨rfl⟩
      exact holds_fetched hactive hutxos hcomplete

/-- Where bulk calls do not fail, a bulk lookup does not. -/
theorem bulkLookup_serves (addresses : List String) :
    Records Serves looks log (bulkLookup addresses) fun r _ => ∃ view, r = .ok view := by
  refine .bind (.call (Q := fun r _ => Serves (.checkActivity addresses) r) fun r hr => hr) ?_
  rintro _ log₁ ⟨activity, rfl⟩
  dsimp only
  split
  · exact .done ⟨_, rfl⟩
  · refine .bind (.call (Q := fun r _ => Serves (.fetchUtxos _) r) fun r hr => hr) ?_
    rintro _ _ ⟨fetched, rfl⟩
    exact .done ⟨_, rfl⟩

/-! ## One chain -/

section Chain

variable (answer) (t)

/-- What is derived at index `i`, if its derivation succeeds. -/
def positionAt (i : Nat) : Option Position :=
  match t.derived answer i with
  | .ok d => some ⟨UInt32.ofNat i, d⟩
  | .error _ => none

/-- What is noted of index `i`, if its derivation fails. -/
def failureAt (i : Nat) : Option ScanFailure :=
  match t.derived answer i with
  | .ok _ => none
  | .error e => some (.forScheme t.scheme.name
      ("derivation failed at index " ++ toString i ++ ": " ++ e.message))

/-- What is derived from index `i` on and below `n`. -/
def positionsIn (i n : Nat) : List Position :=
  (List.range' i (n - i)).filterMap (positionAt answer t)

/-- What is noted from index `i` on and below `n`. -/
def failuresIn (i n : Nat) : List ScanFailure :=
  (List.range' i (n - i)).filterMap (failureAt answer t)

/-- The queries about a chain: the derivations, then the bulk lookup of what they gave. -/
inductive RangeQueries (i n : Nat) : List Call → Prop where
  | intro {asked : List Call}
      (h : BulkQueries ((positionsIn answer t i n).map (·.derived.address)) asked) :
      RangeQueries i n
        ((List.range' i (n - i)).map (fun j => t.derivation (UInt32.ofNat j)) ++ asked)

end Chain

variable {i n : Nat} {scan : SchemeScan}

/-- A position has its index and what that derives to. -/
theorem derived_of_positionAt {p : Position} (h : positionAt answer t i = some p) :
    p.index = UInt32.ofNat i ∧ t.derived answer i = .ok p.derived := by
  unfold positionAt at h
  split at h
  · rename_i d hd
    obtain rfl := Option.some.inj h
    exact ⟨rfl, hd⟩
  · cases h

theorem derives_attests {r : Except DerivationError DerivedAddress}
    (h : t.Derives (Attests answer) (UInt32.ofNat i) r) : r = t.derived answer i := by
  unfold Target.Derives at h
  unfold Target.derived Target.derive
  split at h <;> rename_i hl <;> simp only [hl, Bool.false_eq_true, ↓reduceIte] <;> exact h

/-- Each index of a range is derived, and is a position or noted as a failure. -/
theorem deriveRange_attested (i k : Nat) (hspace : i + k ≤ indexSpace) :
    Records (Attests answer) looks log (deriveRange t (List.range' i k)) fun r log' =>
      r.1 = (List.range' i k).filterMap (positionAt answer t) ∧
      r.2.map (fun f => ScanFailure.forScheme t.scheme.name f.message) =
        (List.range' i k).filterMap (failureAt answer t) ∧
      log' = log ++ (List.range' i k).map fun j => t.derivation (UInt32.ofNat j) := by
  induction k generalizing i log with
  | zero => exact .done ⟨rfl, rfl, (List.append_nil log).symm⟩
  | succ k ih =>
    rw [List.range'_succ]
    refine .bind (.derive (Q := fun r log' => r = t.derived answer i ∧
      log' = log ++ [t.derivation (UInt32.ofNat i)]) fun r hr => ⟨derives_attests hr, rfl⟩) ?_
    rintro r _ ⟨hr, rfl⟩
    cases r with
    | error e =>
      refine .bind (ih (i + 1) (by omega)) ?_
      rintro ⟨positions, failures⟩ _ ⟨hpositions, hfailures, rfl⟩
      refine .done ⟨?_, ?_, by rw [List.map_cons, List.append_assoc]; rfl⟩
      · rw [List.filterMap_cons, positionAt, ← hr]
        exact hpositions
      · rw [List.map_cons, List.filterMap_cons, failureAt, ← hr, message_ofNat (by omega)]
        exact congrArg (_ :: ·) hfailures
    | ok d =>
      refine .bind (ih (i + 1) (by omega)) ?_
      rintro ⟨positions, failures⟩ _ ⟨hpositions, hfailures, rfl⟩
      refine .done ⟨?_, ?_, by rw [List.map_cons, List.append_assoc]; rfl⟩
      · rw [List.filterMap_cons, positionAt, ← hr]
        exact congrArg (_ :: ·) hpositions
      · rw [List.filterMap_cons, failureAt, ← hr]
        exact hfailures

namespace SchemeScan

/-- Positions are passed one by one, with the outputs of their addresses. -/
def passedAll (answer : (c : Call) → c.Answer) (t : Target) (scan : SchemeScan)
    (positions : List Position) : SchemeScan :=
  positions.foldl (fun scan p =>
    scan.passed t p.index p.derived (outputsAt answer p.derived.address)) scan

/-- Positions are passed one by one, with the outputs that a view has for their addresses. An
address is taken out of the view when it is passed. -/
def takenAll (t : Target) : List Position → BulkView → SchemeScan → SchemeScan
  | [], _, scan => scan
  | p :: rest, view, scan => takenAll t rest (view.erase p.derived.address)
      (scan.passed t p.index p.derived ((view.find? p.derived.address).getD []))

/-- Of distinct addresses, the outputs that a view holds are taken. -/
theorem takenAll_holds {positions : List Position} {view : BulkView}
    (hv : view.Holds answer (positions.map (·.derived.address)))
    (hnodup : (positions.map (·.derived.address)).Nodup) (scan : SchemeScan) :
    takenAll t positions view scan = scan.passedAll answer t positions := by
  induction positions generalizing view scan with
  | nil => rfl
  | cons p rest ih =>
    obtain ⟨hfresh, hnodup⟩ := List.nodup_cons.mp hnodup
    have hrest : (view.erase p.derived.address).Holds answer (rest.map (·.derived.address)) := by
      intro address ha
      have hne : address ≠ p.derived.address := by
        rintro rfl
        exact hfresh ha
      rw [BulkView.find?_erase_ne hne]
      exact hv address (List.mem_cons_of_mem _ ha)
    have hfirst : (view.find? p.derived.address).getD [] = outputsAt answer p.derived.address :=
      hv _ List.mem_cons_self
    rw [takenAll, hfirst]
    exact ih hrest hnodup _

end SchemeScan

/-- What the view has is recorded, and nobody is asked. -/
theorem recordRange_takes {A : (c : Call) → c.Answer → Prop} (positions : List Position)
    (view : BulkView) (scan : SchemeScan) (log : List Call) :
    Records A looks log (recordRange t positions view scan) fun scan' log' =>
      scan' = SchemeScan.takenAll t positions view scan ∧ queries log' = queries log := by
  induction positions generalizing view scan log with
  | nil => exact .done ⟨rfl, rfl⟩
  | cons p rest ih =>
    refine .bind (Q := fun scan' log' => scan' = scan.passed t p.index p.derived
      ((view.find? p.derived.address).getD []) ∧ queries log' = queries log) ?_
      fun scan' log' ⟨hscan, hlog⟩ => ?_
    · unfold recordFound SchemeScan.passed SchemeScan.recorded
      split
      · exact .done ⟨rfl, rfl⟩
      · refine .bind (.report (Q := fun _ log' => queries log' = queries log) ?_)
          fun _ log' hlog => .done ⟨rfl, hlog⟩
        rw [queries_append, queries_reports, List.append_nil]
    · subst hscan
      exact (ih _ _ log').mono fun scan' log'' ⟨hscan, hlog'⟩ => ⟨hscan, hlog'.trans hlog⟩

/-- What was gathered before, and these discoveries and counted addresses on top of it. -/
structure SchemeScan.Gathers (scan scan' : SchemeScan) (found : List DiscoveredAddress)
    (scanned : Nat) : Prop where
  schemeName : scan'.schemeName = scan.schemeName
  found : scan'.found = scan.found ++ found
  scanned : scan'.scanned = scan.scanned + scanned
  failure : scan'.failure = scan.failure

namespace SchemeScan.Gathers

variable {scan' scan'' : SchemeScan} {found found' : List DiscoveredAddress}
  {scanned scanned' : Nat}

theorem refl (scan : SchemeScan) : scan.Gathers scan [] 0 :=
  ⟨rfl, (List.append_nil _).symm, rfl, rfl⟩

theorem trans (h : scan.Gathers scan' found scanned) (h' : scan'.Gathers scan'' found' scanned') :
    scan.Gathers scan'' (found ++ found') (scanned + scanned') where
  schemeName := h'.schemeName.trans h.schemeName
  found := by rw [h'.found, h.found, List.append_assoc]
  scanned := by rw [h'.scanned, h.scanned, Nat.add_assoc]
  failure := h'.failure.trans h.failure

end SchemeScan.Gathers

/-- Past the positions of a range, its discoveries are gathered. -/
theorem gathers_passedAll (scan : SchemeScan) (hname : scan.schemeName = t.scheme.name)
    (indices : List Nat) :
    scan.Gathers (scan.passedAll answer t (indices.filterMap (positionAt answer t)))
      (indices.filterMap (discoveryAt answer t))
      (indices.filterMap (positionAt answer t)).length := by
  induction indices generalizing scan with
  | nil => exact .refl scan
  | cons i rest ih =>
    cases hd : t.derived answer i with
    | error e =>
      rw [List.filterMap_cons, List.filterMap_cons, positionAt, discoveryAt, hd]
      exact ih scan hname
    | ok d =>
      have hposition : positionAt answer t i = some ⟨UInt32.ofNat i, d⟩ := by rw [positionAt, hd]
      rw [List.filterMap_cons_some hposition]
      have hrest := ih (scan.passed t (UInt32.ofNat i) d (outputsAt answer d.address))
        (SchemeScan.schemeName_passed.trans hname)
      exact {
        schemeName := hrest.schemeName.trans SchemeScan.schemeName_passed
        found := by
          rw [SchemeScan.passedAll, List.foldl_cons]
          refine hrest.found.trans ?_
          rw [found_passed hname hd, List.append_assoc, List.filterMap_cons]
          cases discoveryAt answer t i <;> rfl
        scanned := by
          refine hrest.scanned.trans ?_
          rw [SchemeScan.scanned_passed, List.length_cons]
          omega
        failure := hrest.failure.trans SchemeScan.failure_passed }

@[simp] theorem SchemeScan.cancelled_passedAll (positions : List Position) :
    (scan.passedAll answer t positions).cancelled = scan.cancelled := by
  induction positions generalizing scan with
  | nil => rfl
  | cons p rest ih => exact ih.trans cancelled_passed

/-- The addresses of a range are distinct. -/
theorem nodup_positionsIn (hdistinct : Distinct answer t) (hi : i ≤ n) (hn : n ≤ indexSpace) :
    ((positionsIn answer t i n).map (·.derived.address)).Nodup := by
  rw [List.Nodup, List.pairwise_map, positionsIn, List.pairwise_filterMap]
  refine List.Pairwise.imp_of_mem (fun {j k} hj hk hne p hp q hq haddress => hne ?_)
    (List.nodup_range' (s := i) (n := n - i))
  have hj := (List.mem_range'_1.mp hj).2
  have hk := (List.mem_range'_1.mp hk).2
  exact hdistinct j (by omega) k (by omega) _ _ (derived_of_positionAt hp).2
    (derived_of_positionAt hq).2 haddress

/-- No query about a range is a report or a lookup of a single address. -/
theorem RangeQueries.of_mem {asked : List Call} (h : RangeQueries answer t i n asked) {c : Call}
    (hc : c ∈ asked) : c.event? = none ∧ c.lookup? = none := by
  obtain ⟨hasked⟩ := h
  rcases List.mem_append.mp hc with hc | hc
  · obtain ⟨j, -, rfl⟩ := List.mem_map.mp hc
    unfold Target.derivation
    split <;> exact ⟨rfl, rfl⟩
  · cases hasked with
    | checked =>
      obtain rfl := List.mem_singleton.mp hc
      exact ⟨rfl, rfl⟩
    | fetched =>
      rcases List.mem_cons.mp hc with rfl | hc
      · exact ⟨rfl, rfl⟩
      · obtain rfl := List.mem_singleton.mp hc
        exact ⟨rfl, rfl⟩

theorem RangeQueries.queries {asked : List Call} (h : RangeQueries answer t i n asked) :
    queries asked = asked :=
  List.filter_eq_self.mpr fun c hc => by rw [(h.of_mem hc).1]; rfl

theorem RangeQueries.lookups {asked : List Call} (h : RangeQueries answer t i n asked) :
    lookups asked = [] :=
  List.filterMap_eq_nil_iff.mpr fun _ hc => (h.of_mem hc).2

/-! ## All chains -/

section Scheme

variable {s : Scanner} {seed : Seed} {scheme : PathScheme} {chain : Chain}
  {chains covered : List Chain} {scan' : SchemeScan} {noted : List ScanFailure} {asked : List Call}

/-- How a range scan ends that covers the first chains: what is noted and gathered of them, and the
queries about them. -/
structure RangeEnd (answer : (c : Call) → c.Answer) (s : Scanner) (seed : Seed)
    (scheme : PathScheme) (i n : Nat) (chains covered : List Chain) (scan scan' : SchemeScan)
    (noted : List ScanFailure) (asked : List Call) : Prop where
  first : covered <+: chains
  noted : noted = covered.flatMap fun chain => failuresIn answer (s.target seed scheme chain) i n
  gathers : scan.Gathers scan'
    (covered.flatMap fun chain => discoveriesIn answer (s.target seed scheme chain) i n)
    (totalOf (fun chain => (positionsIn answer (s.target seed scheme chain) i n).length) covered)
  cancelled : scan'.cancelled = true ↔ covered ≠ chains
  asked : ∃ segments, asked = segments.flatten ∧
    List.Forall₂ (fun chain => RangeQueries answer (s.target seed scheme chain) i n) covered
      segments

namespace RangeEnd

theorem nil (hgoing : scan.cancelled = false) :
    RangeEnd answer s seed scheme i n [] [] scan scan [] [] where
  first := List.nil_prefix
  noted := rfl
  gathers := .refl scan
  cancelled := by simp [hgoing]
  asked := ⟨[], rfl, .nil⟩

/-- Cancelled before the next chain. -/
theorem stopped (chain : Chain) (chains : List Chain) (scan : SchemeScan) :
    RangeEnd answer s seed scheme i n (chain :: chains) [] scan { scan with cancelled := true } []
      [] where
  first := List.nil_prefix
  noted := rfl
  gathers := ⟨rfl, (List.append_nil _).symm, rfl, rfl⟩
  cancelled := by simp
  asked := ⟨[], rfl, .nil⟩

/-- Another chain is covered before the others. -/
theorem cons {segment : List Call} (hname : scan.schemeName = scheme.name)
    (hsegment : RangeQueries answer (s.target seed scheme chain) i n segment)
    (h : RangeEnd answer s seed scheme i n chains covered
      (scan.passedAll answer (s.target seed scheme chain)
        (positionsIn answer (s.target seed scheme chain) i n)) scan' noted asked) :
    RangeEnd answer s seed scheme i n (chain :: chains) (chain :: covered) scan scan'
      (failuresIn answer (s.target seed scheme chain) i n ++ noted) (segment ++ asked) where
  first := List.cons_prefix_cons.mpr ⟨rfl, h.first⟩
  noted := by rw [h.noted, List.flatMap_cons]
  gathers := by
    have hchain : scan.Gathers _ (discoveriesIn answer (s.target seed scheme chain) i n) _ :=
      gathers_passedAll scan hname (List.range' i (n - i))
    exact hchain.trans h.gathers
  cancelled := by rw [h.cancelled]; simp
  asked := by
    obtain ⟨segments, rfl, hsegments⟩ := h.asked
    exact ⟨segment :: segments, rfl, .cons hsegment hsegments⟩

end RangeEnd

/-- **A range scan that no bulk call ends covers the first chains as a whole.** These are all,
unless the token was found cancelled. -/
theorem scanRange_covers
    (hdistinct : ∀ chain ∈ chains, Distinct answer (s.target seed scheme chain))
    (hi : i ≤ n) (hn : n ≤ indexSpace) (hname : scan.schemeName = scheme.name)
    (hgoing : scan.cancelled = false)
    (noted : List ScanFailure) (log : List Call) :
    Records (Attests answer) looks log
      (s.scanRange seed scheme (List.range' i (n - i)) chains noted scan) fun r log' =>
        ∀ noted' scan', r = .ok (noted', scan') → (scan'.cancelled = true → looks true) ∧
          ∃ covered new asked, noted' = noted ++ new ∧ queries log' = queries log ++ asked ∧
            RangeEnd answer s seed scheme i n chains covered scan scan' new asked := by
  induction chains generalizing noted scan log with
  | nil =>
    refine .done ?_
    rintro _ _ ⟨rfl⟩
    exact ⟨by simp [hgoing], [], [], [], (List.append_nil _).symm, (List.append_nil _).symm,
      .nil hgoing⟩
  | cons chain rest ih =>
    obtain ⟨hchain, hrest⟩ := List.forall_mem_cons.mp hdistinct
    refine .bind (.isCancelled (Q := fun b log' => looks b ∧ log' = log) fun b hb => ⟨hb, rfl⟩) ?_
    rintro b _ ⟨hlook, rfl⟩
    cases b with
    | true =>
      refine .done ?_
      rintro _ _ ⟨rfl⟩
      exact ⟨fun _ => hlook, [], [], [], (List.append_nil _).symm, (List.append_nil _).symm,
        .stopped chain rest scan⟩
    | false =>
      refine .bind (deriveRange_attested (t := s.target seed scheme chain) i (n - i) (by omega)) ?_
      rintro ⟨positions, failures⟩ _ ⟨rfl, hfailures, rfl⟩
      refine .bind (bulkLookup_attested _) ?_
      rintro r _ ⟨⟨asked, hasked, rfl⟩, hview⟩
      have hsegment : RangeQueries answer (s.target seed scheme chain) i n
          ((List.range' i (n - i)).map
            (fun j => (s.target seed scheme chain).derivation (UInt32.ofNat j)) ++ asked) :=
        ⟨hasked⟩
      cases r with
      | error e => exact .done (by simp)
      | ok view =>
        refine .bind (recordRange_takes _ view scan _) ?_
        rintro _ log' ⟨rfl, hlog'⟩
        rw [SchemeScan.takenAll_holds (hview view rfl) (nodup_positionsIn hchain hi hn)]
        refine (ih hrest (gathers_passedAll scan hname _ |>.schemeName.trans hname) (by simpa) _
          log').mono fun r log'' hend noted' scan' hr => ?_
        obtain ⟨hlook, covered, new, later, rfl, hlog'', hend⟩ := hend noted' scan' hr
        refine ⟨hlook, chain :: covered, _, _, ?_, ?_, hend.cons hname hsegment⟩
        · rw [List.append_assoc]
          exact congrArg (fun found => noted ++ (found ++ new)) hfailures
        · rw [hlog'', hlog', List.append_assoc, queries_append, hsegment.queries, List.append_assoc]

/-- Where bulk calls do not fail, a range scan does not. -/
theorem scanRange_serves (indices : List Nat) (chains : List Chain) (noted : List ScanFailure)
    (scan : SchemeScan) (log : List Call) :
    Records Serves looks log (s.scanRange seed scheme indices chains noted scan) fun r _ =>
      ∃ x, r = .ok x := by
  induction chains generalizing noted scan log with
  | nil => exact .done ⟨_, rfl⟩
  | cons chain rest ih =>
    refine .bind (.trivial _) fun b log _ => ?_
    cases b with
    | true => exact .done ⟨_, rfl⟩
    | false =>
      refine .bind (.trivial _) fun derived log _ => .bind (bulkLookup_serves _) ?_
      rintro _ log ⟨view, rfl⟩
      exact .bind (.trivial _) fun scan log _ => ih _ scan log

/-- What the result of a range says that covers these chains. -/
structure RangeReport (answer : (c : Call) → c.Answer) (s : Scanner) (seed : Seed)
    (scheme : PathScheme) (i n : Nat) (covered : List Chain) (result : ScanResult) : Prop where
  schemesScanned : result.schemesScanned = [scheme.name]
  passphraseUsed : result.passphraseUsed = ""
  addresses : result.addresses =
    covered.flatMap fun chain => discoveriesIn answer (s.target seed scheme chain) i n
  addressesScanned : result.addressesScanned =
    totalOf (fun chain => (positionsIn answer (s.target seed scheme chain) i n).length) covered
  errors : result.errors =
    (covered.flatMap fun chain => failuresIn answer (s.target seed scheme chain) i n) ++
      if result.cancelled then [Attempt.cancelledNote] else []

/-- The outcome of a scan that did not fail, after failures that were noted. -/
theorem absorb_noted {o : SchemeOutcome} (ho : o.failure = none) (noted : List ScanFailure) :
    (noted.foldl Attempt.recordFailure (.start "")).absorb o =
      { Attempt.gathered "" [o] with errors := noted } := by
  rw [Attempt.foldl_recordFailure, Attempt.gathered, List.foldl_cons, List.foldl_nil]
  unfold Attempt.absorb
  rw [ho]
  dsimp only
  split <;> rfl

/-- What a scan found that did not fail is what its result has. -/
theorem addresses_noted (hfailure : scan.failure = none) (noted : List ScanFailure) :
    ((noted.foldl Attempt.recordFailure (.start "")).absorb (scan.outcome 0)).result.addresses =
      scan.found := by
  have ho : (scan.outcome 0).failure = none := hfailure
  have hnodup : ([scan.outcome 0].map (·.schemeName)).Nodup := List.nodup_singleton _
  have hsound : ∀ o ∈ [scan.outcome 0], o.failure = none := List.forall_mem_singleton.mpr ho
  rw [absorb_noted ho]
  refine (Attempt.addresses_gathered hnodup hsound "" false).trans ?_
  rw [List.flatMap_singleton]
  rfl

theorem RangeEnd.report (h : RangeEnd answer s seed scheme i n chains covered (.start scheme.name)
    scan' noted asked) :
    RangeReport answer s seed scheme i n covered
      ((noted.foldl Attempt.recordFailure (.start "")).absorb (scan'.outcome 0)).result := by
  have hfailure : scan'.failure = none := h.gathers.failure
  have haddresses := addresses_noted hfailure noted
  rw [absorb_noted (show (scan'.outcome 0).failure = none from hfailure)] at haddresses ⊢
  constructor
  case schemesScanned =>
    refine Attempt.schemesScanned_gathered.trans ?_
    exact congrArg (fun name => [name]) h.gathers.schemeName
  case passphraseUsed => exact Attempt.passphrase_gathered "" _
  case addresses => exact haddresses.trans (h.gathers.found.trans (List.nil_append _))
  case addressesScanned =>
    refine (Attempt.addressesScanned_gathered "" _).trans ?_
    rw [totalOf_cons, totalOf_nil]
    exact h.gathers.scanned.trans (Nat.zero_add _)
  case errors =>
    rw [← h.noted]
    unfold Attempt.result
    split <;> simp [*]

/-- A range scan between two logs that covers the first chains, all unless it is cancelled: what its
result says, and its queries. -/
structure RangeChecked (answer : (c : Call) → c.Answer) (s : Scanner) (seed : Seed)
    (scheme : PathScheme) (i n : Nat) (covered : List Chain) (result : ScanResult)
    (log log' : List Call) : Prop where
  first : covered <+: scheme.chains s.options.scanChangeAddresses
  cancelled : result.cancelled = true ↔ covered ≠ scheme.chains s.options.scanChangeAddresses
  report : RangeReport answer s seed scheme i n covered result
  queries : ∃ segments, queries log' = queries log ++ segments.flatten ∧
    List.Forall₂ (fun chain => RangeQueries answer (s.target seed scheme chain) i n) covered
      segments

/-- No single address is looked up. -/
theorem RangeChecked.lookups {result : ScanResult} {log' : List Call}
    (h : RangeChecked answer s seed scheme i n covered result log log') :
    lookups log' = lookups log := by
  obtain ⟨segments, hqueries, hsegments⟩ := h.queries
  have hnone : Discovery.lookups segments.flatten = [] := by
    clear hqueries h
    induction hsegments with
    | nil => rfl
    | cons hsegment _ ih => rw [List.flatten_cons, lookups_append, hsegment.lookups, ih]; rfl
  rw [← lookups_queries, hqueries, lookups_append, hnone, List.append_nil, lookups_queries]

theorem scanRangeInBulk_checks
    (hdistinct : ∀ chain ∈ scheme.chains s.options.scanChangeAddresses,
      Distinct answer (s.target seed scheme chain)) (hi : i ≤ n) (hn : n ≤ indexSpace)
    (log : List Call) :
    Records (Attests answer) looks log
      (s.scanRangeInBulk seed scheme (List.range' i (n - i))) fun r log' =>
        ∀ result, r = .ok result → (result.cancelled = true → looks true) ∧
          ∃ covered, RangeChecked answer s seed scheme i n covered result log log' := by
  refine .bind (scanRange_covers hdistinct hi hn rfl rfl [] log) fun r log' hr => ?_
  cases r with
  | error e => exact .done (by simp)
  | ok x =>
    obtain ⟨noted, scan'⟩ := x
    obtain ⟨hlook, covered, _, asked, rfl, hqueries, hend⟩ := hr noted scan' rfl
    obtain ⟨segments, rfl, hsegments⟩ := hend.asked
    have hcancelled : ((noted.foldl Attempt.recordFailure (.start "")).absorb
        (scan'.outcome 0)).result.cancelled = scan'.cancelled := by
      rw [absorb_noted hend.gathers.failure]
      exact (Attempt.cancelled_absorb _ _).trans (Bool.false_or _)
    refine .done ?_
    rintro _ ⟨rfl⟩
    exact ⟨fun hc => hlook (hcancelled ▸ hc), covered, hend.first, hcancelled ▸ hend.cancelled,
      hend.report, segments, hqueries, hsegments⟩

theorem scanRangeInBulk_serves (indices : List Nat) (log : List Call) :
    Records Serves looks log (s.scanRangeInBulk seed scheme indices) fun r _ =>
      ∃ result, r = .ok result := by
  refine .bind (scanRange_serves ..) ?_
  rintro _ log ⟨⟨noted, scan⟩, rfl⟩
  exact .done ⟨_, rfl⟩

section Recovery

variable {r : BeyondGapRecovery} (hscheme : scheme? r.scheme = some scheme)
  (hrange : r.start < r.stop) (hready : s.checkReady seed [scheme] = .ok ())
  (hbulk : s.usesBulk = true)

include hscheme hrange hready hbulk

/-- A range that a bulk backend serves ends as its scan in bulk. -/
theorem recoverBeyondGap_served {Q : ScanResult → List Call → Prop}
    (h : Records (Attests answer) looks log (s.scanRangeInBulk seed scheme r.indices) fun x log' =>
      ∀ result, x = .ok result → Q result log') :
    Records (fun c a => Attests answer c a ∧ Serves c a) looks log (s.recoverBeyondGap seed r)
      fun x log' => ∃ result, x = .ok result ∧ Q result log' := by
  have hbulk' : Records (fun c a => Attests answer c a ∧ Serves c a) looks log
      (s.scanRangeInBulk seed scheme r.indices) _ := h.anti fun c a ha => ha.1
  have hserves : Records (fun c a => Attests answer c a ∧ Serves c a) looks log
      (s.scanRangeInBulk seed scheme r.indices) _ :=
    (scanRangeInBulk_serves r.indices log).anti fun c a ha => ha.2
  rw [Scanner.recoverBeyondGap, if_neg (UInt32.not_le.mpr hrange), hscheme]
  simp only [hready, hbulk, ↓reduceIte]
  refine .bind (hbulk'.and hserves) ?_
  rintro _ log' ⟨hresult, result, rfl⟩
  exact .done ⟨result, rfl, hresult result rfl⟩

/-- **A range that a bulk backend serves is checked exactly.** The result covers the first chains,
all of them unless it is cancelled: it has the outputs at every index of the range on each of them,
whatever gaps lie between, counts the addresses that were derived and notes the others. Each chain
is checked with one query, and with one fetch at most. -/
theorem recoverBeyondGap_exact
    (hdistinct : ∀ chain ∈ scheme.chains s.options.scanChangeAddresses,
      Distinct answer (s.target seed scheme chain)) {env : Environment σ}
    (h : env.Answers fun c a => Attests answer c a ∧ Serves c a) (w : World (σ × List Answered)) :
    ∃ result w' covered,
      (s.recoverBeyondGap seed r).run env.logged.handler w = (.ok (.ok result), w') ∧
      RangeChecked answer s seed scheme r.start.toNat r.stop.toNat covered result w.calls w'.calls ∧
      lookups w'.calls = lookups w.calls ∧
      (result.cancelled = true → w'.cancelled = true) := by
  have hn : r.stop.toNat ≤ indexSpace := Nat.le_of_lt r.stop.toNat_lt
  have hi : r.start.toNat ≤ r.stop.toNat := Nat.le_of_lt (UInt32.lt_iff_toNat_lt.mp hrange)
  have hchecks (looks : Bool → Prop) : Records _ looks w.calls (s.recoverBeyondGap seed r) _ :=
    recoverBeyondGap_served hscheme hrange hready hbulk
      (scanRangeInBulk_checks hdistinct hi hn w.calls)
  obtain ⟨_, w', calls, hr, hcalls, result, rfl, -, covered, hchecked⟩ :=
    h.run_any (hchecks fun _ => True)
  refine ⟨result, w', covered, hr, hchecked, hchecked.lookups, fun hcancelled => ?_⟩
  -- A token that is not cancelled by the end was never found cancelled.
  by_contra hgoing
  obtain ⟨_, hresult, hlook, -⟩ :=
    h.run_going (hchecks (· = false)) hr (Bool.eq_false_iff.mpr hgoing)
  obtain rfl := Except.ok.inj hresult
  exact Bool.true_eq_false.mp (hlook hcancelled)

end Recovery

end Scheme

/-- Answers without keys at some indices. -/
def withoutKeys (lost : UInt32 → Bool) (answer : (c : Call) → c.Answer) : (c : Call) → c.Answer
  | .deriveAddress seed coinType account change i =>
    if lost i then .error (.failed "no key")
    else answer (.deriveAddress seed coinType account change i)
  | .deriveLegacyAddress seed i =>
    if lost i then .error (.failed "no key") else answer (.deriveLegacyAddress seed i)
  | c => answer c

/-- The addresses that are left are those that there were. -/
theorem Distinct.withoutKeys (h : Distinct answer t) (lost : UInt32 → Bool) :
    Distinct (withoutKeys lost answer) t := by
  have hderived {i : Nat} {d : DerivedAddress}
      (hd : t.derived (Discovery.withoutKeys lost answer) i = .ok d) :
      t.derived answer i = .ok d := by
    unfold Target.derived Target.derive at *
    split at hd <;> rename_i hl <;> simp only [hl, Bool.false_eq_true, ↓reduceIte]
    all_goals
      rw [Scan.value_call, Discovery.withoutKeys] at hd
      split at hd
      · cases hd
      · exact hd
  exact fun i hi j hj d d' hd hd' => h i hi j hj d d' (hderived hd) (hderived hd')

/-- Fixed answers that tell in bulk what they list attest it. -/
theorem attests_self
    (hcheck : ∀ addresses, answer (.checkActivity addresses) =
      .ok (addresses.map fun a => ⟨a, !(outputsAt answer a).isEmpty, 1⟩))
    (hfetch : ∀ addresses, answer (.fetchUtxos addresses) =
      .ok (addresses.map fun a => ⟨a, outputsAt answer a⟩)) (c : Call) :
    Attests answer c (answer c) ∧ Serves c (answer c) := by
  cases c with
  | checkActivity addresses =>
    rw [hcheck]
    refine ⟨?_, _, rfl⟩
    rintro _ ⟨rfl⟩ address ha hheld
    refine ⟨_, List.mem_map_of_mem ha, rfl, ?_⟩
    simpa using hheld
  | fetchUtxos addresses =>
    rw [hfetch]
    refine ⟨?_, _, rfl⟩
    rintro _ ⟨rfl⟩
    refine ⟨fun f hf _ => ?_, fun address ha _ => ⟨_, List.mem_map_of_mem ha, rfl⟩⟩
    obtain ⟨a, -, rfl⟩ := List.mem_map.mp hf
    rfl
  | _ => exact ⟨rfl, .intro⟩

/-- The key at index 5 is missing, there are 5000 satoshis at index 6, and the token is cancelled in
the course of the fetch for the first chain. -/
theorem recoverBeyondGap_exact_stopped :
    let answer := withoutKeys (· = 5) (Environment.ledgerAnswer fun address =>
      if address = "aaaaaa" then [⟨"t", 0, 5000, address, 1⟩] else [])
    let s : Scanner := ⟨.default, true⟩
    let scheme := PathScheme.withDescription (.bip44 "bip44" CoinType.dash [0] 0)
      "Standard BIP44 account 0"
    ∃ result w covered,
      (s.recoverBeyondGap ⟨[7]⟩ ⟨"bip44", 3, 7⟩).run
        (Environment.cancelling answer 6).logged.handler ⟨(0, []), false, 0⟩ =
          (.ok (.ok result), w) ∧
      RangeChecked answer s ⟨[7]⟩ scheme 3 7 covered result [] w.calls ∧
      covered ≠ scheme.chains true ∧ result.addresses.map (·.index) = [6] ∧
      result.errors = [
        .forScheme "bip44" "derivation failed at index 5: Key derivation failed: no key",
        .general "scan cancelled"] := by
  intro answer s scheme
  have hscheme : scheme? "bip44" = some scheme := by decide +kernel
  have hready : s.checkReady ⟨[7]⟩ [scheme] = .ok () := by decide
  have hdistinct : ∀ chain ∈ scheme.chains s.options.scanChangeAddresses,
      Distinct answer (s.target ⟨[7]⟩ scheme chain) :=
    fun _ _ => (distinct_ledgerAnswer _ _).withoutKeys _
  have hanswers : (Environment.cancelling answer 6).Answers fun c a =>
      Attests answer c a ∧ Serves c a :=
    fun c _ => ⟨_, rfl, attests_self (fun _ => rfl) (fun _ => rfl) c⟩
  obtain ⟨result, w, covered, hrun, hchecked, -, -⟩ := recoverBeyondGap_exact
    (r := ⟨"bip44", 3, 7⟩) hscheme (by decide) hready rfl hdistinct hanswers ⟨(0, []), false, 0⟩
  have hresult : ((s.recoverBeyondGap ⟨[7]⟩ ⟨"bip44", 3, 7⟩).run
      (Environment.cancelling answer 6).logged.handler ⟨(0, []), false, 0⟩).1.map
        (·.map fun result => (result.cancelled, result.addresses.map (·.index), result.errors)) =
      .ok (.ok (true, [6], [
        .forScheme "bip44" "derivation failed at index 5: Key derivation failed: no key",
        .general "scan cancelled"])) := by decide +kernel
  have hgot := eq_of_result_map hrun hresult
  obtain ⟨hcancelled, hrest⟩ := Prod.mk.inj hgot
  obtain ⟨hfound, herrors⟩ := Prod.mk.inj hrest
  exact ⟨result, w, covered, hrun, hchecked, hchecked.cancelled.mp hcancelled, hfound, herrors⟩

end FundRecovery.Discovery

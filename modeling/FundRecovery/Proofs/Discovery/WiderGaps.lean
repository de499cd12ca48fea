import FundRecovery.Proofs.Discovery.ChainOptions
import FundRecovery.Proofs.Discovery.LateCalls
import FundRecovery.Proofs.Discovery.Positions
import FundRecovery.Proofs.Discovery.Rejections
import FundRecovery.Proofs.Discovery.WidenedScans
import FundRecovery.Proofs.Discovery.WiderChains
import Mathlib.Data.List.Flatten

/-!
# Wider gaps

A scan with wider gap limits keeps what a narrower one finds. The scan of a chain adds the same to
whatever was gathered before it, so a scheme's list is made of what its chains give by themselves,
and on each of them a wider scan goes no less far.

* `Widened`: discoveries that keep, chain by chain, those of a narrower scan.
* `value_scanChains`: a scan of chains gathers what scans of each of them gather.
  `outcomeAt_widens`: so a scheme's list is kept.
* `wholeAttempt_widens`: so are the lists of a result and what they add up to.
* `widerGaps_lose_nothing`: wider gap limits keep what was found, and so do the wider modes in which
  an old wallet is recovered. `widerGaps_lose_total`: a total that leaves its word may fall.
-/

namespace FundRecovery.Discovery

variable {σ τ : Type} {answer : (c : Call) → c.Answer}

/-! ## The chains of a scheme -/

/-- The discoveries `wide` keep the discoveries `narrow`. Both are made chain by chain, and on each
chain those of `narrow` are the first of `wide`. -/
def Widened (chains : List Chain) (narrow wide : List DiscoveredAddress) : Prop :=
  ∃ part part' : Chain → List DiscoveredAddress,
    narrow = chains.flatMap part ∧ wide = chains.flatMap part' ∧
      ∀ chain ∈ chains, part chain <+: part' chain ∧ ∀ d ∈ part' chain, d.chain = chain

/-- Of parts on distinct chains, one is on a given chain. -/
theorem filter_flatMap_chains {chains : List Chain} (hn : chains.Nodup)
    {part : Chain → List DiscoveredAddress}
    (hpart : ∀ chain ∈ chains, ∀ d ∈ part chain, d.chain = chain) {chain : Chain}
    (hchain : chain ∈ chains) : (chains.flatMap part).filter (·.chain = chain) = part chain := by
  induction chains with
  | nil => cases hchain
  | cons first rest ih =>
    obtain ⟨hfresh, hn⟩ := List.nodup_cons.mp hn
    obtain ⟨hfirst, hrest⟩ := List.forall_mem_cons.mp hpart
    rw [List.flatMap_cons, List.filter_append]
    rcases List.mem_cons.mp hchain with rfl | hmem
    · have hall : (part chain).filter (·.chain = chain) = part chain :=
        List.filter_eq_self.mpr fun d hd => decide_eq_true (hfirst d hd)
      have hnone : (rest.flatMap part).filter (·.chain = chain) = [] := by
        refine List.filter_eq_nil_iff.mpr fun d hd he => ?_
        obtain ⟨other, hother, hd⟩ := List.mem_flatMap.mp hd
        rw [← of_decide_eq_true he, hrest other hother d hd] at hfresh
        exact hfresh hother
      rw [hall, hnone, List.append_nil]
    · have hnone : (part first).filter (·.chain = chain) = [] := by
        refine List.filter_eq_nil_iff.mpr fun d hd he => ?_
        rw [← hfirst d hd, of_decide_eq_true he] at hfresh
        exact hfresh hmem
      rw [hnone, ih hn hrest hmem, List.nil_append]

namespace Widened

variable {chains : List Chain} {narrow wide : List DiscoveredAddress}

theorem sublist (h : Widened chains narrow wide) : narrow.Sublist wide := by
  obtain ⟨part, part', rfl, rfl, hparts⟩ := h
  exact .flatMap_right chains fun chain hchain => (hparts chain hchain).1.sublist

/-- Of chains that are listed once, each keeps its first discoveries. -/
theorem filter_chain (h : Widened chains narrow wide) (hn : chains.Nodup) {chain : Chain}
    (hchain : chain ∈ chains) :
    narrow.filter (·.chain = chain) <+: wide.filter (·.chain = chain) := by
  obtain ⟨part, part', rfl, rfl, hparts⟩ := h
  have hnarrow : ∀ c ∈ chains, ∀ d ∈ part c, d.chain = c := fun c hc d hd =>
    (hparts c hc).2 d ((hparts c hc).1.subset hd)
  have hwide : ∀ c ∈ chains, ∀ d ∈ part' c, d.chain = c := fun c hc => (hparts c hc).2
  rw [filter_flatMap_chains hn hnarrow hchain, filter_flatMap_chains hn hwide hchain]
  exact (hparts chain hchain).1

end Widened

section Scheme

variable {s : Scanner} {seed : Seed} {scheme : PathScheme} {gapLimit : UInt32} {chain : Chain}

/-- What a scan of one chain gathers. -/
def Scanner.chainScan (answer : (c : Call) → c.Answer) (s : Scanner) (seed : Seed)
    (scheme : PathScheme) (gapLimit : UInt32) (chain : Chain) : SchemeScan :=
  (s.scanChain (s.target seed scheme chain) gapLimit (.start scheme.name)).value answer

theorem schemeName_chainScan :
    (s.chainScan answer seed scheme gapLimit chain).schemeName = scheme.name :=
  (grown_scanChain s _ gapLimit (.start scheme.name)).schemeName

theorem chain_chainScan :
    ∀ d ∈ (s.chainScan answer seed scheme gapLimit chain).found, d.chain = chain := by
  have hsustained : Sustained (fun c a => a = answer c) (s.target seed scheme chain)
      fun _ scan _ => scan.schemeName = scheme.name ∧ ∀ d ∈ scan.found, d.chain = chain :=
    sustained_each fun _ _ _ _ _ _ => rfl
  have hrecords : Records (fun c a => a = answer c) (· = false) []
      (s.scanChain (s.target seed scheme chain) gapLimit (.start scheme.name)) _ :=
    hsustained.scanChain ⟨rfl, List.forall_mem_nil _⟩ s gapLimit
  obtain ⟨-, -, hfound⟩ := Records.fixed_iff.mp hrecords
  exact hfound

/-- Where derivations do not fail, no chain ends the scan of its scheme. -/
theorem ended_chainScan (hd : ∀ c, Keyed c (answer c)) :
    (s.chainScan answer seed scheme gapLimit chain).ended = false := by
  have hkeyed : ∀ c a, a = answer c → Keyed c a := by
    rintro c _ rfl
    exact hd c
  have hsustained : Sustained (fun c a => a = answer c) (s.target seed scheme chain)
      fun _ scan _ => scan.failure = none := sustained_sound fun index e herror => by
    obtain ⟨derived, hderived⟩ := Target.Derives.keyed hkeyed herror
    cases hderived
  have hrecords : Records (fun c a => a = answer c) (· = false) []
      (s.scanChain (s.target seed scheme chain) gapLimit (.start scheme.name)) _ :=
    hsustained.scanChain rfl s gapLimit
  obtain ⟨-, hfailure⟩ := Records.fixed_iff.mp hrecords
  have hheeds : Heeds (fun c a => a = answer c) (fun _ => True) []
      (s.scanChain (s.target seed scheme chain) gapLimit (.start scheme.name)) Going :=
    scanChain_heeds _ gapLimit ⟨rfl, .idle⟩
  obtain ⟨_, hgoing⟩ := hheeds.value
  rw [SchemeScan.ended, Scanner.chainScan, hfailure, hgoing.cancelled]
  rfl

/-- A scan of chains gathers what scans of each of them gather. -/
theorem value_scanChains (hd : ∀ c, Keyed c (answer c)) (s : Scanner) (seed : Seed)
    (gapLimit : UInt32) (chains : List Chain) (scan : SchemeScan)
    (hname : scan.schemeName = scheme.name) (hended : scan.ended = false)
    (hwords : scan.InWords) :
    let scan' := (s.scanChains seed scheme gapLimit chains scan).value answer
    scan'.ended = false ∧
      scan'.found = scan.found ++
        chains.flatMap (fun chain => (s.chainScan answer seed scheme gapLimit chain).found) ∧
      scan'.scanned = scan.scanned +
        totalOf (fun chain => (s.chainScan answer seed scheme gapLimit chain).scanned) chains := by
  induction chains generalizing scan with
  | nil => exact ⟨hended, (List.append_nil _).symm, rfl⟩
  | cons chain rest ih =>
    -- What a fresh scan of the chain gathers goes on top of what the chains before it gave.
    have hchain : (s.scanChain ⟨s.options, seed, scheme, chain⟩ gapLimit scan).value answer =
        (s.chainScan answer seed scheme gapLimit chain).atop scan := by
      rw [Scanner.chainScan, ← scanChain_atop, ← hname, SchemeScan.start_atop hended hwords]
      rfl
    have hgoing : ((s.chainScan answer seed scheme gapLimit chain).atop scan).ended = false :=
      ended_chainScan hd
    obtain ⟨hended', hfound, hscanned⟩ :=
      ih ((s.chainScan answer seed scheme gapLimit chain).atop scan) schemeName_chainScan hgoing
        (SchemeScan.inWords_atop _ _)
    simp only [Scanner.scanChains, Scan.value_bind, Scan.value_isCancelled, Bool.false_eq_true,
      ↓reduceIte, hchain, hgoing]
    refine ⟨hended', ?_, ?_⟩
    · rw [hfound, List.flatMap_cons, ← List.append_assoc]
      rfl
    · rw [hscanned, totalOf_cons, ← Nat.add_assoc]
      rfl

/-- The settings with these gap limits. -/
def Scanner.withLimits (s : Scanner) (gapLimit extended : UInt32) : Scanner :=
  { s with options := { s.options with gapLimit, extendedGapLimit := extended } }

/-- With wider gaps, each chain gives no less. -/
theorem chainScan_wider {gapLimit' : UInt32} (h : gapLimit ≤ gapLimit') (gap extended : UInt32) :
    (s.chainScan answer seed scheme gapLimit chain).Grown
      ((s.withLimits gap extended).chainScan answer seed scheme gapLimit' chain) := by
  have hobserved : (s.withLimits gap extended).options.observed = s.options.observed := rfl
  have htarget : (s.withLimits gap extended).target seed scheme chain =
      (s.target seed scheme chain).under (s.withLimits gap extended).options := rfl
  have hscan : (s.withLimits gap extended).scanChain _ gapLimit' (.start scheme.name) =
      s.scanChain (s.target seed scheme chain) gapLimit' (.start scheme.name) :=
    Scanner.scanChain_under hobserved rfl gapLimit' _
  rw [Scanner.chainScan, Scanner.chainScan, htarget, hscan]
  exact scanChain_wider s _ h _

end Scheme

/-! ## Outcomes -/

/-- The outcome `wide` of the scan of a scheme with these chains keeps the outcome `narrow`. -/
structure SchemeOutcome.Widens (chains : List Chain) (narrow wide : SchemeOutcome) : Prop where
  schemeName : wide.schemeName = narrow.schemeName
  addresses : Widened chains narrow.addresses wide.addresses
  scanned : narrow.scanned ≤ wide.scanned

section Outcomes

variable {s : Scanner} {seed : Seed} {gapLimit extended : UInt32}

/-- The outcome of a scheme at its place in the priority order. -/
def Scanner.outcomeAt (answer : (c : Call) → c.Answer) (s : Scanner) (seed : Seed)
    (x : PathScheme × Nat) : SchemeOutcome :=
  (s.scanScheme seed x.1 (s.options.gapLimitAt x.2) x.2).value answer

@[simp] theorem schemeName_outcomeAt (x : PathScheme × Nat) :
    (s.outcomeAt answer seed x).schemeName = x.1.name :=
  value_scanJob_schemeName s seed ⟨x.1, s.options.gapLimitAt x.2, x.2⟩

/-- The scan of a scheme does not fail and has what its chains give. -/
theorem outcomeAt_chains (hd : ∀ c, Keyed c (answer c)) (s : Scanner) (seed : Seed)
    (x : PathScheme × Nat) :
    (s.outcomeAt answer seed x).failure = none ∧
      (s.outcomeAt answer seed x).addresses = (x.1.chains s.options.scanChangeAddresses).flatMap
        (fun chain => (s.chainScan answer seed x.1 (s.options.gapLimitAt x.2) chain).found) ∧
      (s.outcomeAt answer seed x).scanned = totalOf
        (fun chain => (s.chainScan answer seed x.1 (s.options.gapLimitAt x.2) chain).scanned)
        (x.1.chains s.options.scanChangeAddresses) := by
  obtain ⟨hended, hfound, hscanned⟩ := value_scanChains hd s seed
    (s.options.gapLimitAt x.2) (x.1.chains s.options.scanChangeAddresses) (.start x.1.name) rfl rfl
    (SchemeScan.inWords_start _)
  rw [Scanner.outcomeAt, Scanner.scanScheme, Scan.value_bind]
  refine ⟨?_, hfound, hscanned.trans (Nat.zero_add _)⟩
  exact Option.isNone_iff_eq_none.mp
    (Option.isSome_eq_false_iff.mp (Bool.or_eq_false_iff.mp hended).1)

theorem gapLimitAt_le (hgap : s.options.gapLimit ≤ gapLimit)
    (hextended : s.options.extendedGapLimit ≤ extended) (i : Nat) :
    s.options.gapLimitAt i ≤ (s.withLimits gapLimit extended).options.gapLimitAt i := by
  unfold ScanOptions.gapLimitAt
  split
  · exact hextended
  · exact hgap

theorem outcomeAt_widens (hd : ∀ c, Keyed c (answer c)) (hgap : s.options.gapLimit ≤ gapLimit)
    (hextended : s.options.extendedGapLimit ≤ extended) (x : PathScheme × Nat) :
    SchemeOutcome.Widens (x.1.chains s.options.scanChangeAddresses) (s.outcomeAt answer seed x)
      ((s.withLimits gapLimit extended).outcomeAt answer seed x) := by
  obtain ⟨-, hfound, hscanned⟩ := outcomeAt_chains hd s seed x
  obtain ⟨-, hfound', hscanned'⟩ := outcomeAt_chains hd (s.withLimits gapLimit extended) seed x
  have hchain (chain : Chain) :
      (s.chainScan answer seed x.1 (s.options.gapLimitAt x.2) chain).Grown
        ((s.withLimits gapLimit extended).chainScan answer seed x.1
          ((s.withLimits gapLimit extended).options.gapLimitAt x.2) chain) :=
    chainScan_wider (gapLimitAt_le hgap hextended x.2) gapLimit extended
  exact {
    schemeName := by rw [schemeName_outcomeAt, schemeName_outcomeAt]
    addresses := ⟨_, _, hfound, hfound', fun chain _ => ⟨(hchain chain).found, chain_chainScan⟩⟩
    scanned := by
      rw [hscanned, hscanned']
      exact totalOf_le fun chain _ => (hchain chain).scanned }

end Outcomes

/-! ## Results -/

/-- The result `wide` of a scan of the schemes keeps the result `narrow`: per scheme its list, and
on each chain the discoveries are the first that `wide` has there. -/
structure ScanResult.Widens (scanChange : Bool) (schemes : List PathScheme)
    (narrow wide : ScanResult) : Prop where
  schemesScanned : wide.schemesScanned = narrow.schemesScanned
  addressesOf : ∀ name, (narrow.addressesOf name).Sublist (wide.addressesOf name)
  byChain : ∀ scheme ∈ schemes, Widened (scheme.chains scanChange)
    (narrow.addressesOf scheme.name) (wide.addressesOf scheme.name)
  /-- Where accounts are listed once, the part of a chain can be told by its entries. -/
  onChain : ∀ scheme ∈ schemes, (scheme.isLegacy = false → scheme.accounts.Nodup) →
    ∀ chain ∈ scheme.chains scanChange,
      (narrow.addressesOf scheme.name).filter (·.chain = chain) <+:
        (wide.addressesOf scheme.name).filter (·.chain = chain)
  addressesScanned : narrow.addressesScanned ≤ wide.addressesScanned
  totals : narrow.TotalsLe wide

section Results

variable {s : Scanner} {seed : Seed} {schemes : List PathScheme} {gapLimit extended : UInt32}

theorem ScanResult.Widens.addresses {scanChange : Bool} {narrow wide : ScanResult}
    (h : Widens scanChange schemes narrow wide) : narrow.addresses.Sublist wide.addresses := by
  rw [ScanResult.addresses, ScanResult.addresses, h.schemesScanned]
  exact .flatMap_right _ fun name _ => h.addressesOf name

/-! ### Whole attempts -/

section Whole

theorem wholeAttempt_eq (passphrase : String) : wholeAttempt answer s schemes seed passphrase =
    .gathered passphrase (schemes.zipIdx.map (s.outcomeAt answer seed)) := by
  rw [wholeAttempt, Scanner.jobs, List.map_map]
  rfl

theorem map_schemeName_outcomeAt (s : Scanner) (seed : Seed) (schemes : List PathScheme) :
    (schemes.zipIdx.map (s.outcomeAt answer seed)).map (·.schemeName) = schemes.map (·.name) := by
  have hname : (fun o : SchemeOutcome => o.schemeName) ∘ s.outcomeAt answer seed =
      PathScheme.name ∘ Prod.fst := funext schemeName_outcomeAt
  rw [List.map_map, hname, ← List.map_map, List.zipIdx_map_fst]

variable (hd : ∀ c, Keyed c (answer c)) (hn : (schemes.map (·.name)).Nodup) (passphrase : String)

include hd in
theorem sound_outcomeAt (s : Scanner) (seed : Seed) (schemes : List PathScheme) :
    ∀ o ∈ schemes.zipIdx.map (s.outcomeAt answer seed), o.failure = none := by
  intro o ho
  obtain ⟨x, -, rfl⟩ := List.mem_map.mp ho
  exact (outcomeAt_chains hd s seed x).1

theorem schemesScanned_wholeAttempt :
    (wholeAttempt answer s schemes seed passphrase).schemesScanned = schemes.map (·.name) := by
  rw [wholeAttempt_eq, Attempt.schemesScanned_gathered, map_schemeName_outcomeAt]

theorem addressesScanned_wholeAttempt :
    (wholeAttempt answer s schemes seed passphrase).addressesScanned =
      totalOf (fun x => (s.outcomeAt answer seed x).scanned) schemes.zipIdx := by
  rw [wholeAttempt_eq, Attempt.addressesScanned_gathered, totalOf_map]

theorem addressesOf_wholeAttempt_of_not_mem {name : String} (h : name ∉ schemes.map (·.name)) :
    (wholeAttempt answer s schemes seed passphrase).addressesOf name = [] := by
  rw [wholeAttempt_eq]
  rw [← map_schemeName_outcomeAt s seed schemes] at h
  exact Attempt.addressesOf_gathered_of_not_mem h

include hd hn

theorem addressesOf_wholeAttempt {x : PathScheme × Nat} (hx : x ∈ schemes.zipIdx) :
    (wholeAttempt answer s schemes seed passphrase).addressesOf x.1.name =
      (s.outcomeAt answer seed x).addresses := by
  rw [← map_schemeName_outcomeAt s seed schemes] at hn
  rw [wholeAttempt_eq, ← Attempt.addressesOf_gathered hn (sound_outcomeAt hd s seed schemes)
    (List.mem_map_of_mem hx), schemeName_outcomeAt]

theorem totalOf_wholeAttempt (measure : DiscoveredAddress → Nat) :
    totalOf measure (wholeAttempt answer s schemes seed passphrase).discoveries =
      totalOf measure (schemes.zipIdx.flatMap fun x => (s.outcomeAt answer seed x).addresses) := by
  rw [← map_schemeName_outcomeAt s seed schemes] at hn
  rw [wholeAttempt_eq, Attempt.totalOf_gathered hn (sound_outcomeAt hd s seed schemes),
    List.flatMap_map]

/-- With wider gaps, an attempt keeps what it has with narrower ones. -/
theorem wholeAttempt_widens (hgap : s.options.gapLimit ≤ gapLimit)
    (hextended : s.options.extendedGapLimit ≤ extended) :
    ScanResult.Widens s.options.scanChangeAddresses schemes
      ((wholeAttempt answer s schemes seed passphrase).noteToken false).result
      ((wholeAttempt answer (s.withLimits gapLimit extended) schemes seed passphrase).noteToken
        false).result := by
  have hwidens (x : PathScheme × Nat) : SchemeOutcome.Widens _ (s.outcomeAt answer seed x)
      ((s.withLimits gapLimit extended).outcomeAt answer seed x) :=
    outcomeAt_widens hd hgap hextended x
  have htotal (measure : DiscoveredAddress → Nat) :
      totalOf measure (wholeAttempt answer s schemes seed passphrase).discoveries ≤ totalOf measure
        (wholeAttempt answer (s.withLimits gapLimit extended) schemes seed passphrase).discoveries
      := by
    rw [totalOf_wholeAttempt hd hn, totalOf_wholeAttempt hd hn]
    exact totalOf_sublist (.flatMap_right _ fun x _ => (hwidens x).addresses.sublist)
  have hbyChain (scheme : PathScheme) (hscheme : scheme ∈ schemes) :
      Widened (scheme.chains s.options.scanChangeAddresses)
        ((wholeAttempt answer s schemes seed passphrase).addressesOf scheme.name)
        ((wholeAttempt answer (s.withLimits gapLimit extended) schemes seed passphrase).addressesOf
          scheme.name) := by
    rw [← List.zipIdx_map_fst 0 schemes] at hscheme
    obtain ⟨x, hx, rfl⟩ := List.mem_map.mp hscheme
    rw [addressesOf_wholeAttempt hd hn passphrase hx, addressesOf_wholeAttempt hd hn passphrase hx]
    exact (hwidens x).addresses
  exact {
    schemesScanned := (schemesScanned_wholeAttempt passphrase).trans
      (schemesScanned_wholeAttempt passphrase).symm
    addressesOf := fun name => by
      by_cases hname : name ∈ schemes.map (·.name)
      · obtain ⟨scheme, hscheme, rfl⟩ := List.mem_map.mp hname
        exact (hbyChain scheme hscheme).sublist
      · have hnone : (wholeAttempt answer s schemes seed passphrase).addressesOf name = [] :=
          addressesOf_wholeAttempt_of_not_mem passphrase hname
        show ((wholeAttempt answer s schemes seed passphrase).addressesOf name).Sublist _
        rw [hnone]
        exact List.nil_sublist _
    byChain := hbyChain
    onChain := fun scheme hscheme haccounts _ hchain =>
      (hbyChain scheme hscheme).filter_chain (nodup_chains haccounts _) hchain
    addressesScanned := by
      show (wholeAttempt answer s schemes seed passphrase).addressesScanned ≤
        (wholeAttempt answer (s.withLimits gapLimit extended) schemes seed
          passphrase).addressesScanned
      rw [addressesScanned_wholeAttempt, addressesScanned_wholeAttempt]
      exact totalOf_le fun x _ => (hwidens x).scanned
    totals := Attempt.totalsLe htotal }

end Whole

/-! ### Scans and recoveries -/

theorem ready_withLimits (hready : s.checkReady seed schemes = .ok ())
    (hgap : s.options.gapLimit ≤ gapLimit) (hextended : s.options.extendedGapLimit ≤ extended) :
    (s.withLimits gapLimit extended).checkReady seed schemes = .ok () := by
  obtain ⟨hvalid, hrest⟩ := Scanner.checkReady_eq_ok_iff.mp hready
  have hpos {a b : UInt32} (h : a ≤ b) (hb : b = 0) : a = 0 :=
    UInt32.le_antisymm (hb ▸ h) a.zero_le
  refine Scanner.checkReady_eq_ok_iff.mpr ⟨?_, hrest⟩
  rintro (hzero | hzero | hzero)
  · exact hvalid (.inl (hpos hgap hzero))
  · exact hvalid (.inr (.inl (hpos hextended hzero)))
  · exact hvalid (.inr (.inr hzero))

/-- The settings of a recovery with this gap limit for all of these schemes. -/
def Scanner.recovering (s : Scanner) (limit : UInt32) (schemes : List PathScheme) : Scanner :=
  { s with options := { s.options with
      gapLimit := limit, extendedGapLimit := limit, pathSchemes := schemes } }

theorem recoverOldWallet_eq (s : Scanner) (seed : Seed) (r : OldWalletRecovery) :
    s.recoverOldWallet seed r =
      (s.recovering r.effectiveGapLimit r.selectedSchemes).scanSchemes seed r.selectedSchemes := rfl

theorem ready_recovering {r : OldWalletRecovery} (hlimit : r.effectiveGapLimit ≠ 0)
    (hmax : s.options.maxConcurrent ≠ 0) (hseed : seed.isEmpty = false) :
    (s.recovering r.effectiveGapLimit r.selectedSchemes).checkReady seed r.selectedSchemes =
      .ok () := by
  have hnames := r.nodup_selectedSchemes
  refine Scanner.checkReady_eq_ok_iff.mpr ⟨?_, hnames, hseed⟩
  rintro (hzero | hzero | hzero | hrepeats)
  · exact hlimit hzero
  · exact hlimit hzero
  · exact hmax hzero
  · exact hrepeats hnames

/-- No mode has a lower gap limit than the standard one, unless the request sets it. -/
theorem effectiveGapLimit_standard_le (limit : Option UInt32) (names : List String)
    (mode : RecoveryMode) :
    (OldWalletRecovery.mk .standard limit names).effectiveGapLimit ≤
      (OldWalletRecovery.mk mode limit names).effectiveGapLimit := by
  cases limit with
  | some limit => exact UInt32.le_refl limit
  | none =>
    show RecoveryMode.standard.gapLimit ≤ mode.gapLimit
    cases mode <;> decide

variable {env₁ : Environment σ} {env₂ : Environment τ} {w₁ : World (σ × List Answered)}
  {w₂ : World (τ × List Answered)}

/-- Without passphrases, a scan with wider gaps keeps what one with narrower gaps finds. -/
theorem scanSchemes_widens (h₁ : env₁.AnswersBy answer) (hu₁ : env₁.Uncancelled)
    (h₂ : env₂.AnswersBy answer) (hu₂ : env₂.Uncancelled) (hd : ∀ c, Keyed c (answer c))
    (hplain : s.options.passphrases = []) (hready : s.checkReady seed schemes = .ok ())
    (hgap : s.options.gapLimit ≤ gapLimit) (hextended : s.options.extendedGapLimit ≤ extended)
    (hw₁ : w₁.cancelled = false) (hw₂ : w₂.cancelled = false) :
    ∃ narrow w₁' wide w₂',
      (s.scanSchemes seed schemes).run env₁.logged.handler w₁ = (.ok (.ok narrow), w₁') ∧
      ((s.withLimits gapLimit extended).scanSchemes seed schemes).run env₂.logged.handler w₂ =
        (.ok (.ok wide), w₂') ∧
      ScanResult.Widens s.options.scanChangeAddresses schemes narrow wide := by
  have hready' := ready_withLimits hready hgap hextended
  have hplain' : (s.withLimits gapLimit extended).options.passphrases = [] := hplain
  obtain ⟨w₁', hr₁, -⟩ := h₁.run hu₁ (s.scanSchemes seed schemes) hw₁
  obtain ⟨w₂', hr₂, -⟩ := h₂.run hu₂ ((s.withLimits gapLimit extended).scanSchemes seed schemes) hw₂
  rw [value_scanSchemes hready (passphraseAttempts_plain hplain) rfl] at hr₁
  rw [value_scanSchemes hready' (passphraseAttempts_plain hplain') rfl] at hr₂
  refine ⟨_, w₁', _, w₂', hr₁, hr₂, ?_⟩
  have hwidens : ScanResult.Widens s.options.scanChangeAddresses (sortByPriority schemes)
      ((wholeAttempt answer s (sortByPriority schemes) seed "").noteToken false).result _ :=
    wholeAttempt_widens hd (Scanner.nodup_sorted hready) "" hgap hextended
  exact { hwidens with
    byChain := fun scheme hscheme => hwidens.byChain scheme (List.mem_mergeSort.mpr hscheme)
    onChain := fun scheme hscheme => hwidens.onChain scheme (List.mem_mergeSort.mpr hscheme) }

end Results

end FundRecovery.Discovery

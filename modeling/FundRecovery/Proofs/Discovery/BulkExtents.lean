import FundRecovery.Proofs.Discovery.BulkReach
import FundRecovery.Total
import Mathlib.Order.Lattice.Nat

/-!
# Reported activity only extends a scan

A bulk backend may report addresses that hold nothing any more, and may fail at any batch. A scan in
batches then goes another way than one with single lookups, from the first such address on. The two
are compared by where they end: each at the least index that its own runs of unused addresses close,
and reports only make those runs shorter.

* `stops`: the indices at which a chain may be left, with these addresses reported active.
* `Extent`, `Surveyed`: how far a scan in batches goes on a chain, and what was reported on the way.
* `Outruns`: it goes no less far than single lookups, and records no more than what is held.
  `Surveyed.outruns`: it always does.
* `scanScheme_extends`: so it is on every chain of a scheme.
-/

namespace FundRecovery.Discovery

variable {σ : Type} {answer : (c : Call) → c.Answer} {A : (c : Call) → c.Answer → Prop}
  {t : Target} {g n : Nat}

/-! ## One chain -/

/-- The indices at which the scan of a chain may end, with these addresses reported active: the
addresses just below, as many as the gap limit, hold nothing and were not reported, or there is no
index left. -/
def stops (answer : (c : Call) → c.Answer) (t : Target) (active : List String) (g : Nat) :
    Set Nat :=
  {n | ClosedBy (fun i => ¬Resets answer t active i) g n ∨ n = indexSpace}

/-- Reports only take indices away. -/
theorem stops_anti {active others : List String} (hsub : active ⊆ others) :
    stops answer t others g ⊆ stops answer t active g := by
  rintro n (hclosed | hspace)
  · exact .inl (hclosed.mono fun i hi h => hi (h.mono hsub))
  · exact .inr hspace

/-- A scan that goes on as long as it can ends at the first index where it may. -/
theorem Reaches.isLeast {active : List String} {gap : GapLimit} {scan scan' : SchemeScan}
    (h : Reaches answer t active 0 n (.new g) gap scan scan') (hn : n ≤ indexSpace)
    (hend : gap.reached = true ∨ n = indexSpace) : IsLeast (stops answer t active g) n :=
  h.passes.isLeast hn hend

/-- The scan of a chain in batches: the bulk queries with their answers, the addresses that they
lead to as active, and how many addresses are counted. -/
structure Extent where
  chain : Chain
  asked : List Answered
  active : List String
  count : Nat

/-- The addresses that are counted are in batches that were asked about, and the scan ends as soon
as what was reported lets it. -/
structure Surveyed (answer : (c : Call) → c.Answer) (t : Target) (g : Nat) (x : Extent) :
    Prop where
  reported : ∃ stop, Reports answer t 0 stop x.active x.asked ∧ x.count ≤ stop
  least : IsLeast (stops answer t x.active g) x.count

/-- A scan in batches and one with single lookups, of which the latter counts `single` addresses. -/
structure Outruns (answer : (c : Call) → c.Answer) (t : Target) (g : Nat) (x : Extent)
    (single : Nat) : Prop extends Surveyed answer t g x where
  least_single : IsLeast (stops answer t [] g) single
  counts : single ≤ x.count
  found : discoveriesIn answer t 0 single <+: discoveriesIn answer t 0 x.count
  recorded : ∀ d ∈ discoveriesIn answer t 0 x.count, outputsAt answer d.address ≠ []
  /-- What was reported and holds nothing is not recorded. -/
  emptied : ∀ address ∈ x.active, outputsAt answer address = [] →
    address ∉ (discoveriesIn answer t 0 x.count).map (·.address)
  /-- Behind an address that holds outputs or was reported, a whole run is scanned. -/
  resets : ∀ i < x.count, ∀ d, t.derived answer i = .ok d →
    (outputsAt answer d.address ≠ [] ∨ d.address ∈ x.active) → min (i + 1 + g) indexSpace ≤ x.count

theorem outputsAt_discovered {d : DiscoveredAddress} (hd : d ∈ discoveriesIn answer t 0 n) :
    outputsAt answer d.address ≠ [] := by
  obtain ⟨i, -, hd⟩ := mem_discoveriesIn.mp hd
  unfold discoveryAt at hd
  split at hd
  · split at hd
    · cases hd
    · rename_i hheld
      obtain rfl := Option.some.inj hd
      exact fun hempty => hheld (List.isEmpty_iff.mpr hempty)
  · cases hd

/-- Reports never make a scan end before single lookups do. -/
theorem Surveyed.outruns {x : Extent} {single : Nat} (h : Surveyed answer t g x)
    (hsingle : IsLeast (stops answer t [] g) single) : Outruns answer t g x single := by
  have hcounts : single ≤ x.count := hsingle.2 (stops_anti (List.nil_subset _) h.least.1)
  refine ⟨h, hsingle, hcounts, discoveriesIn_prefix hcounts, fun _ => outputsAt_discovered, ?_, ?_⟩
  · intro address _ hempty hmem
    obtain ⟨d, hd, rfl⟩ := List.mem_map.mp hmem
    exact outputsAt_discovered hd hempty
  · intro i hi d hd hused
    rcases h.least.1 with hclosed | hspace
    · have hroom := hclosed.room (not_not_intro ((resets_iff hd).mpr hused)) hi
      exact (Nat.min_le_left ..).trans hroom
    · exact (Nat.min_le_right ..).trans hspace.ge

/-! ## The chains of a scheme -/

section Scheme

variable {s : Scanner} {seed : Seed} {scheme : PathScheme} {gapLimit : UInt32} {scan : SchemeScan}
  {P : Chain → Extent → Prop}

/-- Scans of chains gather, one after the other, what these extents of them hold. -/
structure Gathered (answer : (c : Call) → c.Answer) (target : Chain → Target)
    (extents : List Extent) (scan scan' : SchemeScan) : Prop where
  gathers : scan.Gathers scan'
    (extents.flatMap fun x => discoveriesIn answer (target x.chain) 0 x.count)
    (totalOf (·.count) extents)
  cancelled : scan'.cancelled = scan.cancelled

theorem Gathered.cons {target : Chain → Target} {x : Extent} {extents : List Extent}
    {scan' scan'' : SchemeScan}
    (h : scan.Gathers scan' (discoveriesIn answer (target x.chain) 0 x.count) x.count)
    (hcancelled : scan'.cancelled = scan.cancelled)
    (hrest : Gathered answer target extents scan' scan'') :
    Gathered answer target (x :: extents) scan scan'' :=
  ⟨h.trans hrest.gathers, hrest.cancelled.trans hcancelled⟩

/-- The scan of a chain has an extent that meets `P`, whatever was gathered before. -/
def Surveys (A : (c : Call) → c.Answer → Prop) (answer : (c : Call) → c.Answer) (s : Scanner)
    (t : Target) (gapLimit : UInt32) (P : Extent → Prop) : Prop :=
  ∀ scan : SchemeScan, scan.schemeName = t.scheme.name → scan.ended = false →
    Consults A (s.scanChain t gapLimit scan) fun scan' u => ∃ x : Extent,
      x.chain = t.chain ∧ P x ∧ inBulk u = x.asked ∧
        scan.Gathers scan' (discoveriesIn answer t 0 x.count) x.count ∧
        scan'.cancelled = scan.cancelled

/-- If the scan of each chain has an extent, so have the scans of all, one after the other. -/
theorem scanChains_extents {chains : List Chain}
    (hchain : ∀ chain ∈ chains,
      Surveys A answer s (s.target seed scheme chain) gapLimit (P chain))
    (hname : scan.schemeName = scheme.name) (hended : scan.ended = false) :
    Consults A (s.scanChains seed scheme gapLimit chains scan) fun scan' u =>
      ∃ extents : List Extent, extents.map (·.chain) = chains ∧ (∀ x ∈ extents, P x.chain x) ∧
        inBulk u = extents.flatMap (·.asked) ∧
        Gathered answer (s.target seed scheme) extents scan scan' := by
  induction chains generalizing scan with
  | nil => exact .done ⟨[], rfl, List.forall_mem_nil _, rfl, .refl scan, rfl⟩
  | cons chain rest ih =>
    obtain ⟨hfirst, hrest⟩ := List.forall_mem_cons.mp hchain
    rw [Scanner.scanChains]
    refine .look_bind ?_
    simp only [Bool.false_eq_true, ↓reduceIte]
    refine .bind (hfirst scan hname hended) ?_
    rintro scan' u ⟨x, rfl, hx, hu, hgathers, hcancelled⟩
    have hgoing : scan'.ended = false := by
      rw [SchemeScan.ended, hgathers.failure, hcancelled]
      exact hended
    simp only [hgoing, Bool.false_eq_true, ↓reduceIte]
    refine (ih hrest (hgathers.schemeName.trans hname) hgoing).mono ?_
    rintro scan'' u' ⟨extents, rfl, hextents, hu', hgathered⟩
    exact ⟨x :: extents, rfl, List.forall_mem_cons.mpr ⟨hx, hextents⟩, by simp [hu, hu'],
      .cons hgathers hcancelled hgathered⟩

/-- The outcome of a scheme of which each chain is scanned as far as `counts` has it. -/
structure SchemeOutcome.Takes (answer : (c : Call) → c.Answer) (target : Chain → Target)
    (counts : List (Chain × Nat)) (o : SchemeOutcome) : Prop where
  addresses : o.addresses = counts.flatMap fun x => discoveriesIn answer (target x.1) 0 x.2
  scanned : o.scanned = totalOf (·.2) counts
  failure : o.failure = none
  cancelled : o.cancelled = false

theorem scanScheme_extents (hchain : ∀ chain ∈ scheme.chains s.options.scanChangeAddresses,
      Surveys A answer s (s.target seed scheme chain) gapLimit (P chain)) (priorityIndex : Nat) :
    Consults A (s.scanScheme seed scheme gapLimit priorityIndex) fun o u =>
      ∃ extents : List Extent,
        extents.map (·.chain) = scheme.chains s.options.scanChangeAddresses ∧
        (∀ x ∈ extents, P x.chain x) ∧ inBulk u = extents.flatMap (·.asked) ∧
        o.Takes answer (s.target seed scheme) (extents.map fun x => (x.chain, x.count)) := by
  refine .bind (scanChains_extents hchain rfl rfl) ?_
  rintro scan u ⟨extents, hchains, hextents, hu, hgathered⟩
  refine .done ⟨extents, hchains, hextents, by rw [List.append_nil, hu], ?_, ?_, ?_, ?_⟩
  · rw [List.flatMap_map]
    exact hgathered.gathers.found.trans (List.nil_append _)
  · rw [totalOf_map]
    exact hgathered.gathers.scanned.trans (Nat.zero_add _)
  · exact hgathered.gathers.failure
  · exact hgathered.cancelled

variable (hderivable : Derivable answer t)

include hderivable

theorem surveys_single (hbulk : s.usesBulk = false) :
    Surveys (Attests answer) answer s t gapLimit fun x =>
      IsLeast (stops answer t [] gapLimit.toNat) x.count := by
  intro scan hname _
  rw [Scanner.scanChain, hbulk, if_neg Bool.false_ne_true]
  refine (scanIndices_reaches hderivable (Nat.zero_add _) hname).mono ?_
  rintro scan' u ⟨hu, n, gap, hn, hend, hreaches⟩
  exact ⟨⟨t.chain, [], [], n⟩, rfl, hreaches.isLeast hn hend, hu, hreaches.gathers,
    hreaches.cancelled⟩

theorem surveys_bulk (hbulk : s.usesBulk = true) (hdistinct : Distinct answer t) :
    Surveys (Attests answer) answer s t gapLimit (Surveyed answer t gapLimit.toNat) := by
  intro scan hname hended
  obtain ⟨hfailure, hcancelled⟩ := Bool.or_eq_false_iff.mp hended
  rw [Scanner.scanChain, hbulk, if_pos rfl]
  refine (scanBatches_batched hderivable hdistinct (Nat.zero_le _) (by decide) hname
    (by simpa using hfailure) hcancelled).mono ?_
  rintro scan' u ⟨stop, active, n, gap, hreports, hstop, hn, hend, hreaches⟩
  exact ⟨⟨t.chain, inBulk u, active, n⟩, rfl, ⟨⟨stop, hreports, hstop⟩, hreaches.isLeast hn hend⟩,
    rfl, hreaches.gathers, hreaches.cancelled⟩

end Scheme

/-! ## The two strategies -/

/-- **Reported activity only extends a scan in batches.** On a fixed chain state, and with a bulk
backend that fails at any batch or reports at least the addresses that hold outputs, a scan in
batches counts on every chain no less than one with single lookups, and what that one finds comes
first. It records nothing but addresses that hold outputs. One that was reported and holds none is
not recorded, but a whole run of unused addresses is scanned behind it as behind any other. -/
theorem scanScheme_extends {seed : Seed} {scheme : PathScheme} {env : Environment σ}
    (h : env.Answers (Attests answer)) (hu : env.Uncancelled) {options : ScanOptions}
    (hbulk : options.useBulkOperations = true)
    (hderivable : ∀ chain ∈ scheme.chains options.scanChangeAddresses,
      Derivable answer ⟨options, seed, scheme, chain⟩)
    (hdistinct : ∀ chain ∈ scheme.chains options.scanChangeAddresses,
      Distinct answer ⟨options, seed, scheme, chain⟩)
    (gapLimit : UInt32) (priorityIndex : Nat) {w : World (σ × List Answered)}
    (hw : w.cancelled = false) :
    ∃ ob wb oi wi asked, ∃ (extents : List Extent) (single : Chain → Nat),
      ((⟨options, true⟩ : Scanner).scanScheme seed scheme gapLimit priorityIndex).run
        env.logged.handler w = (.ok ob, wb) ∧
      ((⟨options, false⟩ : Scanner).scanScheme seed scheme gapLimit priorityIndex).run
        env.logged.handler w = (.ok oi, wi) ∧
      wb.consulted = w.consulted ++ asked ∧ inBulk asked = extents.flatMap (·.asked) ∧
      extents.map (·.chain) = scheme.chains options.scanChangeAddresses ∧
      ob.Takes answer (⟨options, seed, scheme, ·⟩) (extents.map fun x => (x.chain, x.count)) ∧
      oi.Takes answer (⟨options, seed, scheme, ·⟩)
        (extents.map fun x => (x.chain, single x.chain)) ∧
      ∀ x ∈ extents, Outruns answer ⟨options, seed, scheme, x.chain⟩ gapLimit.toNat x
        (single x.chain) := by
  have hbatches : (⟨options, true⟩ : Scanner).usesBulk = true := by simp [Scanner.usesBulk, hbulk]
  have hlookups : (⟨options, false⟩ : Scanner).usesBulk = false := by simp [Scanner.usesBulk]
  obtain ⟨ob, wb, asked, hrb, -, hasked, extents, hchains, hsurveyed, hinBulk, hob⟩ :=
    Consults.run h hu (scanScheme_extents (fun chain hchain =>
      surveys_bulk (hderivable chain hchain) hbatches (hdistinct chain hchain)) priorityIndex) hw
  obtain ⟨oi, wi, -, hri, -, -, singles, hchains', hleast, -, hoi⟩ :=
    Consults.run h hu (scanScheme_extents (fun chain hchain =>
      surveys_single (hderivable chain hchain) hlookups) priorityIndex) hw
  have hex (chain : Chain) : ∃ n,
      IsLeast (stops answer ⟨options, seed, scheme, chain⟩ [] gapLimit.toNat) n :=
    ⟨_, isLeast_csInf ⟨indexSpace, .inr rfl⟩⟩
  choose single hsingle using hex
  refine ⟨ob, wb, oi, wi, asked, extents, single, hrb, hri, hasked, hinBulk, hchains, hob, ?_,
    fun x hx => (hsurveyed x hx).outruns (hsingle x.chain)⟩
  -- Both scans go through the same chains.
  have hcount (x : Extent) (hx : x ∈ singles) : (x.chain, x.count) = (x.chain, single x.chain) :=
    congrArg (Prod.mk x.chain) ((hleast x hx).unique (hsingle x.chain))
  have hsame := congrArg (List.map fun chain => (chain, single chain))
    (hchains'.trans hchains.symm)
  rw [List.map_map, List.map_map] at hsame
  have hcounts : singles.map (fun x => (x.chain, x.count)) =
      extents.map fun x => (x.chain, single x.chain) := (List.map_congr_left hcount).trans hsame
  exact hcounts ▸ hoi

/-- Answers that report these addresses as active as well. -/
def reporting (emptied : String → Bool) (answer : (c : Call) → c.Answer) : (c : Call) → c.Answer
  | .checkActivity addresses => (answer (.checkActivity addresses)).map
      (·.map fun x => { x with hasActivity := x.hasActivity || emptied x.address })
  | c => answer c

/-- What is reported besides does not hide what is held. -/
theorem Attests.reporting {c : Call} {a : (c : Call) → c.Answer} (h : Attests answer c (a c))
    (emptied : String → Bool) : Attests answer c (reporting emptied a c) := by
  cases c with
  | checkActivity addresses =>
    intro activity hactivity address ha hheld
    rw [Discovery.reporting] at hactivity
    cases hreport : a (.checkActivity addresses) with
    | error e => rw [hreport] at hactivity; cases hactivity
    | ok report =>
      rw [hreport] at hactivity
      obtain rfl := Except.ok.inj hactivity
      obtain ⟨x, hx, rfl, hactive⟩ := h report hreport address ha hheld
      exact ⟨_, List.mem_map_of_mem hx, rfl, by rw [hactive, Bool.true_or]⟩
  | _ => exact h

/-- There are outputs at the indices 0 and 16, and index 8 is reported but emptied. With a gap limit
of 10, single lookups end at index 11. -/
theorem scanScheme_extends_emptied :
    let answer := Environment.ledgerAnswer fun address =>
      if address.length = 0 ∨ address.length = 16 then [⟨"t", 0, 5, address, 1⟩] else []
    let env := Environment.ofAnswers (reporting (fun address => address.length = 8) answer)
    let options := { ScanOptions.default with scanChangeAddresses := false }
    let scheme := PathScheme.bip44 "wallet" 5 [0] 1
    ∃ ob wb oi wi, ∃ x : Extent,
      ((⟨options, true⟩ : Scanner).scanScheme ⟨[7]⟩ scheme 10 0).run env.logged.handler
        ⟨((), []), false, 0⟩ = (.ok ob, wb) ∧
      ((⟨options, false⟩ : Scanner).scanScheme ⟨[7]⟩ scheme 10 0).run env.logged.handler
        ⟨((), []), false, 0⟩ = (.ok oi, wi) ∧
      ob.addresses.map (·.index) = [0, 16] ∧ oi.addresses.map (·.index) = [0] ∧ x.count = 27 ∧
      Outruns answer ⟨options, ⟨[7]⟩, scheme, x.chain⟩ 10 x 11 := by
  intro answer env options scheme
  have hanswers : env.Answers (Attests answer) := fun c _ =>
    ⟨_, rfl, (attests_self (fun _ => rfl) (fun _ => rfl) c).1.reporting _⟩
  have hderivable (chain : Chain) : Derivable answer ⟨options, ⟨[7]⟩, scheme, chain⟩ :=
    fun _ _ => ⟨_, rfl⟩
  obtain ⟨ob, wb, oi, wi, asked, extents, single, hb, hi, -, -, hchains, hob, hoi, hall⟩ :=
    scanScheme_extends (w := ⟨((), []), false, 0⟩) hanswers (Environment.uncancelled_ofAnswers _)
      rfl (fun chain _ => hderivable chain) (fun _ _ => distinct_ledgerAnswer _ _) 10 0 rfl
  have hbulk : ((((⟨options, true⟩ : Scanner).scanScheme ⟨[7]⟩ scheme 10 0).run env.logged.handler
      ⟨((), []), false, 0⟩).1.map fun o => (o.addresses.map (·.index), o.scanned)) =
        .ok ([0, 16], 27) := by decide +kernel
  have hsingle : ((((⟨options, false⟩ : Scanner).scanScheme ⟨[7]⟩ scheme 10 0).run
      env.logged.handler ⟨((), []), false, 0⟩).1.map fun o =>
        (o.addresses.map (·.index), o.scanned)) = .ok ([0], 11) := by decide +kernel
  have hbulk := eq_of_ok_map hb hbulk
  have hsingle := eq_of_ok_map hi hsingle
  obtain ⟨hfound, hcount⟩ := Prod.mk.inj hbulk
  obtain ⟨hfound', hcount'⟩ := Prod.mk.inj hsingle
  -- The scheme has one chain.
  obtain ⟨x, rfl⟩ : ∃ x, extents = [x] := by
    refine List.length_eq_one_iff.mp ?_
    rw [← List.length_map (·.chain), hchains]
    rfl
  rw [hob.scanned, List.map_singleton, totalOf_cons, totalOf_nil] at hcount
  rw [hoi.scanned, List.map_singleton, totalOf_cons, totalOf_nil] at hcount'
  have hx := hall x List.mem_cons_self
  rw [show single x.chain = 11 from hcount'] at hx
  exact ⟨ob, wb, oi, wi, x, hb, hi, hfound, hfound', hcount, hx⟩

end FundRecovery.Discovery

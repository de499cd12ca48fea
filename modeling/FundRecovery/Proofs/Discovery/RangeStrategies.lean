import FundRecovery.Proofs.Discovery.ParallelTruncation
import FundRecovery.Proofs.Discovery.WidenedScans

/-!
# The two ways to check a range

A range is checked in bulk, or by a wider scan in its place. The bulk query derives from the seed
itself; the scan makes one attempt per passphrase, as every scan does. So they search one wallet if
the scan returns an attempt on the seed itself, and only then.

* `found_takenAll`, `scanRangeInBulk_finds`: what a bulk query finds is there, on chains of the seed
  itself, also where addresses repeat.
* `Examined`: a result has all that its passphrase selects in the first indices of each chain.
  `consults_scanWidened`: so has that of the wider scan.
* `recoverBeyondGap_strategies`: what follows for the two. `recoverBeyondGap_parts`: a passphrase
  parts them.
-/

namespace FundRecovery

/-- There is always an attempt. -/
theorem ScanOptions.passphraseAttempts_ne_nil (o : ScanOptions) : o.passphraseAttempts ≠ [] := by
  unfold passphraseAttempts
  split
  case isTrue => exact List.cons_ne_nil _ _
  case isFalse hsome => rwa [List.isEmpty_iff] at hsome

namespace Discovery

variable {σ τ : Type} {answer : (c : Call) → c.Answer} {looks : Bool → Prop} {log : List Call}

/-! ## In bulk -/

section Bulk

variable {t : Target} {scan : SchemeScan}

/-- The view has nothing for the addresses but their outputs. -/
def BulkView.Tells (answer : (c : Call) → c.Answer) (view : BulkView) (addresses : List String) :
    Prop :=
  ∀ address ∈ addresses, (view.find? address).getD [] = [] ∨
    (view.find? address).getD [] = outputsAt answer address

theorem BulkView.Tells.erase {view : BulkView} {addresses : List String}
    (h : view.Tells answer addresses) (taken : String) :
    (view.erase taken).Tells answer addresses := by
  intro address ha
  by_cases hne : address = taken
  · rw [hne, BulkView.find?_erase_self]
    exact .inl rfl
  · rw [BulkView.find?_erase_ne hne]
    exact h address ha

/-- What is found at positions of some indices is what these indices hold. -/
theorem SchemeScan.found_takenAll {indices : List Nat} {positions : List Position}
    {view : BulkView} (hpositions : ∀ p ∈ positions, ∃ i ∈ indices, positionAt answer t i = some p)
    (hv : view.Tells answer (positions.map (·.derived.address)))
    (hname : scan.schemeName = t.scheme.name) :
    ∀ d ∈ (takenAll t positions view scan).found,
      d ∈ scan.found ∨ d ∈ indices.filterMap (discoveryAt answer t) := by
  induction positions generalizing view scan with
  | nil => exact fun d hd => .inl hd
  | cons p rest ih =>
    obtain ⟨⟨i, hi, hp⟩, hrest⟩ := List.forall_mem_cons.mp hpositions
    obtain ⟨hfirst, htells⟩ := List.forall_mem_cons.mp hv
    obtain ⟨hindex, hd⟩ := derived_of_positionAt hp
    have hpassed : ∀ d ∈ (scan.passed t p.index p.derived
        ((view.find? p.derived.address).getD [])).found,
        d ∈ scan.found ∨ d ∈ indices.filterMap (discoveryAt answer t) := by
      rcases hfirst with hnone | hheld
      · rw [hnone]
        exact fun d hd => .inl hd
      · rw [hheld, hindex, found_passed hname hd]
        intro d hmem
        refine (List.mem_append.mp hmem).imp_right fun hmem => ?_
        exact List.mem_filterMap.mpr ⟨i, hi, Option.mem_toList.mp hmem⟩
    intro d hmem
    rcases ih hrest (BulkView.Tells.erase htells _) (schemeName_passed.trans hname) d hmem with
      h | h
    · exact hpassed d h
    · exact .inr h

@[simp] theorem SchemeScan.schemeName_takenAll (positions : List Position) (view : BulkView) :
    (takenAll t positions view scan).schemeName = scan.schemeName := by
  induction positions generalizing view scan with
  | nil => rfl
  | cons p rest ih => exact (ih _).trans schemeName_passed

@[simp] theorem SchemeScan.failure_takenAll (positions : List Position) (view : BulkView) :
    (takenAll t positions view scan).failure = scan.failure := by
  induction positions generalizing view scan with
  | nil => rfl
  | cons p rest ih => exact (ih _).trans failure_passed

end Bulk

section Scheme

variable {s : Scanner} {seed : Seed} {scheme : PathScheme} {i n : Nat}

/-- What a range scan finds in bulk is there. -/
theorem scanRange_finds (hi : i ≤ n) (hn : n ≤ indexSpace) (chains : List Chain)
    (noted : List ScanFailure) (scan : SchemeScan) (hname : scan.schemeName = scheme.name)
    (log : List Call) :
    Records (Attests answer) looks log
      (s.scanRange seed scheme (List.range' i (n - i)) chains noted scan) fun r _ =>
        ∀ noted' scan', r = .ok (noted', scan') → scan'.failure = scan.failure ∧
          ∀ d ∈ scan'.found, d ∈ scan.found ∨
            ∃ chain ∈ chains, d ∈ discoveriesIn answer (s.target seed scheme chain) i n := by
  induction chains generalizing noted scan log with
  | nil =>
    refine .done ?_
    rintro _ _ ⟨rfl⟩
    exact ⟨rfl, fun d hd => .inl hd⟩
  | cons chain rest ih =>
    refine .bind (.trivial _) fun b log _ => ?_
    cases b with
    | true =>
      refine .done ?_
      rintro _ _ ⟨rfl⟩
      exact ⟨rfl, fun d hd => .inl hd⟩
    | false =>
      refine .bind (deriveRange_attested (t := s.target seed scheme chain) i (n - i) (by omega)) ?_
      rintro ⟨positions, failures⟩ log ⟨rfl, -, -⟩
      refine .bind (bulkLookup_attested _) ?_
      rintro r log ⟨-, hview⟩
      cases r with
      | error e => exact .done (by simp)
      | ok view =>
        refine .bind (recordRange_takes _ view scan log) ?_
        rintro _ log ⟨rfl, -⟩
        refine (ih _ _ ((SchemeScan.schemeName_takenAll _ _).trans hname) log).mono
          fun r _ hend noted' scan' hr => ?_
        obtain ⟨hfailure, hfound⟩ := hend noted' scan' hr
        refine ⟨hfailure.trans (SchemeScan.failure_takenAll _ _), fun d hd => ?_⟩
        rcases hfound d hd with hd | ⟨other, hother, hd⟩
        · have htells : view.Tells answer _ := fun address ha => .inr (hview view rfl address ha)
          refine (SchemeScan.found_takenAll (fun p hp => List.mem_filterMap.mp hp) htells hname d
            hd).imp_right fun hd => ⟨chain, List.mem_cons_self, hd⟩
        · exact .inr ⟨other, List.mem_cons_of_mem _ hother, hd⟩

theorem scanRangeInBulk_finds (hi : i ≤ n) (hn : n ≤ indexSpace) (log : List Call) :
    Records (Attests answer) looks log
      (s.scanRangeInBulk seed scheme (List.range' i (n - i))) fun r _ =>
        ∀ result, r = .ok result → result.passphraseUsed = "" ∧
          ∀ d ∈ result.addresses, ∃ chain ∈ scheme.chains s.options.scanChangeAddresses,
            d ∈ discoveriesIn answer (s.target seed scheme chain) i n := by
  refine .bind (scanRange_finds hi hn _ [] (.start scheme.name) rfl log) fun r log hr => ?_
  cases r with
  | error e => exact .done (by simp)
  | ok x =>
    obtain ⟨noted, scan'⟩ := x
    obtain ⟨hfailure, hfound⟩ := hr noted scan' rfl
    refine .done ?_
    rintro _ ⟨rfl⟩
    have ho : (scan'.outcome 0).failure = none := hfailure
    refine ⟨by rw [absorb_noted ho]; exact Attempt.passphrase_gathered "" _, fun d hd => ?_⟩
    rw [addresses_noted hfailure] at hd
    rcases hfound d hd with hd | hd
    · cases hd
    · exact hd

end Scheme

/-! ## One address at a time -/

section Single

variable {s : Scanner} {seed used : Seed} {scheme : PathScheme} {stop : UInt32} {n : Nat}

/-- Where derivations do not fail, no answer that is attested fails one. -/
theorem Unfailing.keyed (hd : Unfailing answer) (c : Call) (a : c.Answer)
    (h : Attests answer c a) : Keyed c a := by
  cases c with
  | deriveAddress seed coinType account change index =>
    obtain ⟨derived, hderived⟩ := hd.address seed coinType account change index
    exact ⟨derived, h.trans hderived⟩
  | deriveLegacyAddress seed index =>
    obtain ⟨derived, hderived⟩ := hd.legacy seed index
    exact ⟨derived, h.trans hderived⟩
  | _ => exact .intro

/-- Visits find what the indices hold that they pass. -/
theorem Target.Visited.finds_eq {t : Target} {visits : List Visit} {i : Nat}
    (h : t.Visited (Attests answer) i visits) :
    t.finds i visits = discoveriesIn answer t i (i + visits.length) := by
  induction visits generalizing i with
  | nil => exact discoveriesIn_self.symm
  | cons v rest ih =>
    obtain ⟨hderived, hlisted, hrest⟩ := h
    have hlisting : v.outputs = outputsAt answer v.derived.address := by
      have hanswer : v.listing = answer (.listUtxos v.derived.address) := hlisted
      rw [Visit.outputs, outputsAt, hanswer]
      cases answer (.listUtxos v.derived.address) <;> rfl
    rw [List.length_cons, discoveriesIn_step (by omega), discoveryAt, ← derives_attests hderived,
      Target.finds_cons, ih hrest, Target.finds, hlisting, Nat.add_right_comm, Nat.add_assoc]
    dsimp only
    split <;> rfl

/-- What the first indices of each chain hold is among the addresses. -/
def Covers (answer : (c : Call) → c.Answer) (s : Scanner) (used : Seed) (scheme : PathScheme)
    (n : Nat) (addresses : List DiscoveredAddress) : Prop :=
  ∀ chain ∈ scheme.chains s.options.scanChangeAddresses,
    ∀ d ∈ discoveriesIn answer (s.target used scheme chain) 0 n, d ∈ addresses

theorem discoveriesIn_subset {t : Target} {i j n m : Nat} (hij : j ≤ i) (hnm : n ≤ m) :
    discoveriesIn answer t i n ⊆ discoveriesIn answer t j m := by
  intro d hd
  obtain ⟨k, hk, hd⟩ := List.mem_filterMap.mp hd
  have hk := List.mem_range'_1.mp hk
  exact List.mem_filterMap.mpr ⟨k, List.mem_range'_1.mpr ⟨by omega, by omega⟩, hd⟩

/-- Visits that are as many as a range has indices find what there is in it. -/
theorem Courses.covers {courses : List (Chain × List Visit)}
    (h : Courses (Attests answer) s used scheme n (scheme.chains s.options.scanChangeAddresses)
      courses) : Covers answer s used scheme n (s.finds used scheme courses) := by
  intro chain hchain d hd
  rw [← h.chains] at hchain
  obtain ⟨x, hx, rfl⟩ := List.mem_map.mp hchain
  refine List.mem_flatMap.mpr ⟨x, hx, ?_⟩
  rw [(h.visited x hx).finds_eq, Nat.zero_add]
  exact discoveriesIn_subset (Nat.le_refl 0) (h.covered x hx).1 hd

/-- The addresses have all that a passphrase selects in the first indices of each chain. -/
def Examined (answer : (c : Call) → c.Answer) (s : Scanner) (seed : Seed) (scheme : PathScheme)
    (n : Nat) (passphrase : String) (addresses : List DiscoveredAddress) : Prop :=
  passphrase ∈ s.options.passphraseAttempts ∧
    ∃ used, (Scanner.seedFor seed passphrase).value answer = .ok used ∧
      Covers answer s used scheme n addresses

/-- A seed is obtained as the passphrase selects it. -/
theorem consults_seedFor (passphrase : String) :
    Consults (Attests answer) (Scanner.seedFor seed passphrase) fun r _ =>
      r = (Scanner.seedFor seed passphrase).value answer := by
  unfold Scanner.seedFor
  split
  · exact .done rfl
  · exact .call rfl fun _ ha => ha

/-- Attempts that all obtain their seed come to one that is completed. -/
theorem consults_attempts (hd : Unfailing answer) (hbulk : s.usesBulk = false) {number : Nat}
    {as : Attempts} {passphrases : List String}
    (hpassphrases : ∀ p ∈ passphrases, p ∈ s.options.passphraseAttempts)
    (hlast : ∀ x ∈ as.last, Examined answer s seed scheme s.options.extendedGapLimit.toNat
      x.2.passphrase x.2.result.addresses)
    (hsome : passphrases = [] → as.last.isSome = true) :
    Consults (Attests answer) (Attempts.run (Scanner.seedFor seed)
      (fun _ => s.attempt [scheme]) number as passphrases) fun as' _ =>
        Examined answer s seed scheme s.options.extendedGapLimit.toNat as'.result.passphraseUsed
          as'.result.addresses := by
  induction passphrases generalizing number as with
  | nil =>
    obtain ⟨x, hx⟩ := Option.isSome_iff_exists.mp (hsome rfl)
    refine .done ?_
    rw [Attempts.result, hx]
    exact hlast x hx
  | cons passphrase rest ih =>
    obtain ⟨hfirst, hrest⟩ := List.forall_mem_cons.mp hpassphrases
    obtain ⟨used, hused⟩ := hd.value_seedFor seed passphrase
    refine .bind (consults_seedFor passphrase) ?_
    rintro _ u rfl
    rw [hused]
    refine .bind (consults_attempt hd.keyed hbulk used passphrase) ?_
    rintro a t ⟨courses, rfl, hcourses, rfl, -, haddresses⟩
    have hexamined : Examined answer s seed scheme s.options.extendedGapLimit.toNat a.passphrase
        a.result.addresses := ⟨hfirst, used, hused, haddresses ▸ hcourses.covers⟩
    split
    · exact .done hexamined
    · refine (ih hrest ?_ fun _ => rfl).mono fun as' _ h => h
      rintro _ ⟨rfl⟩
      exact hexamined

/-- The wider scan has all that its passphrase selects below the end of the range. -/
theorem consults_scanWidened (hd : Unfailing answer)
    (hready : (s.widened stop).checkReady seed [scheme] = .ok ()) :
    Consults (Attests answer) (s.scanWidened seed scheme stop) fun r _ => ∃ result, r = .ok result ∧
      Examined answer s seed scheme stop.toNat result.passphraseUsed result.addresses := by
  have hattempts : Consults (Attests answer) (Attempts.run (Scanner.seedFor seed)
      (fun _ => (s.widened stop).attempt [scheme]) 1 .none s.options.passphraseAttempts) _ :=
    consults_attempts hd rfl (fun _ hp => hp) (fun _ hx => by cases hx) fun hnone =>
      absurd hnone s.options.passphraseAttempts_ne_nil
  rw [Scanner.scanWidened_eq, Scanner.scanSchemes, hready, Scanner.attempts,
    sortByPriority_singleton, map_eq_pure_bind]
  refine .bind (Q := fun (result : ScanResult) _ => Examined answer s seed scheme stop.toNat
    result.passphraseUsed result.addresses) (.bind hattempts fun as t h => .done h) ?_
  exact fun result _ h => .done ⟨result, rfl, h⟩

end Single

/-! ## The two of them -/

section Recovery

variable {s : Scanner} {seed : Seed} {scheme : PathScheme} {r : BeyondGapRecovery}

/-- The same settings with another say on bulk queries. -/
def Scanner.withBulk (s : Scanner) (enabled attached : Bool) : Scanner :=
  ⟨{ s.options with useBulkOperations := enabled }, attached⟩

/-- **What becomes of a range that is served in bulk, and of one that is not.** The bulk query finds
what the seed itself has in the range. The scan in its place has all that its passphrase selects
there, so it has what the bulk query finds if that passphrase is empty; it is where none are
given. -/
theorem recoverBeyondGap_strategies (hd : Unfailing answer)
    (hscheme : scheme? r.scheme = some scheme) (hrange : r.start < r.stop)
    (hready : s.checkReady seed [scheme] = .ok ()) (hbulk : s.usesBulk = true)
    {env₁ : Environment σ} (h₁ : env₁.Answers fun c a => Attests answer c a ∧ Serves c a)
    (w₁ : World (σ × List Answered)) {env₂ : Environment τ} (h₂ : env₂.Answers (Attests answer))
    (hu₂ : env₂.Uncancelled) {enabled attached : Bool} {w₂ w₃ : World (τ × List Answered)}
    (hw₂ : w₂.cancelled = false)
    (hfalls : (s.withBulk enabled attached).FallsBack env₂ seed scheme r w₂ w₃) :
    ∃ bulk w₁' single w₂',
      (s.recoverBeyondGap seed r).run env₁.logged.handler w₁ = (.ok (.ok bulk), w₁') ∧
      ((s.withBulk enabled attached).recoverBeyondGap seed r).run env₂.logged.handler w₂ =
        (.ok (.ok single), w₂') ∧
      bulk.passphraseUsed = "" ∧
      (∀ d ∈ bulk.addresses, ∃ chain ∈ scheme.chains s.options.scanChangeAddresses,
        d ∈ discoveriesIn answer (s.target seed scheme chain) r.start.toNat r.stop.toNat) ∧
      Examined answer s seed scheme r.stop.toNat single.passphraseUsed single.addresses ∧
      (single.passphraseUsed = "" → ∀ d ∈ bulk.addresses, d ∈ single.addresses) ∧
      (s.options.passphrases = [] → single.passphraseUsed = "") := by
  have hn : r.stop.toNat ≤ indexSpace := Nat.le_of_lt r.stop.toNat_lt
  have hi : r.start.toNat ≤ r.stop.toNat := Nat.le_of_lt (UInt32.lt_iff_toNat_lt.mp hrange)
  have hready₂ : (s.withBulk enabled attached).checkReady seed [scheme] = .ok () := hready
  have hwide : ((s.withBulk enabled attached).widened r.stop).checkReady seed [scheme] = .ok () :=
    Scanner.ready_widened hready₂ hrange
  have hserved : Records (fun c a => Attests answer c a ∧ Serves c a) (fun _ => True) w₁.calls
      (s.recoverBeyondGap seed r) _ :=
    recoverBeyondGap_served hscheme hrange hready hbulk (scanRangeInBulk_finds hi hn w₁.calls)
  obtain ⟨_, w₁', -, hr₁, -, bulk, rfl, hpassphrase, hfound⟩ := h₁.run_any hserved
  obtain ⟨_, w₂', -, hr₂, -, -, single, rfl, hexamined⟩ :=
    (consults_scanWidened hd hwide).run h₂ hu₂ (hfalls.going h₂ hu₂ hw₂)
  have hexamined : Examined answer s seed scheme r.stop.toNat single.passphraseUsed
    single.addresses := hexamined
  refine ⟨bulk, w₁', single, w₂', hr₁, by rw [hfalls.run_eq hscheme hrange hready₂, hr₂],
    hpassphrase, hfound, hexamined, fun hempty d hmem => ?_, fun hplain => ?_⟩
  · obtain ⟨-, used, hused, hcovers⟩ := hexamined
    rw [hempty] at hused
    obtain rfl : seed = used := Except.ok.inj hused
    obtain ⟨chain, hchain, hmem⟩ := hfound d hmem
    exact hcovers chain hchain d (discoveriesIn_subset (Nat.zero_le _) (Nat.le_refl _) hmem)
  · have hmem := hexamined.1
    rw [passphraseAttempts_plain hplain] at hmem
    exact List.mem_singleton.mp hmem

/-- A ledger with an output at index 1. Bulk queries are switched off for the second run. -/
theorem recoverBeyondGap_strategies_ledger :
    let env := Environment.ofAnswers (Environment.ledgerAnswer fun address =>
      if address = "a" then [⟨"t", 0, 5000, address, 1⟩] else [])
    let s : Scanner := ⟨.default, true⟩
    ∃ bulk w single w',
      (s.recoverBeyondGap ⟨[7]⟩ ⟨"legacy", 1, 3⟩).run env.logged.handler ⟨((), []), false, 0⟩ =
        (.ok (.ok bulk), w) ∧
      ((s.withBulk false true).recoverBeyondGap ⟨[7]⟩ ⟨"legacy", 1, 3⟩).run env.logged.handler
        ⟨((), []), false, 0⟩ = (.ok (.ok single), w') ∧
      bulk.addresses.map (·.index) = [1] ∧ ∀ d ∈ bulk.addresses, d ∈ single.addresses := by
  intro env s
  have hanswers : env.Answers fun c a => Attests _ c a ∧ Serves c a :=
    fun c _ => ⟨_, rfl, attests_self (fun _ => rfl) (fun _ => rfl) c⟩
  have hattests : env.Answers (Attests _) := fun c w => by
    obtain ⟨a, ha, hattests, -⟩ := hanswers c w
    exact ⟨a, ha, hattests⟩
  let scheme := PathScheme.withDescription (.legacy "legacy" CoinType.dash 3)
    "Pre-BIP44 single chain derivation"
  have hscheme : scheme? "legacy" = some scheme := by decide +kernel
  have hready : s.checkReady ⟨[7]⟩ [scheme] = .ok () := by decide
  have hfalls : (s.withBulk false true).FallsBack env ⟨[7]⟩ scheme ⟨"legacy", 1, 3⟩
      ⟨((), []), false, 0⟩ ⟨((), []), false, 0⟩ := rfl
  obtain ⟨bulk, w, single, w', hrun, hrun', -, -, -, hsubset, hempty⟩ :=
    recoverBeyondGap_strategies (unfailing_ledgerAnswer _) hscheme (by decide) hready rfl hanswers
      ⟨((), []), false, 0⟩ hattests (Environment.uncancelled_ofAnswers _) rfl hfalls
  have hfound : ((s.recoverBeyondGap ⟨[7]⟩ ⟨"legacy", 1, 3⟩).run env.logged.handler
      ⟨((), []), false, 0⟩).1.map (·.map fun result => result.addresses.map (·.index)) =
        .ok (.ok [1]) := by decide +kernel
  have hindices := eq_of_result_map hrun hfound
  exact ⟨bulk, w, single, w', hrun, hrun', hindices, hsubset (hempty rfl)⟩

/-- A ledger of two seeds: the seed 7, whose address at index `i` has `i` letters a, and the seed 8,
which all passphrases select. There is an output at the first address of the seed 7. -/
def twoSeeds : (c : Call) → c.Answer
  | .deriveLegacyAddress seed i =>
    .ok ⟨"".pushn (if seed.bytes = [7] then 'a' else 'b') (i.toNat + 1), "m"⟩
  | .seedForPassphrase .. => .ok ⟨[8]⟩
  | c => Environment.ledgerAnswer (fun address =>
      if address = "a" then [⟨"t", 0, 5000, address, 1⟩] else []) c

/-- With a passphrase, the bulk query finds the output of the seed itself, and the scan in its place
does not: it searches the wallet of the passphrase. -/
theorem recoverBeyondGap_parts :
    let env := Environment.ofAnswers twoSeeds
    let s : Scanner := ⟨{ ScanOptions.default with passphrases := ["x"] }, true⟩
    Unfailing twoSeeds ∧ env.Answers (fun c a => Attests twoSeeds c a ∧ Serves c a) ∧
      ∃ bulk w single w',
        (s.recoverBeyondGap ⟨[7]⟩ ⟨"legacy", 0, 2⟩).run env.logged.handler ⟨((), []), false, 0⟩ =
          (.ok (.ok bulk), w) ∧
        ((s.withBulk false true).recoverBeyondGap ⟨[7]⟩ ⟨"legacy", 0, 2⟩).run env.logged.handler
          ⟨((), []), false, 0⟩ = (.ok (.ok single), w') ∧
        ∃ d ∈ bulk.addresses, d ∉ single.addresses := by
  intro env s
  have hbulk : ((s.recoverBeyondGap ⟨[7]⟩ ⟨"legacy", 0, 2⟩).run env.logged.handler
      ⟨((), []), false, 0⟩).1.map (·.map fun result => result.addresses.length) =
        .ok (.ok 1) := by decide +kernel
  have hsingle : (((s.withBulk false true).recoverBeyondGap ⟨[7]⟩ ⟨"legacy", 0, 2⟩).run
      env.logged.handler ⟨((), []), false, 0⟩).1.map (·.map fun result => result.addresses) =
        .ok (.ok []) := by decide +kernel
  have hanswers : env.Answers fun c a => Attests twoSeeds c a ∧ Serves c a :=
    fun c _ => ⟨_, rfl, attests_self (fun _ => rfl) (fun _ => rfl) c⟩
  refine ⟨⟨fun _ _ _ _ _ => ⟨_, rfl⟩, fun _ _ => ⟨_, rfl⟩, fun _ _ => ⟨_, rfl⟩⟩, hanswers, ?_⟩
  obtain ⟨bulk, w, hrun, hone⟩ := exists_result_of_map hbulk
  obtain ⟨single, w', hrun', hnone⟩ := exists_result_of_map hsingle
  obtain ⟨d, hd⟩ := List.length_eq_one_iff.mp hone
  exact ⟨bulk, w, single, w', hrun, hrun', d, by simp [hd], by simp [hnone]⟩

end Recovery

end Discovery

end FundRecovery

import FundRecovery.Proofs.Discovery.Narratives

/-!
# The progress events of a scheme's scan

With an observer, the events of a scan are an account of it: how many addresses it has checked, what
it has found, and which lookups failed. The account is right at every moment, whatever the
collaborators answer, whenever the token is cancelled, and also where a crash ends the scan.

* `Tally events found scanned`: the events count the addresses checked, announce the discoveries in
  order, and carry the totals of the discoveries announced by then, in words.
* `Faults log`: each failed lookup of a single address stands between the report that the address is
  being checked and the report of the failure; no other failure is reported.
* `SchemeScan.Accounts`: both, for what a scan has gathered. `accounts_scanChain`: the scan of a
  chain keeps the account, with either strategy.
* `accounts_scanScheme`: so the scan of a scheme ends with one of its outcome.
-/

namespace FundRecovery.Discovery

/-! ## Counting and announcing -/

/-- The event carries the totals of the discoveries, in words. -/
structure Carries (e : ScanProgress) (found : List DiscoveredAddress) : Prop where
  utxos : e.utxosFound = inWord (totalOf (·.utxoCount) found)
  balance : e.balanceFound = inWord (totalOf (·.balance) found)
  exactUtxos : totalOf (·.utxoCount) found ≤ maxAmount →
    e.utxosFound = totalOf (·.utxoCount) found
  exactBalance : totalOf (·.balance) found ≤ maxAmount → e.balanceFound = totalOf (·.balance) found

theorem Carries.of_words {e : ScanProgress} {found : List DiscoveredAddress}
    (hutxos : e.utxosFound = inWord (totalOf (·.utxoCount) found))
    (hbalance : e.balanceFound = inWord (totalOf (·.balance) found)) : Carries e found :=
  ⟨hutxos, hbalance, fun h => hutxos.trans (inWord_of_le h),
    fun h => hbalance.trans (inWord_of_le h)⟩

/-- The event announces the discovery. -/
structure Announces (e : ScanProgress) (d : DiscoveredAddress) : Prop where
  schemeName : e.schemeName = d.schemeName
  address : e.currentAddress = d.address
  message : e.message = toString d.utxoCount ++ " UTXOs, " ++ toString d.balance ++ " sat"

/-- The events of a scan that has checked so many addresses and made these discoveries. -/
structure Tally (events : List ScanProgress) (found : List DiscoveredAddress) (scanned : Nat) :
    Prop where
  scanning : (events.filter (·.phase = .scanning)).map (·.addressesScanned) = List.range' 1 scanned
  announced : List.Forall₂ Announces (events.filter (·.phase = .found)) found
  carries : ∀ before e, before ++ [e] <+: events →
    Carries e (found.take ((before ++ [e]).countP (·.phase = .found)))

namespace Tally

variable {events : List ScanProgress} {found : List DiscoveredAddress} {scanned : Nat}
  {e : ScanProgress}

theorem nil : Tally [] [] 0 where
  scanning := rfl
  announced := .nil
  carries before e h := by simp at h

theorem countP_found (h : Tally events found scanned) :
    events.countP (·.phase = .found) = found.length := by
  rw [List.countP_eq_length_filter]
  exact h.announced.length_eq

theorem countP_scanning (h : Tally events found scanned) :
    events.countP (·.phase = .scanning) = scanned := by
  have hlength := congrArg List.length h.scanning
  rwa [List.length_map, List.length_range', ← List.countP_eq_length_filter] at hlength

/-- One more event carries the totals as they are by then; those of the others stay right. -/
theorem carries_append (h : Tally events found scanned) (new : List DiscoveredAddress)
    (hnew : new.length = if e.phase = .found then 1 else 0) (he : Carries e (found ++ new))
    (before : List ScanProgress) (e' : ScanProgress) (hbefore : before ++ [e'] <+: events ++ [e]) :
    Carries e' ((found ++ new).take ((before ++ [e']).countP (·.phase = .found))) := by
  rcases List.prefix_concat_iff.mp hbefore with hall | hearlier
  · obtain ⟨rfl, hlast⟩ := List.append_inj' hall rfl
    obtain rfl := List.singleton_inj.mp hlast
    have hcount : (before ++ [e']).countP (·.phase = .found) = (found ++ new).length := by
      rw [List.countP_append, h.countP_found, List.length_append, hnew, List.countP_singleton]
      simp
    rwa [hcount, List.take_length]
  · have hle : (before ++ [e']).countP (·.phase = .found) ≤ found.length := by
      rw [← h.countP_found]
      exact hearlier.sublist.countP_le
    rw [List.take_append_of_le_length hle]
    exact h.carries before e' hearlier

/-- One more address is checked. -/
theorem check (h : Tally events found scanned) (hphase : e.phase = .scanning)
    (hscanned : e.addressesScanned = scanned + 1) (he : Carries e found) :
    Tally (events ++ [e]) found (scanned + 1) where
  scanning := by
    rw [List.filter_append, List.map_append, h.scanning, List.range'_concat]
    simp [hphase, hscanned, Nat.add_comm]
  announced := by
    rw [List.filter_append]
    simpa [hphase] using h.announced
  carries := by
    simpa using h.carries_append [] (by simp [hphase]) (by simpa using he)

/-- A discovery is made and announced. -/
theorem announce (h : Tally events found scanned) {d : DiscoveredAddress}
    (hphase : e.phase = .found) (hd : Announces e d) (he : Carries e (found ++ [d])) :
    Tally (events ++ [e]) (found ++ [d]) scanned where
  scanning := by
    rw [List.filter_append]
    simpa [hphase] using h.scanning
  announced := by
    rw [List.filter_append]
    refine List.rel_append h.announced ?_
    simpa [hphase] using hd
  carries := h.carries_append [d] (by simp [hphase]) he

/-- A failure is reported. -/
theorem fault (h : Tally events found scanned) (hphase : e.phase = .error) (he : Carries e found) :
    Tally (events ++ [e]) found scanned where
  scanning := by
    rw [List.filter_append]
    simpa [hphase] using h.scanning
  announced := by
    rw [List.filter_append]
    simpa [hphase] using h.announced
  carries := by
    simpa using h.carries_append [] (by simp [hphase]) (by simpa using he)

end Tally

/-! ## Failed lookups -/

namespace Answered

/-- The address and the failure of a lookup that failed. -/
def failedLookup? : Answered → Option (String × ChainError)
  | ⟨.listUtxos address, .ok (.error e)⟩ => some (address, e)
  | _ => none

/-- It reports that the lookup of the address failed. -/
def ReportsMiss (x : Answered) (address : String) (e : ChainError) : Prop :=
  ∃ event, x.call = .report event ∧ event.phase = .error ∧ event.currentAddress = address ∧
    event.message = "UTXO lookup failed: " ++ e.message

/-- A report is no lookup. -/
theorem failedLookup?_report {x : Answered} {event : ScanProgress} (h : x.call = .report event) :
    x.failedLookup? = none := by
  obtain ⟨c, a⟩ := x
  obtain rfl : c = .report event := h
  rfl

theorem failedLookup?_quiet {x : Answered} (h : x.call.Quiet) : x.failedLookup? = none := by
  obtain ⟨c, a⟩ := x
  cases c with
  | listUtxos address => exact h.elim
  | _ => rfl

end Answered

/-- The last call of the log reports that the address is being checked. -/
def Checks (address : String) (log : List Answered) : Prop :=
  ∃ before x event, log = before ++ [x] ∧ x.call = .report event ∧ event.phase = .scanning ∧
    event.currentAddress = address

/-- Each failed lookup follows the report that its address is being checked and is followed by one
report of the failure; every report of a failure is such a one. -/
structure Faults (log : List Answered) : Prop where
  reported : ∀ before x address e, before ++ [x] <+: log → x.failedLookup? = some (address, e) →
    Checks address before ∧ ∃ y, before ++ [x, y] <+: log ∧ y.ReportsMiss address e
  caused : ∀ before y event, before ++ [y] <+: log → y.call = .report event →
    event.phase = .error →
      ∃ earlier x e, before = earlier ++ [x] ∧ x.failedLookup? = some (event.currentAddress, e)

namespace Faults

variable {log : List Answered}

theorem nil : Faults [] where
  reported before x address e h := by simp at h
  caused before y event h := by simp at h

/-- Other calls. -/
theorem other (h : Faults log) {x : Answered} (hlookup : x.failedLookup? = none)
    (hreport : ∀ event, x.call = .report event → event.phase ≠ .error) : Faults (log ++ [x]) where
  reported before x' address e hbefore hx' := by
    rcases List.prefix_concat_iff.mp hbefore with hall | hearlier
    · obtain rfl := List.singleton_inj.mp (List.append_inj' hall rfl).2
      rw [hlookup] at hx'
      cases hx'
    · obtain ⟨hchecks, y, hy, hmiss⟩ := h.reported before x' address e hearlier hx'
      exact ⟨hchecks, y, hy.trans (List.prefix_append _ _), hmiss⟩
  caused before y event hbefore hy hphase := by
    rcases List.prefix_concat_iff.mp hbefore with hall | hearlier
    · obtain rfl := List.singleton_inj.mp (List.append_inj' hall rfl).2
      exact absurd hphase (hreport event hy)
    · exact h.caused before y event hearlier hy hphase

/-- A failed lookup with the report of its failure. -/
theorem miss (h : Faults log) {x y : Answered} {address : String} {e : ChainError}
    (hx : x.failedLookup? = some (address, e)) (hchecks : Checks address log)
    (hy : y.ReportsMiss address e) : Faults (log ++ [x, y]) := by
  have hsplit : log ++ [x, y] = log ++ [x] ++ [y] := by simp
  obtain ⟨event, hcall, -, haddress, -⟩ := id hy
  constructor
  · intro before x' address' e' hbefore hx'
    rw [hsplit] at hbefore
    rcases List.prefix_concat_iff.mp hbefore with hall | hearlier
    · obtain rfl := List.singleton_inj.mp (List.append_inj' hall rfl).2
      rw [Answered.failedLookup?_report hcall] at hx'
      cases hx'
    rcases List.prefix_concat_iff.mp hearlier with hall | hearlier
    · obtain ⟨rfl, hlast⟩ := List.append_inj' hall rfl
      obtain rfl := List.singleton_inj.mp hlast
      rw [hx] at hx'
      cases hx'
      exact ⟨hchecks, y, List.prefix_rfl, hy⟩
    · obtain ⟨hchecks', y', hy', hmiss⟩ := h.reported before x' address' e' hearlier hx'
      exact ⟨hchecks', y', hy'.trans (List.prefix_append _ _), hmiss⟩
  · intro before y' event' hbefore hy' hphase
    rw [hsplit] at hbefore
    rcases List.prefix_concat_iff.mp hbefore with hall | hearlier
    · obtain ⟨rfl, hlast⟩ := List.append_inj' hall rfl
      obtain rfl := List.singleton_inj.mp hlast
      obtain rfl : event' = event := Call.report.inj (hy'.symm.trans hcall)
      exact ⟨log, x, e, rfl, by rw [haddress, hx]⟩
    rcases List.prefix_concat_iff.mp hearlier with hall | hearlier
    · obtain rfl := List.singleton_inj.mp (List.append_inj' hall rfl).2
      rw [Answered.failedLookup?_report hy'] at hx
      cases hx
    · exact h.caused before y' event' hearlier hy' hphase

end Faults

/-! ## Accounts -/

/-- The log is an account of what the scan has gathered. -/
structure SchemeScan.Accounts (scan : SchemeScan) (log : List Answered) : Prop where
  tally : Tally (reportsIn log) scan.found scan.scanned
  faults : Faults log
  utxoCount : scan.utxoCount = inWord (totalOf (·.utxoCount) scan.found)
  balance : scan.balance = inWord (totalOf (·.balance) scan.found)

/-- The log is an account of what the outcome has. -/
structure SchemeOutcome.Accounts (o : SchemeOutcome) (log : List Answered) : Prop where
  tally : Tally (reportsIn log) o.addresses o.scanned
  faults : Faults log
  utxoCount : o.utxoCount = inWord (totalOf (·.utxoCount) o.addresses)
  balance : o.balance = inWord (totalOf (·.balance) o.addresses)
  exactUtxos : totalOf (·.utxoCount) o.addresses ≤ maxAmount →
    o.utxoCount = totalOf (·.utxoCount) o.addresses
  exactBalance : totalOf (·.balance) o.addresses ≤ maxAmount →
    o.balance = totalOf (·.balance) o.addresses

/-- The log is an account of some scan. -/
def AnyAccount (log : List Answered) : Prop := ∃ scan : SchemeScan, scan.Accounts log

namespace SchemeScan.Accounts

variable {scan : SchemeScan} {log : List Answered}

theorem start (name : String) : (SchemeScan.start name).Accounts [] := ⟨.nil, .nil, rfl, rfl⟩

/-- How a scan ended is no matter of its account. -/
theorem ends (h : scan.Accounts log) (failure : Option DerivationFailure) (cancelled : Bool) :
    { scan with failure, cancelled }.Accounts log := ⟨h.tally, h.faults, h.utxoCount, h.balance⟩

/-- The outcome has what the scan has gathered. -/
theorem outcome (h : scan.Accounts log) (priorityIndex : Nat) :
    (scan.outcome priorityIndex).Accounts log :=
  ⟨h.tally, h.faults, h.utxoCount, h.balance, fun hfits => h.utxoCount.trans (inWord_of_le hfits),
    fun hfits => h.balance.trans (inWord_of_le hfits)⟩

theorem carries (h : scan.Accounts log) (phase : ScanPhase) (address message : String) :
    Carries (scan.event phase address message) scan.found := .of_words h.utxoCount h.balance

theorem quiet (h : scan.Accounts log) {c : Call} (hc : c.Quiet) (r : Except Crash c.Answer) :
    scan.Accounts (log ++ [⟨c, r⟩]) where
  tally := by
    rw [reportsIn, List.map_append, List.map_singleton, events_append_asked hc.event?_eq_none]
    exact h.tally
  faults := h.faults.other (Answered.failedLookup?_quiet hc) (by rintro event rfl; exact hc.elim)
  utxoCount := h.utxoCount
  balance := h.balance

/-- A lookup that does not fail. -/
theorem lookup (h : scan.Accounts log) (address : String)
    (r : Except Crash (Call.listUtxos address).Answer)
    (hr : Answered.failedLookup? ⟨.listUtxos address, r⟩ = none) :
    scan.Accounts (log ++ [⟨.listUtxos address, r⟩]) where
  tally := by
    rw [reportsIn_append]
    exact (List.append_nil _).symm ▸ h.tally
  faults := h.faults.other hr (by rintro event ⟨⟩)
  utxoCount := h.utxoCount
  balance := h.balance

/-- An address is counted and reported. -/
theorem check (h : scan.Accounts log) (address : String) (r : Except Crash Unit) :
    scan.counted.Accounts
      (log ++ [⟨.report (scan.counted.event .scanning address ""), r⟩]) where
  tally := by
    rw [reportsIn_append]
    exact h.tally.check rfl rfl (.of_words h.utxoCount h.balance)
  faults := h.faults.other rfl (by rintro event ⟨rfl⟩; exact nofun)
  utxoCount := h.utxoCount
  balance := h.balance

/-- A lookup fails while its address is being checked, and the failure is reported. -/
theorem miss (h : scan.Accounts log) {address : String} (hchecks : Checks address log)
    (e : ChainError) (r : Except Crash Unit) :
    scan.Accounts (log ++ [⟨.listUtxos address, .ok (.error e)⟩,
      ⟨.report (scan.event .error address ("UTXO lookup failed: " ++ e.message)), r⟩]) where
  tally := by
    rw [reportsIn_append]
    exact h.tally.fault rfl (h.carries .error address _)
  faults := h.faults.miss rfl hchecks ⟨_, rfl, rfl, rfl, rfl⟩
  utxoCount := h.utxoCount
  balance := h.balance

/-- A discovery is added and announced. -/
theorem announce (h : scan.Accounts log) (d : DiscoveredAddress)
    (hname : d.schemeName = scan.schemeName) (r : Except Crash Unit) :
    (scan.add d).Accounts (log ++ [⟨.report (scan.foundEvent d), r⟩]) := by
  have hutxos : (scan.add d).utxoCount = inWord (totalOf (·.utxoCount) (scan.add d).found) := by
    simp [SchemeScan.add, h.utxoCount]
  have hbalance : (scan.add d).balance = inWord (totalOf (·.balance) (scan.add d).found) := by
    simp [SchemeScan.add, h.balance]
  refine ⟨?_, h.faults.other rfl (by rintro event ⟨rfl⟩; exact nofun), hutxos, hbalance⟩
  rw [reportsIn_append]
  exact h.tally.announce rfl ⟨hname.symm, rfl, rfl⟩ (.of_words hutxos hbalance)

end SchemeScan.Accounts

/-! ## The scan of a chain -/

section Chain

variable {t : Target} (ho : t.options.observed = true) {scan : SchemeScan} {log : List Answered}

/-- Derivations are quiet. -/
theorem quiet_derivation (t : Target) (index : UInt32) : (t.derivation index).Quiet := by
  unfold Target.derivation
  split <;> exact .intro

theorem asks_derive_quiet (t : Target) (index : UInt32) : Asks Call.Quiet (t.derive index) :=
  asks_derive (quiet_derivation t) index

theorem asks_deriveBatch_quiet (t : Target) (indices : List Nat) :
    Asks Call.Quiet (deriveBatch t indices) := asks_deriveBatch (quiet_derivation t) indices

theorem asks_bulkLookup_quiet (addresses : List String) :
    Asks Call.Quiet (bulkLookup addresses) :=
  asks_bulkLookup (fun _ => .intro) (fun _ => .intro) addresses

/-- Quiet calls leave the account as it is. -/
theorem accounts_quiet {α : Type} {p : Scan α} (hp : Asks Call.Quiet p) (h : scan.Accounts log) :
    Narrates AnyAccount log p fun _ => scan.Accounts :=
  .quiet hp (fun _ h => ⟨scan, h⟩) (fun r hc h => h.quiet hc r) h

theorem accounts_isCancelled (h : scan.Accounts log) :
    Narrates AnyAccount log isCancelled fun _ => scan.Accounts :=
  .isCancelled ⟨scan, h⟩ fun _ => h

include ho

theorem accounts_visit (h : scan.Accounts log) (address : String) :
    Narrates AnyAccount log (visit t address scan) fun scan log =>
      scan.Accounts log ∧ Checks address log :=
  .bind (.report ho (Q := fun log => scan.counted.Accounts log ∧ Checks address log)
    (fun e => ⟨_, h.check address (.error e)⟩)
    ⟨h.check address (.ok ()), log, _, _, rfl, rfl, rfl, rfl⟩) fun _ _ h => .done h

theorem accounts_lookupUtxos (h : scan.Accounts log) {address : String}
    (hchecks : Checks address log) :
    Narrates AnyAccount log (lookupUtxos t address scan) fun _ => scan.Accounts := by
  refine .bind (.call (Q := fun r log' => log' = log ++ [⟨.listUtxos address, .ok r⟩])
    (fun e => ⟨scan, h.lookup address (.error e) rfl⟩) fun _ => rfl) ?_
  rintro r _ rfl
  cases r with
  | ok utxos => exact .done (h.lookup address (.ok (.ok utxos)) rfl)
  | error e =>
    have hmiss (r : Except Crash Unit) := h.miss hchecks e r
    refine .bind (.report ho (Q := scan.Accounts) (fun crash => ⟨scan, ?_⟩) ?_) fun _ _ h => .done h
    · rw [List.append_assoc]
      exact hmiss (.error crash)
    · rw [List.append_assoc]
      exact hmiss (.ok ())

theorem accounts_recordFound (h : scan.Accounts log) (index : UInt32) (derived : DerivedAddress)
    (utxos : List Utxo) :
    Narrates AnyAccount log (recordFound t index derived utxos scan) SchemeScan.Accounts := by
  unfold recordFound
  split
  · exact .done h
  · exact .bind (.report ho (Q := (scan.add _).Accounts) (fun e => ⟨_, h.announce _ rfl (.error e)⟩)
      (h.announce _ rfl (.ok ()))) fun _ _ h => .done h

/-- One lookup per address keeps the account. -/
theorem accounts_scanIndices (left index : Nat) (gap : GapLimit) (h : scan.Accounts log) :
    Narrates AnyAccount log (scanIndices t left index gap scan) SchemeScan.Accounts := by
  induction left generalizing index gap scan log with
  | zero => exact .done h
  | succ left ih =>
    rw [scanIndices]
    split
    · exact .done h
    refine .bind (accounts_isCancelled h) fun b log h => ?_
    cases b with
    | true => exact .done (h.ends scan.failure true)
    | false =>
      refine .bind (accounts_quiet (asks_derive_quiet t _) h) fun r log h => ?_
      cases r with
      | error e => exact .done (h.ends _ scan.cancelled)
      | ok derived =>
        refine .bind (accounts_visit ho h derived.address) fun scan log hvisited => ?_
        obtain ⟨h, hchecks⟩ := hvisited
        refine .bind (accounts_lookupUtxos ho h hchecks) fun utxos log h => ?_
        exact .bind (accounts_recordFound ho h _ derived utxos) fun scan log h => ih _ _ h

theorem accounts_takeOrLookup (h : scan.Accounts log) {address : String}
    (hchecks : Checks address log) (view : Option BulkView) :
    Narrates AnyAccount log (takeOrLookup t view address scan) fun _ => scan.Accounts := by
  cases view with
  | some view => exact .done h
  | none => exact .bind (accounts_lookupUtxos ho h hchecks) fun _ _ h => .done h

theorem accounts_scanBatch (batch : List Position) (view : Option BulkView) (gap : GapLimit)
    (h : scan.Accounts log) :
    Narrates AnyAccount log (scanBatch t batch view gap scan) fun r => r.2.Accounts := by
  induction batch generalizing view gap scan log with
  | nil => exact .done h
  | cons p rest ih =>
    rw [scanBatch]
    split
    · exact .done h
    refine .bind (accounts_isCancelled h) fun b log h => ?_
    cases b with
    | true => exact .done (h.ends scan.failure true)
    | false =>
      refine .bind (accounts_visit ho h p.derived.address) fun scan log hvisited => ?_
      obtain ⟨h, hchecks⟩ := hvisited
      refine .bind (accounts_takeOrLookup ho h hchecks view) fun taken log h => ?_
      exact .bind (accounts_recordFound ho h _ p.derived _) fun scan log h => ih _ _ h

/-- One query per batch keeps the account. -/
theorem accounts_scanBatches (left first : Nat) (gap : GapLimit) (h : scan.Accounts log) :
    Narrates AnyAccount log (scanBatches t left first gap scan) SchemeScan.Accounts := by
  induction left generalizing first gap scan log with
  | zero => exact .done h
  | succ left ih =>
    rw [scanBatches]
    split
    · exact .done h
    refine .bind (accounts_isCancelled h) fun b log h => ?_
    cases b with
    | true => exact .done (h.ends scan.failure true)
    | false =>
      refine .bind (accounts_quiet (asks_deriveBatch_quiet t _) h) fun derived log h => ?_
      obtain ⟨batch, failure⟩ := derived
      cases hempty : batch.isEmpty with
      | true =>
        simp only [hempty, ↓reduceIte]
        exact .done (h.ends failure scan.cancelled)
      | false =>
        simp only [hempty, Bool.false_eq_true, ↓reduceIte]
        refine .bind (accounts_quiet (asks_bulkLookup_quiet _) h) fun view log h => ?_
        refine .bind (accounts_scanBatch ho batch view.toOption gap h) fun scanned log h => ?_
        obtain ⟨gap, scan⟩ := scanned
        -- The batch was cut short by the token, was the last one, or others follow.
        split
        · exact .done h
        split
        · split
          · exact .done h
          · exact .done (h.ends failure scan.cancelled)
        · exact ih _ _ h

/-- Either strategy keeps the account. -/
theorem accounts_scanChain (s : Scanner) (gapLimit : UInt32) (h : scan.Accounts log) :
    Narrates AnyAccount log (s.scanChain t gapLimit scan) SchemeScan.Accounts := by
  unfold Scanner.scanChain
  split
  · exact accounts_scanBatches ho _ _ _ h
  · exact accounts_scanIndices ho _ _ _ h

end Chain

/-! ## The scan of a scheme -/

section Scheme

variable {s : Scanner} (ho : s.options.observed = true) (seed : Seed) (scheme : PathScheme)
  (gapLimit : UInt32)

include ho

theorem accounts_scanChains (chains : List Chain) {scan : SchemeScan} {log : List Answered}
    (h : scan.Accounts log) :
    Narrates AnyAccount log (s.scanChains seed scheme gapLimit chains scan)
      SchemeScan.Accounts := by
  induction chains generalizing scan log with
  | nil => exact .done h
  | cons chain rest ih =>
    refine .bind (accounts_isCancelled h) fun b log h => ?_
    cases b with
    | true => exact .done (h.ends scan.failure true)
    | false =>
      have hchain : Narrates AnyAccount log
          (s.scanChain ⟨s.options, seed, scheme, chain⟩ gapLimit scan) SchemeScan.Accounts :=
        accounts_scanChain ho s gapLimit h
      refine .bind hchain fun scan log h => ?_
      split
      · exact .done h
      · exact ih h

/-- The log of a scan is an account of its outcome, and of a part of it where a crash ends it. -/
theorem accounts_scanScheme (priorityIndex : Nat) :
    Narrates AnyAccount [] (s.scanScheme seed scheme gapLimit priorityIndex)
      SchemeOutcome.Accounts :=
  .bind (accounts_scanChains ho seed scheme gapLimit _ (.start scheme.name)) fun _ _ h =>
    .done (h.outcome priorityIndex)

end Scheme

end FundRecovery.Discovery

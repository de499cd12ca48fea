import FundRecovery.Proofs.Discovery.PoolOutcomes
import FundRecovery.Proofs.Discovery.Searches
import Mathlib.Data.List.Flatten
import Mathlib.Data.List.Nodup

/-!
# The parts of a result agree

A result repeats itself: it has its discoveries by scheme and their totals, the names of the schemes
it went through, and a mark for a scan that was stopped, which is also the last of its failures. The
totals are words: they are the sums only where these fit.

* `ScanResult.Consistent names r`: these parts agree in `r`, a result of a search through schemes
  with these names.
* `ScanResult.addresses_perm`: schemes in order, the addresses are the discoveries.
* `Attempt.Sound`: what an attempt has gathered agrees. `Attempt.Sound.foldl_absorb`: outcomes of
  schemes in order keep it so. `Attempt.Sound.consistent`: so the parts of its result agree.
* `search_consistent`: whichever way a wallet is searched, the parts of the result agree.
-/

namespace FundRecovery

/-! ## Entries and addresses -/

/-- Distinct names that have all entries have, one after the other, what the entries have. -/
theorem flatMap_lookup_perm {α : Type} {names : List String} {entries : List (String × List α)}
    (hnames : names.Nodup) (hentries : (entries.map (·.1)).Nodup)
    (hlisted : ∀ e ∈ entries, e.1 ∈ names) :
    (names.flatMap fun name => (entries.lookup name).getD []).Perm
      (entries.map (·.2)).flatten := by
  induction entries generalizing names with
  | nil => simp
  | cons entry rest ih =>
    obtain ⟨key, found⟩ := entry
    obtain ⟨hfresh, hrest⟩ := List.nodup_cons.mp hentries
    obtain ⟨hmem, hlisted⟩ := List.forall_mem_cons.mp hlisted
    have hothers : ∀ e ∈ rest, e.1 ∈ names.erase key := fun e he =>
      (List.mem_erase_of_ne fun heq => hfresh (List.mem_map.mpr ⟨e, he, heq⟩)).mpr (hlisted e he)
    -- The other names do not find the first entry.
    have hskip : ∀ name ∈ names.erase key,
        (((key, found) :: rest).lookup name).getD [] = (rest.lookup name).getD [] := by
      intro name hname
      have hne : name ≠ key := fun heq => hnames.not_mem_erase (heq ▸ hname)
      rw [List.lookup_cons, beq_false_of_ne hne]
    refine ((List.perm_cons_erase hmem).flatMap_right _).trans ?_
    rw [List.flatMap_cons, List.flatMap_congr hskip, List.lookup_cons_self, Option.getD_some,
      List.map_cons, List.flatten_cons]
    exact (ih (hnames.erase _) hrest hothers).append_left _

namespace ScanResult

variable {r : ScanResult}

/-- A result whose entries are of schemes that were scanned has its discoveries in the order of the
schemes. -/
theorem addresses_perm (hlisted : ∀ e ∈ r.foundAddresses.entries, e.1 ∈ r.schemesScanned) :
    r.addresses.Perm r.discoveries := by
  have hnames := nodup_map_firstOccurrences id r.schemesScanned
  rw [List.map_id] at hnames
  refine flatMap_lookup_perm hnames r.foundAddresses.nodup_names fun e he => ?_
  rw [← List.map_id (firstOccurrences id r.schemesScanned), mem_map_firstOccurrences, List.map_id]
  exact hlisted e he

/-- The failure that marks a stopped scan is the last one, or there is none of the kind. -/
def Marked (r : ScanResult) : Prop :=
  ∃ failures, Discovery.Attempt.cancelledNote ∉ failures ∧
    r.errors = failures ++ if r.cancelled then [Discovery.Attempt.cancelledNote] else []

theorem Marked.noted (h : r.Marked) :
    r.cancelled = true ↔ r.errors.getLast? = some Discovery.Attempt.cancelledNote := by
  obtain ⟨failures, hunmarked, herrors⟩ := h
  rw [herrors]
  cases r.cancelled with
  | true => simp
  | false =>
    simp only [Bool.false_eq_true, ↓reduceIte, List.append_nil, false_iff]
    exact fun hlast => hunmarked (List.mem_of_getLast? hlast)

/-- The parts of a result agree, for a search through schemes with these names. -/
structure Consistent (names : List String) (r : ScanResult) : Prop where
  totalBalance : r.totalBalance = inWord (totalOf (·.balance) r.discoveries)
  totalUtxos : r.totalUtxos = inWord (totalOf (·.utxoCount) r.discoveries)
  exactBalance : totalOf (·.balance) r.discoveries ≤ maxAmount →
    r.totalBalance = totalOf (·.balance) r.discoveries
  exactUtxos : totalOf (·.utxoCount) r.discoveries ≤ maxAmount →
    r.totalUtxos = totalOf (·.utxoCount) r.discoveries
  nonempty : ∀ e ∈ r.foundAddresses.entries, e.2 ≠ []
  named : ∀ e ∈ r.foundAddresses.entries, ∀ d ∈ e.2, d.schemeName = e.1
  listed : ∀ e ∈ r.foundAddresses.entries, e.1 ∈ r.schemesScanned
  nodup : r.schemesScanned.Nodup
  inOrder : r.schemesScanned <+: names
  grouped : r.addresses = r.schemesScanned.flatMap r.addressesOf
  complete : r.addresses.Perm r.discoveries
  count : r.addresses.length = r.addressCount
  noted : r.cancelled = true ↔ r.errors.getLast? = some Discovery.Attempt.cancelledNote

end ScanResult

namespace Discovery

variable {σ : Type} {env : Environment σ} {A : (c : Call) → c.Answer → Prop}

/-! ## What is gathered -/

/-- The outcome is of the scheme with this name, and so are its discoveries. -/
def SchemeOutcome.Of (name : String) (o : SchemeOutcome) : Prop :=
  o.schemeName = name ∧ ∀ d ∈ o.addresses, d.schemeName = name

theorem head?_toList_append {c : Char} {front : String} (h : front.toList.head? = some c)
    (rest : String) : (front ++ rest).toList.head? = some c := by
  rw [String.toList_append, List.head?_append, h, Option.some_or]

/-- Under the number of an attempt, no message is that of the mark. -/
theorem attemptMessage_ne (number : Nat) (message : String) :
    attemptMessage number message ≠ "scan cancelled" := by
  intro h
  have hfirst : (attemptMessage number message).toList.head? = some 'p' :=
    head?_toList_append (head?_toList_append (head?_toList_append (by decide +kernel) _) _) _
  have hmark : "scan cancelled".toList.head? = some 's' := by decide +kernel
  rw [h, hmark] at hfirst
  cases hfirst

namespace Attempt

variable {names : List String} {a : Attempt}

@[simp] theorem schemesScanned_absorb (a : Attempt) (o : SchemeOutcome) :
    (a.absorb o).schemesScanned = a.schemesScanned ++ [o.schemeName] := by
  unfold absorb
  dsimp only
  split
  · rfl
  split <;> rfl

theorem foldl_recordFailure (failures : List ScanFailure) (a : Attempt) :
    failures.foldl recordFailure a = { a with errors := a.errors ++ failures } := by
  induction failures generalizing a with
  | nil => rw [List.append_nil]; rfl
  | cons f rest ih => rw [List.foldl_cons, ih, recordFailure, List.append_assoc]; rfl

theorem ne_cancelledNote_of_message {f : ScanFailure} {number : Nat} {message : String}
    (h : f.message = attemptMessage number message) : f ≠ cancelledNote := by
  rintro rfl
  exact attemptMessage_ne number message h.symm

/-- What an attempt over schemes with these names has gathered agrees. -/
structure Sound (names : List String) (a : Attempt) : Prop where
  inOrder : a.schemesScanned <+: names
  nonempty : ∀ e ∈ a.foundAddresses.entries, e.2 ≠ []
  named : ∀ e ∈ a.foundAddresses.entries, ∀ d ∈ e.2, d.schemeName = e.1
  listed : ∀ e ∈ a.foundAddresses.entries, e.1 ∈ a.schemesScanned
  unmarked : cancelledNote ∉ a.errors

namespace Sound

theorem start (passphrase : String) (names : List String) : (start passphrase).Sound names where
  inOrder := List.nil_prefix
  nonempty _ he := absurd he List.not_mem_nil
  named _ he := absurd he List.not_mem_nil
  listed _ he := absurd he List.not_mem_nil
  unmarked := List.not_mem_nil

theorem noteToken (h : a.Sound names) (cancelled : Bool) : (a.noteToken cancelled).Sound names :=
  ⟨h.inOrder, h.nonempty, h.named, h.listed, h.unmarked⟩

/-- Failures that are no mark. -/
theorem withFailures (h : a.Sound names) {failures : List ScanFailure}
    (hf : cancelledNote ∉ failures) :
    ({ a with errors := a.errors ++ failures } : Attempt).Sound names :=
  ⟨h.inOrder, h.nonempty, h.named, h.listed,
    List.mem_append.not.mpr (not_or.mpr ⟨h.unmarked, hf⟩)⟩

/-- The outcome of the scheme that is next in order. -/
theorem absorb (h : a.Sound names) {o : SchemeOutcome}
    (hnext : a.schemesScanned ++ [o.schemeName] <+: names)
    (ho : ∀ d ∈ o.addresses, d.schemeName = o.schemeName) : (a.absorb o).Sound names := by
  have hkept : ∀ e ∈ a.foundAddresses.entries, e.1 ∈ a.schemesScanned ++ [o.schemeName] :=
    fun e he => List.mem_append_left _ (h.listed e he)
  unfold Attempt.absorb
  dsimp only
  split
  · refine ⟨hnext, h.nonempty, h.named, hkept, ?_⟩
    refine List.mem_append.not.mpr (not_or.mpr ⟨h.unmarked, fun hmem => ?_⟩)
    cases List.mem_singleton.mp hmem
  split
  · exact ⟨hnext, h.nonempty, h.named, hkept, h.unmarked⟩
  case isFalse hne =>
    have hentry {P : String × List DiscoveredAddress → Prop} (hnew : P (o.schemeName, o.addresses))
        (hold : ∀ e ∈ a.foundAddresses.entries, P e) :
        ∀ e ∈ (a.foundAddresses.insert o.schemeName o.addresses).entries, P e := fun e he =>
      (NameMap.mem_insertEntry he).elim (fun heq => heq ▸ hnew) (hold e)
    refine ⟨hnext, ?_, ?_, ?_, h.unmarked⟩
    · exact hentry (by simpa using hne) h.nonempty
    · exact hentry ho h.named
    · exact hentry (List.mem_append_right _ (List.mem_singleton_self _)) hkept

/-- Outcomes of the schemes that are next in order, one after the other. -/
theorem foldl_absorb {next : List String} {outcomes : List SchemeOutcome}
    (ho : List.Forall₂ (fun name o => o.Of name) next outcomes)
    (hnext : a.schemesScanned ++ next <+: names) (h : a.Sound names) :
    (outcomes.foldl Attempt.absorb a).Sound names := by
  induction ho generalizing a with
  | nil => exact h
  | cons hfirst _ ih =>
    rw [List.append_cons, ← hfirst.1] at hnext
    refine ih ?_ (h.absorb ((List.prefix_append _ _).trans hnext) ?_)
    · rwa [schemesScanned_absorb]
    · rw [hfirst.1]
      exact hfirst.2

theorem marked (h : a.Sound names) {carried : List ScanFailure}
    (hcarried : cancelledNote ∉ carried) :
    ({ a with errors := carried ++ a.errors } : Attempt).result.Marked := by
  refine ⟨carried ++ a.errors, List.mem_append.not.mpr (not_or.mpr ⟨hcarried, h.unmarked⟩), ?_⟩
  cases hc : a.cancelled <;> simp [result]

/-- The parts of the result agree, after failures that are no mark. -/
theorem consistent (h : a.Sound names) (hnames : names.Nodup) {carried : List ScanFailure}
    (hcarried : cancelledNote ∉ carried) :
    ({ a with errors := carried ++ a.errors } : Attempt).result.Consistent names := by
  have hnodup : a.schemesScanned.Nodup := hnames.sublist h.inOrder.sublist
  have hperm : ({ a with errors := carried ++ a.errors } : Attempt).result.addresses.Perm
      a.discoveries := ScanResult.addresses_perm h.listed
  exact {
    totalBalance := wordTotal_eq _ _
    totalUtxos := wordTotal_eq _ _
    exactBalance := wordTotal_of_le
    exactUtxos := wordTotal_of_le
    nonempty := h.nonempty
    named := h.named
    listed := h.listed
    nodup := hnodup
    inOrder := h.inOrder
    grouped := by rw [ScanResult.addresses, firstOccurrences_eq_self (by rwa [List.map_id])]
    complete := hperm
    count := hperm.length_eq.trans (totalOf_length _).symm
    noted := (h.marked hcarried).noted }

end Sound

end Attempt

/-! ## Attempts -/

namespace Attempts

variable {names : List String}

/-- What was carried along is no mark, and what the last attempt has gathered agrees. -/
def Sound (names : List String) (as : Attempts) : Prop :=
  Attempt.cancelledNote ∉ as.carried ∧ as.Meets (Attempt.Sound names)

namespace Sound

variable {as : Attempts}

theorem none (names : List String) : (none : Attempts).Sound names :=
  ⟨List.not_mem_nil, fun _ _ h => nomatch h⟩

theorem seedFailed (h : as.Sound names) (number : Nat) (e : DerivationError) :
    (as.seedFailed number e).Sound names := by
  refine ⟨List.mem_append.not.mpr (not_or.mpr ⟨h.1, fun hmem => ?_⟩), h.2⟩
  exact Attempt.ne_cancelledNote_of_message rfl (List.mem_singleton.mp hmem).symm

theorem complete (h : as.Sound names) (number : Nat) {a : Attempt} (ha : a.Sound names) :
    (as.complete number a).Sound names := by
  refine ⟨List.mem_append.not.mpr (not_or.mpr ⟨h.1, fun hmem => ?_⟩), meets_complete as number ha⟩
  unfold renumbered at hmem
  split at hmem
  · cases hmem
  · obtain ⟨f, -, hf⟩ := List.mem_map.mp hmem
    exact Attempt.ne_cancelledNote_of_message rfl hf

/-- The attempt that the result is made of. -/
theorem returned (h : as.Sound names) :
    ((as.last.map (·.2)).getD (Attempt.start "")).Sound names := by
  cases hlast : as.last with
  | none => exact .start "" names
  | some last => exact h.2 last.1 last.2 hlast

theorem consistent (h : as.Sound names) (hnames : names.Nodup) : as.result.Consistent names :=
  h.returned.consistent hnames h.1

theorem marked (h : as.Sound names) : as.result.Marked := h.returned.marked h.1

end Sound

end Attempts

/-! ## Scans -/

theorem gives_scanScheme (s : Scanner) (seed : Seed) (scheme : PathScheme) (gapLimit : UInt32)
    (priorityIndex : Nat) : Gives A (s.scanScheme seed scheme gapLimit priorityIndex) fun o =>
      o.Of scheme.name ∧ o.priorityIndex = priorityIndex := by
  have h : Records A (fun _ => True) [] (s.scanScheme seed scheme gapLimit priorityIndex) fun o _ =>
      ∃ (scan : SchemeScan) (_ : List Chain) (_ : Nat), o = scan.outcome priorityIndex ∧
        scan.schemeName = scheme.name ∧ ∀ d ∈ scan.found, d.schemeName = scheme.name :=
    Relayed.scanScheme (.of_sustained fun chain _ => sustained_each fun _ _ _ _ _ _ => rfl)
      ⟨rfl, List.forall_mem_nil _⟩ gapLimit priorityIndex
  refine (Gives.of_records h).mono ?_
  rintro _ ⟨scan, -, -, rfl, hscan⟩
  exact ⟨hscan, rfl⟩

/-- What a range holds is of its scheme. -/
theorem gives_scanRange_found (s : Scanner) (seed : Seed) (scheme : PathScheme) {start count : Nat}
    (hspace : start + count ≤ indexSpace) :
    Gives A (s.scanRange seed scheme (List.range' start count)
      (scheme.chains s.options.scanChangeAddresses) [] (.start scheme.name)) fun r =>
        ∀ noted scan, r = .ok (noted, scan) →
          scan.schemeName = scheme.name ∧ ∀ d ∈ scan.found, d.schemeName = scheme.name := by
  have h : Records A (fun _ => True) [] (s.scanRange seed scheme (List.range' start count)
      (scheme.chains s.options.scanChangeAddresses) [] (.start scheme.name)) fun r _ =>
        ∃ (scan : SchemeScan) (_ : List Chain) (_ : Nat), (scan.schemeName = scheme.name ∧
          ∀ d ∈ scan.found, d.schemeName = scheme.name) ∧
            ∀ noted scan', r = .ok (noted, scan') → scan' = scan :=
    Relayed.scanRange (.of_sustained fun chain _ => sustained_each fun _ _ _ _ _ _ => rfl) id
      ⟨rfl, List.forall_mem_nil _⟩ hspace []
  refine (Gives.of_records h).mono ?_
  rintro _ ⟨scan, -, -, hscan, hfound⟩ noted scan' rfl
  rw [hfound noted scan' rfl]
  exact hscan

variable {names : List String} {s : Scanner} {seed : Seed}

/-- Schemes in order, up to the one before which the token is cancelled. -/
theorem gives_scanInOrder (first : Nat) (schemes : List PathScheme) {a : Attempt}
    (h : a.Sound names) (hnext : a.schemesScanned ++ schemes.map (·.name) = names) :
    Gives A (s.scanInOrder seed first schemes a) (Attempt.Sound names) := by
  induction schemes generalizing first a with
  | nil => exact .done h
  | cons scheme rest ih =>
    refine .bind (.trivial _) fun b _ => ?_
    cases b with
    | true => exact .done h
    | false =>
      refine .bind (gives_scanScheme s seed scheme _ first) fun o ho => ?_
      obtain ⟨⟨hname, ho⟩, -⟩ := ho
      rw [List.map_cons, List.append_cons, ← hname] at hnext
      refine ih (first + 1) (h.absorb ⟨_, hnext⟩ (by rwa [hname])) ?_
      rw [Attempt.schemesScanned_absorb, hnext]

theorem gives_attempt (schemes : List PathScheme) (seed : Seed) (passphrase : String) :
    Gives A (s.attempt schemes seed passphrase) (Attempt.Sound (schemes.map (·.name))) :=
  .bind (gives_scanInOrder 0 schemes (.start passphrase _) rfl) fun _ ha =>
    .bind (.trivial _) fun b _ => .done (ha.noteToken b)

/-- Failures noted in a range are those of its scheme. -/
theorem gives_scanRange (s : Scanner) (seed : Seed) (scheme : PathScheme) (indices : List Nat)
    (chains : List Chain) {noted : List ScanFailure} (hnoted : Attempt.cancelledNote ∉ noted)
    (scan : SchemeScan) : Gives A (s.scanRange seed scheme indices chains noted scan) fun r =>
      ∀ noted scan, r = .ok (noted, scan) → Attempt.cancelledNote ∉ noted := by
  induction chains generalizing noted scan with
  | nil => exact .done (by rintro _ _ ⟨rfl⟩; exact hnoted)
  | cons chain rest ih =>
    refine .bind (.trivial _) fun b _ => ?_
    cases b with
    | true => exact .done (by rintro _ _ ⟨rfl⟩; exact hnoted)
    | false =>
      refine .bind (.trivial _) fun r _ => .bind (.trivial _) fun view _ => ?_
      cases view with
      | error e => exact .done (by rintro _ _ ⟨⟩)
      | ok view =>
        refine .bind (.trivial _) fun scan _ => ih ?_ scan
        refine List.mem_append.not.mpr (not_or.mpr ⟨hnoted, fun hmem => ?_⟩)
        obtain ⟨f, -, hf⟩ := List.mem_map.mp hmem
        cases hf

/-! ## Searches -/

section Searches

variable {env : Environment σ} {Pre : World σ → Prop}

/-- Where every call is answered, the outcomes of a pool are those of the first jobs. -/
theorem sound_runPool (h : env.Answers A) (hmax : 0 < s.options.maxConcurrent)
    (schedule : List Nat) (schemes : List PathScheme) (seed : Seed) (passphrase : String) :
    Leads (fun _ _ => True) Pre (s.runPool env schedule schemes seed) fun p _ =>
      (p.sortedOutcomes.foldl Attempt.absorb (.start passphrase)).Sound (schemes.map (·.name)) ∧
        p.failures = [] := by
  refine fun w r w' _ hr => ⟨.intro, ?_⟩
  rintro p rfl
  have hscan (j : Job) : Gives A (s.scanJob seed j) fun o =>
      o.Of j.scheme.name ∧ o.priorityIndex = j.priorityIndex :=
    gives_scanScheme s seed j.scheme j.gapLimit j.priorityIndex
  obtain ⟨hfail, first, hfirst, houtcomes, -⟩ := Scanner.sortedOutcomes_runPool h hmax And.right
    (fun j _ => ⟨hscan j, (hscan j).steady⟩) schedule hr
  refine ⟨(Attempt.Sound.start passphrase _).foldl_absorb
    (List.forall₂_map_left_iff.mpr (houtcomes.imp fun j o ho => ho.1.1)) ?_, hfail⟩
  rw [← Scanner.map_name_jobs (s := s)]
  exact hfirst.map _

theorem sound_attemptParallel (h : env.Answers A) (hmax : 0 < s.options.maxConcurrent)
    (schedule : List Nat) (schemes : List PathScheme) (seed : Seed) (passphrase : String) :
    Leads (fun _ _ => True) Pre (s.attemptParallel env schedule schemes seed passphrase)
      fun a _ => a.Sound (schemes.map (·.name)) := by
  refine .bind (fun _ _ => .intro) (sound_runPool h hmax schedule schemes seed passphrase)
    fun p => ?_
  refine .bind (Q := fun _ _ => Attempt.Sound _ _ ∧ _) (fun _ _ => .intro)
    (fun w r w' hp _ => ⟨.intro, fun _ _ => hp⟩) fun b => .pure (fun _ => .intro) fun w hp => ?_
  rw [hp.2]
  exact hp.1.noteToken b

/-- Attempts that gather what agrees make up a result whose parts agree. -/
theorem sound_attempts {scan : Nat → Seed → String → Run σ Attempt}
    (hscan : ∀ number used p, Leads (fun _ _ => True) (fun _ => True) (scan number used p)
      fun a _ => a.Sound names) (passphrases : List String) :
    Leads (fun _ _ => True) Pre (Attempts.run (fun p => Run.ofScan env (Scanner.seedFor seed p))
      scan 1 .none passphrases) fun as _ => as.Sound names := by
  have hevolves : Evolves env (fun _ => True) (fun _ _ => True) fun _ _ _ => True :=
    Environment.Tells.evolves fun _ _ _ _ => .intro
  exact (Attempts.leads_run (J := fun as _ => as.Sound names) (S := fun _ _ _ => True) hevolves
    (fun _ => id) (fun number e has => has.seedFailed number e)
    (fun number has ha => has.complete number ha)
    (fun p w r w' _ _ => ⟨.intro, fun _ _ _ _ => .intro⟩) hscan .none 1 passphrases).mono
    (fun _ _ => .none names) fun _ _ => id

theorem consistent_scanRangeInBulk (s : Scanner) (seed : Seed) (scheme : PathScheme)
    {start count : Nat} (hspace : start + count ≤ indexSpace) :
    Gives A (s.scanRangeInBulk seed scheme (List.range' start count)) fun r =>
      ∀ result, r = .ok result → result.Consistent [scheme.name] := by
  refine .bind ((gives_scanRange s seed scheme _ _ List.not_mem_nil _).and
    (gives_scanRange_found s seed scheme hspace)) fun r hr => ?_
  cases r with
  | error e => exact .done (by rintro _ ⟨⟩)
  | ok found =>
    obtain ⟨noted, scan⟩ := found
    obtain ⟨hname, hfound⟩ := hr.2 noted scan rfl
    have ha : (noted.foldl Attempt.recordFailure (.start "")).Sound [scheme.name] := by
      rw [Attempt.foldl_recordFailure]
      exact (Attempt.Sound.start "" _).withFailures (hr.1 noted scan rfl)
    have hnext : (noted.foldl Attempt.recordFailure (.start "")).schemesScanned ++
        [scan.schemeName] <+: [scheme.name] := by
      rw [Attempt.foldl_recordFailure, hname]
      exact List.prefix_rfl
    refine .done ?_
    rintro _ ⟨rfl⟩
    refine (ha.absorb (o := scan.outcome 0) hnext ?_).consistent (List.nodup_singleton _)
      List.not_mem_nil
    rintro d hd
    exact (hfound d hd).trans hname.symm

/-- A worker on a scheme with two accounts, each with 5000 satoshis at index 1; the token is
cancelled in the course of call number `last`. -/
def searchStopped (last : Nat) : Except Crash (Except RecoveryError ScanResult) × World Nat :=
  (Search.schemesParallel (fun _ => [0, 0]) [.bip44 "wallet" 5 [0, 1] 1]).run
    (.cancelling (Environment.ledgerAnswer fun address =>
      if address = "a" then [⟨"t", 0, 5000, "a", 1⟩] else []) last)
    ⟨{ ScanOptions.default with extendedGapLimit := 2, scanChangeAddresses := false }, false⟩
    ⟨[7]⟩ ⟨0, false, 0⟩

end Searches

end Discovery

end FundRecovery

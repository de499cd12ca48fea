import FundRecovery.Proofs.Discovery.CrashedScans
import FundRecovery.Proofs.Discovery.PriorityOrder
import FundRecovery.Proofs.Discovery.WiderGaps

/-!
# Scans of one more scheme

A scheme is scanned for itself: what its scan comes to is absorbed last, under its name, so that it
cannot touch what others found. Only its place counts, since the first scheme is scanned with the
extended gap limit.

* `ScanResult.Extends`: a result with the outcome of one more scheme.
* `Attempt.extends_absorb`: an attempt that absorbs an outcome of a new name has such a result.
* `wholeAttempt_append_last`: a scan of one more scheme, last in priority order, absorbs one outcome
  more.
* `scanSchemes_extended`: it extends the result of the scan without that scheme.
-/

namespace FundRecovery.Discovery

variable {σ : Type} {env : Environment σ} {answer : (c : Call) → c.Answer} {s : Scanner}
  {schemes : List PathScheme} {last : PathScheme} {seed : Seed}

/-! ## Results -/

/-- Beside what the result `r` has, the result `r'` has of one more scheme what was found of it, in
its addresses and totals, and these failures. -/
structure ScanResult.Gains (scheme : String) (found : List DiscoveredAddress)
    (failures : List ScanFailure) (r r' : ScanResult) : Prop where
  entry : r'.foundAddresses.get? scheme = if found.isEmpty then none else some found
  addresses : r'.addresses = r.addresses ++ found
  totalBalance : r'.totalBalance = inWord (r.totalBalance + totalOf (·.balance) found)
  totalUtxos : r'.totalUtxos = inWord (r.totalUtxos + totalOf (·.utxoCount) found)
  errors : r'.errors = r.errors ++ failures

/-- The result `r'` is the result `r` with one more scheme, the last one, whose scan by itself comes
to the outcome `o`. If that scan failed, nothing of what it had found counts. -/
structure ScanResult.Extends (o : SchemeOutcome) (r r' : ScanResult) : Prop where
  others : ∀ name, name ≠ o.schemeName → r'.foundAddresses.get? name = r.foundAddresses.get? name
  schemesScanned : r'.schemesScanned = r.schemesScanned ++ [o.schemeName]
  addressesScanned : r'.addressesScanned = r.addressesScanned + o.scanned
  passphraseUsed : r'.passphraseUsed = r.passphraseUsed
  cancelled : r.cancelled = false ∧ r'.cancelled = false
  gains : (o.failure = none ∧ Gains o.schemeName o.addresses [] r r') ∨
    ∃ failure, o.failure = some failure ∧
      Gains o.schemeName [] [.forScheme o.schemeName failure.message] r r'

section Attempt

variable {a : Attempt} {o : SchemeOutcome}

/-- A scheme that was not scanned yet has no entry. -/
theorem Attempt.Covered.get?_eq_none {name : String} (h : a.Covered)
    (hnew : name ∉ a.schemesScanned) : a.foundAddresses.get? name = none := by
  cases hentry : a.foundAddresses.get? name with
  | none => rfl
  | some found => exact absurd (h _ (NameMap.mem_entries_iff.mpr hentry)) hnew

/-- What the outcome leaves is added at the end, under its name. -/
theorem Attempt.gains_absorb (hcovered : a.Covered)
    (hnodup : (a.absorb o).schemesScanned.Nodup) (ha : a.cancelled = false)
    (ho : o.cancelled = false) :
    ScanResult.Gains o.schemeName (o.entry?.getD []) o.error?.toList a.result
      (a.absorb o).result := by
  have hscanned : (a.absorb o).schemesScanned = a.schemesScanned ++ [o.schemeName] :=
    schemesScanned_absorb a o
  have hold : a.schemesScanned.Nodup := by
    rw [hscanned] at hnodup
    exact (List.nodup_append.mp hnodup).1
  have hnew : o.schemeName ∉ a.schemesScanned := by
    rw [hscanned, List.nodup_append] at hnodup
    exact fun hmem => hnodup.2.2 _ hmem _ (List.mem_singleton_self _) rfl
  have hentry : (a.absorb o).foundAddresses.get? o.schemeName = o.entry? :=
    get?_absorb (hcovered.get?_eq_none hnew)
  have haddresses : (a.absorb o).result.addresses = a.result.addresses ++ o.entry?.getD [] := by
    have hlists : (a.absorb o).result.schemesScanned = (a.absorb o).schemesScanned := rfl
    have hlists' : a.result.schemesScanned = a.schemesScanned := rfl
    rw [ScanResult.addresses, ScanResult.addresses, hlists, hlists',
      firstOccurrences_eq_self (by rwa [List.map_id]),
      firstOccurrences_eq_self (by rwa [List.map_id]), hscanned, List.flatMap_append,
      List.flatMap_singleton]
    congr 1
    · refine List.flatMap_congr fun name hname => ?_
      have hne : name ≠ o.schemeName := fun he => hnew (he ▸ hname)
      exact congrArg (·.getD []) (get?_absorb_ne hne)
    · exact congrArg (·.getD []) hentry
  obtain ⟨hbalance, hutxos⟩ := hcovered.totals
  obtain ⟨hbalance', hutxos'⟩ := (hcovered.absorb o).totals
  have hgoing : (a.absorb o).cancelled = false := by rw [cancelled_absorb, ha, ho]; rfl
  constructor
  case entry =>
    refine hentry.trans ?_
    unfold SchemeOutcome.entry?
    cases o.failure with
    | some failure => rfl
    | none =>
      dsimp only
      split
      · rfl
      case isFalse hsome => exact (if_neg hsome).symm
  case addresses => exact haddresses
  case totalBalance =>
    rw [hbalance', hbalance, haddresses, wordTotal_eq, wordTotal_eq, totalOf_append,
      inWord_inWord_add]
  case totalUtxos =>
    rw [hutxos', hutxos, haddresses, wordTotal_eq, wordTotal_eq, totalOf_append, inWord_inWord_add]
  case errors => rw [errors_result hgoing, errors_result ha, errors_absorb]

/-- An attempt that absorbs an outcome of a new name extends its result by it. -/
theorem Attempt.extends_absorb (hcovered : a.Covered)
    (hnodup : (a.absorb o).schemesScanned.Nodup) (ha : a.cancelled = false)
    (ho : o.cancelled = false) : ScanResult.Extends o a.result (a.absorb o).result := by
  have hgains := gains_absorb hcovered hnodup ha ho
  constructor
  case others => exact fun name hne => get?_absorb_ne hne
  case schemesScanned => exact schemesScanned_absorb a o
  case addressesScanned => exact addressesScanned_absorb a o
  case passphraseUsed => exact passphrase_absorb a o
  case cancelled =>
    refine ⟨ha, ?_⟩
    show (a.absorb o).cancelled = false
    rw [cancelled_absorb, ha, ho]
    rfl
  case gains =>
    cases hfailure : o.failure with
    | none =>
      have hfound : o.entry?.getD [] = o.addresses := by
        unfold SchemeOutcome.entry?
        rw [hfailure]
        dsimp only
        split
        case isTrue hempty => rw [List.isEmpty_iff.mp hempty, Option.getD_none]
        case isFalse => rw [Option.getD_some]
      have hnone : o.error?.toList = [] := by rw [SchemeOutcome.error?, hfailure]; rfl
      rw [hfound, hnone] at hgains
      exact .inl ⟨rfl, hgains⟩
    | some failure =>
      have hfound : o.entry?.getD [] = [] := by rw [SchemeOutcome.entry?, hfailure]; rfl
      have herror : o.error?.toList = [.forScheme o.schemeName failure.message] := by
        rw [SchemeOutcome.error?, hfailure]
        rfl
      rw [hfound, herror] at hgains
      exact .inr ⟨failure, rfl, hgains⟩

end Attempt

/-! ## Scans -/

/-- Behind at least one other scheme, a scheme is scanned with the normal gap limit. What its scan
comes to carries its place in the order, which says nothing of what was found. -/
theorem outcomeAt_behind (x : PathScheme × Nat) (hx : x.2 ≠ 0) (priorityIndex : Nat) :
    s.outcomeAt answer seed x =
      { (s.scanScheme seed x.1 s.options.gapLimit priorityIndex).value answer with
        priorityIndex := x.2 } := by
  have hgap : s.options.gapLimitAt x.2 = s.options.gapLimit := if_neg hx
  rw [Scanner.outcomeAt, hgap, Scanner.scanScheme, Scanner.scanScheme, Scan.value_bind,
    Scan.value_bind]
  rfl

/-- A scan of one more scheme, the last one in order, absorbs one outcome more. -/
theorem wholeAttempt_append_last (passphrase : String) :
    wholeAttempt answer s (schemes ++ [last]) seed passphrase =
      (wholeAttempt answer s schemes seed passphrase).absorb
        (s.outcomeAt answer seed (last, schemes.length)) := by
  rw [wholeAttempt_eq, wholeAttempt_eq, List.zipIdx_append, List.map_append, Nat.zero_add]
  exact List.foldl_append

theorem cancelled_wholeAttempt (schemes : List PathScheme) (passphrase : String) :
    (wholeAttempt answer s schemes seed passphrase).cancelled = false := by
  rw [wholeAttempt]
  refine Attempt.cancelled_gathered passphrase fun o ho => ?_
  obtain ⟨j, -, rfl⟩ := List.mem_map.mp ho
  exact value_scanJob_cancelled s seed j

/-- A list of schemes is accepted with one more scheme if that has a new name. -/
theorem ready_append_last (hready : s.checkReady seed schemes = .ok ())
    (hnew : last.name ∉ schemes.map (·.name)) :
    s.checkReady seed (schemes ++ [last]) = .ok () := by
  obtain ⟨hvalid, hnames, hseed⟩ := Scanner.checkReady_eq_ok_iff.mp hready
  refine Scanner.checkReady_eq_ok_iff.mpr ⟨hvalid, ?_, hseed⟩
  rw [List.map_append, List.nodup_append]
  refine ⟨hnames, List.nodup_singleton _, fun name hname other hother he => ?_⟩
  have hlast : name = last.name := he.trans (List.mem_singleton.mp hother)
  exact hnew (hlast ▸ hname)

/-- **A scan of one more scheme extends the result by what the scan of that scheme comes to.** The
scheme has a new name, and a priority not below that of any other; there are no passphrases, and
every call is answered, by the call alone and with a failure or not. It does not matter which of the
schemes fail or are funded, nor whether bulk queries are used. -/
theorem scanSchemes_extended (h : env.AnswersBy answer) (hu : env.Uncancelled)
    (hready : s.checkReady seed schemes = .ok ()) (hplain : s.options.passphrases = [])
    (hsome : schemes ≠ []) (hnew : last.name ∉ schemes.map (·.name))
    (hlast : ∀ scheme ∈ schemes, scheme.priority ≤ last.priority) (priorityIndex : Nat)
    {w₁ w₂ w₃ : World σ} (hw₁ : w₁.cancelled = false) (hw₂ : w₂.cancelled = false)
    (hw₃ : w₃.cancelled = false) :
    ∃ r w₁' r' w₂' o w₃',
      (s.scanSchemes seed schemes).run env.handler w₁ = (.ok (.ok r), w₁') ∧
      (s.scanSchemes seed (schemes ++ [last])).run env.handler w₂ = (.ok (.ok r'), w₂') ∧
      (s.scanScheme seed last s.options.gapLimit priorityIndex).run env.handler w₃ =
        (.ok o, w₃') ∧
      o.schemeName = last.name ∧ ScanResult.Extends o r r' := by
  have hready' := ready_append_last hready hnew
  obtain ⟨w₁', hr₁⟩ := h.run_value hu (s.scanSchemes seed schemes) hw₁
  obtain ⟨w₂', hr₂⟩ := h.run_value hu (s.scanSchemes seed (schemes ++ [last])) hw₂
  obtain ⟨w₃', hr₃⟩ :=
    h.run_value hu (s.scanScheme seed last s.options.gapLimit priorityIndex) hw₃
  have hone := passphraseAttempts_plain hplain
  rw [value_scanSchemes hready hone rfl] at hr₁
  rw [value_scanSchemes hready' hone rfl, sortByPriority_append_last hlast,
    wholeAttempt_append_last] at hr₂
  simp only [Attempt.noteToken_false] at hr₁ hr₂
  refine ⟨_, w₁', _, w₂', _, w₃', hr₁, hr₂, hr₃, ?_, ?_⟩
  · exact value_scanJob_schemeName s seed ⟨last, s.options.gapLimit, priorityIndex⟩
  have hplace : (sortByPriority schemes).length ≠ 0 := by
    rw [sortByPriority, List.length_mergeSort]
    exact mt List.length_eq_zero_iff.mp hsome
  have hcovered : (wholeAttempt answer s (sortByPriority schemes) seed "").Covered :=
    (Attempt.Covered.start "").foldl_absorb _
  have hnodup : (wholeAttempt answer s (sortByPriority schemes ++ [last]) seed
      "").schemesScanned.Nodup := by
    rw [schemesScanned_wholeAttempt, ← sortByPriority_append_last hlast]
    exact Scanner.nodup_sorted hready'
  rw [wholeAttempt_append_last] at hnodup
  have hextends := Attempt.extends_absorb hcovered hnodup (cancelled_wholeAttempt _ "")
    (value_scanJob_cancelled s seed ⟨last, _, _⟩)
  rw [outcomeAt_behind (last, _) hplace priorityIndex] at hextends ⊢
  exact ⟨hextends.others, hextends.schemesScanned, hextends.addressesScanned,
    hextends.passphraseUsed, hextends.cancelled, hextends.gains⟩

/-- The ledger with an output at index 1 of every chain; keys of coin type 1 are missing from index
2 on. -/
def brokenCoin : (c : Call) → c.Answer
  | .deriveAddress seed coinType account change index =>
    if coinType = 1 ∧ 2 ≤ index then .error (.failed "no key")
    else coinLedger (.deriveAddress seed coinType account change index)
  | c => coinLedger c

/-- A scheme whose derivation fails behind the 5000 satoshis that its scan has found: they count for
nothing, and the other scheme keeps its own. -/
theorem scanSchemes_extended_broken_coin :
    let env := Environment.ofAnswers brokenCoin
    let sound := PathScheme.bip44 "sound" 5 [0] 0
    let broken := PathScheme.bip44 "broken" 1 [0] 1
    ∃ r w₁' r' w₂' o w₃',
      ((coinScanner 1).scanSchemes ⟨[7]⟩ [sound]).run env.handler ⟨(), false, 0⟩ =
        (.ok (.ok r), w₁') ∧
      ((coinScanner 1).scanSchemes ⟨[7]⟩ [sound, broken]).run env.handler ⟨(), false, 0⟩ =
        (.ok (.ok r'), w₂') ∧
      ((coinScanner 1).scanScheme ⟨[7]⟩ broken 2 0).run env.handler ⟨(), false, 0⟩ =
        (.ok o, w₃') ∧
      o.balance = 5000 ∧ r.totalBalance = 5000 ∧ r'.totalBalance = 5000 ∧
      r'.foundAddresses.get? "broken" = none ∧ r'.errors.length = r.errors.length + 1 ∧
      ScanResult.Extends o r r' := by
  intro env sound broken
  have hready : (coinScanner 1).checkReady ⟨[7]⟩ [sound] = .ok () := by decide
  have hnew : broken.name ∉ [sound].map (·.name) := by decide
  have hlast : ∀ scheme ∈ [sound], scheme.priority ≤ broken.priority := by decide
  have hstart : (⟨(), false, 0⟩ : World Unit).cancelled = false := rfl
  obtain ⟨r, w₁', r', w₂', o, w₃', hr, hr', ho, hname, hextends⟩ :=
    scanSchemes_extended (Environment.answersBy_ofAnswers brokenCoin)
      (Environment.uncancelled_ofAnswers brokenCoin) hready rfl (List.cons_ne_nil _ _) hnew hlast 0
      hstart hstart hstart
  have hscan : (((coinScanner 1).scanScheme ⟨[7]⟩ broken 2 0).run env.handler
      ⟨(), false, 0⟩).1.map (fun o => (o.balance, o.failure.isSome)) = .ok (5000, true) := by
    decide +kernel
  have hsound : (((coinScanner 1).scanSchemes ⟨[7]⟩ [sound]).run env.handler
      ⟨(), false, 0⟩).1.map (·.map (·.totalBalance)) = .ok (.ok 5000) := by decide +kernel
  have hscan := eq_of_ok_map ho hscan
  obtain ⟨hbalance, hfailed⟩ := Prod.mk.inj hscan
  have htotal : r.totalBalance = 5000 := eq_of_result_map hr hsound
  refine ⟨r, w₁', r', w₂', o, w₃', hr, hr', ho, hbalance, htotal, ?_⟩
  obtain ⟨hnone, -⟩ | ⟨failure, -, hgains⟩ := hextends.gains
  · rw [hnone] at hfailed
    cases hfailed
  · refine ⟨by rw [hgains.totalBalance, htotal]; rfl, ?_, ?_, hextends⟩
    · have hentry := hgains.entry
      rw [hname] at hentry
      exact hentry
    · rw [hgains.errors, List.length_append, List.length_singleton]

end FundRecovery.Discovery

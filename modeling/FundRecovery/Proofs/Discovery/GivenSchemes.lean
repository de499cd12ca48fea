import FundRecovery.Proofs.Discovery.AttemptSettings
import FundRecovery.Proofs.Discovery.Environments
import FundRecovery.Proofs.Discovery.PriorityOrder
import FundRecovery.Proofs.Discovery.Settings
import Mathlib.Data.List.Nodup

/-!
# Scans of given schemes

A scan of given schemes depends neither on the order in which they are given nor on the schemes that
are configured. It still turns down a configured list that has a name twice.

* `scanSchemes_reordered`: another order of the schemes makes the same scan.
* `Scanner.configured`: the settings with other configured schemes. `scanSchemes_configured`: what
  of them a scan of given schemes notices.
-/

namespace FundRecovery.Discovery

/-! ## The order of the schemes -/

namespace Scanner

/-- The checks take schemes with distinct names in any order. -/
theorem checkReady_reordered (s : Scanner) (seed : Seed) {schemes others : List PathScheme}
    (hnames : (schemes.map (·.name)).Nodup) (hperm : others.Perm schemes) :
    s.checkReady seed others = s.checkReady seed schemes := by
  have hothers : (others.map (·.name)).Nodup := (hperm.map _).nodup_iff.mpr hnames
  unfold checkReady
  rw [ensureUniqueNames_eq_ok_iff.mpr hothers, ensureUniqueNames_eq_ok_iff.mpr hnames]

theorem scanSchemes_of_sorted (s : Scanner) (seed : Seed) {schemes others : List PathScheme}
    (hnames : (schemes.map (·.name)).Nodup) (hperm : others.Perm schemes)
    (hsorted : sortByPriority others = sortByPriority schemes) :
    s.scanSchemes seed others = s.scanSchemes seed schemes := by
  unfold scanSchemes attempts
  rw [s.checkReady_reordered seed hnames hperm, hsorted]

end Scanner

/-- **The order of the schemes does not matter** beyond that of schemes of one priority: they are
taken in the same order, the same one first and thus with the extended limit, and the whole scan is
the same. Where no two have one priority, any order will do. -/
theorem scanSchemes_reordered (s : Scanner) (seed : Seed) {schemes : List PathScheme}
    (hnames : (schemes.map (·.name)).Nodup) :
    (∀ others, Reordered schemes others →
      sortByPriority others = sortByPriority schemes ∧
      s.scanSchemes seed others = s.scanSchemes seed schemes) ∧
    ((schemes.map (·.priority)).Nodup → ∀ others, others.Perm schemes →
      Reordered schemes others) := by
  refine ⟨fun others h => ?_, fun hdistinct others hperm => .of_distinct hperm hdistinct⟩
  have hsorted := h.sortByPriority_eq (List.Nodup.of_map _ hnames)
  exact ⟨hsorted, s.scanSchemes_of_sorted seed hnames h.perm hsorted⟩

/-- Three schemes, two of them of one priority, given with the last one first; and two schemes of
distinct priorities. -/
theorem scanSchemes_reordered_tie :
    let last := PathScheme.bip44 "last" 5 [0] 2
    let tied := PathScheme.bip44 "tied" 5 [0] 1
    let equal := PathScheme.legacy "equal" 5 1
    let s : Scanner := ⟨ScanOptions.default, false⟩
    sortByPriority [last, tied, equal] = [tied, equal, last] ∧
      s.scanSchemes ⟨[7]⟩ [last, tied, equal] = s.scanSchemes ⟨[7]⟩ [tied, equal, last] ∧
      s.scanSchemes ⟨[7]⟩ [last, tied] = s.scanSchemes ⟨[7]⟩ [tied, last] := by
  intro last tied equal s
  have hties : [tied, equal, last].Pairwise fun a b =>
      a.priority = b.priority → [a, b].Sublist [last, tied, equal] := by decide
  have hreordered : Reordered [last, tied, equal] [tied, equal, last] :=
    ⟨by decide, fun a b hsame hab => List.pairwise_iff_forall_sublist.mp hties hab hsame⟩
  obtain ⟨hsorted, hscan⟩ := (scanSchemes_reordered s ⟨[7]⟩ (by decide)).1 _ hreordered
  have hascending : sortByPriority [tied, equal, last] = [tied, equal, last] :=
    List.mergeSort_of_pairwise (by decide)
  have hnames : ([last, tied].map (·.name)).Nodup := by decide
  obtain ⟨hsame, hany⟩ := scanSchemes_reordered s ⟨[7]⟩ hnames
  obtain ⟨-, hpair⟩ := hsame [tied, last] (hany (by decide) _ (by decide))
  exact ⟨hsorted.symm.trans hascending, hscan.symm, hpair.symm⟩

/-! ## The configured schemes -/

namespace Scanner

/-- The settings with other configured schemes. -/
def configured (s : Scanner) (listed : List PathScheme) : Scanner :=
  { s with options := { s.options with pathSchemes := listed } }

theorem alike_configured (s : Scanner) (listed : List PathScheme) :
    s.Alike (s.configured listed) := ⟨rfl, rfl, rfl, rfl, rfl, rfl⟩

theorem checkReady_configured {s : Scanner} {listed others : List PathScheme}
    (h : s.options.ZeroLimit ∨ ensureUniqueNames listed = ensureUniqueNames others) (seed : Seed)
    (schemes : List PathScheme) :
    (s.configured listed).checkReady seed schemes =
      (s.configured others).checkReady seed schemes := by
  have hvalidate : (s.configured listed).options.validate =
      (s.configured others).options.validate := by
    by_cases hzero : s.options.ZeroLimit
    · exact (s.options.validate_listing listed hzero).trans
        (s.options.validate_listing others hzero).symm
    · have hlisted : ¬(s.configured listed).options.ZeroLimit := hzero
      have hothers : ¬(s.configured others).options.ZeroLimit := hzero
      rw [ScanOptions.validate_names hlisted, ScanOptions.validate_names hothers]
      exact h.resolve_left hzero
  unfold checkReady
  rw [hvalidate]

theorem scanSchemes_of_listed {s : Scanner} {listed others : List PathScheme}
    (h : s.options.ZeroLimit ∨ ensureUniqueNames listed = ensureUniqueNames others) (seed : Seed)
    (schemes : List PathScheme) :
    (s.configured listed).scanSchemes seed schemes =
      (s.configured others).scanSchemes seed schemes :=
  ((s.configured others).alike_configured listed).scanSchemes rfl
    (checkReady_configured h seed schemes)

end Scanner

/-- **Of the configured schemes, a scan of given ones notices a repeated name**, and nothing else.
Two lists of distinct names make the same scan, and so do any two where a limit is zero. Else a list
with a repeated name is turned down for it before anything is asked, whatever schemes are given. -/
theorem scanSchemes_configured (s : Scanner) (seed : Seed) (schemes listed : List PathScheme) :
    (∀ others : List PathScheme, s.options.ZeroLimit ∨
        (listed.map (·.name)).Nodup ∧ (others.map (·.name)).Nodup →
      (s.configured listed).scanSchemes seed schemes =
        (s.configured others).scanSchemes seed schemes) ∧
    ∀ name, ¬s.options.ZeroLimit → firstRepeat? [] (listed.map (·.name)) = some name →
      (s.configured listed).scanSchemes seed schemes =
        return .error (.config (.duplicateScheme name)) := by
  refine ⟨fun others h => ?_, fun name hpositive hrepeat => ?_⟩
  · have hsame : s.options.ZeroLimit ∨ ensureUniqueNames listed = ensureUniqueNames others := by
      refine h.imp_right fun hdistinct => ?_
      rw [ensureUniqueNames_eq_ok_iff.mpr hdistinct.1, ensureUniqueNames_eq_ok_iff.mpr hdistinct.2]
    exact Scanner.scanSchemes_of_listed hsame seed schemes
  · have hvalidate : (s.configured listed).options.validate =
        .error (.config (.duplicateScheme name)) := by
      have hlisted : ¬(s.configured listed).options.ZeroLimit := hpositive
      rw [ScanOptions.validate_names hlisted]
      show ensureUniqueNames listed = _
      rw [ensureUniqueNames, hrepeat]
    have hready : (s.configured listed).checkReady seed schemes =
        .error (.config (.duplicateScheme name)) := by
      rw [Scanner.checkReady, hvalidate]
      rfl
    rw [Scanner.scanSchemes, hready]

/-- Another scheme makes no difference once, and is turned down twice. -/
theorem scanSchemes_configured_spare :
    let s : Scanner := ⟨ScanOptions.default, true⟩
    let wallet := PathScheme.bip44 "wallet" 5 [0] 0
    let spare := PathScheme.legacy "spare" 5 1
    (s.configured [spare]).scanSchemes ⟨[7]⟩ [wallet] =
        (s.configured []).scanSchemes ⟨[7]⟩ [wallet] ∧
      (s.configured [spare, spare]).scanSchemes ⟨[7]⟩ [wallet] =
        return .error (.config (.duplicateScheme "spare")) := by
  intro s wallet spare
  have hpositive : ¬s.options.ZeroLimit := by decide
  exact ⟨(scanSchemes_configured s ⟨[7]⟩ [wallet] [spare]).1 [] (.inr (by decide)),
    (scanSchemes_configured s ⟨[7]⟩ [wallet] [spare, spare]).2 "spare" hpositive (by decide)⟩

/-- The total of a scan for 5000 satoshis at index 1 of a wallet, with these schemes configured. -/
def totalBeside (listed : List PathScheme) : Except Crash (Except RecoveryError Nat) :=
  let s : Scanner := ⟨{ ScanOptions.default with
    gapLimit := 2, extendedGapLimit := 2, scanChangeAddresses := false }, false⟩
  let env := Environment.ofAnswers (Environment.ledgerAnswer fun address =>
    if address = "a" then [⟨"t", 0, 5000, "a", 1⟩] else [])
  (((s.configured listed).scanSchemes ⟨[7]⟩ [.bip44 "wallet" 5 [0] 0]).run env.handler
    ⟨(), false, 0⟩).1.map (·.map (·.totalBalance))

/-- Two configured lists, neither of them scanned, and two ends of one scan. -/
theorem scanSchemes_notices_configured :
    let spare := PathScheme.legacy "spare" 5 1
    totalBeside [spare] = .ok (.ok 5000) ∧
      totalBeside [spare, spare] = .ok (.error (.config (.duplicateScheme "spare"))) := by
  decide +kernel

end FundRecovery.Discovery

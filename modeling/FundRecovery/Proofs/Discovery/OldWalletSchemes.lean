import FundRecovery.Proofs.Discovery.GivenSchemes
import FundRecovery.Proofs.Discovery.WiderGaps

/-!
# The schemes of an old wallet

A request for an old wallet is for the registry schemes it names, or for all of them if it names
none. Order, repeats and unknown names make no difference.

* `OldWalletRecovery.Wants`: a request is for a scheme. `OldWalletRecovery.wanted`: the schemes it
  is for, in priority order.
* `OldWalletRecovery.perm_selectedSchemes`: these are the schemes that are selected.
* `recoverOldWallet_scans`: the recovery is the scan of these schemes.
-/

namespace FundRecovery.Discovery

/-- The priorities of the registry are distinct, and it is in their order. -/
theorem registry_ascends : registry.Pairwise fun a b => a.priority < b.priority := by decide

namespace OldWalletRecovery

/-- The request is for the scheme: it names it, or it names no scheme that is known. -/
def Wants (r : OldWalletRecovery) (scheme : PathScheme) : Prop :=
  scheme.name ∈ r.schemes ∨ ∀ known ∈ registry, known.name ∉ r.schemes

instance (r : OldWalletRecovery) (scheme : PathScheme) : Decidable (r.Wants scheme) :=
  inferInstanceAs (Decidable (_ ∨ _))

/-- The schemes that the request is for, in priority order. -/
def wanted (r : OldWalletRecovery) : List PathScheme := registry.filter (r.Wants ·)

variable {r r' : OldWalletRecovery}

theorem mem_knownSchemes {scheme : PathScheme} :
    scheme ∈ r.knownSchemes ↔ scheme ∈ registry ∧ scheme.name ∈ r.schemes := by
  have hfound {found : PathScheme} (h : found ∈ r.knownSchemes) :
      found ∈ registry ∧ found.name ∈ r.schemes := by
    obtain ⟨name, hname, hscheme⟩ :=
      List.mem_filterMap.mp ((firstOccurrences_sublist _ _).subset h)
    obtain ⟨hmem, rfl⟩ := scheme?_eq_some_iff.mp hscheme
    exact ⟨hmem, hname⟩
  refine ⟨hfound, ?_⟩
  rintro ⟨hmem, hname⟩
  -- Some scheme of that name is kept, and the registry has only one.
  have hscheme : scheme ∈ r.schemes.filterMap scheme? :=
    List.mem_filterMap.mpr ⟨scheme.name, hname, scheme?_eq_some_iff.mpr ⟨hmem, rfl⟩⟩
  obtain ⟨found, hkept, hsame⟩ :=
    List.mem_map.mp (mem_map_firstOccurrences.mpr (List.mem_map_of_mem (f := (·.name)) hscheme))
  rwa [List.inj_on_of_nodup_map nodup_registry (hfound hkept).1 hmem hsame] at hkept

theorem mem_selectedSchemes {scheme : PathScheme} :
    scheme ∈ r.selectedSchemes ↔ scheme ∈ registry ∧ r.Wants scheme := by
  unfold selectedSchemes Wants
  split
  case isTrue hnone =>
    have hunnamed : ∀ known ∈ registry, known.name ∉ r.schemes := by
      intro known hknown hname
      have hmem := mem_knownSchemes.mpr ⟨hknown, hname⟩
      rw [List.isEmpty_iff.mp hnone] at hmem
      cases hmem
    exact (and_iff_left (.inr hunnamed)).symm
  case isFalse hsome =>
    have hnamed : ¬∀ known ∈ registry, known.name ∉ r.schemes := by
      intro hunnamed
      refine hsome (List.isEmpty_iff.mpr ?_)
      refine List.eq_nil_iff_forall_not_mem.mpr fun known hknown => ?_
      obtain ⟨hmem, hname⟩ := mem_knownSchemes.mp hknown
      exact hunnamed known hmem hname
    rw [mem_knownSchemes, or_iff_left hnamed]

theorem mem_wanted {scheme : PathScheme} :
    scheme ∈ r.wanted ↔ scheme ∈ registry ∧ r.Wants scheme := by
  simp [wanted]

theorem nodup_wanted (r : OldWalletRecovery) : (r.wanted.map (·.name)).Nodup :=
  nodup_registry.sublist (List.filter_sublist.map _)

/-- The schemes that a request is for are selected, in whatever order. -/
theorem perm_selectedSchemes (r : OldWalletRecovery) : r.selectedSchemes.Perm r.wanted := by
  have hselected := List.Nodup.of_map _ r.nodup_selectedSchemes
  have hwanted := List.Nodup.of_map _ r.nodup_wanted
  refine (List.perm_ext_iff_of_nodup hselected hwanted).mpr fun scheme => ?_
  rw [mem_selectedSchemes, mem_wanted]

theorem ascending_wanted (r : OldWalletRecovery) : Ascending r.wanted :=
  (registry_ascends.sublist List.filter_sublist).imp UInt32.le_of_lt

/-- No two of them have one priority. -/
theorem nodup_priorities_wanted (r : OldWalletRecovery) : (r.wanted.map (·.priority)).Nodup :=
  List.pairwise_map.mpr
    ((registry_ascends.sublist List.filter_sublist).imp fun h => UInt32.ne_of_lt h)

theorem sortByPriority_selectedSchemes (r : OldWalletRecovery) :
    sortByPriority r.selectedSchemes = sortByPriority r.wanted :=
  (Reordered.of_distinct r.perm_selectedSchemes r.nodup_priorities_wanted).sortByPriority_eq
    (List.Nodup.of_map _ r.nodup_wanted)

theorem wanted_congr (h : ∀ scheme ∈ registry, r'.Wants scheme ↔ r.Wants scheme) :
    r'.wanted = r.wanted :=
  List.filter_congr fun scheme hscheme => decide_eq_decide.mpr (h scheme hscheme)

end OldWalletRecovery

/-- A recovery is the scan of the schemes it is for. -/
theorem recoverOldWallet_eq_scan (s : Scanner) (seed : Seed) (r : OldWalletRecovery) :
    s.recoverOldWallet seed r = (s.recovering r.effectiveGapLimit r.wanted).scan seed := by
  have hnames : ensureUniqueNames r.selectedSchemes = ensureUniqueNames r.wanted := by
    rw [ensureUniqueNames_eq_ok_iff.mpr r.nodup_selectedSchemes,
      ensureUniqueNames_eq_ok_iff.mpr r.nodup_wanted]
  let base := s.recovering r.effectiveGapLimit []
  calc s.recoverOldWallet seed r
      = (base.configured r.selectedSchemes).scanSchemes seed r.selectedSchemes := rfl
    _ = (base.configured r.wanted).scanSchemes seed r.selectedSchemes :=
        Scanner.scanSchemes_of_listed (.inr hnames) seed r.selectedSchemes
    _ = (base.configured r.wanted).scanSchemes seed r.wanted :=
        Scanner.scanSchemes_of_sorted _ seed r.nodup_wanted r.perm_selectedSchemes
          r.sortByPriority_selectedSchemes
    _ = (s.recovering r.effectiveGapLimit r.wanted).scan seed := rfl

/-- **A recovery depends on the known names of the request alone**, and not on the gap limits and
the schemes of the base options: whatever these are, requests for the same registry schemes with the
same effective gap limit make the same scan. It is the scan of these schemes, each once and in
ascending priority, with both gap limits set to the effective one. -/
theorem recoverOldWallet_scans (s : Scanner) (seed : Seed) {r r' : OldWalletRecovery}
    (hlimit : r'.effectiveGapLimit = r.effectiveGapLimit)
    (hwants : ∀ scheme ∈ registry, r'.Wants scheme ↔ r.Wants scheme)
    (gapLimit extendedGapLimit : UInt32) (pathSchemes : List PathScheme) :
    Scanner.recoverOldWallet
        { s with options := { s.options with gapLimit, extendedGapLimit, pathSchemes } } seed r' =
      s.recoverOldWallet seed r ∧
    s.recoverOldWallet seed r = (s.recovering r.effectiveGapLimit r.wanted).scan seed ∧
    (∀ scheme, scheme ∈ r.wanted ↔ scheme ∈ registry ∧ r.Wants scheme) ∧
    (r.wanted.map (·.name)).Nodup ∧ Ascending r.wanted := by
  refine ⟨?_, recoverOldWallet_eq_scan s seed r, fun scheme => r.mem_wanted, r.nodup_wanted,
    r.ascending_wanted⟩
  rw [recoverOldWallet_eq_scan, recoverOldWallet_eq_scan, r.wanted_congr hwants, hlimit]
  rfl

/-- Two names in another order, one of them twice, and a name that is unknown; and no known name in
place of all of them, with base options of which a scan of its own would be turned down. -/
theorem recoverOldWallet_scans_repeats :
    let s : Scanner := ⟨ScanOptions.default, true⟩
    let bare : Scanner :=
      ⟨{ ScanOptions.default with gapLimit := 1, extendedGapLimit := 0, pathSchemes := [] }, true⟩
    let two : OldWalletRecovery := ⟨.extended, none, ["bip44", "legacy"]⟩
    let repeats : OldWalletRecovery := ⟨.standard, some 100, ["legacy", "other", "bip44", "legacy"]⟩
    let every : OldWalletRecovery := ⟨.standard, none, registry.map (·.name)⟩
    let unknown : OldWalletRecovery := ⟨.standard, none, ["other"]⟩
    bare.recoverOldWallet ⟨[7]⟩ repeats = s.recoverOldWallet ⟨[7]⟩ two ∧
      bare.recoverOldWallet ⟨[7]⟩ unknown = s.recoverOldWallet ⟨[7]⟩ every ∧
      two.wanted.map (·.name) = ["bip44", "legacy"] ∧ every.wanted = registry := by
  intro s bare two repeats every unknown
  have hhundred : repeats.effectiveGapLimit = two.effectiveGapLimit := rfl
  have htwenty : unknown.effectiveGapLimit = every.effectiveGapLimit := rfl
  have htwo : ∀ scheme ∈ registry, repeats.Wants scheme ↔ two.Wants scheme := by decide
  have hevery : ∀ scheme ∈ registry, unknown.Wants scheme ↔ every.Wants scheme := by decide
  exact ⟨(recoverOldWallet_scans s ⟨[7]⟩ hhundred htwo 1 0 []).1,
    (recoverOldWallet_scans s ⟨[7]⟩ htwenty hevery 1 0 []).1, by decide, by decide⟩

end FundRecovery.Discovery

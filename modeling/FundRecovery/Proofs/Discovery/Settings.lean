import FundRecovery.Discovery.Scanner
import Mathlib.Data.List.Nodup
import Mathlib.Tactic.ByContra

/-!
# Checked settings

What the checks before a search look for, and what a search may rely on after them.

* `ScanOptions.Invalid`: options that are turned down. `Scanner.checkReady_eq_ok_iff`: what else is
  turned down with options, a list of schemes and a seed.
* `ScanOptions.ZeroLimit`: options that are turned down whatever schemes are configured.
* `scheme?_eq_some_iff`: the registry scheme of a name. `resolveSchemes_eq_ok_iff`: names of
  registry schemes are found, if no name repeats.
* `Scanner.ready_names`, `Scanner.ready_maxConcurrent`: what a scan may rely on.
-/

namespace FundRecovery

/-! ## Names of schemes -/

theorem ensureUniqueNames_eq_ok_iff {schemes : List PathScheme} :
    ensureUniqueNames schemes = .ok () ↔ (schemes.map (·.name)).Nodup := by
  rw [ensureUniqueNames, ← firstRepeat?_eq_none_iff]
  cases firstRepeat? [] (schemes.map (·.name)) <;> simp

theorem name_of_scheme? {name : String} {scheme : PathScheme} (h : scheme? name = some scheme) :
    scheme.name = name := by
  unfold scheme? at h
  have hfound := List.find?_some h
  exact eq_of_beq hfound

theorem scheme?_eq_none_iff {name : String} :
    scheme? name = none ↔ name ∉ registry.map (·.name) := by
  simp [scheme?, List.find?_eq_none]

theorem nodup_registry : (registry.map (·.name)).Nodup :=
  firstRepeat?_eq_none_iff.mp registry_unique

theorem scheme?_eq_some_iff {name : String} {scheme : PathScheme} :
    scheme? name = some scheme ↔ scheme ∈ registry ∧ scheme.name = name := by
  refine ⟨fun h => ⟨List.mem_of_find?_eq_some h, name_of_scheme? h⟩, ?_⟩
  rintro ⟨hmem, hname⟩
  cases hfound : scheme? name with
  | none => exact absurd (hname ▸ List.mem_map_of_mem hmem) (scheme?_eq_none_iff.mp hfound)
  | some found =>
    have hsame := (name_of_scheme? hfound).trans hname.symm
    have hfound := List.mem_of_find?_eq_some hfound
    rw [List.inj_on_of_nodup_map nodup_registry hfound hmem hsame]

/-- Schemes found by their names have these names. -/
theorem map_name_found {names : List String} {schemes : List PathScheme}
    (h : names.map scheme? = schemes.map some) : schemes.map (·.name) = names := by
  induction names generalizing schemes with
  | nil =>
    rw [List.map_nil, eq_comm, List.map_eq_nil_iff] at h
    rw [h, List.map_nil]
  | cons name rest ih =>
    obtain ⟨scheme, found, rfl, hscheme, hfound⟩ := List.map_eq_cons_iff.mp h.symm
    rw [List.map_cons, ih hfound.symm, name_of_scheme? hscheme.symm]

/-- Schemes of registry names are found. -/
theorem exists_found {names : List String} (h : ∀ name ∈ names, name ∈ registry.map (·.name)) :
    ∃ schemes : List PathScheme, names.map scheme? = schemes.map some := by
  induction names with
  | nil => exact ⟨[], rfl⟩
  | cons name rest ih =>
    obtain ⟨hname, hrest⟩ := List.forall_mem_cons.mp h
    obtain ⟨found, hfound⟩ := ih hrest
    cases hscheme : scheme? name with
    | none => exact absurd hname (scheme?_eq_none_iff.mp hscheme)
    | some scheme => exact ⟨scheme :: found, by rw [List.map_cons, List.map_cons, hscheme, hfound]⟩

/-- Schemes are looked up one by one. -/
theorem mapM_found {names : List String} {schemes : List PathScheme} :
    (names.mapM fun name => match scheme? name with
      | some scheme => Except.ok scheme
      | none => .error (RecoveryError.unknownScheme name)) = .ok schemes ↔
      names.map scheme? = schemes.map some := by
  induction names generalizing schemes with
  | nil => cases schemes <;> simp [pure, Except.pure]
  | cons name rest ih =>
    rw [List.mapM_cons, List.map_cons]
    cases hscheme : scheme? name with
    | none => cases schemes <;> simp [bind, Except.bind]
    | some scheme =>
      rcases hrest : rest.mapM _ with e | found <;> rw [hrest] at ih
      · cases schemes <;> simp [bind, Except.bind, ← ih]
      · cases schemes <;> simp [bind, Except.bind, pure, Except.pure, ← ih]

theorem resolveSchemes_eq_ok_iff {names : List String} {schemes : List PathScheme} :
    resolveSchemes names = .ok schemes ↔ names.map scheme? = schemes.map some ∧ names.Nodup := by
  rw [← mapM_found, resolveSchemes]
  rcases hfound : names.mapM _ with e | found
  · simp [bind, Except.bind]
  · have hnames := map_name_found (mapM_found.mp hfound)
    cases hunique : ensureUniqueNames found with
    | error e =>
      have hrepeats : ¬names.Nodup := by
        rw [← hnames, ← ensureUniqueNames_eq_ok_iff, hunique]
        simp
      simp [bind, Except.bind, hunique, hrepeats]
    | ok _ =>
      have hdistinct : names.Nodup := by
        rw [← hnames, ← ensureUniqueNames_eq_ok_iff, hunique]
      simp [bind, Except.bind, pure, Except.pure, hunique, hdistinct]

/-- Names that fail are unknown or repeated. -/
theorem rejected_of_resolveSchemes {names : List String} {e : RecoveryError}
    (h : resolveSchemes names = .error e) :
    (∃ name ∈ names, name ∉ registry.map (·.name)) ∨ ¬names.Nodup := by
  by_contra hnot
  obtain ⟨hknown, hdistinct⟩ := not_or.mp hnot
  obtain ⟨schemes, hfound⟩ := exists_found fun name hname =>
    by_contra fun hunknown => hknown ⟨name, hname, hunknown⟩
  rw [resolveSchemes_eq_ok_iff.mpr ⟨hfound, not_not.mp hdistinct⟩] at h
  cases h

/-- Names that have their schemes are known. -/
theorem known_of_found {names : List String} {schemes : List PathScheme}
    (h : names.map scheme? = schemes.map some) : ∀ name ∈ names, name ∈ registry.map (·.name) := by
  intro name hname
  by_contra hunknown
  have hnone : none ∈ names.map scheme? :=
    List.mem_map.mpr ⟨name, hname, scheme?_eq_none_iff.mpr hunknown⟩
  simp [h] at hnone

/-! ## Options -/

namespace ScanOptions

/-- A limit is zero, or two of the configured schemes have one name. -/
def Invalid (o : ScanOptions) : Prop :=
  o.gapLimit = 0 ∨ o.extendedGapLimit = 0 ∨ o.maxConcurrent = 0 ∨
    ¬(o.pathSchemes.map (·.name)).Nodup

instance (o : ScanOptions) : Decidable o.Invalid := inferInstanceAs (Decidable (_ ∨ _ ∨ _ ∨ ¬_))

theorem validate_eq_ok_iff {o : ScanOptions} : o.validate = .ok () ↔ ¬o.Invalid := by
  unfold validate Invalid
  by_cases hgap : o.gapLimit = 0
  · simp [hgap]
  by_cases hextended : o.extendedGapLimit = 0
  · simp [hgap, hextended]
  by_cases hmax : o.maxConcurrent = 0
  · simp [hgap, hextended, hmax]
  · simp [hgap, hextended, hmax, ensureUniqueNames_eq_ok_iff]

/-- One of the limits is zero. -/
def ZeroLimit (o : ScanOptions) : Prop :=
  o.gapLimit = 0 ∨ o.extendedGapLimit = 0 ∨ o.maxConcurrent = 0

instance (o : ScanOptions) : Decidable o.ZeroLimit := inferInstanceAs (Decidable (_ ∨ _ ∨ _))

/-- A limit of zero is found before the configured schemes are looked at. -/
theorem validate_listing (o : ScanOptions) (listed : List PathScheme) (h : o.ZeroLimit) :
    ScanOptions.validate { o with pathSchemes := listed } = o.validate := by
  unfold validate
  rcases h with h | h | h <;> simp [h]

/-- Without zeros, only the names of the configured schemes are left to check. -/
theorem validate_names {o : ScanOptions} (h : ¬o.ZeroLimit) :
    o.validate = ensureUniqueNames o.pathSchemes := by
  simp only [ZeroLimit, not_or] at h
  rw [validate, if_neg h.1, if_neg h.2.1, if_neg h.2.2]

end ScanOptions

namespace Discovery.Scanner

variable {s : Scanner} {seed : Seed} {schemes : List PathScheme}

theorem checkReady_eq_ok_iff : s.checkReady seed schemes = .ok () ↔
    ¬s.options.Invalid ∧ (schemes.map (·.name)).Nodup ∧ seed.isEmpty = false := by
  rw [← ScanOptions.validate_eq_ok_iff, ← ensureUniqueNames_eq_ok_iff, checkReady]
  cases s.options.validate with
  | error e => simp [bind, Except.bind]
  | ok _ =>
    cases ensureUniqueNames schemes with
    | error e => simp [bind, Except.bind]
    | ok _ => cases seed.isEmpty <;> simp [bind, Except.bind, throw, pure, Except.pure]

theorem rejected_of_checkReady {e : RecoveryError} (h : s.checkReady seed schemes = .error e) :
    s.options.Invalid ∨ ¬(schemes.map (·.name)).Nodup ∨ seed.isEmpty := by
  by_contra hnot
  simp only [not_or, not_not, Bool.not_eq_true] at hnot
  rw [checkReady_eq_ok_iff.mpr hnot] at h
  cases h

theorem ready_maxConcurrent (h : s.checkReady seed schemes = .ok ()) :
    0 < s.options.maxConcurrent := by
  have hvalid := (checkReady_eq_ok_iff.mp h).1
  simp only [ScanOptions.Invalid, not_or] at hvalid
  exact Nat.pos_of_ne_zero hvalid.2.2.1

/-- The schemes have distinct names. -/
theorem ready_names (h : s.checkReady seed schemes = .ok ()) : (schemes.map (·.name)).Nodup :=
  (checkReady_eq_ok_iff.mp h).2.1

theorem nodup_sorted (h : s.checkReady seed schemes = .ok ()) :
    ((sortByPriority schemes).map (·.name)).Nodup :=
  ((List.mergeSort_perm schemes _).map _).nodup_iff.mpr (ready_names h)

end Discovery.Scanner

end FundRecovery

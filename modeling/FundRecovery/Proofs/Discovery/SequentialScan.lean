import FundRecovery.Discovery.Parallel
import FundRecovery.Proofs.Discovery.ScanInvariant
import FundRecovery.Proofs.Discovery.Settings

/-!
# Schemes scanned one after the other, with fixed answers

* `eventsOf`: the events of one scheme. `scanScheme_named`: a scheme's scan reports no others.
* `filter_flatMap_schemeName`: the events of one scheme among those of several.
* `value_scanInOrder`, `issued_scanInOrder`: a scan in order absorbs the outcome of one job after
  the other, and makes their calls.
-/

namespace FundRecovery.Discovery

variable {σ : Type} {answer : (c : Call) → c.Answer} {name : String}

/-! ## The events of one scheme -/

/-- The events that carry a name, in order. -/
def eventsOf (name : String) (calls : List Call) : List ScanProgress :=
  (events calls).filter (·.schemeName = name)

/-- All events carry the name. -/
def Named (name : String) (calls : List Call) : Prop := ∀ e ∈ events calls, e.schemeName = name

@[simp] theorem eventsOf_nil : eventsOf name [] = [] := rfl

@[simp] theorem eventsOf_append (a b : List Call) :
    eventsOf name (a ++ b) = eventsOf name a ++ eventsOf name b := by
  rw [eventsOf, events_append, List.filter_append]
  rfl

theorem Named.eventsOf_self {calls : List Call} (h : Named name calls) :
    Discovery.eventsOf name calls = events calls :=
  List.filter_eq_self.mpr fun e he => by simpa using h e he

theorem Named.eventsOf_ne {calls : List Call} {other : String} (h : Named name calls)
    (hne : name ≠ other) : Discovery.eventsOf other calls = [] :=
  List.filter_eq_nil_iff.mpr fun e he => by simpa [h e he] using hne

section Parts

variable {ι : Type} {nameOf : ι → String} {part : ι → List ScanProgress} {parts : List ι}
  (hpart : ∀ x ∈ parts, ∀ e ∈ part x, e.schemeName = nameOf x)

include hpart

theorem filter_flatMap_of_not_mem (hname : name ∉ parts.map nameOf) :
    (parts.flatMap part).filter (·.schemeName = name) = [] := by
  refine List.filter_eq_nil_iff.mpr fun e he => ?_
  obtain ⟨x, hx, he⟩ := List.mem_flatMap.mp he
  have hne : nameOf x ≠ name := fun h => hname (h ▸ List.mem_map_of_mem hx)
  simpa [hpart x hx e he] using hne

/-- Among the events of parts with distinct names, those of one name are those of its part. -/
theorem filter_flatMap_schemeName (hnames : (parts.map nameOf).Nodup) {x : ι} (hx : x ∈ parts) :
    (parts.flatMap part).filter (·.schemeName = nameOf x) = part x := by
  induction parts with
  | nil => cases hx
  | cons y rest ih =>
    obtain ⟨hy, hrest⟩ := List.forall_mem_cons.mp hpart
    obtain ⟨hfresh, hnodup⟩ := List.nodup_cons.mp (List.map_cons ▸ hnames)
    rw [List.flatMap_cons, List.filter_append]
    rcases List.mem_cons.mp hx with rfl | hx
    · have hown : (part x).filter (·.schemeName = nameOf x) = part x :=
        List.filter_eq_self.mpr fun e he => by simpa using hy e he
      rw [hown, filter_flatMap_of_not_mem hrest hfresh, List.append_nil]
    · have hne : nameOf y ≠ nameOf x := fun h => hfresh (h ▸ List.mem_map_of_mem hx)
      have hother : (part y).filter (·.schemeName = nameOf x) = [] :=
        List.filter_eq_nil_iff.mpr fun e he => by simpa [hy e he] using hne
      rw [hother, List.nil_append, ih hrest hnodup hx]

end Parts

theorem named_append {a b : List Call} : Named name (a ++ b) ↔ Named name a ∧ Named name b := by
  simp only [Named, events_append, List.forall_mem_append]

theorem named_asked {c : Call} (h : c.event? = none) : Named name [c] := by
  simp [Named, events, h]

theorem named_reports {options : ScanOptions} {event : ScanProgress} (h : event.schemeName = name) :
    Named name (reports options event) := by
  intro e he
  unfold reports at he
  split at he
  · obtain rfl : e = event := by simpa [events, Call.event?] using he
    exact h
  · simp at he

/-- The gathered carries the name of the scheme, and so does every event. -/
theorem sustained_named (A : (c : Call) → c.Answer → Prop) (t : Target) (name : String) :
    Sustained A t fun _ scan log => scan.schemeName = name ∧ Named name log where
  asked hc h := ⟨h.1, named_append.mpr ⟨h.2, named_asked hc.event?_eq_none⟩⟩
  visited _ h := ⟨h.1, named_append.mpr ⟨h.2, named_reports h.1⟩⟩
  missed _ _ h := ⟨h.1, named_append.mpr ⟨h.2, named_reports h.1⟩⟩
  found _ _ _ _ h := ⟨h.1, named_append.mpr ⟨h.2, named_reports h.1⟩⟩
  passed _ h := h
  stopped h := h
  failed _ _ h := h

/-- Outcome and events carry the name of the scheme. -/
theorem records_scanScheme_named (A : (c : Call) → c.Answer → Prop) (looks : Bool → Prop)
    (s : Scanner) (seed : Seed) (scheme : PathScheme) (gapLimit : UInt32) (priorityIndex : Nat) :
    Records A looks [] (s.scanScheme seed scheme gapLimit priorityIndex) fun o log =>
      (o.schemeName = scheme.name ∧ o.priorityIndex = priorityIndex) ∧ Named scheme.name log := by
  have h : Records A looks []
      (s.scanScheme seed scheme gapLimit priorityIndex) fun o log => ∃ (scan : SchemeScan)
        (_ : List Chain) (_ : Nat), o = scan.outcome priorityIndex ∧
          scan.schemeName = scheme.name ∧ Named scheme.name log :=
    Relayed.scanScheme (.of_sustained fun _ _ => sustained_named _ _ scheme.name)
      ⟨rfl, by simp [Named]⟩ gapLimit priorityIndex
  refine h.mono ?_
  rintro _ _ ⟨scan, _, _, rfl, hname, hnamed⟩
  exact ⟨⟨hname, rfl⟩, hnamed⟩

/-- A scheme's scan reports events of that scheme alone. -/
theorem scanScheme_named (s : Scanner) (seed : Seed) (scheme : PathScheme) (gapLimit : UInt32)
    (priorityIndex : Nat) :
    Named scheme.name ((s.scanScheme seed scheme gapLimit priorityIndex).issued answer) := by
  have h := records_scanScheme_named (fun c a => a = answer c) (· = false) s seed scheme gapLimit
    priorityIndex
  obtain ⟨-, hnamed⟩ := Records.fixed_iff.mp h
  simpa using hnamed

@[simp] theorem value_scanScheme_priorityIndex (s : Scanner) (seed : Seed) (scheme : PathScheme)
    (gapLimit : UInt32) (priorityIndex : Nat) :
    ((s.scanScheme seed scheme gapLimit priorityIndex).value answer).priorityIndex =
      priorityIndex := by
  simp [Scanner.scanScheme, SchemeScan.outcome]

/-! ## Jobs in order -/

namespace Scanner

variable {s : Scanner} {seed : Seed} {schemes : List PathScheme}

/-- A job per scheme, the first of them at position `first` of the priority order. -/
def jobsFrom (s : Scanner) (first : Nat) (schemes : List PathScheme) : List Job :=
  (schemes.zipIdx first).map fun (scheme, i) => ⟨scheme, s.options.gapLimitAt i, i⟩

theorem jobs_eq_jobsFrom (s : Scanner) (schemes : List PathScheme) :
    s.jobs schemes = s.jobsFrom 0 schemes := rfl

@[simp] theorem jobsFrom_cons (first : Nat) (scheme : PathScheme) (rest : List PathScheme) :
    s.jobsFrom first (scheme :: rest) =
      ⟨scheme, s.options.gapLimitAt first, first⟩ :: s.jobsFrom (first + 1) rest := rfl

@[simp] theorem length_jobs : (s.jobs schemes).length = schemes.length := by
  simp [jobs]

/-- Where workers may be started, there are none only for no jobs. -/
theorem jobs_eq_nil_of_workerCount (hmax : 0 < s.options.maxConcurrent)
    (hz : s.workerCount schemes.length = 0) : s.jobs schemes = [] := by
  have hlength : schemes.length = 0 := by
    simp only [workerCount] at hz
    omega
  exact List.eq_nil_of_length_eq_zero (by rw [length_jobs, hlength])

theorem map_name_jobs : (s.jobs schemes).map (·.scheme.name) = schemes.map (·.name) := by
  have h : ((fun j : Job => j.scheme.name) ∘ fun x : PathScheme × Nat =>
      (⟨x.1, s.options.gapLimitAt x.2, x.2⟩ : Job)) = PathScheme.name ∘ Prod.fst := rfl
  rw [jobs, List.map_map, h, ← List.map_map, List.zipIdx_map_fst]

theorem scheme_mem_of_mem_jobs {j : Job} (hj : j ∈ s.jobs schemes) : j.scheme ∈ schemes := by
  obtain ⟨⟨scheme, i⟩, hx, rfl⟩ := List.mem_map.mp hj
  exact List.fst_mem_of_mem_zipIdx hx

theorem pairwise_jobsFrom (first : Nat) :
    (s.jobsFrom first schemes).Pairwise fun a b => a.priorityIndex < b.priorityIndex := by
  induction schemes generalizing first with
  | nil => exact .nil
  | cons scheme rest ih =>
    refine List.pairwise_cons.mpr ⟨fun j hj => ?_, ih (first + 1)⟩
    obtain ⟨⟨scheme', i⟩, hx, rfl⟩ := List.mem_map.mp hj
    have hi : first + 1 ≤ i := (List.mem_zipIdx hx).1
    show first < i
    omega

theorem nodup_jobs (s : Scanner) (schemes : List PathScheme) : (s.jobs schemes).Nodup := by
  have hsorted : (s.jobsFrom 0 schemes).Pairwise fun a b => a.priorityIndex < b.priorityIndex :=
    pairwise_jobsFrom 0
  refine hsorted.imp fun hlt he => ?_
  rw [he] at hlt
  exact Nat.lt_irrefl _ hlt

theorem value_scanInOrder (first : Nat) (a : Attempt) :
    (s.scanInOrder seed first schemes a).value answer =
      ((s.jobsFrom first schemes).map fun j => (s.scanJob seed j).value answer).foldl
        Attempt.absorb a := by
  induction schemes generalizing first a with
  | nil => rfl
  | cons scheme rest ih =>
    simp only [scanInOrder, Scan.value_bind, Scan.value_isCancelled, Bool.false_eq_true,
      ↓reduceIte, ih, jobsFrom_cons, List.map_cons, List.foldl_cons, scanJob]

theorem issued_scanInOrder (first : Nat) (a : Attempt) :
    (s.scanInOrder seed first schemes a).issued answer =
      (s.jobsFrom first schemes).flatMap fun j => (s.scanJob seed j).issued answer := by
  induction schemes generalizing first a with
  | nil => rfl
  | cons scheme rest ih =>
    simp only [scanInOrder, Scan.issued_bind, Scan.value_isCancelled, Scan.issued_isCancelled,
      Bool.false_eq_true, ↓reduceIte, ih, jobsFrom_cons, List.flatMap_cons, scanJob,
      List.nil_append]

end Scanner

end FundRecovery.Discovery

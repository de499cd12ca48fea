import FundRecovery.Proofs.Discovery.BulkRanges
import FundRecovery.Proofs.Discovery.Rejections

/-!
# Ranges scanned one address at a time

Where no bulk backend serves a range, a gap limit as wide as the range takes its place. However the
chain client behaves, the counter of the gap cannot reach the limit before as many addresses were
looked up.

* `Consults A p Q`: what the outcome of a program and its queries, with their answers, have in
  common. `Consults.run`: so it is in a run, and the log grows by these queries.
* `Visit`: what an index derived to, and what was listed there. `Target.walk`: the queries of visits
  in a row. `Target.finds`: the discoveries among them.
* `consults_scanIndices`: a chain is walked over as many indices as the gap limit, or more.
* `recoverBeyondGap_walks`: so is each chain of a scheme, when a range is not served in bulk.
-/

namespace FundRecovery.Discovery

variable {σ α β : Type} {A : (c : Call) → c.Answer → Prop}

/-! ## Queries with their answers -/

/-- The queries among exchanges, with their answers. -/
def consulted : List (Exchange interface) → List Answered
  | [] => []
  | ⟨.call c, a⟩ :: rest => if c.event?.isNone then ⟨c, a⟩ :: consulted rest else consulted rest
  | ⟨.isCancelled, _⟩ :: rest => consulted rest

theorem consulted_append (t u : List (Exchange interface)) :
    consulted (t ++ u) = consulted t ++ consulted u := by
  induction t with
  | nil => rfl
  | cons e t ih =>
    obtain ⟨q, a⟩ := e
    cases q with
    | isCancelled => exact ih
    | call c =>
      rw [List.cons_append, consulted, consulted, ih]
      split <;> rfl

/-- The queries of a log, with their answers. -/
def World.consulted (w : World (σ × List Answered)) : List Answered :=
  w.state.2.filter (·.call.event?.isNone)

/-- While the token is not cancelled, and with answers that `A` allows, `Q` holds of the outcome and
of the queries with their answers. -/
def Consults (A : (c : Call) → c.Answer → Prop) (p : Scan α) (Q : α → List Answered → Prop) :
    Prop :=
  p.Ensures (Request.Allows A (· = false)) fun a t => Q a (consulted t)

namespace Consults

variable {p : Scan α} {f : α → Scan β} {Q R : α → List Answered → Prop}
  {S : β → List Answered → Prop}

theorem done {a : α} (h : Q a []) : Consults A (.done a) Q := h

theorem bind (hp : Consults A p Q)
    (hf : ∀ a t, Q a t → Consults A (f a) fun b u => S b (t ++ u)) : Consults A (p >>= f) S :=
  Program.Ensures.bind hp fun a t hQ => (hf a _ hQ).mono fun b u hS => by
    rwa [consulted_append]

theorem mono (hp : Consults A p Q) (hQ : ∀ a t, Q a t → R a t) : Consults A p R :=
  Program.Ensures.mono hp fun a _ => hQ a _

theorem call {c : Call} (hc : c.event? = none) {Q : c.Answer → List Answered → Prop}
    (h : ∀ a, A c a → Q a [⟨c, .ok a⟩]) : Consults A (Discovery.call c) Q := by
  intro a ha
  simpa [consulted, hc] using h a ha

/-- The token is found as it is. -/
theorem look {Q : Bool → List Answered → Prop} (h : Q false []) :
    Consults A isCancelled Q := by
  rintro _ rfl
  exact h

/-- The token is not cancelled, so a look at it may be left out. -/
theorem look_bind {f : Bool → Scan β} (hf : Consults A (f false) S) :
    Consults A (isCancelled >>= f) S := by
  refine .bind (.look (Q := fun b u => b = false ∧ u = []) ⟨rfl, rfl⟩) ?_
  rintro _ _ ⟨rfl, rfl⟩
  exact hf

theorem report {options : ScanOptions} {event : ScanProgress} {Q : Unit → List Answered → Prop}
    (h : Q () []) : Consults A (Discovery.report options event) Q := by
  unfold Discovery.report
  split
  · exact fun _ _ => h
  · exact done h

end Consults

theorem Environment.logged_consulted (env : Environment σ) :
    env.logged.handler.Notes World.consulted fun e => consulted [e] := by
  intro q w
  cases q with
  | isCancelled => simp [Environment.handler, Environment.logged, World.consulted, consulted]
  | call c =>
    simp only [Environment.handler, Environment.logged, World.consulted, consulted,
      List.filter_append, List.filter_cons, List.filter_nil]

/-- A program that is not cancelled comes to an outcome, and the log grows by its queries. -/
theorem Consults.run {env : Environment σ} (h : env.Answers A) (hu : env.Uncancelled)
    {p : Scan α} {Q : α → List Answered → Prop} (hp : Consults A p Q)
    {w : World (σ × List Answered)} (hw : w.cancelled = false) :
    ∃ a w' t, p.run env.logged.handler w = (.ok a, w') ∧ w'.cancelled = false ∧
      w'.consulted = w.consulted ++ t ∧ Q a t := by
  have hk := h.logged.keeps hu.logged
  obtain ⟨a, w', hr, hw'⟩ := Program.run_total hk (h.logged.total _) hw (p := p)
  obtain ⟨t, hQ, ht⟩ := Program.Ensures.run_notes hp hk env.logged_consulted hw hr
  have hflat : t.flatMap (fun e => consulted [e]) = consulted t := by
    clear hQ ht
    induction t with
    | nil => rfl
    | cons e t ih => rw [List.flatMap_cons, ih, ← consulted_append, List.singleton_append]
  exact ⟨a, w', consulted t, hr, hw', by rw [ht, hflat], hQ⟩

/-! ## Visits -/

/-- An index of a chain that was looked at: what it derived to, and what the client listed. -/
structure Visit where
  derived : DerivedAddress
  listing : Except ChainError (List Utxo)

namespace Visit

/-- A failed lookup counts as none. -/
def outputs (v : Visit) : List Utxo := v.listing.toOption.getD []

end Visit

namespace Target

/-- The derivation at an index with its answer. -/
def derivedAs (t : Target) (index : UInt32) (r : Except DerivationError DerivedAddress) :
    Answered :=
  if t.scheme.isLegacy then ⟨.deriveLegacyAddress t.seed index, .ok r⟩
  else ⟨.deriveAddress t.seed t.scheme.coinType t.chain.account t.chain.level index, .ok r⟩

/-- The queries of visits from position `i` on: for each index in turn its derivation, and the
lookup of the address that this gave. -/
def walk (t : Target) : Nat → List Visit → List Answered
  | _, [] => []
  | i, v :: rest => t.derivedAs (UInt32.ofNat i) (.ok v.derived) ::
      ⟨.listUtxos v.derived.address, .ok v.listing⟩ :: t.walk (i + 1) rest

/-- The discoveries of visits from position `i` on: those where outputs were listed. -/
def finds (t : Target) : Nat → List Visit → List DiscoveredAddress
  | _, [] => []
  | i, v :: rest =>
    if v.outputs.isEmpty then t.finds (i + 1) rest
    else t.discovery t.scheme.name (UInt32.ofNat i) v.derived v.outputs :: t.finds (i + 1) rest

/-- `A` allows the answers of visits from position `i` on. -/
def Visited (A : (c : Call) → c.Answer → Prop) (t : Target) : Nat → List Visit → Prop
  | _, [] => True
  | i, v :: rest => t.Derives A (UInt32.ofNat i) (.ok v.derived) ∧
      A (.listUtxos v.derived.address) v.listing ∧ Visited A t (i + 1) rest

end Target

/-- Derivations do not fail. -/
def Keyed : (c : Call) → c.Answer → Prop
  | .deriveAddress .., r => ∃ d, r = .ok d
  | .deriveLegacyAddress .., r => ∃ d, r = .ok d
  | _, _ => True

section Chain

variable {t : Target} {scan : SchemeScan}

theorem Target.Derives.keyed (hA : ∀ c a, A c a → Keyed c a) {index : UInt32}
    {r : Except DerivationError DerivedAddress} (h : t.Derives A index r) : ∃ d, r = .ok d := by
  unfold Target.Derives at h
  split at h <;> exact hA _ _ h

namespace Consults

theorem derive {index : UInt32} {Q : Except DerivationError DerivedAddress → List Answered → Prop}
    (h : ∀ r, t.Derives A index r → Q r [t.derivedAs index r]) : Consults A (t.derive index) Q := by
  unfold Target.derive Target.Derives Target.derivedAs at *
  split <;> rename_i hl <;> simp only [hl, Bool.false_eq_true, ↓reduceIte] at h
  · exact call rfl h
  · exact call rfl h

theorem visit (address : String) :
    Consults A (visit t address scan) fun scan' u => scan' = scan.counted ∧ u = [] :=
  .bind (.report (Q := fun _ u => u = []) rfl) fun _ _ hu => .done ⟨rfl, by rw [hu]; rfl⟩

theorem lookupUtxos (address : String) :
    Consults A (lookupUtxos t address scan) fun utxos u => ∃ r, A (.listUtxos address) r ∧
      utxos = r.toOption.getD [] ∧ u = [⟨.listUtxos address, .ok r⟩] := by
  refine .bind (.call (Q := fun r u => A (.listUtxos address) r ∧
    u = [⟨.listUtxos address, .ok r⟩]) rfl fun r hr => ⟨hr, rfl⟩) ?_
  rintro r _ ⟨hr, rfl⟩
  cases r with
  | ok utxos => exact .done ⟨_, hr, rfl, rfl⟩
  | error e =>
    refine .bind (.report (Q := fun _ u => u = []) rfl) ?_
    rintro _ _ rfl
    exact .done ⟨_, hr, rfl, rfl⟩

theorem recordFound (index : UInt32) (derived : DerivedAddress) (utxos : List Utxo) :
    Consults A (recordFound t index derived utxos scan) fun scan' u =>
      scan' = scan.recorded t index derived utxos ∧ u = [] := by
  unfold Discovery.recordFound SchemeScan.recorded
  split
  · exact .done ⟨rfl, rfl⟩
  · exact .bind (.report (Q := fun _ u => u = []) rfl) fun _ _ hu => .done ⟨rfl, by rw [hu]; rfl⟩

end Consults

/-- Past an index, one address is counted, and what was listed there is found. -/
theorem gathers_passed (hname : scan.schemeName = t.scheme.name) (i : Nat) (v : Visit) :
    scan.Gathers (scan.passed t (UInt32.ofNat i) v.derived v.outputs) (t.finds i [v]) 1 where
  schemeName := SchemeScan.schemeName_passed
  found := by
    unfold SchemeScan.passed SchemeScan.recorded Target.finds
    rw [← hname]
    split
    · exact (List.append_nil _).symm
    · rfl
  scanned := SchemeScan.scanned_passed
  failure := SchemeScan.failure_passed

theorem Target.finds_cons (i : Nat) (v : Visit) (rest : List Visit) :
    t.finds i (v :: rest) = t.finds i [v] ++ t.finds (i + 1) rest := by
  simp only [finds]
  split <;> rfl

/-- The run of unused addresses grows by one at most, so a gap does not close before as many
addresses were visited as are missing from its limit. -/
theorem GapLimit.missing_mark (gap : GapLimit) (used : Bool) :
    gap.limit - gap.unused ≤ (gap.mark used).limit - (gap.mark used).unused + 1 := by
  unfold GapLimit.mark
  split <;> dsimp only <;> omega

/-- The course of a scan over a chain from position `i` on: visits in a row, at least `least` of
them. -/
structure Course (A : (c : Call) → c.Answer → Prop) (t : Target) (i least left : Nat)
    (scan scan' : SchemeScan) (visits : List Visit) : Prop where
  visited : t.Visited A i visits
  least : least ≤ visits.length
  most : visits.length ≤ left
  gathers : scan.Gathers scan' (t.finds i visits) visits.length
  cancelled : scan'.cancelled = scan.cancelled

/-- **A scan with single lookups walks a chain** until the limit of the gap is missing no address.
-/
theorem consults_scanIndices (hA : ∀ c a, A c a → Keyed c a) (left i : Nat) (gap : GapLimit)
    (scan : SchemeScan) (hname : scan.schemeName = t.scheme.name) :
    Consults A (scanIndices t left i gap scan) fun scan' u => ∃ visits, u = t.walk i visits ∧
      Course A t i (min left (gap.limit - gap.unused)) left scan scan' visits := by
  induction left generalizing i gap scan with
  | zero => exact .done ⟨[], rfl, .intro, by simp, Nat.le_refl 0, .refl scan, rfl⟩
  | succ left ih =>
    rw [scanIndices]
    split
    case isTrue hreached =>
      have hnone : gap.limit - gap.unused = 0 := by
        have := of_decide_eq_true hreached
        omega
      exact .done ⟨[], rfl, .intro, by simp [hnone], Nat.zero_le _, .refl scan, rfl⟩
    case isFalse =>
      refine .look_bind ?_
      refine .bind (.derive (Q := fun r u => t.Derives A (UInt32.ofNat i) r ∧
        u = [t.derivedAs (UInt32.ofNat i) r]) fun r hr => ⟨hr, rfl⟩) ?_
      rintro r _ ⟨hr, rfl⟩
      obtain ⟨d, rfl⟩ := hr.keyed hA
      refine .bind (.visit d.address) ?_
      rintro _ _ ⟨rfl, rfl⟩
      refine .bind (.lookupUtxos d.address) ?_
      rintro _ _ ⟨listing, hlisting, rfl, rfl⟩
      refine .bind (.recordFound ..) ?_
      rintro _ _ ⟨rfl, rfl⟩
      have hpassed := gathers_passed hname i ⟨d, listing⟩
      refine (ih (i + 1) _ _ (hpassed.schemeName.trans hname)).mono ?_
      rintro scan' _ ⟨rest, rfl, hrest⟩
      refine ⟨⟨d, listing⟩ :: rest, rfl, ⟨hr, hlisting, hrest.visited⟩, ?_, ?_, ?_, ?_⟩
      · have hmissing := GapLimit.missing_mark gap !(listing.toOption.getD []).isEmpty
        have hleast := hrest.least
        rw [List.length_cons]
        omega
      · exact Nat.succ_le_succ hrest.most
      · rw [Target.finds_cons, List.length_cons, Nat.add_comm rest.length]
        exact hpassed.trans hrest.gathers
      · exact hrest.cancelled.trans SchemeScan.cancelled_passed

end Chain

/-! ## The chains of a scheme -/

section Scheme

variable {s : Scanner} {seed : Seed} {scheme : PathScheme} {scan : SchemeScan}

/-- The queries of visits on chains. -/
def Scanner.walks (s : Scanner) (seed : Seed) (scheme : PathScheme)
    (courses : List (Chain × List Visit)) : List Answered :=
  courses.flatMap fun x => (s.target seed scheme x.1).walk 0 x.2

/-- The discoveries of visits on chains. -/
def Scanner.finds (s : Scanner) (seed : Seed) (scheme : PathScheme)
    (courses : List (Chain × List Visit)) : List DiscoveredAddress :=
  courses.flatMap fun x => (s.target seed scheme x.1).finds 0 x.2

/-- Visits on each of the chains, from its first index on and at least `least` of them. -/
structure Courses (A : (c : Call) → c.Answer → Prop) (s : Scanner) (seed : Seed)
    (scheme : PathScheme) (least : Nat) (chains : List Chain)
    (courses : List (Chain × List Visit)) : Prop where
  chains : courses.map (·.1) = chains
  visited : ∀ x ∈ courses, (s.target seed scheme x.1).Visited A 0 x.2
  covered : ∀ x ∈ courses, least ≤ x.2.length ∧ x.2.length ≤ indexSpace

theorem consults_scanChains (hA : ∀ c a, A c a → Keyed c a) (hbulk : s.usesBulk = false)
    (gapLimit : UInt32) (chains : List Chain) (scan : SchemeScan)
    (hname : scan.schemeName = scheme.name) (hended : scan.ended = false) :
    Consults A (s.scanChains seed scheme gapLimit chains scan) fun scan' u => ∃ courses,
      u = s.walks seed scheme courses ∧
      Courses A s seed scheme gapLimit.toNat chains courses ∧
      scan.Gathers scan' (s.finds seed scheme courses) (totalOf (·.2.length) courses) ∧
      scan'.cancelled = scan.cancelled := by
  induction chains generalizing scan with
  | nil =>
    exact .done ⟨[], rfl, ⟨rfl, List.forall_mem_nil _, List.forall_mem_nil _⟩, .refl scan, rfl⟩
  | cons chain rest ih =>
    have hchain : s.scanChain ⟨s.options, seed, scheme, chain⟩ gapLimit scan =
        scanIndices (s.target seed scheme chain) indexSpace 0 (.new gapLimit.toNat) scan := by
      simp [Scanner.scanChain, hbulk, scanIndividually, Scanner.target]
    have hlimit : min indexSpace ((GapLimit.new gapLimit.toNat).limit -
        (GapLimit.new gapLimit.toNat).unused) = gapLimit.toNat := by
      have hle : gapLimit.toNat ≤ indexSpace := Nat.le_of_lt gapLimit.toNat_lt
      rw [GapLimit.new, Nat.sub_zero]
      exact Nat.min_eq_right hle
    refine .look_bind ?_
    simp only [Bool.false_eq_true, ↓reduceIte, hchain]
    refine .bind (consults_scanIndices hA indexSpace 0 (.new gapLimit.toNat) scan hname) ?_
    rintro scan' _ ⟨visits, rfl, hcourse⟩
    have hgoing : scan'.ended = false := by
      rw [SchemeScan.ended, hcourse.gathers.failure, hcourse.cancelled]
      exact hended
    simp only [hgoing, Bool.false_eq_true, ↓reduceIte]
    refine (ih scan' (hcourse.gathers.schemeName.trans hname) hgoing).mono ?_
    rintro scan'' _ ⟨courses, rfl, hcourses, hgathers, hcancelled⟩
    refine ⟨(chain, visits) :: courses, rfl, ?_, hcourse.gathers.trans hgathers,
      hcancelled.trans hcourse.cancelled⟩
    exact {
      chains := congrArg (chain :: ·) hcourses.chains
      visited := List.forall_mem_cons.mpr ⟨hcourse.visited, hcourses.visited⟩
      covered := List.forall_mem_cons.mpr
        ⟨⟨hlimit ▸ hcourse.least, hcourse.most⟩, hcourses.covered⟩ }

/-- What the scan of a scheme gathers on its chains. -/
theorem consults_scanScheme (hA : ∀ c a, A c a → Keyed c a) (hbulk : s.usesBulk = false)
    (gapLimit : UInt32) :
    Consults A (s.scanScheme seed scheme gapLimit 0) fun o u => ∃ courses,
      u = s.walks seed scheme courses ∧
      Courses A s seed scheme gapLimit.toNat (scheme.chains s.options.scanChangeAddresses) courses ∧
      o.failure = none ∧ o.cancelled = false ∧ o.addresses = s.finds seed scheme courses := by
  refine .bind (consults_scanChains hA hbulk gapLimit _ (.start scheme.name) rfl rfl) ?_
  rintro scan' _ ⟨courses, rfl, hcourses, hgathers, hcancelled⟩
  exact .done ⟨courses, List.append_nil _, hcourses, hgathers.failure, hcancelled,
    hgathers.found.trans (List.nil_append _)⟩

/-- An attempt over one scheme has what was found on its chains. -/
theorem consults_attempt (hA : ∀ c a, A c a → Keyed c a) (hbulk : s.usesBulk = false)
    (used : Seed) (passphrase : String) :
    Consults A (s.attempt [scheme] used passphrase) fun a u => ∃ courses,
      u = s.walks used scheme courses ∧
      Courses A s used scheme s.options.extendedGapLimit.toNat
        (scheme.chains s.options.scanChangeAddresses) courses ∧
      a.passphrase = passphrase ∧ a.cancelled = false ∧
      a.result.addresses = s.finds used scheme courses := by
  have hscanned : Consults A (s.scanInOrder used 0 [scheme] (.start passphrase)) fun a u =>
      ∃ o courses, a = Attempt.gathered passphrase [o] ∧ u = s.walks used scheme courses ∧
        Courses A s used scheme s.options.extendedGapLimit.toNat
          (scheme.chains s.options.scanChangeAddresses) courses ∧
        o.failure = none ∧ o.cancelled = false ∧ o.addresses = s.finds used scheme courses := by
    refine .look_bind ?_
    refine .bind (consults_scanScheme hA hbulk s.options.extendedGapLimit) ?_
    rintro o _ ⟨courses, rfl, h⟩
    exact .done ⟨o, courses, rfl, List.append_nil _, h⟩
  refine .bind hscanned ?_
  rintro _ _ ⟨o, courses, rfl, rfl, hcourses, hfailure, hcancelled, haddresses⟩
  refine .look_bind ?_
  have hnodup : ([o].map (·.schemeName)).Nodup := List.nodup_singleton _
  have hsound : ∀ x ∈ [o], x.failure = none := List.forall_mem_singleton.mpr hfailure
  refine .done ⟨courses, List.append_nil _, hcourses, Attempt.passphrase_gathered passphrase [o],
    ?_, ?_⟩
  · have hgoing : (Attempt.gathered passphrase [o]).cancelled = false :=
      (Attempt.cancelled_absorb _ _).trans hcancelled
    exact Bool.or_eq_false_iff.mpr ⟨hgoing, rfl⟩
  · rw [Attempt.addresses_gathered hnodup hsound passphrase false, List.flatMap_singleton]
    exact haddresses

end Scheme

/-! ## Ranges without a bulk backend -/

section Recovery

variable {s : Scanner} {seed : Seed} {scheme : PathScheme} {r : BeyondGapRecovery}
  {env : Environment σ} {w w₁ : World (σ × List Answered)}

theorem sortByPriority_singleton (scheme : PathScheme) : sortByPriority [scheme] = [scheme] :=
  List.mergeSort_singleton scheme

/-- The settings that take the place of a bulk query for a range that ends before `stop`. -/
def Scanner.widened (s : Scanner) (stop : UInt32) : Scanner :=
  ⟨{ s.options with gapLimit := stop, extendedGapLimit := stop, useBulkOperations := false }, false⟩

theorem Scanner.scanWidened_eq (s : Scanner) (seed : Seed) (scheme : PathScheme) (stop : UInt32) :
    s.scanWidened seed scheme stop = (s.widened stop).scanSchemes seed [scheme] := rfl

/-- The settings change neither the queries about a chain nor what is made of the answers. -/
theorem Scanner.walks_widened (s : Scanner) (stop : UInt32) (courses : List (Chain × List Visit)) :
    (s.widened stop).walks seed scheme courses = s.walks seed scheme courses := by
  have hwalk (chain : Chain) (i : Nat) (visits : List Visit) :
      ((s.widened stop).target seed scheme chain).walk i visits =
        (s.target seed scheme chain).walk i visits := by
    induction visits generalizing i with
    | nil => rfl
    | cons v rest ih => rw [Target.walk, ih]; rfl
  exact List.flatMap_congr fun x _ => hwalk x.1 0 x.2

theorem Scanner.finds_widened (s : Scanner) (stop : UInt32) (courses : List (Chain × List Visit)) :
    (s.widened stop).finds seed scheme courses = s.finds seed scheme courses := by
  have hfinds (chain : Chain) (i : Nat) (visits : List Visit) :
      ((s.widened stop).target seed scheme chain).finds i visits =
        (s.target seed scheme chain).finds i visits := by
    induction visits generalizing i with
    | nil => rfl
    | cons v rest ih => rw [Target.finds, ih]; rfl
  exact List.flatMap_congr fun x _ => hfinds x.1 0 x.2

theorem Courses.of_widened {stop : UInt32} {least : Nat} {chains : List Chain}
    {courses : List (Chain × List Visit)}
    (h : Courses A (s.widened stop) seed scheme least chains courses) :
    Courses A s seed scheme least chains courses := by
  have hvisited (chain : Chain) (i : Nat) (visits : List Visit)
      (hv : ((s.widened stop).target seed scheme chain).Visited A i visits) :
      (s.target seed scheme chain).Visited A i visits := by
    induction visits generalizing i with
    | nil => exact .intro
    | cons v rest ih => exact ⟨hv.1, hv.2.1, ih (i + 1) hv.2.2⟩
  exact ⟨h.chains, fun x hx => hvisited x.1 0 x.2 (h.visited x hx), h.covered⟩

/-- The wider settings are as good as the settings themselves. -/
theorem Scanner.ready_widened (hready : s.checkReady seed [scheme] = .ok ())
    (hrange : r.start < r.stop) : (s.widened r.stop).checkReady seed [scheme] = .ok () := by
  obtain ⟨hvalid, hnames, hseed⟩ := checkReady_eq_ok_iff.mp hready
  have hstop : r.stop ≠ 0 := by
    intro hzero
    rw [hzero] at hrange
    exact UInt32.not_lt.mpr r.start.zero_le hrange
  refine checkReady_eq_ok_iff.mpr ⟨?_, hnames, hseed⟩
  show ¬(r.stop = 0 ∨ r.stop = 0 ∨ s.options.maxConcurrent = 0 ∨
    ¬(s.options.pathSchemes.map (·.name)).Nodup)
  unfold ScanOptions.Invalid at hvalid
  tauto

/-- No bulk query serves the range: there is no backend to use, or one of its calls failed, and that
was in the world `w₁`. -/
def Scanner.FallsBack (env : Environment σ) (s : Scanner) (seed : Seed) (scheme : PathScheme)
    (r : BeyondGapRecovery) (w w₁ : World (σ × List Answered)) : Prop :=
  if s.usesBulk then
    ∃ e, (s.scanRangeInBulk seed scheme r.indices).run env.logged.handler w = (.ok (.error e), w₁)
  else w₁ = w

namespace Scanner.FallsBack

/-- The wider scan starts where the bulk query was given up. -/
theorem run_eq (h : s.FallsBack env seed scheme r w w₁) (hscheme : scheme? r.scheme = some scheme)
    (hrange : r.start < r.stop) (hready : s.checkReady seed [scheme] = .ok ()) :
    (s.recoverBeyondGap seed r).run env.logged.handler w =
      (s.scanWidened seed scheme r.stop).run env.logged.handler w₁ := by
  rw [Scanner.recoverBeyondGap, if_neg (UInt32.not_le.mpr hrange), hscheme]
  simp only [hready]
  unfold FallsBack at h
  cases hbulk : s.usesBulk <;> simp only [hbulk, Bool.false_eq_true, ↓reduceIte] at h ⊢
  · rw [h]
  · obtain ⟨e, hfailed⟩ := h
    rw [Program.run_bind, hfailed]

theorem going (h : s.FallsBack env seed scheme r w w₁) (hanswers : env.Answers A)
    (hu : env.Uncancelled) (hw : w.cancelled = false) : w₁.cancelled = false := by
  unfold FallsBack at h
  split at h
  · obtain ⟨e, hfailed⟩ := h
    obtain ⟨_, _, hr, hgoing⟩ :=
      Program.run_total (hanswers.logged.keeps hu.logged) (hanswers.logged.total _) hw
    rw [hfailed] at hr
    exact (Prod.mk.inj hr).2 ▸ hgoing
  · rwa [h]

end Scanner.FallsBack

/-- **Without a bulk backend, no index of a range is left out.** On every chain of the scheme, the
address of each index from 0 on and below the end of the range is looked up once, in ascending
order, and perhaps those of later indices. There are no other queries, so none in bulk. However the
client answers, the result has every address for which it listed outputs. -/
theorem recoverBeyondGap_walks (h : env.Answers Keyed) (hu : env.Uncancelled)
    (hscheme : scheme? r.scheme = some scheme) (hrange : r.start < r.stop)
    (hready : s.checkReady seed [scheme] = .ok ()) (hplain : s.options.passphrases = [])
    (hw : w.cancelled = false) (hfalls : s.FallsBack env seed scheme r w w₁) :
    ∃ result w' courses,
      (s.recoverBeyondGap seed r).run env.logged.handler w = (.ok (.ok result), w') ∧
      Courses Keyed s seed scheme r.stop.toNat (scheme.chains s.options.scanChangeAddresses)
        courses ∧
      w'.consulted = w₁.consulted ++ s.walks seed scheme courses ∧
      result.addresses = s.finds seed scheme courses := by
  have hwide := Scanner.ready_widened hready hrange
  have hscan : s.scanWidened seed scheme r.stop =
      (s.widened r.stop).attempt [scheme] seed "" >>= fun a => .done (.ok a.result) := by
    rw [Scanner.scanWidened_eq, scanSchemes_plain hwide hplain, sortByPriority_singleton]
  have hattempt : Consults Keyed ((s.widened r.stop).attempt [scheme] seed "") _ :=
    consults_attempt (fun _ _ ha => ha) rfl seed ""
  obtain ⟨a, w', _, hr, -, hlog, courses, rfl, hcourses, -, -, haddresses⟩ :=
    hattempt.run h hu (hfalls.going h hu hw)
  refine ⟨a.result, w', courses, ?_, hcourses.of_widened, ?_, ?_⟩
  · rw [hfalls.run_eq hscheme hrange hready, hscan, Program.run_bind, hr]
    rfl
  · rw [hlog, Scanner.walks_widened]
  · rw [haddresses, Scanner.finds_widened]

/-- No bulk call succeeds, the first lookup fails, and only the second lists an output. -/
def Environment.unsteady : Environment Nat where
  reply
    | .listUtxos address, made => ⟨.ok (if made = 0 then .error .timeout
        else if made = 1 then .ok [⟨"t", 0, 5000, address, 1⟩] else .ok []), made + 1, false⟩
    | .checkActivity _, made => ⟨.ok (.error .timeout), made, false⟩
    | c, made => ⟨.ok (ledgerAnswer (fun _ => []) c), made, false⟩
  interrupt made := (false, made)
  taskError _ crash := crash.message

/-- A range of two indices that is given up after the activity check. The lookup of index 0 fails,
and there is an output at index 1. -/
theorem recoverBeyondGap_walks_unsteady :
    let s : Scanner := ⟨.default, true⟩
    let scheme := PathScheme.withDescription (.legacy "legacy" CoinType.dash 3)
      "Pre-BIP44 single chain derivation"
    ∃ w₁, s.FallsBack Environment.unsteady ⟨[7]⟩ scheme ⟨"legacy", 1, 3⟩ ⟨(0, []), false, 0⟩ w₁ ∧
      ∃ result w courses,
        (s.recoverBeyondGap ⟨[7]⟩ ⟨"legacy", 1, 3⟩).run Environment.unsteady.logged.handler
          ⟨(0, []), false, 0⟩ = (.ok (.ok result), w) ∧
        Courses Keyed s ⟨[7]⟩ scheme 3 [⟨0, false⟩] courses ∧
        w.consulted = w₁.consulted ++ s.walks ⟨[7]⟩ scheme courses ∧
        result.addresses.map (·.index) = [1] := by
  intro s scheme
  have hscheme : scheme? "legacy" = some scheme := by decide +kernel
  have hready : s.checkReady ⟨[7]⟩ [scheme] = .ok () := by decide
  have hkeyed : Environment.unsteady.Answers Keyed := by
    intro c made
    cases c <;> exact ⟨_, rfl, by first | exact ⟨_, rfl⟩ | exact .intro⟩
  have hu : Environment.unsteady.Uncancelled := ⟨fun c made => by cases c <;> rfl, fun _ => rfl⟩
  have hfailed : ((s.scanRangeInBulk ⟨[7]⟩ scheme (BeyondGapRecovery.mk "legacy" 1 3).indices).run
      Environment.unsteady.logged.handler ⟨(0, []), false, 0⟩).1 = .ok (.error .timeout) := by
    decide +kernel
  have hfalls : s.FallsBack Environment.unsteady ⟨[7]⟩ scheme ⟨"legacy", 1, 3⟩
      ⟨(0, []), false, 0⟩ _ := ⟨.timeout, Prod.ext hfailed rfl⟩
  obtain ⟨result, w, courses, hrun, hcourses, hlog, -⟩ :=
    recoverBeyondGap_walks hkeyed hu hscheme (by decide) hready rfl rfl hfalls
  have hfound : ((s.recoverBeyondGap ⟨[7]⟩ ⟨"legacy", 1, 3⟩).run
      Environment.unsteady.logged.handler ⟨(0, []), false, 0⟩).1.map
        (·.map fun result => result.addresses.map (·.index)) = .ok (.ok [1]) := by decide +kernel
  have hindices := eq_of_result_map hrun hfound
  exact ⟨_, hfalls, result, w, courses, hrun, hcourses, hlog, hindices⟩

end Recovery

end FundRecovery.Discovery

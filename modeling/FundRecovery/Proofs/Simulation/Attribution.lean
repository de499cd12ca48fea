import FundRecovery.Proofs.Discovery.Searches
import FundRecovery.Proofs.Simulation.Addresses

/-!
# Whose addresses a search finds

A search of the simulation finds addresses of the seed that the result's passphrase selects. An
address shows only the first bytes of its seed, so it may be an address of another passphrase too.

* `Genuine`: the answers of a deriver whose addresses no rule replaces. `evolves_genuine`: the
  answers of a run are genuine.
* `Owned`: a discovery is at the address of its position. `search_owned`: all that a search finds
  is, under the seed that the result's passphrase selects.
* `shownBytes`: the bytes that the addresses of a passphrase show.
* `passphrases_apart_iff`: passphrases share no address unless they show the same bytes, and then
  they share all.
-/

namespace FundRecovery.Simulation

open Discovery

/-! ## Answers of the deriver -/

/-- The deriver gives no other address or seed. -/
def Genuine : (c : Call) → c.Answer → Prop
  | .deriveAddress seed coinType account change index, r => ∀ d, r = .ok d →
    d = ⟨bip44Address seed coinType account change index, bip44Path coinType account change index⟩
  | .deriveLegacyAddress seed index, r => ∀ d, r = .ok d →
    d = ⟨legacyAddress seed index, legacyPath index⟩
  | .seedForPassphrase seed passphrase, r => ∀ used, r = .ok used →
    used = passphraseSeed seed passphrase
  | _, _ => True

/-- Rules that replace no address leave what is derived as it is, or turn it down. -/
theorem DeriverRules.eq_of_apply {rules : DeriverRules} (haliases : rules.aliases = [])
    {r : Except DerivationError DerivedAddress} {d : DerivedAddress}
    (h : rules.apply r = .ok (.ok d)) : r = .ok d := by
  cases r with
  | error e => exact Except.ok.inj h
  | ok derived =>
    simp only [apply, haliases, List.lookup_nil, Option.getD_none] at h
    split at h
    · cases h
    · split at h
      · cases h
      · exact Except.ok.inj h

theorem Deriver.eq_of_seedFor {d : Deriver} {seed used : Seed} {passphrase : String}
    (h : d.seedFor seed passphrase = .ok used) : used = passphraseSeed seed passphrase := by
  unfold Deriver.seedFor at h
  split at h
  · exact (Except.ok.inj h).symm
  · cases h

/-- Rules turn passphrases down, or leave them to the deriver. -/
theorem State.eq_of_seedForPassphrase {s : State} {seed used : Seed} {passphrase : String}
    (h : s.seedForPassphrase seed passphrase = .ok used) :
    used = passphraseSeed seed passphrase := by
  unfold State.seedForPassphrase at h
  split at h
  · cases h
  · split at h
    · cases h
    · exact Deriver.eq_of_seedFor h

theorem State.answer_genuine {s : State} (haliases : s.deriverRules.aliases = []) {c : Call}
    {a : c.Answer} (h : (s.answer c).1 = .ok a) : Genuine c a := by
  cases c with
  | deriveAddress seed coinType account change index =>
    rintro d rfl
    exact Deriver.eq_of_derived (DeriverRules.eq_of_apply haliases h)
  | deriveLegacyAddress seed index =>
    rintro d rfl
    exact Deriver.eq_of_derived (DeriverRules.eq_of_apply haliases h)
  | seedForPassphrase seed passphrase =>
    rintro used rfl
    exact State.eq_of_seedForPassphrase (Except.ok.inj h)
  | _ => exact .intro

/-! ## Rules -/

namespace State

variable (s : State)

theorem deriverRules_noteLookup (address : String) :
    (s.noteLookup address).deriverRules = s.deriverRules := by
  unfold noteLookup
  dsimp only
  split
  · split <;> rfl
  · rfl

theorem deriverRules_listUtxos (address : String) :
    (s.listUtxos address).2.deriverRules = s.deriverRules := by
  unfold listUtxos
  dsimp only
  split <;> exact s.deriverRules_noteLookup address

theorem deriverRules_scriptBulk {α : Type} (rules : BulkCallRules) (number : Nat) (answer : α) :
    (s.scriptBulk rules number answer).2.deriverRules = s.deriverRules := by
  unfold scriptBulk
  dsimp only
  split <;> rfl

theorem deriverRules_checkActivity (addresses : List String) :
    (s.checkActivity addresses).2.deriverRules = s.deriverRules := by
  unfold checkActivity
  dsimp only
  split
  · rfl
  · rw [deriverRules_scriptBulk]

theorem deriverRules_fetchUtxos (addresses : List String) :
    (s.fetchUtxos addresses).2.deriverRules = s.deriverRules := by
  unfold fetchUtxos
  dsimp only
  split
  · rfl
  · rw [deriverRules_scriptBulk]

theorem deriverRules_record (event : ScanProgress) :
    (s.record event).deriverRules = s.deriverRules := by
  unfold record
  dsimp only
  split <;> rfl

/-- No answer changes the rules of the deriver. -/
theorem deriverRules_answer (c : Call) : (s.answer c).2.deriverRules = s.deriverRules := by
  cases c with
  | listUtxos address => exact s.deriverRules_listUtxos address
  | checkActivity addresses => exact s.deriverRules_checkActivity addresses
  | fetchUtxos addresses => exact s.deriverRules_fetchUtxos addresses
  | report event => exact s.deriverRules_record event
  | _ => rfl

end State

/-- The deriver gives no other address or seed where no rule replaces addresses. -/
def GenuineIn (w : World State) (c : Call) (a : c.Answer) : Prop :=
  w.state.deriverRules.aliases = [] → Genuine c a

/-- In a run the rules stay, and what the deriver answers is genuine. -/
theorem evolves_genuine :
    Evolves environment (fun _ => True) (fun w w' => w'.state.deriverRules = w.state.deriverRules)
      GenuineIn where
  refl _ := rfl
  trans h h' := h'.trans h
  called {c w} _ := w.state.deriverRules_answer c
  looked := rfl
  staffed _ := rfl
  told {c w a w'} h haliases := by
    have hrules := w.state.deriverRules_answer c
    obtain ⟨hanswer, rfl⟩ := Prod.mk.inj h
    exact State.answer_genuine (hrules ▸ haliases) hanswer
  kept {w w' c a} h hgenuine haliases := hgenuine (h ▸ haliases)

/-! ## Discoveries -/

/-- A discovery is at the address and the path that its position has under one of the schemes. -/
def Owned (schemes : List PathScheme) (used : Seed) (d : DiscoveredAddress) : Prop :=
  ∃ scheme ∈ schemes, scheme.name = d.schemeName ∧
    d.address = addressFor used scheme ⟨d.account, d.isChange⟩ d.index ∧
    d.path = pathFor scheme ⟨d.account, d.isChange⟩ d.index

theorem derived_genuine {w : World State} (haliases : w.state.deriverRules.aliases = [])
    {t : Target} {index : UInt32} {derived : DerivedAddress}
    (h : t.Derives (GenuineIn w) index (.ok derived)) :
    derived = ⟨addressFor t.seed t.scheme t.chain index, pathFor t.scheme t.chain index⟩ := by
  unfold Target.Derives at h
  unfold addressFor pathFor
  split at h
  · rw [if_pos ‹_›, if_pos ‹_›]
    exact h haliases derived rfl
  · rw [if_neg ‹_›, if_neg ‹_›]
    exact h haliases derived rfl

theorem passphraseSeed_empty (seed : Seed) : passphraseSeed seed "" = seed := by
  simp [passphraseSeed]

/-- The empty passphrase is never asked for; the seed stands for it, as it would if it were. -/
theorem selects_genuine {w : World State} (haliases : w.state.deriverRules.aliases = [])
    {seed used : Seed} {passphrase : String} (h : Selects (GenuineIn w) seed passphrase used) :
    used = passphraseSeed seed passphrase := by
  unfold Selects at h
  split at h
  case isTrue hempty => rw [h, hempty, passphraseSeed_empty]
  case isFalse => exact h haliases used rfl

/-- A search finds addresses of the seed that the result's passphrase selects. -/
theorem search_owned {s : Scanner} {seed : Seed} {search : Discovery.Search}
    {w w' : World State} {result : ScanResult} (haliases : w.state.deriverRules.aliases = [])
    (hrun : search.run environment s seed w = (.ok (.ok result), w')) :
    result.All (Owned (search.targets s) (passphraseSeed seed result.passphraseUsed)) := by
  have hE : Upholds (fun _ => True)
      (fun w w' : World State => w'.state.deriverRules = w.state.deriverRules) GenuineIn
      s.options.scanChangeAddresses (search.targets s) fun used w _ found => ∀ d ∈ found,
        w.state.deriverRules.aliases = [] → Owned (search.targets s) used d := by
    refine upholds_each (fun hrules h haliases => h (hrules ▸ haliases)) (fun _ _ => .intro)
      (fun _ => .intro) (fun _ _ _ _ _ => .intro) ?_
    intro w t hscheme index derived utxos hd _ _ haliases
    rw [derived_genuine haliases hd]
    exact ⟨t.scheme, hscheme, rfl, rfl, rfl⟩
  obtain ⟨hrules, hknown⟩ := Discovery.Search.leads evolves_genuine hE seed w _ w' .intro hrun
  obtain ⟨a, used, rfl, hused, -, hfound⟩ := hknown _ rfl result rfl
  have haliases' : w'.state.deriverRules.aliases = [] := hrules ▸ haliases
  intro e he d hd
  have hseed : used = passphraseSeed seed a.result.passphraseUsed :=
    selects_genuine haliases' hused
  exact hseed ▸ hfound e he d hd haliases'

/-- The bytes that the addresses of a passphrase show: the first four of the passphrase and then the
seed. -/
def shownBytes (seed : Seed) (passphrase : String) : List UInt8 :=
  (passphrase.toUTF8.toList ++ seed.bytes).take 4

/-- **Passphrases share no address unless they show the same bytes,** and then they share all. So a
search attributes funds to the passphrase they belong to, up to the passphrases that show the same
bytes as this one. -/
theorem passphrases_apart_iff (seed : Seed) (p q : String) :
    (∀ (d : Deriver) (used used' : Seed) (a b : Place) (x y : DerivedAddress),
      d.seedFor seed p = .ok used → d.seedFor seed q = .ok used' →
      d.derive used a = .ok x → d.derive used' b = .ok y →
        (x.address = y.address ↔ shownBytes seed p = shownBytes seed q ∧ a = b)) ∧
    ∀ (s : Scanner) (search : Discovery.Search) (w w' : World State) (result : ScanResult),
      w.state.deriverRules.aliases = [] →
      search.run environment s seed w = (.ok (.ok result), w') → result.passphraseUsed = p →
      result.All fun d => Owned (search.targets s) (passphraseSeed seed p) d ∧
        ((∃ b : Place, d.address = b.address (passphraseSeed seed q)) ↔
          shownBytes seed p = shownBytes seed q) := by
  have hshown {a b : Place} : a.address (passphraseSeed seed p) =
      b.address (passphraseSeed seed q) ↔ shownBytes seed p = shownBytes seed q ∧ a = b :=
    Place.address_eq_iff
  refine ⟨fun d used used' a b x y hp hq hx hy => ?_, ?_⟩
  · rw [Deriver.address_of_derive hx, Deriver.address_of_derive hy, Deriver.eq_of_seedFor hp,
      Deriver.eq_of_seedFor hq]
    exact hshown
  · intro s search w w' result haliases hrun hp e he d hd
    have hfound := search_owned haliases hrun e he d hd
    rw [hp] at hfound
    refine ⟨hfound, ?_⟩
    obtain ⟨scheme, -, -, haddress, -⟩ := hfound
    rw [Place.addressFor_eq] at haddress
    constructor
    · rintro ⟨b, hb⟩
      exact (hshown.mp (haddress.symm.trans hb)).1
    · intro hsame
      exact ⟨_, haddress.trans (hshown.mpr ⟨hsame, rfl⟩)⟩

/-- A search with these passphrases, on a ledger that holds 5000 satoshis at the first address of
the passphrase `owner`. -/
def searchOwned (owner : String) (passphrases : List String) :
    Except Crash (Except RecoveryError ScanResult) × World State :=
  let scheme := PathScheme.bip44 "wallet" 5 [0] 1
  let funded := addressFor (passphraseSeed ⟨[7]⟩ owner) scheme ⟨0, false⟩ 0
  (Discovery.Search.schemes [scheme]).run environment
    ⟨{ ScanOptions.default with
      extendedGapLimit := 1, scanChangeAddresses := false, passphrases }, false⟩ ⟨[7]⟩
    ⟨{ State.initial with ledger := Ledger.empty.addUtxo funded 5000 }, false, 0⟩

/-- What is found at index 0 of the receiving chain, at an address with this tag. -/
def ownedResult (tag passphrase : String) : ScanResult where
  foundAddresses := NameMap.insert ∅ "wallet"
    [⟨tag ++ "-5/0/0/0", "m/44'/5'/0'/0/0", "wallet", 5000, 1, false, 0, 0, 5⟩]
  totalBalance := 5000
  totalUtxos := 1
  schemesScanned := ["wallet"]
  addressesScanned := 2
  duration := .zero
  passphraseUsed := passphrase
  errors := []
  cancelled := false

/-- Two passphrases that differ in their first byte: no address is derived for both, and the funds
of the second are found under it, at an address that the first does not have. -/
theorem passphrases_apart_iff_first_byte :
    (∃ used used' x y, (Deriver.new true).seedFor ⟨[7]⟩ "beta" = .ok used ∧
      (Deriver.new true).seedFor ⟨[7]⟩ "alpha" = .ok used' ∧
      (Deriver.new true).derive used (.legacy 3) = .ok x ∧
      (Deriver.new true).derive used' (.legacy 3) = .ok y ∧ x.address ≠ y.address) ∧
    (searchOwned "beta" ["alpha", "beta"]).1 = .ok (.ok (ownedResult "62657461" "beta")) ∧
      (ownedResult "62657461" "beta").All fun d =>
        ∀ b : Place, d.address ≠ b.address (passphraseSeed ⟨[7]⟩ "alpha") := by
  have hrun : (searchOwned "beta" ["alpha", "beta"]).1 =
      .ok (.ok (ownedResult "62657461" "beta")) := by decide +kernel
  have hshown : shownBytes ⟨[7]⟩ "beta" ≠ shownBytes ⟨[7]⟩ "alpha" := by decide +kernel
  obtain ⟨hderived, hattributed⟩ := passphrases_apart_iff ⟨[7]⟩ "beta" "alpha"
  refine ⟨⟨_, _, _, _, rfl, rfl, rfl, rfl, fun h => hshown ?_⟩, hrun,
    fun e he d hd b hb => hshown ?_⟩
  · exact ((hderived (.new true) _ _ (.legacy 3) (.legacy 3) _ _ rfl rfl rfl rfl).mp h).1
  · exact (hattributed _ _ _ _ _ rfl (Prod.ext hrun rfl) rfl e he d hd).2.mp ⟨b, hb⟩

/-- Two passphrases that differ behind their first four bytes have the same addresses, and funds of
the second are attributed to the first. -/
theorem passphrases_share_addresses :
    (∀ place : Place, place.address (passphraseSeed ⟨[7]⟩ "alpha1") =
        place.address (passphraseSeed ⟨[7]⟩ "alpha2")) ∧
      (searchOwned "alpha2" ["alpha2"]).1 = .ok (.ok (ownedResult "616c7068" "alpha2")) ∧
      (searchOwned "alpha2" ["alpha1", "alpha2"]).1 =
        .ok (.ok (ownedResult "616c7068" "alpha1")) := by
  have hshown : shownBytes ⟨[7]⟩ "alpha1" = shownBytes ⟨[7]⟩ "alpha2" := by decide +kernel
  refine ⟨fun place => Place.address_eq_iff.mpr ⟨hshown, rfl⟩, ?_, ?_⟩
  · decide +kernel
  · decide +kernel

end FundRecovery.Simulation

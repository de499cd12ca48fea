import FundRecovery.Discovery.Chain
import FundRecovery.Simulation.State

/-!
# Readable addresses

An address of the simulated deriver is the tag of a seed, a dash, and the parts of a place, with
slashes between them. No part has a slash and no tag has a dash, so an address tells its tag and its
place apart.

* `Place`: a place in the wallet of a seed. `Place.address`: its address.
* `Place.address_eq_iff`: addresses are equal exactly if their tags and places are.
* `Deriver.derive`: what a deriver makes of a place. `run_derive`: what a scan gets of it.
* `addresses_identify_positions`: no two positions of a seed share an address.
-/

namespace FundRecovery.Simulation

open Discovery

/-! ## Texts -/

/-- A number as it stands in an address. -/
def numeral (n : UInt32) : List Char := Nat.toDigits 10 n.toNat

theorem numeral_injective {m n : UInt32} (h : numeral m = numeral n) : m = n := by
  refine UInt32.toNat_inj.mp ?_
  calc m.toNat = Nat.ofDigitChars 10 (numeral m) 0 := Nat.ofDigitChars_ten_toDigits.symm
    _ = Nat.ofDigitChars 10 (numeral n) 0 := by rw [h]
    _ = n.toNat := Nat.ofDigitChars_ten_toDigits

theorem slash_notMem_numeral (n : UInt32) : '/' ∉ numeral n := fun h =>
  absurd (Nat.isDigit_of_mem_toDigits (by decide) (by decide) h) (by decide)

theorem dash_notMem_seedTag (seed : Seed) : '-' ∉ (seedTag seed).toList := fun h =>
  absurd (Hex.isAlphanum_of_mem_encode h) (by decide)

/-- Two seeds have one tag exactly if their first four bytes are the same. -/
theorem seedTag_eq_iff {seed seed' : Seed} :
    seedTag seed = seedTag seed' ↔ seed.bytes.take 4 = seed'.bytes.take 4 :=
  ⟨Hex.encode_injective, fun h => by rw [seedTag, h, seedTag]⟩

/-- Up to the first dash. -/
theorem takeWhile_tag (seed : Seed) (rest : List Char) :
    ((seedTag seed).toList ++ '-' :: rest).takeWhile (· != '-') = (seedTag seed).toList := by
  rw [List.takeWhile_append_of_pos]
  · simp
  · intro c hc
    exact bne_iff_ne.mpr fun h => dash_notMem_seedTag seed (h ▸ hc)

/-! ## Places -/

/-- A place in the wallet of a seed. -/
inductive Place where
  | bip44 (coinType account change index : UInt32)
  | legacy (index : UInt32)
  deriving DecidableEq, Repr

namespace Place

/-- The place of a scheme at a position. -/
def ofPosition (scheme : PathScheme) (chain : Chain) (index : UInt32) : Place :=
  if scheme.isLegacy then legacy index
  else bip44 scheme.coinType chain.account chain.level index

def address (seed : Seed) : Place → String
  | bip44 coinType account change index => bip44Address seed coinType account change index
  | legacy index => legacyAddress seed index

/-- What an address spells out behind its tag. -/
def parts : Place → List (List Char)
  | bip44 coinType account change index =>
    [numeral coinType, numeral account, numeral change, numeral index]
  | legacy index => ["legacy".toList, numeral index]

theorem addressFor_eq (seed : Seed) (scheme : PathScheme) (chain : Chain) (index : UInt32) :
    addressFor seed scheme chain index = (ofPosition scheme chain index).address seed := by
  unfold addressFor ofPosition
  split <;> rfl

theorem parts_ne_nil (p : Place) : p.parts ≠ [] := by
  cases p <;> exact List.cons_ne_nil _ _

theorem slash_notMem_parts (p : Place) : ∀ part ∈ p.parts, '/' ∉ part := by
  cases p with
  | bip44 coinType account change index => simp [parts, slash_notMem_numeral]
  | legacy index => simp [parts, slash_notMem_numeral]

theorem parts_injective {p q : Place} (h : p.parts = q.parts) : p = q := by
  cases p <;> cases q <;> simp only [parts, List.cons.injEq, and_true] at h
  case bip44.bip44 =>
    obtain ⟨hcoin, haccount, hchange, hindex⟩ := h
    rw [numeral_injective hcoin, numeral_injective haccount, numeral_injective hchange,
      numeral_injective hindex]
  case legacy.legacy => rw [numeral_injective h.2]
  -- An address of one kind has four parts, one of the other has two.
  all_goals simp at h

theorem toList_address (seed : Seed) (p : Place) :
    (p.address seed).toList = (seedTag seed).toList ++ '-' :: ['/'].intercalate p.parts := by
  cases p with
  | bip44 coinType account change index =>
    simp [address, bip44Address, parts, numeral, List.intercalate]
  | legacy index =>
    simp [address, legacyAddress, parts, numeral, List.intercalate]

/-- **An address tells the tag of its seed and its place.** -/
theorem address_eq_iff {seed seed' : Seed} {p q : Place} :
    p.address seed = q.address seed' ↔
      seed.bytes.take 4 = seed'.bytes.take 4 ∧ p = q := by
  constructor
  · intro h
    have htext : (seedTag seed).toList ++ '-' :: ['/'].intercalate p.parts =
        (seedTag seed').toList ++ '-' :: ['/'].intercalate q.parts := by
      rw [← toList_address, ← toList_address, h]
    have htag : (seedTag seed).toList = (seedTag seed').toList := by
      rw [← takeWhile_tag seed, htext, takeWhile_tag]
    rw [htag] at htext
    have hparts : ['/'].intercalate p.parts = ['/'].intercalate q.parts :=
      (List.cons.inj (List.append_cancel_left htext)).2
    refine ⟨seedTag_eq_iff.mp (String.toList_inj.mp htag), parts_injective ?_⟩
    rw [← List.splitOn_intercalate '/' p.slash_notMem_parts p.parts_ne_nil, hparts,
      List.splitOn_intercalate '/' q.slash_notMem_parts q.parts_ne_nil]
  · rintro ⟨htag, rfl⟩
    refine String.toList_inj.mp ?_
    rw [toList_address, toList_address, seedTag_eq_iff.mpr htag]

end Place

/-! ## Derivations -/

/-- What the deriver makes of a place in the wallet of a seed. -/
def Deriver.derive (d : Deriver) (seed : Seed) : Place → Except DerivationError DerivedAddress
  | .bip44 coinType account change index => d.bip44 seed coinType account change index
  | .legacy index => d.legacy seed index

theorem Deriver.eq_of_derived {d : Deriver} {index : UInt32} {address path : String}
    {x : DerivedAddress} (h : d.derived index address path = .ok x) : x = ⟨address, path⟩ := by
  unfold Deriver.derived at h
  split at h
  · cases h
  · exact (Except.ok.inj h).symm

theorem Deriver.address_of_derive {d : Deriver} {seed : Seed} {p : Place} {x : DerivedAddress}
    (h : d.derive seed p = .ok x) : x.address = p.address seed := by
  cases p <;> rw [Deriver.eq_of_derived h] <;> rfl

theorem run_call (c : Call) (w : World State) :
    ((call c).run environment.handler w).1 = (w.state.answer c).1 := by
  have hanswer : (environment.handler (.call c) w).1 = (w.state.answer c).1 := rfl
  rw [call, Program.request, Program.run_ask, ← hanswer]
  rcases environment.handler (.call c) w with ⟨e | a, w'⟩ <;> rfl

/-- Without rules, a scan that derives a position gets what the deriver makes of it. -/
theorem run_derive (t : Target) (index : UInt32) {w : World State}
    (hrules : w.state.deriverRules = .none) :
    ((t.derive index).run environment.handler w).1 =
      .ok (w.state.deriver.derived index (addressFor t.seed t.scheme t.chain index)
        (pathFor t.scheme t.chain index)) := by
  have hnone (r : Except DerivationError DerivedAddress) :
      w.state.deriverRules.apply r = .ok r := by
    rw [hrules]
    cases r <;> rfl
  unfold Target.derive addressFor pathFor
  split
  · exact (run_call ..).trans (hnone _)
  · exact (run_call ..).trans (hnone _)

/-- Every address that a scan gets names the position it was derived for. -/
theorem address_of_run_derive {t : Target} {index : UInt32} {w : World State} {d : DerivedAddress}
    (hrules : w.state.deriverRules = .none)
    (hd : ((t.derive index).run environment.handler w).1 = .ok (.ok d)) :
    d.address = addressFor t.seed t.scheme t.chain index := by
  rw [run_derive t index hrules] at hd
  rw [Deriver.eq_of_derived (Except.ok.inj hd)]

theorem addressFor_injective (seed : Seed) (scheme : PathScheme) (chain : Chain) {i j : UInt32}
    (h : addressFor seed scheme chain i = addressFor seed scheme chain j) : i = j := by
  rw [Place.addressFor_eq, Place.addressFor_eq, Place.address_eq_iff] at h
  have hplaces := h.2
  unfold Place.ofPosition at hplaces
  split at hplaces
  · exact Place.legacy.inj hplaces
  · exact (Place.bip44.inj hplaces).2.2.2

/-- **An address stands for one position.** Where derivation is not set to fail, a scan gets the
address and the path that `addressFor` and `pathFor` name. Under one seed, addresses of one kind are
equal only if all their numbers are, and addresses of different kinds never are, so that no chain
gives an address twice. -/
theorem addresses_identify_positions :
    (∀ (t : Target) (index : UInt32) (w : World State), w.state.deriverRules = .none →
      w.state.deriver.failAt ≠ some index →
      ((t.derive index).run environment.handler w).1 =
        .ok (.ok ⟨addressFor t.seed t.scheme t.chain index, pathFor t.scheme t.chain index⟩)) ∧
    (∀ seed coinType account change index coinType' account' change' index',
      bip44Address seed coinType account change index =
          bip44Address seed coinType' account' change' index' ↔
        coinType = coinType' ∧ account = account' ∧ change = change' ∧ index = index') ∧
    (∀ seed index index', legacyAddress seed index = legacyAddress seed index' ↔ index = index') ∧
    (∀ seed coinType account change index index',
      bip44Address seed coinType account change index ≠ legacyAddress seed index') ∧
    ∀ (t : Target) (i j : UInt32) (w w' : World State) (d d' : DerivedAddress),
      w.state.deriverRules = .none → w'.state.deriverRules = .none →
      ((t.derive i).run environment.handler w).1 = .ok (.ok d) →
      ((t.derive j).run environment.handler w').1 = .ok (.ok d') →
      d.address = d'.address → i = j := by
  have haddress (seed : Seed) (p q : Place) : p.address seed = q.address seed ↔ p = q :=
    Place.address_eq_iff.trans (and_iff_right rfl)
  refine ⟨fun t index w hrules hfail => ?_, fun seed c a l i c' a' l' i' => ?_,
    fun seed i j => ?_, fun seed c a l i j h => ?_, fun t i j w w' d d' hw hw' hd hd' h => ?_⟩
  · rw [run_derive t index hrules, Deriver.derived, if_neg hfail]
  · exact (haddress seed (.bip44 c a l i) (.bip44 c' a' l' i')).trans (Place.bip44.injEq ..).to_iff
  · exact (haddress seed (.legacy i) (.legacy j)).trans (Place.legacy.injEq ..).to_iff
  · cases (haddress seed (.bip44 c a l i) (.legacy j)).mp h
  · rw [address_of_run_derive hw hd, address_of_run_derive hw' hd'] at h
    exact addressFor_injective _ _ _ h

/-- Indices 3 and 40 of a change chain, under a seed of two bytes and with derivation set to fail at
index 4. -/
theorem addresses_identify_positions_change_chain :
    let t : Target := ⟨.default, ⟨[0xab, 0xcd]⟩, .bip44 "wallet" 5 [2] 1, ⟨2, true⟩⟩
    let w : World State :=
      ⟨{ State.initial with deriver := { Deriver.new true with failAt := some 4 } }, false, 0⟩
    ∃ d d' : DerivedAddress, d = ⟨"abcd-5/2/1/3", "m/44'/5'/2'/1/3"⟩ ∧
      ((t.derive 3).run environment.handler w).1 = .ok (.ok d) ∧
      ((t.derive 40).run environment.handler w).1 = .ok (.ok d') ∧ d.address ≠ d'.address := by
  intro t w
  obtain ⟨hderived, -, -, -, hdistinct⟩ := addresses_identify_positions
  have hthree := hderived t 3 w rfl (by decide)
  have hforty := hderived t 40 w rfl (by decide)
  refine ⟨_, _, ?_, hthree, hforty, fun h => ?_⟩
  · decide +kernel
  · exact absurd (hdistinct t 3 40 w w _ _ rfl rfl hthree hforty h) (by decide)

end FundRecovery.Simulation

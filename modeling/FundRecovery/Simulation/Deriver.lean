import FundRecovery.Collaborator
import FundRecovery.Scheme.Basic

/-!
# A deriver with readable addresses

Addresses spell out their position behind a tag, the first bytes of the seed.

* `bip44Address`, `legacyAddress`: the addresses of both kinds of chain.
* `passphraseSeed`: the seed that a passphrase selects.
* `Deriver`: which derivations fail, and how many were made.
-/

namespace FundRecovery.Simulation

/-- The first four bytes of a seed, or all of a shorter one. -/
def seedTag (seed : Seed) : String := Hex.encode (seed.bytes.take 4)

def bip44Address (seed : Seed) (coinType account change index : UInt32) : String :=
  seedTag seed ++ "-" ++ toString coinType.toNat ++ "/" ++ toString account.toNat ++ "/" ++
    toString change.toNat ++ "/" ++ toString index.toNat

def legacyAddress (seed : Seed) (index : UInt32) : String :=
  seedTag seed ++ "-legacy/" ++ toString index.toNat

def bip44Path (coinType account change index : UInt32) : String :=
  "m/44'/" ++ toString coinType.toNat ++ "'/" ++ toString account.toNat ++ "'/" ++
    toString change.toNat ++ "/" ++ toString index.toNat

def legacyPath (index : UInt32) : String := "legacy/" ++ toString index.toNat

/-- The address of a scheme at a position. -/
def addressFor (seed : Seed) (scheme : PathScheme) (chain : Chain) (index : UInt32) : String :=
  if scheme.isLegacy then legacyAddress seed index
  else bip44Address seed scheme.coinType chain.account chain.level index

/-- The path of a scheme at a position. -/
def pathFor (scheme : PathScheme) (chain : Chain) (index : UInt32) : String :=
  if scheme.isLegacy then legacyPath index
  else bip44Path scheme.coinType chain.account chain.level index

/-- The bytes of the passphrase, then those of the seed. -/
def passphraseSeed (seed : Seed) (passphrase : String) : Seed :=
  ⟨passphrase.toUTF8.toList ++ seed.bytes⟩

structure Deriver where
  passphraseSupport : Bool
  /-- The index at which every address derivation fails. -/
  failAt : Option UInt32
  failPrivateKeys : Bool
  bip44Calls : Nat
  legacyCalls : Nat
  /-- The paths that keys were asked for, in order. -/
  keyRequests : Array String
  deriving Repr

namespace Deriver

def new (passphraseSupport : Bool) : Deriver := ⟨passphraseSupport, none, false, 0, 0, #[]⟩

def countBip44 (d : Deriver) : Deriver := { d with bip44Calls := d.bip44Calls + 1 }

def countLegacy (d : Deriver) : Deriver := { d with legacyCalls := d.legacyCalls + 1 }

/-- An address, unless derivation fails at its index. -/
def derived (d : Deriver) (index : UInt32) (address path : String) :
    Except DerivationError DerivedAddress :=
  if d.failAt = some index then
    .error (.failed ("mock failure at index " ++ toString index.toNat))
  else .ok ⟨address, path⟩

def bip44 (d : Deriver) (seed : Seed) (coinType account change index : UInt32) :
    Except DerivationError DerivedAddress :=
  d.derived index (bip44Address seed coinType account change index)
    (bip44Path coinType account change index)

def legacy (d : Deriver) (seed : Seed) (index : UInt32) : Except DerivationError DerivedAddress :=
  d.derived index (legacyAddress seed index) (legacyPath index)

def noteKey (d : Deriver) (path : String) : Deriver :=
  { d with keyRequests := d.keyRequests.push path }

/-- The key of a path is its text. -/
def privateKey (d : Deriver) (path : String) : Except DerivationError (List UInt8) :=
  if d.failPrivateKeys then .error (.invalidPath path) else .ok path.toUTF8.toList

def seedFor (d : Deriver) (seed : Seed) (passphrase : String) : Except DerivationError Seed :=
  if d.passphraseSupport then .ok (passphraseSeed seed passphrase)
  else .error .passphraseUnsupported

end Deriver

end FundRecovery.Simulation

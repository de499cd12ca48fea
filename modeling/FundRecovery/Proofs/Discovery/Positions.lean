import FundRecovery.Proofs.Discovery.Searches
import Mathlib.Data.List.Nodup

/-!
# The positions of discoveries

A scheme's chains are scanned from index 0 upwards, one after the other, so a chain that is listed
once gives each of its positions once. Nothing checks that a scheme lists an account once.

* `DiscoveredAddress.position`: the scheme, account, chain and index of a discovery.
* `Placed`: discoveries at distinct positions, none of which is still to come. `relayed_placed`:
  scans of chains that are listed once keep to it.
* `search_positions`: with accounts listed once, no result has a position twice, and its totals
  count each position once, in words.
* `search_repeats_positions`: an account listed twice gives its positions twice.
-/

namespace FundRecovery

namespace DiscoveredAddress

def chain (d : DiscoveredAddress) : Chain := ⟨d.account, d.isChange⟩

/-- Where a discovery was derived. -/
def position (d : DiscoveredAddress) : String × UInt32 × Bool × UInt32 :=
  (d.schemeName, d.account, d.isChange, d.index)

end DiscoveredAddress

namespace Discovery

variable {σ : Type} {A : (c : Call) → c.Answer → Prop}

/-- Discoveries of a scheme at distinct positions, none of which is still to come: of the chains
`left`, only the first has any, and those are below index `n`. -/
structure Placed (name : String) (left : List Chain) (n : Nat) (found : List DiscoveredAddress) :
    Prop where
  named : ∀ d ∈ found, d.schemeName = name
  passed : ∀ d ∈ found, d.chain ∈ left → left.head? = some d.chain ∧ d.index.toNat < n
  distinct : (found.map (·.position)).Nodup

namespace Placed

variable {name : String} {left rest : List Chain} {chain : Chain} {n : Nat}
  {found : List DiscoveredAddress}

theorem nil (name : String) (left : List Chain) : Placed name left 0 [] :=
  ⟨List.forall_mem_nil _, List.forall_mem_nil _, .nil⟩

/-- A discovery at an index still to come is at a position of its own. -/
theorem append (h : Placed name (chain :: rest) n found) {d : DiscoveredAddress}
    (hname : d.schemeName = name) (hchain : d.chain = chain) (hn : n ≤ d.index.toNat) :
    Placed name (chain :: rest) (d.index.toNat + 1) (found ++ [d]) where
  named := List.forall_mem_append.mpr ⟨h.named, List.forall_mem_singleton.mpr hname⟩
  passed := by
    refine List.forall_mem_append.mpr ⟨fun e he hleft => ?_, List.forall_mem_singleton.mpr ?_⟩
    · obtain ⟨hhead, hlt⟩ := h.passed e he hleft
      exact ⟨hhead, by omega⟩
    · exact fun _ => ⟨by rw [hchain]; rfl, Nat.lt_succ_self _⟩
  distinct := by
    rw [List.map_append, List.map_singleton]
    refine List.nodup_append.mpr ⟨h.distinct, List.nodup_singleton _, ?_⟩
    rintro p hp q hq rfl
    obtain ⟨e, he, hpos⟩ := List.mem_map.mp hp
    rw [List.mem_singleton.mp hq] at hpos
    simp only [DiscoveredAddress.position, Prod.mk.injEq] at hpos
    obtain ⟨-, haccount, hchange, hindex⟩ := hpos
    have hsame : e.chain = chain := by
      rw [← hchain, DiscoveredAddress.chain, haccount, hchange]
      rfl
    obtain ⟨-, hlt⟩ := h.passed e he (hsame ▸ List.mem_cons_self)
    rw [hindex] at hlt
    omega

theorem of_le (h : Placed name left n found) {m : Nat} (hnm : n ≤ m) :
    Placed name left m found where
  named := h.named
  passed d hd hleft := (h.passed d hd hleft).imp_right (Nat.lt_of_lt_of_le · hnm)
  distinct := h.distinct

/-- A chain that is listed once has nothing to come when it ends. -/
theorem next (h : Placed name (chain :: rest) n found) (hchain : chain ∉ rest) :
    Placed name rest 0 found where
  named := h.named
  passed d hd hleft := by
    obtain ⟨hhead, -⟩ := h.passed d hd (List.mem_cons_of_mem _ hleft)
    obtain rfl : chain = d.chain := Option.some.inj hhead
    exact absurd hleft hchain
  distinct := h.distinct

end Placed

/-- Whatever scans of chains do that are listed once, their discoveries stay at positions of their
own. -/
theorem relayed_placed {s : Scanner} {seed : Seed} {scheme : PathScheme} {chains : List Chain}
    (hn : chains.Nodup) : Relayed A s seed scheme chains fun left n scan _ =>
      Placed scan.schemeName left n scan.found where
  sustained {chain _} _ := {
    asked := fun _ h => h
    visited := fun _ h => h
    missed := fun _ _ h => h
    found := fun {_ scan _ index derived utxos} hn _ _ _ h => h.append
      (d := Target.discovery ⟨s.options, seed, scheme, chain⟩ scan.schemeName index derived utxos)
      rfl rfl hn
    passed := fun hnm h => h.of_le hnm
    stopped := fun h => h
    failed := fun _ _ h => h }
  next hsuffix h := h.next (List.nodup_cons.mp (hn.sublist hsuffix.sublist)).1

/-- Accounts that are listed once give chains that are listed once. -/
theorem nodup_chains {scheme : PathScheme}
    (h : scheme.isLegacy = false → scheme.accounts.Nodup) (scanChange : Bool) :
    (scheme.chains scanChange).Nodup := by
  unfold PathScheme.chains
  split
  · exact List.nodup_singleton _
  case isFalse hlegacy =>
    have haccount {account : UInt32} {c : Chain}
        (hc : c ∈ if scheme.scanChange && scanChange then [⟨account, false⟩, ⟨account, true⟩]
          else [⟨account, false⟩]) : c.account = account := by
      split at hc
      · rcases List.mem_pair.mp hc with rfl | rfl <;> rfl
      · rw [List.mem_singleton.mp hc]
    refine List.nodup_flatMap.mpr ⟨fun account _ => ?_, (h (by simpa using hlegacy)).imp ?_⟩
    · split <;> simp
    · intro a b hne c hc hc'
      exact hne ((haccount hc).symm.trans (haccount hc'))

/-- Schemes that list accounts once find each position once. -/
theorem upholds_positions {R : World σ → World σ → Prop}
    {B : World σ → (c : Call) → c.Answer → Prop} {scanChange : Bool} {schemes : List PathScheme}
    (hn : ∀ scheme ∈ schemes, scheme.isLegacy = false → scheme.accounts.Nodup) :
    Upholds (fun _ => True) R B scanChange schemes fun _ _ name found =>
      (∀ d ∈ found, d.schemeName = name) ∧ (found.map (·.position)).Nodup :=
  upholds_of_relayed (G := fun _ _ _ left n name found => Placed name left n found)
    (fun _ h => h) (fun _ _ => .intro) (fun _ => .intro) (fun _ _ _ _ _ => .intro)
    (fun scheme _ _ => .nil scheme.name _)
    (fun _ scheme hscheme _ _ => relayed_placed (nodup_chains (hn scheme hscheme) scanChange))
    fun h => ⟨h.named, h.distinct⟩

/-- Discoveries under distinct names, each name with distinct positions, have distinct positions. -/
theorem nodup_positions {found : NameMap (List DiscoveredAddress)}
    (h : ∀ e ∈ found.entries, (∀ d ∈ e.2, d.schemeName = e.1) ∧ (e.2.map (·.position)).Nodup) :
    (found.values.flatten.map (·.position)).Nodup := by
  rw [NameMap.values, List.map_flatten, List.map_map, ← List.flatMap_def]
  refine List.nodup_flatMap.mpr ⟨fun e he => (h e he).2, ?_⟩
  refine found.ascending.imp_of_mem ?_
  intro e e' he he' hlt p hp hp'
  obtain ⟨d, hd, rfl⟩ := List.mem_map.mp hp
  obtain ⟨d', hd', hpos⟩ := List.mem_map.mp hp'
  have hname : d'.schemeName = d.schemeName := congrArg Prod.fst hpos
  rw [(h e he).1 d hd, (h e' he').1 d' hd'] at hname
  exact absurd hlt (hname ▸ String.lt_irrefl _)

/-- **A result has no position twice** if the schemes list no account twice, whichever way the
wallet was searched, however the collaborators behave, and whenever the token is cancelled. Its
totals are words that count each position once. -/
theorem search_positions {env : Environment σ} {s : Scanner} {seed : Seed} {search : Search}
    (hn : ∀ scheme ∈ search.targets s, scheme.isLegacy = false → scheme.accounts.Nodup)
    {w w' : World σ} {result : ScanResult}
    (hr : search.run env s seed w = (.ok (.ok result), w')) :
    (result.discoveries.map (·.position)).Nodup ∧
      result.totalBalance = inWord (totalOf (·.balance) result.discoveries) ∧
      result.totalUtxos = inWord (totalOf (·.utxoCount) result.discoveries) := by
  have htells : env.Tells fun _ _ => True := fun _ _ _ _ => .intro
  obtain ⟨-, hknown⟩ := Search.leads htells.evolves (upholds_positions hn) seed w _ w' .intro hr
  obtain ⟨a, used, rfl, -, -, hentries⟩ := hknown _ rfl result rfl
  exact ⟨nodup_positions hentries, wordTotal_eq _ _, wordTotal_eq _ _⟩

/-- A search over `accounts` on a ledger where each account has 5000 satoshis at index 1 of its
receiving chain, and nothing else. -/
def searchAccounts (accounts : List UInt32) :
    Except Crash (Except RecoveryError ScanResult) × World Unit :=
  (Search.schemes [.bip44 "wallet" 5 accounts 1]).run
    (.ofAnswers (Environment.ledgerAnswer fun address =>
      if address = "a" then [⟨"t", 0, 5000, "a", 1⟩] else []))
    ⟨{ ScanOptions.default with extendedGapLimit := 2, scanChangeAddresses := false }, false⟩
    ⟨[7]⟩ ⟨(), false, 0⟩

/-- Two accounts, each listed once. -/
theorem search_positions_two_accounts :
    ∃ result : ScanResult, searchAccounts [0, 1] = (.ok (.ok result), ⟨(), false, 0⟩) ∧
      (result.discoveries.map (·.position)).Nodup ∧ result.totalBalance = 10000 := by
  let discovery : UInt32 → DiscoveredAddress := fun account =>
    ⟨"a", "m", "wallet", 5000, 1, false, 1, account, 5⟩
  let result : ScanResult := {
    foundAddresses := NameMap.insert ∅ "wallet" [discovery 0, discovery 1]
    totalBalance := 10000, totalUtxos := 2, schemesScanned := ["wallet"], addressesScanned := 8
    duration := .zero, passphraseUsed := "", errors := [], cancelled := false }
  have hrun : searchAccounts [0, 1] = (.ok (.ok result), ⟨(), false, 0⟩) := by
    decide +kernel
  obtain ⟨hpositions, -⟩ := search_positions (by simp [Search.targets, PathScheme.bip44]) hrun
  exact ⟨result, hrun, hpositions, rfl⟩

/-- Nothing rejects a scheme that lists an account twice. Its positions are found twice, and the
totals count them twice. -/
theorem search_repeats_positions :
    ∃ result : ScanResult, searchAccounts [0, 0] = (.ok (.ok result), ⟨(), false, 0⟩) ∧
      result.discoveries.map (·.position) = [("wallet", 0, false, 1), ("wallet", 0, false, 1)] ∧
      ¬ (result.discoveries.map (·.position)).Nodup ∧ result.totalBalance = 10000 := by
  let discovery : DiscoveredAddress := ⟨"a", "m", "wallet", 5000, 1, false, 1, 0, 5⟩
  let result : ScanResult := {
    foundAddresses := NameMap.insert ∅ "wallet" [discovery, discovery]
    totalBalance := 10000, totalUtxos := 2, schemesScanned := ["wallet"], addressesScanned := 8
    duration := .zero, passphraseUsed := "", errors := [], cancelled := false }
  have hrun : searchAccounts [0, 0] = (.ok (.ok result), ⟨(), false, 0⟩) := by
    decide +kernel
  have hpositions : result.discoveries.map (·.position) =
      [("wallet", 0, false, 1), ("wallet", 0, false, 1)] := by decide +kernel
  exact ⟨result, hrun, hpositions, by rw [hpositions]; decide, rfl⟩

end Discovery

end FundRecovery

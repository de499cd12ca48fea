import FundRecovery.Proofs.Discovery.Conduct
import FundRecovery.Proofs.Discovery.IndividualScan

/-!
# The loops over a chain

The scan of a chain as a loop on 32-bit numbers: a turn adds to the index and to the run of unused
addresses with the sums of the machine, and nothing but these sums ends a chain whose addresses are
all in use.

* `checkedAdd`, `saturatingAdd`, `GapCounter`: the arithmetic of the loops.
* `Cursor`: where a loop stands, with the indices counted and the batches asked about so far.
  `Finish`: where it was left, and at which `Exit`.
* `Target.checkNext`, `Target.checkBatch`: one turn, with a lookup of one address or with a bulk
  query. `Program.iterate`: so many turns.
* `gathered_turns`: as many turns as go over the index space are the scan of the chain, question by
  question.
-/

namespace FundRecovery

/-! ## Sums of the machine -/

/-- A sum, if it stays in the index space. -/
def checkedAdd (a b : UInt32) : Option UInt32 :=
  if a.toNat + b.toNat < indexSpace then some (a + b) else none

/-- A sum, or the last index. -/
def saturatingAdd (a b : UInt32) : UInt32 := (checkedAdd a b).getD (.ofNat (indexSpace - 1))

section Sums

variable {a b c : UInt32}

theorem checkedAdd_eq_none_iff : checkedAdd a b = none ↔ indexSpace ≤ a.toNat + b.toNat := by
  unfold checkedAdd
  split <;> simp <;> omega

theorem toNat_of_checkedAdd (h : checkedAdd a b = some c) : c.toNat = a.toNat + b.toNat := by
  unfold checkedAdd at h
  split at h
  case isTrue hspace =>
    obtain rfl := Option.some.inj h
    rw [UInt32.toNat_add]
    exact Nat.mod_eq_of_lt hspace
  case isFalse => cases h

/-- From the start of the last batch, the space ends after 16 indices. -/
example : checkedAdd 4294967280 15 = some 4294967295 ∧ checkedAdd 4294967280 16 = none := by
  decide

theorem toNat_saturatingAdd (h : a.toNat + b.toNat < indexSpace) :
    (saturatingAdd a b).toNat = a.toNat + b.toNat := by
  unfold saturatingAdd
  cases hsum : checkedAdd a b with
  | none => exact absurd h (Nat.not_lt.mpr (checkedAdd_eq_none_iff.mp hsum))
  | some c => exact toNat_of_checkedAdd hsum

end Sums

/-- The run of unused addresses at the end of a chain, counted by the machine. -/
structure GapCounter where
  limit : UInt32
  unused : UInt32
  deriving DecidableEq, Repr

namespace GapCounter

def new (limit : UInt32) : GapCounter := ⟨limit, 0⟩

def reached (g : GapCounter) : Bool := g.limit ≤ g.unused

/-- Counts the next address; there is no count that leaves the machine's range or passes the
limit. -/
def mark? (g : GapCounter) (used : Bool) : Option GapCounter :=
  if used then some ⟨g.limit, 0⟩
  else ((checkedAdd g.unused 1).filter (· ≤ g.limit)).map fun unused => ⟨g.limit, unused⟩

/-- The counter with numbers of any size. -/
def toGap (g : GapCounter) : GapLimit := ⟨g.limit.toNat, g.unused.toNat⟩

variable {g : GapCounter}

@[simp] theorem reached_toGap : g.toGap.reached = g.reached :=
  decide_eq_decide.mpr UInt32.le_iff_toNat_le.symm

/-- While the limit is not reached, the next address can be counted. -/
theorem mark?_of_open (h : g.reached = false) (used : Bool) :
    ∃ g', g.mark? used = some g' ∧ g'.toGap = g.toGap.mark used ∧ g'.limit = g.limit ∧
      g'.unused ≤ g.limit := by
  have hopen : g.unused.toNat < g.limit.toNat := by
    simpa [reached, UInt32.le_iff_toNat_le] using h
  have hlimit : g.limit.toNat < indexSpace := g.limit.toNat_lt
  cases used with
  | true => exact ⟨_, rfl, rfl, rfl, by simp⟩
  | false =>
    have hone : (1 : UInt32).toNat = 1 := rfl
    cases hsum : checkedAdd g.unused 1 with
    | none =>
      rw [checkedAdd_eq_none_iff] at hsum
      omega
    | some unused =>
      have hunused : unused.toNat = g.unused.toNat + 1 := toNat_of_checkedAdd hsum
      have hle : unused ≤ g.limit := by
        rw [UInt32.le_iff_toNat_le]
        omega
      refine ⟨⟨g.limit, unused⟩, ?_, ?_, rfl, hle⟩
      · simp [mark?, hsum, hle]
      · simp [toGap, GapLimit.mark, hunused]

end GapCounter

namespace Program

variable {I : Interface} {σ ρ : Type}

/-- Takes `n` turns of a loop, or fewer if one of them leaves the loop with a result. -/
def iterate (turn : σ → Program I (σ ⊕ ρ)) : Nat → σ → Program I (σ ⊕ ρ)
  | 0, s => return .inl s
  | n + 1, s => do
    match ← turn s with
    | .inl s => iterate turn n s
    | .inr r => return .inr r

end Program

namespace Discovery

/-! ## Loops -/

/-- Where the loop over a chain stands. -/
structure Cursor where
  next : UInt32
  gap : GapCounter
  scan : SchemeScan
  /-- The indices counted so far. -/
  counted : List UInt32
  /-- The batches asked about so far. -/
  asked : List (List Position)
  deriving DecidableEq, Repr

/-- Where a loop is left. -/
inductive Exit where
  /-- The gap limit is reached. -/
  | closed
  | cancelled
  /-- A derivation failed. -/
  | failed
  /-- The index space ends. -/
  | exhausted
  /-- The run of unused addresses could not be counted. -/
  | overrun
  deriving DecidableEq, Repr

/-- A loop that was left. -/
structure Finish extends Cursor where
  exit : Exit
  deriving DecidableEq, Repr

namespace Cursor

def start (gapLimit : UInt32) (scan : SchemeScan) : Cursor where
  next := 0
  gap := .new gapLimit
  scan := scan
  counted := []
  asked := []

/-- The scan is cancelled. -/
def cancel (c : Cursor) : Finish where
  toCursor := { c with scan := { c.scan with cancelled := true } }
  exit := .cancelled

/-- No more addresses could be derived. -/
def cutOff (c : Cursor) (failure : Option DerivationFailure) : Finish where
  toCursor := { c with scan := { c.scan with failure } }
  exit := if failure.isSome then .failed else .exhausted

/-- An index is counted, and the scan has gone over it. -/
def count (c : Cursor) (index : UInt32) (scan : SchemeScan) : Cursor :=
  { c with scan, counted := c.counted ++ [index] }

end Cursor

/-- One turn of the loop that looks up each address by itself. -/
def Target.checkNext (t : Target) (c : Cursor) : Scan (Cursor ⊕ Finish) :=
  if c.gap.reached then return .inr ⟨c, .closed⟩
  else do
    if ← isCancelled then return .inr c.cancel
    match ← t.derive c.next with
    | .error e => return .inr (c.cutOff (some ⟨c.next, e⟩))
    | .ok derived =>
      let scan ← visit t derived.address c.scan
      let utxos ← lookupUtxos t derived.address scan
      let scan ← recordFound t c.next derived utxos scan
      let c' := c.count c.next scan
      match c.gap.mark? !utxos.isEmpty with
      | none => return .inr ⟨c', .overrun⟩
      | some gap =>
        match checkedAdd c.next 1 with
        | none => return .inr ⟨{ c' with gap }, .exhausted⟩
        | some next => return .inl { c' with next, gap }

/-- Derives the addresses at these offsets from an index, up to the first failure or the end of the
index space. -/
def deriveFrom (t : Target) (start : UInt32) :
    List UInt32 → Scan (List Position × Option DerivationFailure)
  | [] => return ([], none)
  | offset :: rest =>
    match checkedAdd start offset with
    | none => return ([], none)
    | some index => do
      match ← t.derive index with
      | .error e => return ([], some ⟨index, e⟩)
      | .ok derived =>
        let (batch, failure) ← deriveFrom t start rest
        return (⟨index, derived⟩ :: batch, failure)

/-- Goes through a batch until the gap limit is reached. -/
def countBatch (t : Target) : List Position → Option BulkView → Cursor → Scan (Cursor ⊕ Finish)
  | [], _, c => return .inl c
  | p :: rest, view, c =>
    if c.gap.reached then return .inl c
    else do
      if ← isCancelled then return .inr c.cancel
      let scan ← visit t p.derived.address c.scan
      let (active, utxos, view) ← takeOrLookup t view p.derived.address scan
      let scan ← recordFound t p.index p.derived utxos scan
      let c' := c.count p.index scan
      match c.gap.mark? active with
      | none => return .inr ⟨c', .overrun⟩
      | some gap => countBatch t rest view { c' with gap }

/-- The offsets of a batch. -/
def offsets : List UInt32 := (List.range batchSize).map .ofNat

/-- One turn of the loop that asks for a batch at a time. -/
def Target.checkBatch (t : Target) (c : Cursor) : Scan (Cursor ⊕ Finish) :=
  if c.gap.reached then return .inr ⟨c, .closed⟩
  else do
    if ← isCancelled then return .inr c.cancel
    let (batch, failure) ← deriveFrom t c.next offsets
    if batch.isEmpty then return .inr (c.cutOff failure)
    let next := saturatingAdd c.next (.ofNat batchSize)
    let view ← bulkLookup (batch.map (·.derived.address))
    match ← countBatch t batch view.toOption { c with next, asked := c.asked ++ [batch] } with
    | .inr f => return .inr f
    | .inl c =>
      if batch.length < batchSize then
        return .inr (if c.gap.reached then ⟨c, .closed⟩ else c.cutOff failure)
      else return .inl c

/-- How the addresses of a chain are checked. -/
inductive Strategy where
  | single
  | bulk
  deriving DecidableEq, Repr

namespace Strategy

/-- How many indices a turn checks. -/
def stride : Strategy → Nat
  | single => 1
  | bulk => batchSize

/-- How many batches are asked about in so many turns. -/
def queries : Strategy → Nat → Nat
  | single, _ => 0
  | bulk, n => n

def turn (t : Target) : Strategy → Cursor → Scan (Cursor ⊕ Finish)
  | single => t.checkNext
  | bulk => t.checkBatch

/-- The scan of a chain. -/
def scanChain (t : Target) (gapLimit : UInt32) (scan : SchemeScan) : Strategy → Scan SchemeScan
  | single => scanIndividually t gapLimit scan
  | bulk => scanInBatches t gapLimit scan

end Strategy

/-! ## The loops are the scans -/

section Scans

variable {t : Target}

/-- What was gathered when the turns were over. -/
def gathered : Cursor ⊕ Finish → SchemeScan
  | .inl c => c.scan
  | .inr f => f.scan

section Ends

variable {B : (q : Request) → q.Answer → Prop}

theorem ensures_visit (address : String) (scan : SchemeScan) :
    (visit t address scan).Ensures B fun scan' _ => scan' = scan.counted :=
  .bind (.trivial _) fun _ _ _ => rfl

theorem ensures_recordFound (index : UInt32) (derived : DerivedAddress) (utxos : List Utxo)
    (scan : SchemeScan) : (recordFound t index derived utxos scan).Ensures B fun scan' _ =>
      scan' = scan.recorded t index derived utxos := by
  unfold recordFound SchemeScan.recorded
  split
  · exact rfl
  · exact .bind (.trivial _) fun _ _ _ => rfl

theorem ensures_deriveBatch (indices : List Nat) :
    (deriveBatch t indices).Ensures B fun r _ => r.1.length ≤ indices.length := by
  induction indices with
  | nil => exact Nat.le_refl 0
  | cons i rest ih =>
    refine .bind (.trivial _) fun r _ _ => ?_
    cases r with
    | error e => exact Nat.zero_le _
    | ok derived => exact .bind ih fun _ _ hlength => Nat.succ_le_succ hlength

end Ends

/-- The offsets lead to the indices that are left of the space. -/
theorem deriveFrom_range' (start : UInt32) (k n : Nat) (hk : k + n ≤ indexSpace) :
    deriveFrom t start ((List.range' k n).map .ofNat) =
      deriveBatch t (List.range' (start.toNat + k) (min n (indexSpace - (start.toNat + k)))) := by
  induction n generalizing k with
  | zero => rw [Nat.zero_min]; rfl
  | succ n ih =>
    have hoffset : (UInt32.ofNat k).toNat = k :=
      UInt32.toNat_ofNat_of_lt' (show k < indexSpace by omega)
    rw [List.range'_succ, List.map_cons, deriveFrom]
    cases hsum : checkedAdd start (.ofNat k) with
    | none =>
      rw [checkedAdd_eq_none_iff, hoffset] at hsum
      rw [show min (n + 1) (indexSpace - (start.toNat + k)) = 0 by omega]
      rfl
    | some index =>
      have hindex : index.toNat = start.toNat + k := by rw [toNat_of_checkedAdd hsum, hoffset]
      have hlt : index.toNat < indexSpace := index.toNat_lt
      rw [show min (n + 1) (indexSpace - (start.toNat + k)) =
        min n (indexSpace - (start.toNat + (k + 1))) + 1 by omega, List.range'_succ, deriveBatch,
        ← hindex, UInt32.ofNat_toNat]
      refine bind_congr fun r => ?_
      cases r with
      | error e => rfl
      | ok derived =>
        rw [ih (k + 1) (by omega), ← Nat.add_assoc, hindex]

theorem deriveFrom_offsets (start : UInt32) : deriveFrom t start offsets =
    deriveBatch t (List.range' start.toNat (min batchSize (indexSpace - start.toNat))) := by
  rw [offsets, List.range_eq_range', deriveFrom_range' _ _ _ (by decide), Nat.add_zero]

/-- Turn by turn, single lookups go over the indices that are left. -/
theorem gathered_checkNext {left n : Nat} (hn : left < n) {c : Cursor}
    (hspace : c.next.toNat + left + 1 = indexSpace) :
    gathered <$> Program.iterate t.checkNext n c =
      scanIndices t (left + 1) c.next.toNat c.gap.toGap c.scan := by
  -- By induction on the turns. The sum of the machine fails exactly where no index is left.
  induction n generalizing left c with
  | zero => omega
  | succ n ih =>
    rw [Program.iterate, scanIndices, Target.checkNext, GapCounter.reached_toGap]
    cases hr : c.gap.reached with
    | true => rfl
    | false =>
      simp only [Bool.false_eq_true, if_false, map_bind, bind_assoc]
      refine bind_congr fun looked => ?_
      cases looked with
      | true => rfl
      | false =>
        simp only [Bool.false_eq_true, if_false, bind_assoc, UInt32.ofNat_toNat]
        refine bind_congr fun r => ?_
        cases r with
        | error e => rfl
        | ok derived =>
          simp only [bind_assoc]
          refine bind_congr fun scan => bind_congr fun utxos => bind_congr fun scan => ?_
          obtain ⟨gap, hmark, hgap, -⟩ := GapCounter.mark?_of_open hr !utxos.isEmpty
          have hone : (1 : UInt32).toNat = 1 := rfl
          rw [hmark, ← hgap]
          cases left with
          | zero =>
            have hsum : checkedAdd c.next 1 = none := checkedAdd_eq_none_iff.mpr (by omega)
            simp only [hsum]
            rfl
          | succ left =>
            cases hsum : checkedAdd c.next 1 with
            | none =>
              have hspace' := checkedAdd_eq_none_iff.mp hsum
              omega
            | some next =>
              have hnext : next.toNat = c.next.toNat + 1 := toNat_of_checkedAdd hsum
              have hleft : left < n := by omega
              have hspace' : next.toNat + left + 1 = indexSpace := by omega
              have hrest := ih hleft (c := { c.count c.next scan with next, gap }) hspace'
              rw [hnext] at hrest
              exact hrest

/-- What goes on with the gap and the scan after a batch goes on with the cursor. -/
theorem countBatch_bind {K : Cursor ⊕ Finish → Scan SchemeScan}
    {K' : GapLimit × SchemeScan → Scan SchemeScan} {batch : List Position} {view : Option BulkView}
    {c : Cursor} (hgoing : c.scan.cancelled = false)
    (hinl : ∀ c' : Cursor, c'.next = c.next → c'.scan.cancelled = false →
      K (.inl c') = K' (c'.gap.toGap, c'.scan))
    (hinr : ∀ c : Cursor, K (.inr c.cancel) = K' (c.gap.toGap, c.cancel.scan)) :
    countBatch t batch view c >>= K = scanBatch t batch view c.gap.toGap c.scan >>= K' := by
  induction batch generalizing view c with
  | nil => exact hinl c rfl hgoing
  | cons p rest ih =>
    rw [countBatch, scanBatch, GapCounter.reached_toGap]
    cases hr : c.gap.reached with
    | true => exact hinl c rfl hgoing
    | false =>
      simp only [Bool.false_eq_true, if_false, bind_assoc]
      refine bind_congr fun looked => ?_
      cases looked with
      | true => exact hinr c
      | false =>
        simp only [Bool.false_eq_true, if_false, bind_assoc]
        refine (ensures_visit _ _).bind_congr ?_
        rintro _ rfl
        refine bind_congr fun looked => ?_
        obtain ⟨active, utxos, view⟩ := looked
        refine (ensures_recordFound _ _ _ _).bind_congr ?_
        rintro _ rfl
        obtain ⟨gap, hmark, hgap, -⟩ := GapCounter.mark?_of_open hr active
        simp only [hmark]
        rw [← hgap]
        exact ih (SchemeScan.cancelled_recorded.trans hgoing) hinl

/-- Turn by turn, bulk queries go over the batches that are left. The last one is short. -/
theorem gathered_checkBatch {left n : Nat} (hn : left < n) {c : Cursor}
    (hgoing : c.scan.cancelled = false) (hspace : c.next.toNat + batchSize * left < indexSpace)
    (hlast : indexSpace < c.next.toNat + batchSize * (left + 1)) :
    gathered <$> Program.iterate t.checkBatch n c =
      scanBatches t (left + 1) c.next.toNat c.gap.toGap c.scan := by
  induction n generalizing left c with
  | zero => omega
  | succ n ih =>
    rw [Program.iterate, scanBatches, Target.checkBatch, GapCounter.reached_toGap]
    cases hr : c.gap.reached with
    | true => rfl
    | false =>
      simp only [Bool.false_eq_true, if_false, map_bind, bind_assoc]
      refine bind_congr fun looked => ?_
      cases looked with
      | true => rfl
      | false =>
        simp only [Bool.false_eq_true, if_false, bind_assoc, deriveFrom_offsets]
        refine (ensures_deriveBatch _).bind_congr ?_
        rintro ⟨batch, failure⟩ hlength
        dsimp only at hlength ⊢
        cases hempty : batch.isEmpty with
        | true => rfl
        | false =>
          simp only [Bool.false_eq_true, if_false, bind_assoc]
          refine bind_congr fun view => ?_
          refine countBatch_bind hgoing (fun c' hnext hgoing' => ?_) fun c' => rfl
          simp only [GapCounter.reached_toGap]
          rw [if_neg (Bool.eq_false_iff.mp hgoing')]
          split
          · cases hr' : c'.gap.reached <;> rfl
          case isFalse hfull =>
            rw [List.length_range'] at hlength
            simp only [batchSize] at hfull hlength hspace hlast
            cases left with
            | zero => omega
            | succ left =>
              have hsum : c.next.toNat + (UInt32.ofNat batchSize).toNat < indexSpace := by
                show c.next.toNat + 20 < indexSpace
                omega
              have hstart : c'.next.toNat = c.next.toNat + batchSize := by
                rw [hnext]
                exact toNat_saturatingAdd hsum
              rw [← hstart]
              simp only [batchSize] at hstart
              exact ih (by omega) hgoing' (by simp only [batchSize]; omega)
                (by simp only [batchSize]; omega)

/-- So many turns as go over the whole space are the scan of the chain. -/
theorem gathered_turns (s : Strategy) {gapLimit : UInt32} {scan : SchemeScan}
    (hgoing : scan.cancelled = false) {n : Nat} (hn : indexSpace ≤ s.stride * n) :
    gathered <$> Program.iterate (s.turn t) n (.start gapLimit scan) =
      s.scanChain t gapLimit scan := by
  cases s with
  | single =>
    obtain ⟨left, hleft⟩ : ∃ left, indexSpace = left + 1 := ⟨indexSpace - 1, rfl⟩
    rw [Strategy.stride, Nat.one_mul] at hn
    have hspace : (Cursor.start gapLimit scan).next.toNat + left + 1 = indexSpace := by
      rw [hleft]
      exact congrArg (· + 1) (Nat.zero_add left)
    have hscan := gathered_checkNext (t := t) (by omega : left < n) hspace
    rw [← hleft] at hscan
    exact hscan
  | bulk =>
    have hturns : batchCount - 1 < n := by
      simp only [Strategy.stride, batchSize, indexSpace, UInt32.size, batchCount] at hn ⊢
      omega
    exact gathered_checkBatch hturns hgoing
      (show 0 + batchSize * (batchCount - 1) < indexSpace by decide)
      (show indexSpace < 0 + batchSize * (batchCount - 1 + 1) by decide)

end Scans

end Discovery

end FundRecovery

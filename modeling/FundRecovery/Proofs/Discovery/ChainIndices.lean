import FundRecovery.Proofs.Discovery.ChainLoops
import FundRecovery.Proofs.Discovery.Narratives

/-!
# The indices of a chain

Whatever its collaborators answer, the loop over a chain goes from one index to the next, from 0 on,
until something stops it or the index space ends. Each turn of the bulk loop starts at a multiple of
the batch size. This does not divide the size of the index space, so a batch that reaches its end is
short, and the saturating sum never saturates.

* `Logs t m asked log`: the log derives the first `m` indices, and asks about these batches.
* `Cursor.Past m n`: the indices below `n` are counted, unless the gap closed before.
* `Cursor.At s n`: where a loop stands after `n` turns. `Finish.Sound`: what is true where it is
  left.
* `turn_turned`: what one turn preserves, of either loop. `iterate_turned`: what many do.
* `chain_loops_end`: both loops come to their ends, and they are the scans of the chain.
-/

namespace FundRecovery.Discovery

variable {A : (c : Call) → c.Answer → Prop} {looks : Bool → Prop} {log : List Call} {t : Target}

/-! ## The log of a loop -/

namespace Call

/-- The call derives an address. -/
def isDerivation : Call → Bool
  | deriveAddress .. | deriveLegacyAddress .. => true
  | _ => false

/-- The addresses whose activity is checked. -/
def batch? : Call → Option (List String)
  | checkActivity addresses => some addresses
  | _ => none

/-- The call is neither a derivation nor an activity check. -/
def Aside (c : Call) : Prop := c.isDerivation = false ∧ c.batch? = none

end Call

theorem isDerivation_derivation (index : UInt32) : (t.derivation index).isDerivation = true := by
  unfold Target.derivation
  split <;> rfl

theorem batch?_derivation (index : UInt32) : (t.derivation index).batch? = none := by
  unfold Target.derivation
  split <;> rfl

/-- The log derives the indices below `m` of the chain, each of them once and in order, and asks
about these batches. -/
structure Logs (t : Target) (m : Nat) (asked : List (List Position)) (log : List Call) : Prop where
  derived : log.filter (·.isDerivation) = (List.range m).map fun i => t.derivation (.ofNat i)
  asked : log.filterMap Call.batch? = asked.map fun batch => batch.map (·.derived.address)

namespace Logs

variable {m : Nat} {asked : List (List Position)}

theorem aside (h : Logs t m asked log) {c : Call} (hc : c.Aside) :
    Logs t m asked (log ++ [c]) where
  derived := by simp [hc.1, h.derived]
  asked := by simp [hc.2, h.asked]

theorem derive (h : Logs t m asked log) :
    Logs t (m + 1) asked (log ++ [t.derivation (.ofNat m)]) where
  derived := by simp [isDerivation_derivation, h.derived, List.range_succ]
  asked := by simp [batch?_derivation, h.asked]

theorem ask (h : Logs t m asked log) (batch : List Position) :
    Logs t m (asked ++ [batch]) (log ++ [.checkActivity (batch.map (·.derived.address))]) where
  derived := by
    rw [List.filter_append, h.derived]
    exact List.append_nil _
  asked := by simp [Call.batch?, h.asked]

/-- What a program does aside leaves the log as it is. -/
theorem records {α : Type} {p : Scan α} (hp : Asks Call.Aside p) (h : Logs t m asked log) :
    Records A looks log p fun _ log => Logs t m asked log :=
  hp.records (fun hc h => h.aside hc) h

end Logs

/-! ## Batches -/

/-- The batch has the addresses from index `start` on, one after another. -/
structure Spans (A : (c : Call) → c.Answer → Prop) (t : Target) (start : Nat)
    (batch : List Position) : Prop where
  indices : batch.map (·.index.toNat) = List.range' start batch.length
  derives : ∀ p ∈ batch, t.Derives A p.index (.ok p.derived)

namespace Spans

variable {start : Nat} {p : Position} {rest : List Position}

theorem nil (start : Nat) : Spans A t start [] := ⟨rfl, by simp⟩

theorem cons (hindex : p.index.toNat = start) (hp : t.Derives A p.index (.ok p.derived))
    (h : Spans A t (start + 1) rest) : Spans A t start (p :: rest) where
  indices := by rw [List.map_cons, h.indices, hindex, List.length_cons, List.range'_succ]
  derives := List.forall_mem_cons.mpr ⟨hp, h.derives⟩

theorem head (h : Spans A t start (p :: rest)) : p.index.toNat = start :=
  (List.cons.inj (h.indices.trans List.range'_succ)).1

theorem tail (h : Spans A t start (p :: rest)) : Spans A t (start + 1) rest where
  indices := (List.cons.inj (h.indices.trans List.range'_succ)).2
  derives := (List.forall_mem_cons.mp h.derives).2

end Spans

/-- A batch of `count` addresses from index `start` on, or of fewer if a derivation failed. -/
structure Drawn (A : (c : Call) → c.Answer → Prop) (t : Target) (start count : Nat)
    (asked : List (List Position)) (batch : List Position) (failure : Option DerivationFailure)
    (log : List Call) : Prop where
  spans : Spans A t start batch
  full : failure = none → batch.length = count
  failed : ∀ f, failure = some f → batch.length < count ∧
    f.index = .ofNat (start + batch.length) ∧ t.Derives A f.index (.error f.error)
  logs : ∃ m, start + batch.length ≤ m ∧ m ≤ start + count ∧ Logs t m asked log

theorem Drawn.length_le {start count : Nat} {asked : List (List Position)} {batch : List Position}
    {failure : Option DerivationFailure} (h : Drawn A t start count asked batch failure log) :
    batch.length ≤ count := by
  obtain ⟨m, hlow, hhigh, -⟩ := h.logs
  omega

/-- Batch number `j`, counted from 0, starts at `j` times the batch size. No batch is longer. -/
def Asked (A : (c : Call) → c.Answer → Prop) (t : Target) (asked : List (List Position)) : Prop :=
  ∀ j batch, asked[j]? = some batch →
    batch ≠ [] ∧ batch.length ≤ batchSize ∧ Spans A t (batchSize * j) batch

theorem Asked.append {asked : List (List Position)} (h : Asked A t asked) {batch : List Position}
    (hne : batch ≠ []) (hlength : batch.length ≤ batchSize)
    (hspans : Spans A t (batchSize * asked.length) batch) : Asked A t (asked ++ [batch]) := by
  intro j b hb
  by_cases hj : j < asked.length
  · rw [List.getElem?_append_left hj] at hb
    exact h j b hb
  · rw [List.getElem?_append_right (Nat.le_of_not_lt hj), List.getElem?_singleton] at hb
    split at hb
    case isTrue hzero =>
      obtain rfl := Option.some.inj hb
      obtain rfl : j = asked.length := by omega
      exact ⟨hne, hlength, hspans⟩
    case isFalse => cases hb

/-! ## Where a loop stands -/

variable {gapLimit : UInt32} {scan : SchemeScan} {s : Strategy}

/-- The indices counted are the first ones, each of them once, and so many addresses are counted.
The run of unused addresses is within its limit. -/
structure Cursor.Orderly (gapLimit : UInt32) (scan : SchemeScan) (c : Cursor) : Prop where
  limit : c.gap.limit = gapLimit
  unused_le : c.gap.unused ≤ gapLimit
  counted : c.counted.map (·.toNat) = List.range c.counted.length
  scanned : c.scan.scanned = scan.scanned + c.counted.length

/-- The first `m` indices are derived, and those below `n` are counted, unless the gap closed
before. -/
structure Cursor.Past (t : Target) (gapLimit : UInt32) (scan : SchemeScan) (m n : Nat) (c : Cursor)
    (log : List Call) : Prop extends c.Orderly gapLimit scan where
  logs : Logs t m c.asked log
  passed : c.gap.reached = false → c.counted.length = n
  counted_le : c.counted.length ≤ n
  failure : c.scan.failure = scan.failure

/-- Where the loop stands after `n` turns. -/
structure Cursor.At (A : (c : Call) → c.Answer → Prop) (t : Target) (gapLimit : UInt32)
    (scan : SchemeScan) (s : Strategy) (n : Nat) (c : Cursor) (log : List Call) : Prop
    extends c.Past t gapLimit scan (s.stride * n) (s.stride * n) log where
  next : c.next.toNat = s.stride * n
  queries : c.asked.length = s.queries n
  asked : Asked A t c.asked

/-- Why the loop is left. There is a failure where the next derivation failed, and nowhere else. A
run of unused addresses that cannot be counted is no reason. -/
def Finish.Due (A : (c : Call) → c.Answer → Prop) (t : Target) (scan : SchemeScan) (f : Finish) :
    Prop :=
  match f.exit with
  | .closed => f.gap.reached = true ∧ f.scan.failure = scan.failure
  | .cancelled => f.scan.cancelled = true ∧ f.scan.failure = scan.failure
  | .failed => ∃ e, f.scan.failure = some ⟨.ofNat f.counted.length, e⟩ ∧
      t.Derives A (.ofNat f.counted.length) (.error e)
  | .exhausted => f.counted.length = indexSpace ∧ (scan.failure = none → f.scan.failure = none)
  | .overrun => False

/-- What is true where the loop is left. -/
structure Finish.Sound (A : (c : Call) → c.Answer → Prop) (t : Target) (gapLimit : UInt32)
    (scan : SchemeScan) (f : Finish) (log : List Call) : Prop
    extends f.Orderly gapLimit scan where
  derived : ∃ m, f.counted.length ≤ m ∧ m ≤ indexSpace ∧ Logs t m f.asked log
  asked : Asked A t f.asked
  due : f.Due A t scan

namespace Cursor

variable {c : Cursor} {m n : Nat}

theorem at_start (s : Strategy) : (start gapLimit scan).At A t gapLimit scan s 0 [] where
  limit := rfl
  unused_le := by simp [start, GapCounter.new]
  counted := rfl
  scanned := rfl
  logs := ⟨rfl, rfl⟩
  passed _ := rfl
  counted_le := Nat.zero_le _
  failure := rfl
  next := rfl
  queries := by cases s <;> rfl
  asked := by simp [Asked, start]

namespace Past

/-- Past the next index. -/
theorem pass {log' : List Call} (h : c.Past t gapLimit scan m n log) (hr : c.gap.reached = false)
    (hlogs : Logs t m c.asked log') {index : UInt32} (hindex : index.toNat = n)
    (derived : DerivedAddress) (utxos : List Utxo) (used : Bool) :
    ∃ gap, c.gap.mark? used = some gap ∧
      Past t gapLimit scan m (n + 1)
        { c.count index (c.scan.passed t index derived utxos) with gap } log' := by
  obtain ⟨gap, hmark, -, hlimit, hle⟩ := GapCounter.mark?_of_open hr used
  have hlength : (c.counted ++ [index]).length = n + 1 := by
    rw [List.length_append, List.length_singleton, h.passed hr]
  refine ⟨gap, hmark, {
    limit := hlimit.trans h.limit
    unused_le := h.limit ▸ hle
    counted := ?_
    scanned := ?_
    logs := hlogs
    passed := fun _ => hlength
    counted_le := Nat.le_of_eq hlength
    failure := SchemeScan.failure_passed.trans h.failure }⟩
  · show (c.counted ++ [index]).map (·.toNat) = List.range (c.counted ++ [index]).length
    rw [hlength, List.map_append, h.counted, h.passed hr, List.range_succ, List.map_singleton,
      hindex]
  · show (c.scan.passed t index derived utxos).scanned = _ + (c.counted ++ [index]).length
    rw [SchemeScan.scanned_passed, h.scanned, hlength, h.passed hr]
    rfl

/-- A batch is asked about. -/
theorem ask (h : c.Past t gapLimit scan m n log) (next : UInt32) {batch : List Position}
    {log' : List Call} (hlogs : Logs t m (c.asked ++ [batch]) log') :
    Past t gapLimit scan m n { c with next, asked := c.asked ++ [batch] } log' where
  toOrderly := ⟨h.limit, h.unused_le, h.counted, h.scanned⟩
  logs := hlogs
  passed := h.passed
  counted_le := h.counted_le
  failure := h.failure

/-- Where the gap is closed, nothing more is counted. -/
theorem closed (h : c.Past t gapLimit scan m n log) (hr : c.gap.reached = true) {n' : Nat}
    (hn : n ≤ n') : c.Past t gapLimit scan m n' log where
  toOrderly := h.toOrderly
  logs := h.logs
  passed hopen := by rw [hr] at hopen; cases hopen
  counted_le := Nat.le_trans h.counted_le hn
  failure := h.failure

/-- The loop is left there. -/
theorem leave (h : c.Past t gapLimit scan m n log) (hn : n ≤ m) (hm : m ≤ indexSpace)
    (hasked : Asked A t c.asked) {exit : Exit} (hdue : Finish.Due A t scan ⟨c, exit⟩) :
    Finish.Sound A t gapLimit scan ⟨c, exit⟩ log where
  toOrderly := h.toOrderly
  derived := ⟨m, Nat.le_trans h.counted_le hn, hm, h.logs⟩
  asked := hasked
  due := hdue

theorem cancel (h : c.Past t gapLimit scan m n log) (hn : n ≤ m) (hm : m ≤ indexSpace)
    (hasked : Asked A t c.asked) : c.cancel.Sound A t gapLimit scan log where
  toOrderly := ⟨h.limit, h.unused_le, h.counted, h.scanned⟩
  derived := ⟨m, Nat.le_trans h.counted_le hn, hm, h.logs⟩
  asked := hasked
  due := ⟨rfl, h.failure⟩

theorem cutOff (h : c.Past t gapLimit scan m n log) (hn : n ≤ m) (hm : m ≤ indexSpace)
    (hasked : Asked A t c.asked) (hr : c.gap.reached = false) {failure : Option DerivationFailure}
    (hfailed : ∀ f, failure = some f →
      f.index = .ofNat n ∧ t.Derives A f.index (.error f.error))
    (hfull : failure = none → n = indexSpace) :
    (c.cutOff failure).Sound A t gapLimit scan log where
  toOrderly := ⟨h.limit, h.unused_le, h.counted, h.scanned⟩
  derived := ⟨m, Nat.le_trans h.counted_le hn, hm, h.logs⟩
  asked := hasked
  due := by
    have hlength := h.passed hr
    cases failure with
    | none => exact ⟨hlength.trans (hfull rfl), fun _ => rfl⟩
    | some f =>
      obtain ⟨hindex, hderives⟩ := hfailed f rfl
      refine ⟨f.error, ?_, ?_⟩
      · show some f = some ⟨.ofNat c.counted.length, f.error⟩
        rw [hlength, ← hindex]
      · show t.Derives A (.ofNat c.counted.length) (.error f.error)
        rwa [hlength, ← hindex]

/-- The next turn starts there. -/
theorem stand (h : c.Past t gapLimit scan (s.stride * n) (s.stride * n) log) {next : UInt32}
    (hnext : next.toNat = s.stride * n) (hqueries : c.asked.length = s.queries n)
    (hasked : Asked A t c.asked) : Cursor.At A t gapLimit scan s n { c with next } log where
  toOrderly := ⟨h.limit, h.unused_le, h.counted, h.scanned⟩
  logs := h.logs
  passed := h.passed
  counted_le := h.counted_le
  failure := h.failure
  next := hnext
  queries := hqueries
  asked := hasked

end Past

end Cursor

/-! ## One turn -/

namespace Records

variable {c : Cursor} {m n : Nat} {asked : List (List Position)}

theorem visitAside (h : Logs t m asked log) (address : String) (scan : SchemeScan) :
    Records A looks log (visit t address scan) fun scan' log =>
      scan' = scan.counted ∧ Logs t m asked log :=
  .and (ensures_visit address scan) (h.records (asks_visit (fun _ => ⟨rfl, rfl⟩) address scan))

theorem recordAside (h : Logs t m asked log) (index : UInt32) (derived : DerivedAddress)
    (utxos : List Utxo) (scan : SchemeScan) :
    Records A looks log (Discovery.recordFound t index derived utxos scan) fun scan' log =>
      scan' = scan.recorded t index derived utxos ∧ Logs t m asked log :=
  .and (ensures_recordFound index derived utxos scan)
    (h.records (asks_recordFound (fun _ => ⟨rfl, rfl⟩) index derived utxos scan))

theorem deriveNext (h : Logs t m asked log) {index : UInt32} (hindex : index = .ofNat m) :
    Records A looks log (t.derive index) fun r log =>
      t.Derives A index r ∧ Logs t (m + 1) asked log := by
  subst hindex
  exact .derive fun r hr => ⟨hr, h.derive⟩

theorem drawBatch {start : Nat} (h : Logs t start asked log) {count : Nat}
    (hspace : start + count ≤ indexSpace) :
    Records A looks log (Discovery.deriveBatch t (List.range' start count)) fun r log =>
      Drawn A t start count asked r.1 r.2 log := by
  induction count generalizing start log with
  | zero => exact .done ⟨.nil start, fun _ => rfl, by simp, start, Nat.le_refl _, Nat.le_refl _, h⟩
  | succ count ih =>
    rw [List.range'_succ]
    refine .bind (deriveNext h rfl) ?_
    rintro r log ⟨hr, hlogs⟩
    cases r with
    | error e =>
      refine .done ⟨.nil start, by simp, ?_, start + 1, by simp, by omega, hlogs⟩
      rintro f ⟨rfl⟩
      exact ⟨Nat.succ_pos count, rfl, hr⟩
    | ok derived =>
      refine .bind (ih hlogs (by omega)) ?_
      rintro ⟨batch, failure⟩ log hrest
      have hindex : (UInt32.ofNat start).toNat = start :=
        UInt32.toNat_ofNat_of_lt' (show start < indexSpace by omega)
      obtain ⟨m, hlow, hhigh, hlogs⟩ := hrest.logs
      dsimp only at hlow
      refine .done ⟨hrest.spans.cons hindex hr, ?_, ?_, m, ?_, ?_, hlogs⟩
      · exact fun hnone => congrArg (· + 1) (hrest.full hnone)
      · intro f hf
        obtain ⟨hlength, hfindex, hderives⟩ := hrest.failed f hf
        refine ⟨Nat.succ_lt_succ hlength, ?_, hderives⟩
        rw [hfindex, List.length_cons, Nat.add_assoc, Nat.add_comm 1]
      · rw [List.length_cons]
        omega
      · omega

theorem askBatch (h : Logs t m asked log) (batch : List Position) :
    Records A looks log (Discovery.bulkLookup (batch.map (·.derived.address))) fun _ log =>
      Logs t m (asked ++ [batch]) log := by
  refine .bind (.call (Q := fun _ log => Logs t m (asked ++ [batch]) log) fun _ _ =>
    h.ask batch) fun activity log hlogs => ?_
  cases activity with
  | error e => exact .done hlogs
  | ok activity =>
    dsimp only
    split
    · exact .done hlogs
    · refine .bind (.call (Q := fun _ log => Logs t m (asked ++ [batch]) log) fun _ _ =>
        hlogs.aside ⟨rfl, rfl⟩) fun fetched log hlogs => ?_
      cases fetched with
      | error e => exact .done hlogs
      | ok fetched => exact .done hlogs

end Records

/-- After `n` turns the loop stands where it should, or it was left before. -/
def Turned (A : (c : Call) → c.Answer → Prop) (t : Target) (gapLimit : UInt32) (scan : SchemeScan)
    (s : Strategy) (n : Nat) : Cursor ⊕ Finish → List Call → Prop
  | .inl c, log => c.At A t gapLimit scan s n log
  | .inr f, log => f.Sound A t gapLimit scan log

section Turns

variable {c : Cursor} {m n : Nat}

theorem checkNext_turn (h : c.At A t gapLimit scan .single n log) :
    Records A looks log (t.checkNext c) (Turned A t gapLimit scan .single (n + 1)) := by
  have hnext : c.next.toNat = n := h.next.trans (Nat.one_mul n)
  have hspace : n < indexSpace := hnext ▸ c.next.toNat_lt
  have hpast : c.Past t gapLimit scan n n log := by
    simpa only [Strategy.stride, Nat.one_mul] using h.toPast
  have hindex : c.next = .ofNat n := by rw [← hnext, UInt32.ofNat_toNat]
  unfold Target.checkNext
  split
  case isTrue hr =>
    exact .done (hpast.leave (Nat.le_refl n) (Nat.le_of_lt hspace) h.asked ⟨hr, hpast.failure⟩)
  case isFalse hopen =>
    have hr : c.gap.reached = false := Bool.eq_false_iff.mpr hopen
    refine .bind (.isCancelled (Q := fun _ log => c.Past t gapLimit scan n n log) fun _ _ => hpast)
      fun looked log hpast => ?_
    cases looked with
    | true => exact .done (hpast.cancel (Nat.le_refl n) (Nat.le_of_lt hspace) h.asked)
    | false =>
      refine .bind (.deriveNext hpast.logs hindex) ?_
      rintro r log₁ ⟨hderives, hlogs⟩
      have hpast : c.Past t gapLimit scan (n + 1) n log₁ := { hpast with logs := hlogs }
      cases r with
      | error e =>
        refine .done (hpast.cutOff (Nat.le_succ n) hspace h.asked hr ?_ fun hnone => by cases hnone)
        rintro f ⟨rfl⟩
        exact ⟨hindex, hderives⟩
      | ok derived =>
        refine .bind (.visitAside hlogs derived.address c.scan) ?_
        rintro _ log₂ ⟨rfl, hlogs⟩
        refine .bind (hlogs.records (asks_lookupUtxos (fun _ => ⟨rfl, rfl⟩) (fun _ => ⟨rfl, rfl⟩)
          derived.address c.scan.counted)) fun utxos log₃ hlogs => ?_
        refine .bind (.recordAside hlogs c.next derived utxos c.scan.counted) ?_
        rintro _ log₄ ⟨rfl, hlogs⟩
        obtain ⟨gap, hmark, hpassed⟩ := hpast.pass hr hlogs hnext derived utxos !utxos.isEmpty
        simp only [hmark]
        have hone : (1 : UInt32).toNat = 1 := rfl
        cases hsum : checkedAdd c.next 1 with
        | none =>
          rw [checkedAdd_eq_none_iff] at hsum
          have hall : n + 1 = indexSpace := by omega
          have hlength : (c.counted ++ [c.next]).length = indexSpace := by
            rw [List.length_append, hpast.passed hr]
            exact hall
          exact .done (hpassed.leave (Nat.le_refl _) hspace h.asked
            ⟨hlength, fun hnone => hpassed.failure.trans hnone⟩)
        | some next =>
          have hnext' : next.toNat = n + 1 := by rw [toNat_of_checkedAdd hsum, hnext, hone]
          rw [← Nat.one_mul (n + 1)] at hpassed hnext'
          have hstand := hpassed.stand (s := .single) hnext' h.queries h.asked
          exact .done hstand

/-- The cursor went through a batch that ends before index `n`, or was cancelled on the way. -/
def Counted (t : Target) (gapLimit : UInt32) (scan : SchemeScan) (m n : Nat) (c : Cursor) :
    Cursor ⊕ Finish → List Call → Prop
  | .inl c', log => c'.next = c.next ∧ c'.asked = c.asked ∧ c'.Past t gapLimit scan m n log
  | .inr f, log => ∃ (c' : Cursor) (n' : Nat), f = c'.cancel ∧ c'.asked = c.asked ∧ n' ≤ n ∧
      c'.Past t gapLimit scan m n' log

theorem countBatch_counts {batch : List Position} (h : c.Past t gapLimit scan m n log)
    (hspans : Spans A t n batch) (view : Option BulkView) :
    Records A looks log (countBatch t batch view c)
      (Counted t gapLimit scan m (n + batch.length) c) := by
  induction batch generalizing n c view log with
  | nil => exact .done ⟨rfl, rfl, h⟩
  | cons p rest ih =>
    rw [countBatch]
    split
    case isTrue hr => exact .done ⟨rfl, rfl, h.closed hr (Nat.le_add_right ..)⟩
    case isFalse hopen =>
      have hr : c.gap.reached = false := Bool.eq_false_iff.mpr hopen
      refine .bind (.isCancelled (Q := fun _ log => c.Past t gapLimit scan m n log) fun _ _ => h)
        fun looked log h => ?_
      cases looked with
      | true => exact .done ⟨c, n, rfl, rfl, Nat.le_add_right .., h⟩
      | false =>
        refine .bind (.visitAside h.logs p.derived.address c.scan) ?_
        rintro _ log₁ ⟨rfl, hlogs⟩
        refine .bind (hlogs.records (asks_takeOrLookup (fun _ => ⟨rfl, rfl⟩) (fun _ => ⟨rfl, rfl⟩)
          view p.derived.address c.scan.counted)) ?_
        rintro ⟨active, utxos, view⟩ log₂ hlogs
        refine .bind (.recordAside hlogs p.index p.derived utxos c.scan.counted) ?_
        rintro _ log₃ ⟨rfl, hlogs⟩
        obtain ⟨gap, hmark, hpassed⟩ := h.pass hr hlogs hspans.head p.derived utxos active
        simp only [hmark]
        have hrest := ih hpassed hspans.tail view
        rw [List.length_cons, ← Nat.add_assoc, Nat.add_right_comm]
        exact hrest

/-- A short batch is the last one. -/
theorem shortBatch_sound {start : Nat} {asked : List (List Position)} {batch : List Position}
    {failure : Option DerivationFailure} {log₀ : List Call} (hstart : start ≤ indexSpace)
    (hdrawn : Drawn A t start (min batchSize (indexSpace - start)) asked batch failure log₀)
    (hshort : batch.length < batchSize) (h : c.Past t gapLimit scan m (start + batch.length) log)
    (hlow : start + batch.length ≤ m) (hm : m ≤ indexSpace) (hasked : Asked A t c.asked) :
    (if c.gap.reached then ⟨c, .closed⟩ else c.cutOff failure : Finish).Sound A t gapLimit scan
      log := by
  split
  case isTrue hr => exact h.leave hlow hm hasked ⟨hr, h.failure⟩
  case isFalse hopen =>
    refine h.cutOff hlow hm hasked (Bool.eq_false_iff.mpr hopen)
      (fun f hf => (hdrawn.failed f hf).2) fun hnone => ?_
    -- Without a failure it is as long as the space allows.
    have hfull := hdrawn.full hnone
    omega

/-- A full batch leaves room for others. -/
theorem room_of_full (hspace : batchSize * n + batchSize ≤ indexSpace) :
    batchSize * (n + 1) < indexSpace := by
  simp only [batchSize, indexSpace, UInt32.size] at hspace ⊢
  omega

/-- After a full batch comes another turn. -/
theorem fullBatch_stands {asked : List (List Position)} {batch : List Position}
    {failure : Option DerivationFailure} {log₀ : List Call}
    (hdrawn : Drawn A t (batchSize * n) (min batchSize (indexSpace - batchSize * n)) asked batch
      failure log₀)
    (hfull : ¬batch.length < batchSize)
    (h : c.Past t gapLimit scan m (batchSize * n + batch.length) log)
    (hlow : batchSize * n + batch.length ≤ m)
    (hhigh : m ≤ batchSize * n + min batchSize (indexSpace - batchSize * n)) {start : UInt32}
    (hstart : start.toNat = batchSize * n)
    (hnext : c.next = saturatingAdd start (.ofNat batchSize)) (hqueries : c.asked.length = n + 1)
    (hasked : Asked A t c.asked) : c.At A t gapLimit scan .bulk (n + 1) log := by
  have hspace : batchSize * n < indexSpace := hstart ▸ start.toNat_lt
  have hle := hdrawn.length_le
  have hend : batchSize * n + batch.length = batchSize * (n + 1) := by
    rw [Nat.mul_succ]
    omega
  have hall : m = batchSize * (n + 1) := by omega
  have hroom : batchSize * (n + 1) < indexSpace := room_of_full (by omega)
  rw [hend, hall] at h
  have hindex : c.next.toNat = batchSize * (n + 1) := by
    rw [hnext, toNat_saturatingAdd (by rw [hstart]; exact hroom), hstart]
    rfl
  exact h.stand (s := .bulk) hindex hqueries hasked

theorem checkBatch_turn (h : c.At A t gapLimit scan .bulk n log) :
    Records A looks log (t.checkBatch c) (Turned A t gapLimit scan .bulk (n + 1)) := by
  have hnext : c.next.toNat = batchSize * n := h.next
  have hspace : batchSize * n < indexSpace := hnext ▸ c.next.toNat_lt
  have hpast : c.Past t gapLimit scan (batchSize * n) (batchSize * n) log := h.toPast
  unfold Target.checkBatch
  split
  case isTrue hr =>
    exact .done (hpast.leave (Nat.le_refl _) (Nat.le_of_lt hspace) h.asked ⟨hr, hpast.failure⟩)
  case isFalse hopen =>
    have hr : c.gap.reached = false := Bool.eq_false_iff.mpr hopen
    refine .bind (.isCancelled (Q := fun _ log =>
      c.Past t gapLimit scan (batchSize * n) (batchSize * n) log) fun _ _ => hpast)
      fun looked log hpast => ?_
    cases looked with
    | true => exact .done (hpast.cancel (Nat.le_refl _) (Nat.le_of_lt hspace) h.asked)
    | false =>
      rw [deriveFrom_offsets, hnext]
      refine .bind (.drawBatch hpast.logs (by omega)) ?_
      rintro ⟨batch, failure⟩ log₁ hdrawn
      dsimp only at hdrawn ⊢
      obtain ⟨m, hlow, hhigh, hlogs⟩ := hdrawn.logs
      have hm : m ≤ indexSpace := by omega
      have hpast : c.Past t gapLimit scan m (batchSize * n) log₁ := { hpast with logs := hlogs }
      cases batch with
      | nil =>
        have hsome : failure ≠ none := by
          intro hnone
          have hzero : 0 = min batchSize (indexSpace - batchSize * n) := hdrawn.full hnone
          simp only [batchSize] at hzero hspace
          omega
        refine .done (hpast.cutOff hlow hm h.asked hr (fun f hf => (hdrawn.failed f hf).2) ?_)
        exact fun hnone => absurd hnone hsome
      | cons p rest =>
        have hasked : Asked A t (c.asked ++ [p :: rest]) :=
          h.asked.append (List.cons_ne_nil p rest) (Nat.le_trans hdrawn.length_le (by omega))
            (by rw [h.queries]; exact hdrawn.spans)
        simp only [List.isEmpty_cons, Bool.false_eq_true, if_false]
        refine .bind (.askBatch hlogs (p :: rest)) fun view log₂ hlogs => ?_
        refine .bind (countBatch_counts (hpast.ask _ hlogs) hdrawn.spans view.toOption) ?_
        rintro (c' | f) log₃ hcounted
        · obtain ⟨hnext', hasked', hpast'⟩ := hcounted
          dsimp only at hnext' hasked' ⊢
          rw [← hasked'] at hasked
          split
          case isTrue hshort =>
            exact .done (shortBatch_sound (Nat.le_of_lt hspace) hdrawn hshort hpast' hlow hm hasked)
          case isFalse hfull =>
            have hqueries : c'.asked.length = n + 1 := by
              rw [hasked', List.length_append, h.queries]
              rfl
            exact .done (fullBatch_stands hdrawn hfull hpast' hlow hhigh hnext hnext' hqueries
              hasked)
        · obtain ⟨c', n', rfl, hasked', hle, hpast'⟩ := hcounted
          dsimp only at hasked'
          rw [← hasked'] at hasked
          exact .done (hpast'.cancel (Nat.le_trans hle hlow) hm hasked)

theorem turn_turned (h : c.At A t gapLimit scan s n log) :
    Records A looks log (s.turn t c) (Turned A t gapLimit scan s (n + 1)) := by
  cases s with
  | single => exact checkNext_turn h
  | bulk => exact checkBatch_turn h

end Turns

/-! ## All turns -/

theorem iterate_turned {c : Cursor} {k : Nat} (h : c.At A t gapLimit scan s k log) (n : Nat) :
    Records A looks log (Program.iterate (s.turn t) n c) (Turned A t gapLimit scan s (k + n)) := by
  induction n generalizing c k log with
  | zero => exact .done h
  | succ n ih =>
    refine .bind (turn_turned h) fun r log hr => ?_
    cases r with
    | inl c =>
      rw [← Nat.add_assoc, Nat.add_right_comm]
      exact ih hr
    | inr f => exact .done hr

/-- There is no index for another turn once so many turns go over the whole space. -/
theorem Turned.left {n : Nat} {r : Cursor ⊕ Finish} (h : Turned A t gapLimit scan s n r log)
    (hn : indexSpace ≤ s.stride * n) : ∃ f, r = .inr f := by
  cases r with
  | inl c =>
    have hnext : c.next.toNat = s.stride * n := h.next
    have hlt : c.next.toNat < indexSpace := c.next.toNat_lt
    omega
  | inr f => exact ⟨f, rfl⟩

theorem turns_turned (s : Strategy) (n : Nat) :
    Records A looks [] (Program.iterate (s.turn t) n (.start gapLimit scan))
      (Turned A t gapLimit scan s n) := by
  have hstart : (Cursor.start gapLimit scan).At A t gapLimit scan s 0 [] := Cursor.at_start s
  simpa only [Nat.zero_add] using iterate_turned hstart n

/-- So the scan of a chain comes to what its loop gathered. -/
theorem scanChain_sound (s : Strategy) (hgoing : scan.cancelled = false) :
    Records A looks [] (s.scanChain t gapLimit scan) fun scan' log =>
      ∃ f : Finish, f.scan = scan' ∧ f.Sound A t gapLimit scan log := by
  have hspace : indexSpace ≤ s.stride * indexSpace :=
    Nat.le_mul_of_pos_left _ (by cases s <;> decide)
  rw [← gathered_turns s hgoing hspace, map_eq_pure_bind]
  refine .bind (turns_turned s indexSpace) fun r log hr => ?_
  obtain ⟨f, rfl⟩ := hr.left hspace
  exact .done ⟨f, rfl, hr⟩

/-- The scan of a chain is a loop that comes to its end, however its collaborators answer. -/
structure Strategy.Ends (s : Strategy) (t : Target) (gapLimit : UInt32) (scan : SchemeScan) :
    Prop where
  /-- After any number of turns, the loop stands where it should, or was left as it should. -/
  turned : ∀ {A looks} n, Records A looks [] (Program.iterate (s.turn t) n (.start gapLimit scan))
    (Turned A t gapLimit scan s n)
  /-- After as many turns as go over the index space, it was left. -/
  left : ∀ {n}, indexSpace ≤ s.stride * n →
    Gives (fun _ _ => True) (Program.iterate (s.turn t) n (.start gapLimit scan)) fun r =>
      ∃ f, r = .inr f
  /-- These turns are the scan of the chain. No chain is scanned after a cancelled one. -/
  scans : scan.cancelled = false → ∀ {n}, indexSpace ≤ s.stride * n →
    gathered <$> Program.iterate (s.turn t) n (.start gapLimit scan) = s.scanChain t gapLimit scan
  /-- Where no collaborator crashes, every run of the scan comes to an outcome. -/
  returns : ∀ {σ : Type} {env : Environment σ}, env.Answers (fun _ _ => True) → ∀ w,
    ∃ scan' w', (s.scanChain t gapLimit scan).run env.handler w = (.ok scan', w')
  /-- The outcome is what the loop gathered, in the calls that the loop made. -/
  runs : scan.cancelled = false → ∀ {σ : Type} {env : Environment σ}
    {w w' : World (σ × List Answered)} {scan' : SchemeScan},
    (s.scanChain t gapLimit scan).run env.logged.handler w = (.ok scan', w') →
    ∃ (f : Finish) (u : List Answered), f.scan = scan' ∧ w'.state.2 = w.state.2 ++ u ∧
      f.Sound (fun c a => ⟨c, .ok a⟩ ∈ u) t gapLimit scan (u.map (·.call))

theorem chain_loops_end (s : Strategy) (t : Target) (gapLimit : UInt32) (scan : SchemeScan) :
    s.Ends t gapLimit scan where
  turned := turns_turned s
  left {n} hn := Gives.of_records ((turns_turned s n).mono fun r log hr => hr.left hn)
  scans hgoing _ hn := gathered_turns s hgoing hn
  returns {σ env} hanswers w := by
    have hkeeps : env.handler.Keeps (fun _ => True) fun _ _ => True :=
      ⟨fun _ => .intro, fun _ _ => .intro⟩
    obtain ⟨scan', w', hr, -⟩ := Program.run_total hkeeps (hanswers.total _) .intro
    exact ⟨scan', w', hr⟩
  runs hgoing {σ env w w' scan'} hr := by
    obtain ⟨u, hu, hlog⟩ := run_answered hr
    obtain ⟨f, hscan, hsound⟩ := (scanChain_sound s hgoing).exchanges hu fun c b hb => hb
    exact ⟨f, answered u, hscan, hlog, hsound⟩

/-- An output at index 1: the loop over batches is left with it after one turn and a look at the
limit, and so is the scan of the chain. -/
theorem chain_loops_end_funded :
    let t : Target := ⟨.default, ⟨[7]⟩, .bip44 "wallet" 5 [0] 1, ⟨0, false⟩⟩
    let env := Environment.ofAnswers (Environment.ledgerAnswer fun address =>
      if address = "a" then [⟨"t", 0, 5000, "a", 1⟩] else [])
    ∃ scan w, ∃ f : Finish,
      (Strategy.bulk.scanChain t 2 (.start "wallet")).run env.logged.handler
        ⟨((), []), false, 0⟩ = (.ok scan, w) ∧
      scan.found.map (·.index) = [1] ∧ scan.scanned = 4 ∧ f.scan = scan ∧
      f.Sound (fun c a => ⟨c, .ok a⟩ ∈ w.state.2) t 2 (.start "wallet") w.calls := by
  intro t env
  have hends := chain_loops_end .bulk t 2 (.start "wallet")
  have hgathered : ((Strategy.bulk.scanChain t 2 (.start "wallet")).run env.logged.handler
      ⟨((), []), false, 0⟩).1.map (fun scan => (scan.found.map (·.index), scan.scanned)) =
        .ok ([1], 4) := by decide +kernel
  obtain ⟨scan, w, hrun, hscan⟩ := exists_ok_of_map hgathered
  obtain ⟨hfound, hscanned⟩ := Prod.mk.inj hscan
  obtain ⟨f, u, hf, hlog, hsound⟩ := hends.runs rfl hrun
  rw [List.nil_append] at hlog
  rw [← hlog] at hsound
  exact ⟨scan, w, f, hrun, hfound, hscanned, hf, hsound⟩

/-- On a chain without outputs, a turn counts one index or the first batch up to the gap limit, and
another turn finds the limit reached. -/
example :
    let t : Target := ⟨.default, ⟨[7]⟩, .bip44 "wallet" 5 [0] 1, ⟨0, false⟩⟩
    let turns (s : Strategy) (n : Nat) := Scan.value (Environment.ledgerAnswer fun _ => [])
      (Program.iterate (s.turn t) n (.start 2 (.start "wallet")))
    (turns .single 2).isLeft ∧ (turns .single 3).getRight?.map (·.counted) = some [0, 1] ∧
      (turns .bulk 1).isLeft ∧ (turns .bulk 2).getRight?.map (·.counted) = some [0, 1] := by
  decide +kernel

end FundRecovery.Discovery

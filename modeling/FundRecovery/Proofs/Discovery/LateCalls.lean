import FundRecovery.Proofs.Discovery.Truncation

/-!
# Calls after a cancellation

The token is often cancelled in the course of a call, and a scan notices when it next looks. Between
two looks it asks for the outputs of one address, or once about a batch, or for one seed, so little
is asked after the cancellation. Answers may be any here.

* `Environment.watched`: an environment that keeps the calls begun while the token was cancelled.
* `Stretch`: calls that may be made from one look to the next.
* `Heeds A T since p Q`: the program makes such calls, and no more once it finds the token
  cancelled. The rules follow the syntax of programs. `Heeds.run`: what this means for a run.
* `scanSchemes_heeds`: so does a scan of schemes, as long as seeds are obtained.
* `scanSchemes_stops`: cancelling a scan is a prompt, soft stop.
-/

namespace FundRecovery.Discovery

variable {σ α β : Type}

/-! ## Late calls -/

/-- Keeps the calls that are begun while the token is cancelled. -/
def Environment.watched (env : Environment σ) : Handler interface (World σ × List Call) :=
  fun q (w, late) =>
    let r := env.handler q w
    (r.1, (r.2, late ++ if w.cancelled then calls [q] else []))

/-- A call is late if it is begun while the token is cancelled. -/
theorem Environment.watched_call {env : Environment σ} {c : Call} {w : World σ} {a : c.Answer}
    (ha : (env.reply c w.state).answer = .ok a) (late : List Call) :
    env.watched (.call c) (w, late) =
      (.ok a, ((env.handler (.call c) w).2, late ++ if w.cancelled then [c] else [])) := by
  show ((env.reply c w.state).answer, _) = _
  rw [ha]
  rfl

/-- No look is late. -/
theorem Environment.watched_look (env : Environment σ) (w : World σ) (late : List Call) :
    env.watched .isCancelled (w, late) =
      (.ok (env.handler .isCancelled w).2.cancelled, ((env.handler .isCancelled w).2, late)) := by
  show (_, _, late ++ if w.cancelled then [] else []) = _
  rw [ite_self, List.append_nil]
  rfl

/-- Watching changes nothing. -/
theorem run_watched (env : Environment σ) (p : Scan α) (w : World σ) (late : List Call) :
    ∃ late', p.run env.watched (w, late) =
      ((p.run env.handler w).1, ((p.run env.handler w).2, late')) := by
  induction p generalizing w late with
  | done a => exact ⟨late, rfl⟩
  | ask q next ih =>
    rw [Program.run_ask, Program.run_ask, Environment.watched]
    rcases env.handler q w with ⟨e | a, w₁⟩
    · exact ⟨_, rfl⟩
    · exact ih a w₁ _

/-- What a call is about. -/
inductive Kind where
  | derivation | seed | lookup | check | fetch | report
  deriving DecidableEq

def Call.kind : Call → Kind
  | deriveAddress .. | deriveLegacyAddress .. => .derivation
  | seedForPassphrase .. => .seed
  | listUtxos _ => .lookup
  | checkActivity _ => .check
  | fetchUtxos _ => .fetch
  | report _ => .report

/-- The number of calls of a kind. -/
def countOf (kind : Kind) (calls : List Call) : Nat := calls.countP (·.kind = kind)

/-- The calls about seeds, outputs and activity. -/
def probes (calls : List Call) : List Call :=
  calls.filter fun c => c.kind ≠ .derivation ∧ c.kind ≠ .report

theorem countOf_probes {kind : Kind} (h : kind ≠ .derivation ∧ kind ≠ .report)
    (calls : List Call) : countOf kind (probes calls) = countOf kind calls := by
  rw [countOf, probes, List.countP_filter]
  refine List.countP_congr fun c _ => ?_
  simp only [Bool.and_eq_true, decide_eq_true_eq, and_iff_left_iff_imp]
  rintro rfl
  exact h

@[simp] theorem probes_append (a b : List Call) : probes (a ++ b) = probes a ++ probes b :=
  List.filter_append ..

@[simp] theorem probes_derivation (t : Target) (index : UInt32) :
    probes [t.derivation index] = [] := by
  unfold Target.derivation
  split <;> rfl

@[simp] theorem probes_reports (options : ScanOptions) (event : ScanProgress) :
    probes (reports options event) = [] := by
  unfold reports
  split <;> rfl

/-- One address is looked up, or a batch is asked about, or nothing is asked. -/
inductive Brief : List Call → Prop where
  | idle : Brief []
  | lookup (address : String) : Brief [.listUtxos address]
  | check (addresses : List String) : Brief [.checkActivity addresses]
  | fetch (addresses active : List String) : Brief [.checkActivity addresses, .fetchUtxos active]

/-- Calls that may be made from one look to the next: brief ones, or the request for a seed. -/
inductive Stretch (calls : List Call) : Prop where
  | brief (h : Brief (probes calls))
  | seed (seed : Seed) (passphrase : String) (h : calls = [.seedForPassphrase seed passphrase])

theorem stretch_nil : Stretch [] := .brief .idle

/-- One lookup, one activity check and one fetch at most, and no request for a seed. -/
structure Modest (calls : List Call) : Prop where
  lookups : countOf .lookup calls ≤ 1
  checks : countOf .check calls ≤ 1
  fetches : countOf .fetch calls ≤ 1
  seeds : countOf .seed calls = 0

theorem Brief.modest {calls : List Call} (h : Brief calls) : Modest calls := by
  cases h <;> constructor <;> simp [countOf, Call.kind]

/-- The first of these calls apart, they are modest. -/
theorem Stretch.modest {calls late : List Call} (h : Stretch calls) (hlate : late <:+ calls.tail) :
    Modest late := by
  cases h with
  | brief h =>
    have hle {kind : Kind} (hkind : kind ≠ .derivation ∧ kind ≠ .report) :
        countOf kind late ≤ countOf kind (probes calls) := by
      rw [countOf_probes hkind]
      exact (hlate.sublist.trans (List.tail_sublist calls)).countP_le
    have hmodest := h.modest
    exact ⟨Nat.le_trans (hle (by decide)) hmodest.lookups,
      Nat.le_trans (hle (by decide)) hmodest.checks,
      Nat.le_trans (hle (by decide)) hmodest.fetches,
      Nat.eq_zero_of_le_zero (hmodest.seeds ▸ hle (by decide))⟩
  | seed seed passphrase h =>
    rw [h, List.tail_cons, List.suffix_nil] at hlate
    rw [hlate]
    exact Brief.idle.modest

/-! ## Programs -/

/-- Where it finds the token cancelled at every look, the program makes no call, and ends in `T`. -/
def Stops (T : α → Prop) : Scan α → Prop
  | .done a => T a
  | .ask (.call _) _ => False
  | .ask .isCancelled next => Stops T (next true)

/-- With answers that `A` allows, the calls from one look to the next are such as may be made, if
`since` are those since the last look, and the program stops where it finds the token cancelled. It
ends in `T` there, and with `Q` of its outcome and the calls since the last look otherwise. -/
def Heeds (A : (c : Call) → c.Answer → Prop) (T : α → Prop) (since : List Call) :
    Scan α → (α → List Call → Prop) → Prop
  | .done a, Q => Q a since
  | .ask (.call c) next, Q => ∀ a, A c a → Heeds A T (since ++ [c]) (next a) Q
  | .ask .isCancelled next, Q => Stretch since ∧ Stops T (next true) ∧ Heeds A T [] (next false) Q

section Rules

variable {A : (c : Call) → c.Answer → Prop} {T : α → Prop} {T' : β → Prop} {since : List Call}
  {p : Scan α} {f : α → Scan β} {Q : α → List Call → Prop} {S : β → List Call → Prop}

theorem Stops.bind (hp : Stops T p) (hf : ∀ a, T a → Stops T' (f a)) : Stops T' (p >>= f) := by
  induction p with
  | done a => exact hf a hp
  | ask q next ih =>
    cases q with
    | call c => exact hp.elim
    | isCancelled => exact ih true hp

/-- What is stopped ends in `T`, and nothing is asked. -/
theorem Stops.run {env : Environment σ} (hp : Stops T p) {w : World σ} (hw : w.cancelled = true)
    (late : List Call) :
    ∃ a w', p.run env.watched (w, late) = (.ok a, (w', late)) ∧ T a ∧ w'.cancelled = true := by
  induction p generalizing w with
  | done a => exact ⟨a, w, rfl, hp, hw⟩
  | ask q next ih =>
    cases q with
    | call c => exact hp.elim
    | isCancelled =>
      have hstays : (env.handler .isCancelled w).2.cancelled = true :=
        Pool.Ledger.cancelled_handler hw
      rw [Program.run_ask, Environment.watched_look, hstays]
      exact ih true hp hstays

namespace Heeds

theorem done {a : α} (h : Q a since) : Heeds A T since (.done a) Q := h

theorem bind (hp : Heeds A T since p Q) (hf : ∀ a since, Q a since → Heeds A T' since (f a) S)
    (hstop : ∀ a, T a → Stops T' (f a)) : Heeds A T' since (p >>= f) S := by
  induction p generalizing since with
  | done a => exact hf a since hp
  | ask q next ih =>
    cases q with
    | call c => exact fun a ha => ih a (hp a ha)
    | isCancelled => exact ⟨hp.1, hp.2.1.bind hstop, ih false hp.2.2⟩

/-- After a program that never looks at the token. -/
theorem after (hp : Heeds A (fun _ => False) since p Q)
    (hf : ∀ a since, Q a since → Heeds A T' since (f a) S) : Heeds A T' since (p >>= f) S :=
  bind hp hf fun _ => False.elim

theorem look {f : Bool → Scan β} (hs : Stretch since) (hstop : Stops T' (f true))
    (hf : Heeds A T' [] (f false) S) : Heeds A T' since (isCancelled >>= f) S := ⟨hs, hstop, hf⟩

theorem call {c : Call} {T : c.Answer → Prop} {Q : c.Answer → List Call → Prop}
    (h : ∀ a, A c a → Q a (since ++ [c])) : Heeds A T since (Discovery.call c) Q := h

theorem report {options : ScanOptions} {event : ScanProgress} {T : Unit → Prop}
    {Q : Unit → List Call → Prop} (h : Q () (since ++ reports options event)) :
    Heeds A T since (Discovery.report options event) Q := by
  unfold Discovery.report reports at *
  split <;> rename_i ho <;> simp only [ho, ↓reduceIte] at h
  · exact call fun _ _ => h
  · exact done (by simpa using h)

/-- With fixed answers, what is so of every course is so of the value. -/
theorem value {answer : (c : Call) → c.Answer}
    (h : Heeds (fun c a => a = answer c) T since p Q) : ∃ log, Q (p.value answer) log := by
  induction p generalizing since with
  | done a => exact ⟨since, h⟩
  | ask q next ih =>
    cases q with
    | call c => exact ih (answer c) (h _ rfl)
    | isCancelled => exact ih false h.2.2

end Heeds

end Rules

/-! ## Runs -/

/-- The calls that are late, where `since` are those since the last look: the token was cancelled
in the course of one of these, if at all. -/
inductive Late (since : List Call) (w : World σ) (late : List Call) : Prop where
  | going (hw : w.cancelled = false) (h : late = [])
  | cancelled (hw : w.cancelled = true) (hsince : since ≠ []) (h : late <:+ since.tail)

namespace Late

variable {env : Environment σ} {since late : List Call} {w : World σ}

/-- Right after a look nothing is late. -/
theorem of_nil (h : Late [] w late) : w.cancelled = false ∧ late = [] := by
  cases h with
  | going hw h => exact ⟨hw, h⟩
  | cancelled hw hsince h => exact absurd rfl hsince

theorem eq_nil (h : Late since w late) (hw : w.cancelled = false) : late = [] := by
  cases h with
  | going _ h => exact h
  | cancelled hcancelled => exact absurd (hw.symm.trans hcancelled) Bool.false_ne_true

/-- One more call. -/
theorem called (h : Late since w late) (c : Call) :
    Late (since ++ [c]) (env.handler (.call c) w).2
      (late ++ if w.cancelled then [c] else []) := by
  cases h with
  | going hw h =>
    rw [h, hw]
    cases hnow : (env.handler (.call c) w).2.cancelled with
    | false => exact .going hnow rfl
    | true => exact .cancelled hnow (List.concat_ne_nil c since) List.nil_suffix
  | cancelled hw hsince h =>
    refine .cancelled (Pool.Ledger.cancelled_handler hw) (List.concat_ne_nil c since) ?_
    obtain ⟨front, hfront⟩ := h
    rw [hw, List.tail_append_of_ne_nil hsince, ← hfront]
    exact ⟨front, by simp⟩

end Late

/-- **What it means to heed the token.** Where every call is answered, the program ends. If it ended
because it found the token cancelled, the late calls are among those from one look to the next. -/
theorem Heeds.run {env : Environment σ} {A : (c : Call) → c.Answer → Prop} (h : env.Answers A)
    {T : α → Prop} {since : List Call} {p : Scan α} {Q : α → List Call → Prop}
    (hp : Heeds A T since p Q) {w : World σ} {late : List Call} (hlate : Late since w late) :
    ∃ a w' late', p.run env.watched (w, late) = (.ok a, (w', late')) ∧
      ((∃ since', Q a since' ∧ Late since' w' late') ∨
        (T a ∧ w'.cancelled = true ∧ ∃ since', Stretch since' ∧ late' <:+ since'.tail)) := by
  induction p generalizing since w late with
  | done a => exact ⟨a, w, late, rfl, .inl ⟨since, hp, hlate⟩⟩
  | ask q next ih =>
    cases q with
    | call c =>
      obtain ⟨a, ha, hA⟩ := h c w.state
      rw [Program.run_ask, Environment.watched_call ha]
      exact ih a (hp a hA) (hlate.called c)
    | isCancelled =>
      obtain ⟨hstretch, hstop, hgo⟩ := hp
      rw [Program.run_ask, Environment.watched_look]
      cases hw : (env.handler .isCancelled w).2.cancelled with
      | false =>
        obtain rfl := hlate.eq_nil (Environment.going_of_handler hw)
        exact ih false hgo (.going hw rfl)
      | true =>
        obtain ⟨a, w', hr, hT, hw'⟩ := hstop.run hw late
        refine ⟨a, w', late, hr, .inr ⟨hT, hw', ?_⟩⟩
        cases hlate with
        | going _ h =>
          rw [h]
          exact ⟨[], stretch_nil, List.suffix_rfl⟩
        | cancelled _ _ h => exact ⟨since, hstretch, h⟩

/-! ## The parts of a scan -/

section Parts

variable {A : (c : Call) → c.Answer → Prop} {since : List Call} {t : Target} {scan : SchemeScan}
  {index : UInt32} {address : String} {derived : DerivedAddress} {utxos : List Utxo}

namespace Heeds

theorem derive {T : Except DerivationError DerivedAddress → Prop} :
    Heeds A T since (t.derive index) fun _ log => log = since ++ [t.derivation index] := by
  unfold Target.derive Target.derivation
  split
  · exact call fun _ _ => rfl
  · exact call fun _ _ => rfl

theorem visit {T : SchemeScan → Prop} :
    Heeds A T since (visit t address scan) fun r log =>
      r.cancelled = scan.cancelled ∧ probes log = probes since :=
  .after (.report (Q := fun _ log => probes log = probes since) (by simp)) fun _ _ h =>
    .done ⟨rfl, h⟩

theorem lookupUtxos {T : List Utxo → Prop} :
    Heeds A T since (lookupUtxos t address scan) fun _ log =>
      probes log = probes since ++ [.listUtxos address] := by
  refine .after (.call (Q := fun _ log => log = since ++ [.listUtxos address]) fun _ _ => rfl) ?_
  rintro r _ rfl
  cases r with
  | ok utxos => exact .done (probes_append _ _)
  | error e =>
    refine .after (.report (Q := fun _ log =>
      probes log = probes since ++ [.listUtxos address]) ?_) fun _ _ h => .done h
    rw [probes_append, probes_reports, List.append_nil, probes_append]
    rfl

theorem recordFound {T : SchemeScan → Prop} :
    Heeds A T since (recordFound t index derived utxos scan) fun r log =>
      r.cancelled = scan.cancelled ∧ probes log = probes since := by
  unfold Discovery.recordFound
  split
  · exact .done ⟨rfl, rfl⟩
  · exact .after (.report (Q := fun _ log => probes log = probes since) (by simp)) fun _ _ h =>
      .done ⟨rfl, h⟩

theorem deriveBatch {T : List Position × Option DerivationFailure → Prop} (indices : List Nat) :
    Heeds A T since (deriveBatch t indices) fun _ log => probes log = probes since := by
  induction indices generalizing since T with
  | nil => exact .done rfl
  | cons i rest ih =>
    refine .after derive ?_
    rintro r _ rfl
    cases r with
    | error e => exact .done (by simp)
    | ok derived => exact .after ih fun _ _ h => .done (by simpa using h)

/-- A batch is asked about once. -/
theorem bulkLookup {T : Except ChainError BulkView → Prop} (hidle : probes since = [])
    (addresses : List String) :
    Heeds A T since (bulkLookup addresses) fun _ log => Brief (probes log) := by
  refine .after (.call (Q := fun _ log => probes log = [.checkActivity addresses]) fun _ _ => ?_) ?_
  · rw [probes_append, hidle]
    rfl
  rintro r log hcheck
  cases r with
  | error e => exact .done (hcheck ▸ .check addresses)
  | ok activity =>
    dsimp only
    split
    · exact .done (hcheck ▸ .check addresses)
    refine .after (.call (Q := fun _ log => Brief (probes log)) fun _ _ => ?_) ?_
    · rw [probes_append, hcheck]
      exact .fetch addresses _
    · rintro r _ hbrief
      cases r <;> exact .done hbrief

/-- One address is looked up, or none. -/
theorem takeOrLookup {T : Bool × List Utxo × Option BulkView → Prop} (hidle : probes since = [])
    (view : Option BulkView) :
    Heeds A T since (takeOrLookup t view address scan) fun _ log => Brief (probes log) := by
  cases view with
  | some view => exact .done (hidle ▸ .idle)
  | none =>
    refine .after lookupUtxos fun _ _ h => .done ?_
    rw [h, hidle]
    exact .lookup address

end Heeds

end Parts

/-! ## The scan of a chain -/

section Chain

variable {A : (c : Call) → c.Answer → Prop} {T : SchemeScan → Prop} {since : List Call}
  {t : Target} {gap : GapLimit} {scan : SchemeScan}

/-- The scan was not stopped so far, and only brief calls were made since the last look. -/
structure Going (scan : SchemeScan) (since : List Call) : Prop where
  cancelled : scan.cancelled = false
  brief : Brief (probes since)

theorem scanIndices_heeds (left index : Nat) (h : Going scan since) :
    Heeds A (fun _ => True) since (scanIndices t left index gap scan) Going := by
  induction left generalizing index gap scan since with
  | zero => exact .done h
  | succ left ih =>
    rw [scanIndices]
    split
    · exact .done h
    refine .look (.brief h.brief) .intro (.after .derive ?_)
    rintro r _ rfl
    have hderived : probes ([] ++ [t.derivation (UInt32.ofNat index)]) = [] := probes_derivation t _
    cases r with
    | error e => exact .done ⟨h.cancelled, by rw [hderived]; exact .idle⟩
    | ok derived =>
      refine .after .visit ?_
      rintro scan₁ _ ⟨hcancelled₁, hvisit⟩
      refine .after .lookupUtxos ?_
      rintro utxos _ hlookup
      refine .after .recordFound ?_
      rintro scan₂ log ⟨hcancelled₂, hfound⟩
      refine ih (index + 1) ⟨?_, ?_⟩
      · rw [hcancelled₂, hcancelled₁, h.cancelled]
      · rw [hfound, hlookup, hvisit, hderived]
        exact .lookup derived.address

theorem scanBatch_heeds (batch : List Position) (view : Option BulkView) (h : Going scan since) :
    Heeds A (fun _ => True) since (scanBatch t batch view gap scan) fun r log => Going r.2 log := by
  induction batch generalizing view gap scan since with
  | nil => exact .done h
  | cons p rest ih =>
    rw [scanBatch]
    split
    · exact .done h
    refine .look (.brief h.brief) .intro (.after .visit ?_)
    rintro scan₁ _ ⟨hcancelled₁, hvisit⟩
    refine .after (.takeOrLookup hvisit view) ?_
    rintro ⟨active, utxos, view⟩ _ hbrief
    refine .after .recordFound ?_
    rintro scan₂ log ⟨hcancelled₂, hfound⟩
    refine ih view ⟨?_, ?_⟩
    · rw [hcancelled₂, hcancelled₁, h.cancelled]
    · rwa [hfound]

theorem stops_scanBatches (left start : Nat) (gap : GapLimit) (scan : SchemeScan) :
    Stops (fun _ => True) (scanBatches t left start gap scan) := by
  cases left with
  | zero => exact .intro
  | succ left =>
    cases hgap : gap.reached with
    | true =>
      rw [scanBatches, hgap]
      exact .intro
    | false =>
      rw [scanBatches_succ left start hgap]
      exact .intro

theorem scanBatches_heeds (left start : Nat) (gap : GapLimit) (h : Going scan since) :
    Heeds A (fun _ => True) since (scanBatches t left start gap scan) Going := by
  induction left generalizing start gap scan since with
  | zero => exact .done h
  | succ left ih =>
    cases hgap : gap.reached with
    | true =>
      rw [scanBatches, hgap]
      exact .done h
    | false =>
      rw [scanBatches_succ left start hgap]
      refine .look (.brief h.brief) .intro (.after (.deriveBatch _) ?_)
      rintro r log hidle
      split
      · exact .done ⟨h.cancelled, hidle ▸ .idle⟩
      refine .after (.bulkLookup hidle _) fun view log hbrief => ?_
      refine .bind (scanBatch_heeds r.1 view.toOption ⟨h.cancelled, hbrief⟩) ?_ ?_
      · intro r' log h'
        unfold afterBatch
        split
        · exact .done h'
        split
        · split
          · exact .done h'
          · exact .done ⟨h'.cancelled, h'.brief⟩
        · exact ih _ _ h'
      · intro r' _
        unfold afterBatch
        split
        · exact .intro
        split
        · exact .intro
        · exact stops_scanBatches ..

end Chain

/-! ## The scan of a scheme -/

section Scheme

variable {A : (c : Call) → c.Answer → Prop} {since : List Call} {s : Scanner} {seed : Seed}
  {scheme : PathScheme} {scan : SchemeScan}

theorem scanChain_heeds (t : Target) (gapLimit : UInt32) (h : Going scan since) :
    Heeds A (fun _ => True) since (s.scanChain t gapLimit scan) Going := by
  unfold Scanner.scanChain
  split
  · exact scanBatches_heeds batchCount 0 _ h
  · exact scanIndices_heeds indexSpace 0 h

theorem stops_scanChains (gapLimit : UInt32) (chains : List Chain) (scan : SchemeScan) :
    Stops (fun _ => True) (s.scanChains seed scheme gapLimit chains scan) := by
  cases chains <;> exact .intro

theorem scanChains_heeds (gapLimit : UInt32) (chains : List Chain) (h : Going scan since) :
    Heeds A (fun _ => True) since (s.scanChains seed scheme gapLimit chains scan) Going := by
  induction chains generalizing scan since with
  | nil => exact .done h
  | cons chain rest ih =>
    refine .look (.brief h.brief) .intro (.bind (scanChain_heeds _ gapLimit ⟨h.cancelled, .idle⟩)
      (fun scan log h => ?_) fun scan _ => ?_)
    · split
      · exact .done h
      · exact ih h
    · split
      · exact .intro
      · exact stops_scanChains gapLimit rest scan

theorem scanScheme_heeds (gapLimit : UInt32) (priorityIndex : Nat) (h : Brief (probes since)) :
    Heeds A (fun _ => True) since (s.scanScheme seed scheme gapLimit priorityIndex) fun o log =>
      o.cancelled = false ∧ Brief (probes log) :=
  .bind (scanChains_heeds gapLimit _ ⟨rfl, h⟩) (fun _ _ h => .done ⟨h.cancelled, h.brief⟩)
    fun _ _ => .intro

end Scheme

/-! ## Attempts -/

section Attempts

variable {A : (c : Call) → c.Answer → Prop} {since : List Call} {s : Scanner} {seed used : Seed}
  {schemes : List PathScheme}

theorem stops_scanInOrder (first : Nat) (schemes : List PathScheme) (a : Attempt) :
    Stops (fun _ => True) (s.scanInOrder used first schemes a) := by
  cases schemes <;> exact .intro

theorem scanInOrder_heeds (first : Nat) (schemes : List PathScheme) {a : Attempt}
    (ha : a.cancelled = false) (h : Stretch since) :
    Heeds A (fun _ => True) since (s.scanInOrder used first schemes a) fun a log =>
      a.cancelled = false ∧ Stretch log := by
  induction schemes generalizing first a since with
  | nil => exact .done ⟨ha, h⟩
  | cons scheme rest ih =>
    refine .look h .intro (.bind (scanScheme_heeds _ first .idle) ?_ fun o _ =>
      stops_scanInOrder (first + 1) rest _)
    rintro o log ⟨ho, hbrief⟩
    refine ih (first + 1) ?_ (.brief hbrief)
    rw [Attempt.cancelled_absorb, ha, ho, Bool.or_false]

/-- The last look of an attempt decides whether it was stopped. -/
theorem attempt_heeds (schemes : List PathScheme) (used : Seed) (passphrase : String)
    (h : Stretch since) :
    Heeds A (fun a => a.cancelled = true) since (s.attempt schemes used passphrase) fun a log =>
      a.cancelled = false ∧ log = [] := by
  refine .bind (scanInOrder_heeds 0 schemes rfl h) ?_ fun a _ => Bool.or_true _
  rintro a log ⟨ha, hstretch⟩
  exact .look hstretch (Bool.or_true _) (.done ⟨(Bool.or_false _).trans ha, rfl⟩)

theorem stops_attempt (schemes : List PathScheme) (used : Seed) (passphrase : String) :
    Stops (fun a => a.cancelled = true) (s.attempt schemes used passphrase) :=
  (stops_scanInOrder 0 schemes _).bind fun _ _ => Bool.or_true _

/-- Seeds are always obtained. -/
def SeedsObtained : (c : Call) → c.Answer → Prop
  | .seedForPassphrase _ _, r => ∃ used, r = .ok used
  | _, _ => True

theorem seedFor_heeds {T : Except DerivationError Seed → Prop} (seed : Seed) (passphrase : String) :
    Heeds SeedsObtained T [] (Scanner.seedFor seed passphrase) fun r log =>
      (∃ used, r = .ok used) ∧ Stretch log := by
  unfold Scanner.seedFor
  split
  · exact .done ⟨⟨seed, rfl⟩, stretch_nil⟩
  · exact .call fun r hr => ⟨hr, .seed seed passphrase rfl⟩

theorem attempts_heeds (schemes : List PathScheme) (passphrases : List String) (number : Nat)
    {as : Attempts} (h : as.result.cancelled = false) :
    Heeds SeedsObtained (fun as => as.result.cancelled = true) []
      (Attempts.run (Scanner.seedFor seed) (fun _ => s.attempt schemes) number as passphrases)
      fun as log => as.result.cancelled = false ∧ log = [] := by
  induction passphrases generalizing number as with
  | nil => exact .done ⟨h, rfl⟩
  | cons passphrase rest ih =>
    refine .after (seedFor_heeds seed passphrase) ?_
    rintro _ log ⟨⟨used, rfl⟩, hstretch⟩
    refine .bind (attempt_heeds schemes used passphrase hstretch) ?_ fun a ha => ?_
    · rintro a _ ⟨ha, rfl⟩
      split
      · exact .done ⟨ha, rfl⟩
      · exact ih _ ha
    · rw [ha, Bool.or_true]
      exact ha

/-- The scan stops where it finds the token cancelled, and only there does it say so. -/
theorem scanSchemes_heeds (hready : s.checkReady seed schemes = .ok ()) :
    Heeds SeedsObtained (fun r => ∃ result, r = .ok result ∧ result.cancelled = true) []
      (s.scanSchemes seed schemes) fun r log =>
        (∃ result, r = .ok result ∧ result.cancelled = false) ∧ log = [] := by
  rw [Scanner.scanSchemes, hready, map_eq_pure_bind, Scanner.attempts, bind_assoc]
  refine .bind (attempts_heeds _ _ 1 rfl) ?_ fun as has => ⟨_, rfl, has⟩
  rintro as _ ⟨has, rfl⟩
  exact .done ⟨⟨_, rfl, has⟩, rfl⟩

/-- The request for the seed of a passphrase. -/
def seedRequest (seed : Seed) (passphrase : String) : List Call :=
  if passphrase = "" then [] else [.seedForPassphrase seed passphrase]

/-- The scan begins with the seed of its first attempt, and may be stopped right after it. -/
theorem scanSchemes_begins (hready : s.checkReady seed schemes = .ok ()) :
    ∃ f : Except DerivationError Seed → Scan (Except RecoveryError ScanResult),
      s.scanSchemes seed schemes =
        Scanner.seedFor seed (s.options.passphraseAttempts.headD "") >>= f ∧
      ∀ used,
        Stops (fun r => ∃ result, r = .ok result ∧ result.cancelled = true) (f (.ok used)) := by
  obtain ⟨first, rest, hfirst⟩ : ∃ first rest, s.options.passphraseAttempts = first :: rest := by
    unfold ScanOptions.passphraseAttempts
    cases s.options.passphrases with
    | nil => exact ⟨"", [], rfl⟩
    | cons first rest => exact ⟨first, rest, rfl⟩
  rw [Scanner.scanSchemes, hready, map_eq_pure_bind, Scanner.attempts, hfirst, Attempts.run]
  simp only [bind_assoc]
  refine ⟨_, rfl, fun used => Stops.bind (T := fun as : Attempts => as.result.cancelled = true)
    ((stops_attempt _ used first).bind fun a ha => ?_) fun as has => ⟨_, rfl, has⟩⟩
  rw [ha, Bool.or_true]
  exact ha

/-- With a token that is cancelled from the start, the first seed is all that is asked for. -/
theorem run_cancelled {env : Environment σ} (h : env.Answers SeedsObtained)
    (hready : s.checkReady seed schemes = .ok ()) {w : World σ} (hw : w.cancelled = true) :
    ∃ result w', (s.scanSchemes seed schemes).run env.watched (w, []) =
        (.ok (.ok result), (w', seedRequest seed (s.options.passphraseAttempts.headD ""))) ∧
      result.cancelled = true ∧ w'.cancelled = true := by
  obtain ⟨f, hscan, hstop⟩ := scanSchemes_begins hready
  rw [hscan]
  generalize s.options.passphraseAttempts.headD "" = first
  unfold Scanner.seedFor seedRequest
  split
  · obtain ⟨_, w', hr, ⟨result, rfl, hresult⟩, hw'⟩ := (hstop seed).run hw []
    exact ⟨result, w', hr, hresult, hw'⟩
  · obtain ⟨_, ha, used, rfl⟩ := h (.seedForPassphrase seed first) w.state
    obtain ⟨_, w', hr, ⟨result, rfl, hresult⟩, hw'⟩ :=
      (hstop used).run (Pool.Ledger.cancelled_handler hw) [.seedForPassphrase seed first]
    refine ⟨result, w', ?_, hresult, hw'⟩
    rw [call, Program.request_bind, Program.run_ask, Environment.watched_call ha, hw]
    exact hr

/-- The result of a scan is marked. -/
theorem marked_scanSchemes {env : Environment σ} {w w' : World σ} {result : ScanResult}
    (hr : (s.scanSchemes seed schemes).run env.handler w = (.ok (.ok result), w')) :
    result.Marked := by
  have hevolves : Evolves env (fun _ => True) (fun _ _ => True) fun _ _ _ => True :=
    Environment.Tells.evolves fun _ _ _ _ => .intro
  have hmarked : Leads (fun _ _ => True) (fun _ => True)
      (Run.ofScan env (s.scanSchemes seed schemes)) fun r _ =>
        ∀ result, r = .ok result → result.Marked := by
    refine leads_scanSchemes (fun _ => .intro) (fun _ _ => .intro) (fun e w => by rintro _ ⟨⟩)
      fun _ => ?_
    rw [Scanner.attempts, ofScan_bind, ofScan_attempts]
    refine .bind (fun _ _ => .intro) (sound_attempts (fun number used p =>
      leads_ofScan hevolves (asks_any _) fun _ => gives_attempt _ used p) _)
      fun as => .pure (fun _ => .intro) fun w has => ?_
    rintro _ ⟨rfl⟩
    exact has.marked
  exact (hmarked w _ w' .intro hr).2 _ rfl result rfl

end Attempts

end FundRecovery.Discovery

import FundRecovery.Discovery.Parallel
import FundRecovery.Proofs.Discovery.JobLedger
import FundRecovery.Proofs.Discovery.ScanInvariant
import FundRecovery.Proofs.Discovery.SequentialScan
import FundRecovery.Proofs.Discovery.Trials

/-!
# What runs do and find out

A run leaves its world in a later state, and knows there what it was told on the way, however other
workers move in between. `Evolves` says what later means and that nothing told is lost. `Leads` is a
triple on top of it: the world moves on wherever the run ends, and a value that it ends in meets the
postcondition by what is known by then.

* `Asks C p`: whatever is answered, the program makes calls that meet `C` only. `Asks.records`: what
  survives such calls survives the program. `asks_derive`, `asks_visit` and their like: what the
  parts of a scan ask.
* `Gives A p Q`: with answers that `A` allows, every outcome of the program meets `Q`.
* `Evolves env C R A`: where calls meet `C`, worlds move on along `R`, and `A` keeps the answers.
* `Leads R Pre x Post`, with the rules `pure`, `bind`, `frame`; `leads_ofScan` is the rule for
  programs, `leads_runPool` the one for worker pools.
-/

namespace FundRecovery.Discovery

variable {σ α β : Type} {env : Environment σ} {C : Call → Prop}

/-! ## Programs -/

/-- A look at the token is always fine. -/
def Request.Meets (C : Call → Prop) : Request → Prop
  | .call c => C c
  | .isCancelled => True

/-- Whatever is answered, the program makes calls that meet `C` only. -/
def Asks (C : Call → Prop) : Scan α → Prop
  | .done _ => True
  | .ask q next => q.Meets C ∧ ∀ a, Asks C (next a)

/-- With answers that `A` allows, every outcome of the program meets `Q`. -/
def Gives (A : (c : Call) → c.Answer → Prop) (p : Scan α) (Q : α → Prop) : Prop :=
  p.Ensures (Request.Allows A fun _ => True) fun a _ => Q a

section Programs

variable {p : Scan α} {A : (c : Call) → c.Answer → Prop} {Q : α → Prop}

theorem asks_isCancelled : Asks C isCancelled := ⟨.intro, fun _ => .intro⟩

theorem asks_call {c : Call} (h : C c) : Asks C (call c) := ⟨h, fun _ => .intro⟩

theorem asks_any (p : Scan α) : Asks (fun _ => True) p := by
  induction p with
  | done a => exact .intro
  | ask q next ih => exact ⟨by cases q <;> exact .intro, ih⟩

theorem Asks.bind {f : α → Scan β} (hp : Asks C p) (hf : ∀ a, Asks C (f a)) :
    Asks C (p >>= f) := by
  induction p with
  | done a => exact hf a
  | ask q next ih => exact ⟨hp.1, fun a => ih a (hp.2 a)⟩

/-- The calls of attempts are those for their seeds and those of their scans. -/
theorem asks_attempts {seedFor : String → Scan (Except DerivationError Seed)}
    {scan : Nat → Seed → String → Scan Attempt} (hseed : ∀ p, Asks C (seedFor p))
    (hscan : ∀ number seed p, Asks C (scan number seed p)) (number : Nat) (as : Attempts)
    (passphrases : List String) : Asks C (Attempts.run seedFor scan number as passphrases) :=
  Attempts.run_all (m := Scan) (Asks C) (fun _ => True.intro) .bind hseed hscan number as
    passphrases

theorem nonempty_answer (q : Request) : Nonempty q.Answer := by
  rcases q with (_ | _ | _ | _ | _ | _ | _) | _
  all_goals first
    | exact ⟨.error .passphraseUnsupported⟩
    | exact ⟨.error .timeout⟩
    | exact ⟨()⟩
    | exact ⟨true⟩

/-- Where anything may be answered, some course leads to an outcome. -/
theorem exists_outcome {S : α → List (Exchange interface) → Prop}
    (h : p.Ensures (Request.Allows (fun _ _ => True) fun _ => True) S) : ∃ a t, S a t := by
  induction p generalizing S with
  | done a => exact ⟨a, [], h⟩
  | ask q next ih =>
    obtain ⟨a⟩ := nonempty_answer q
    obtain ⟨b, t, hS⟩ := ih a (h a (by cases q <;> exact .intro))
    exact ⟨b, _, hS⟩

/-- Calls meet `C` at any time if they do so at the end of every course. -/
theorem asks_of_records {log : List Call}
    (h : Records (fun _ _ => True) (fun _ => True) log p fun _ log => ∀ c ∈ log, C c) :
    Asks C p := by
  induction p generalizing log with
  | done a => exact .intro
  | ask q next ih =>
    have hnext (a) : Records (fun _ _ => True) (fun _ => True) (log ++ calls [q]) (next a)
        fun _ log => ∀ c ∈ log, C c := by
      refine Program.Ensures.mono (h a (by cases q <;> exact .intro)) fun b t ht => ?_
      rw [List.append_assoc, ← calls_append]
      exact ht
    refine ⟨?_, fun a => ih a (hnext a)⟩
    cases q with
    | isCancelled => exact .intro
    | call c =>
      obtain ⟨a⟩ := nonempty_answer (.call c)
      obtain ⟨b, t, ht⟩ := exists_outcome (hnext a)
      exact ht c (by simp)

/-- What survives the calls that a program makes holds wherever it ends. -/
theorem Asks.records {looks : Bool → Prop} {K : List Call → Prop} (hp : Asks C p)
    (hK : ∀ {c log}, C c → K log → K (log ++ [c])) {log : List Call} (h : K log) :
    Records A looks log p fun _ => K := by
  induction p generalizing log with
  | done a => exact .done h
  | ask q next ih =>
    cases q with
    | call c =>
      exact .bind (.call (c := c) (Q := fun _ => K) fun a _ => hK hp.1 h) fun a log h =>
        ih a (hp.2 a) h
    | isCancelled =>
      exact .bind (.isCancelled (Q := fun _ => K) fun b _ => h) fun b log h => ih b (hp.2 b) h

namespace Gives

theorem of_records {log : List Call} (h : Records A (fun _ => True) log p fun a _ => Q a) :
    Gives A p Q := h

theorem mono (hp : Gives A p Q) {S : α → Prop} (hQ : ∀ a, Q a → S a) : Gives A p S :=
  Program.Ensures.mono hp fun a _ => hQ a

theorem and (hp : Gives A p Q) {S : α → Prop} (hS : Gives A p S) :
    Gives A p fun a => Q a ∧ S a := Program.Ensures.and hp hS

theorem done {a : α} (h : Q a) : Gives A (.done a) Q := h

theorem bind {f : α → Scan β} {S : β → Prop} (hp : Gives A p Q)
    (hf : ∀ a, Q a → Gives A (f a) S) : Gives A (p >>= f) S :=
  Program.Ensures.bind hp fun a _ => hf a

/-- Nothing is said of the outcome. -/
theorem trivial (p : Scan α) : Gives A p fun _ => True := Program.Ensures.trivial p

end Gives

end Programs

/-! ## What the parts of a scan ask -/

section Parts

variable {t : Target}

theorem asks_derive (hderive : ∀ index, C (t.derivation index)) (index : UInt32) :
    Asks C (t.derive index) := by
  unfold Target.derivation at hderive
  unfold Target.derive
  split
  case isTrue hlegacy => exact asks_call (by simpa only [hlegacy, if_true] using hderive index)
  case isFalse hlegacy => exact asks_call (by
      simpa only [hlegacy, Bool.false_eq_true, if_false] using hderive index)

theorem asks_deriveBatch (hderive : ∀ index, C (t.derivation index)) (indices : List Nat) :
    Asks C (deriveBatch t indices) := by
  induction indices with
  | nil => exact .intro
  | cons i rest ih =>
    refine (asks_derive hderive _).bind fun r => ?_
    cases r with
    | error e => exact .intro
    | ok derived => exact ih.bind fun _ => .intro

theorem asks_deriveRange (hderive : ∀ index, C (t.derivation index)) (indices : List Nat) :
    Asks C (deriveRange t indices) := by
  induction indices with
  | nil => exact .intro
  | cons i rest ih =>
    refine (asks_derive hderive _).bind fun r => ?_
    cases r with
    | error e => exact ih.bind fun _ => .intro
    | ok derived => exact ih.bind fun _ => .intro

theorem asks_bulkLookup (hcheck : ∀ addresses, C (.checkActivity addresses))
    (hfetch : ∀ addresses, C (.fetchUtxos addresses)) (addresses : List String) :
    Asks C (bulkLookup addresses) := by
  refine (asks_call (hcheck _)).bind fun activity => ?_
  cases activity with
  | error e => exact .intro
  | ok activity =>
    dsimp only
    split
    · exact .intro
    · refine (asks_call (hfetch _)).bind fun fetched => ?_
      cases fetched with
      | error e => exact .intro
      | ok fetched => exact .intro

variable (hreport : ∀ event, C (.report event))

include hreport

theorem asks_report (options : ScanOptions) (event : ScanProgress) :
    Asks C (report options event) := by
  unfold report
  split
  · exact asks_call (hreport event)
  · exact .intro

theorem asks_visit (address : String) (scan : SchemeScan) : Asks C (visit t address scan) :=
  (asks_report hreport _ _).bind fun _ => .intro

theorem asks_recordFound (index : UInt32) (derived : DerivedAddress) (utxos : List Utxo)
    (scan : SchemeScan) : Asks C (recordFound t index derived utxos scan) := by
  unfold recordFound
  split
  · exact .intro
  · exact (asks_report hreport _ _).bind fun _ => .intro

theorem asks_lookupUtxos (hlist : ∀ address, C (.listUtxos address)) (address : String)
    (scan : SchemeScan) : Asks C (lookupUtxos t address scan) := by
  refine (asks_call (hlist address)).bind fun r => ?_
  cases r with
  | error e => exact (asks_report hreport _ _).bind fun _ => .intro
  | ok utxos => exact .intro

theorem asks_takeOrLookup (hlist : ∀ address, C (.listUtxos address)) (view : Option BulkView)
    (address : String) (scan : SchemeScan) : Asks C (takeOrLookup t view address scan) := by
  cases view with
  | some view => exact .intro
  | none => exact (asks_lookupUtxos hreport hlist address scan).bind fun _ => .intro

end Parts

/-! ## Worlds -/

/-- Where calls meet `C`, worlds move on along `R`, and `A w` are the answers known in the world
`w`. -/
structure Evolves (env : Environment σ) (C : Call → Prop) (R : World σ → World σ → Prop)
    (A : World σ → (c : Call) → c.Answer → Prop) : Prop where
  refl : ∀ w, R w w
  trans : ∀ {w₁ w₂ w₃}, R w₁ w₂ → R w₂ w₃ → R w₁ w₃
  called : ∀ {c w}, C c → R w (env.handler (.call c) w).2
  looked : ∀ {w}, R w (env.handler .isCancelled w).2
  /-- Workers are started. -/
  staffed : ∀ {w} tasks, R w { w with tasks }
  told : ∀ {c w a w'}, env.handler (.call c) w = (.ok a, w') → A w' c a
  kept : ∀ {w w' c a}, R w w' → A w c a → A w' c a

variable {R : World σ → World σ → Prop} {A : World σ → (c : Call) → c.Answer → Prop}

namespace Evolves

theorem handler (h : Evolves env C R A) {q : Request} (hq : q.Meets C) (w : World σ) :
    R w (env.handler q w).2 := by
  cases q with
  | call c => exact h.called hq
  | isCancelled => exact h.looked

theorem allows (h : Evolves env C R A) {q : Request} {a : q.Answer} {w w' w'' : World σ}
    (hq : env.handler q w = (.ok a, w')) (hr : R w' w'') :
    Request.Allows (A w'') (fun _ => True) q a := by
  cases q with
  | call c => exact h.kept hr (h.told hq)
  | isCancelled => exact .intro

/-- The world moves on, and what was told on the way is known where the program ends. -/
theorem run (h : Evolves env C R A) {p : Scan α} (hp : Asks C p) {w w' : World σ}
    {r : Except Crash α} (hr : p.run env.handler w = (r, w')) :
    R w w' ∧ ∀ a Q, r = .ok a → Gives (A w') p Q → Q a := by
  induction p generalizing w with
  | done b =>
    obtain ⟨rfl, rfl⟩ : .ok b = r ∧ w = w' := by simpa using hr
    refine ⟨h.refl w, ?_⟩
    rintro a Q ⟨rfl⟩ hQ
    exact hQ
  | ask q next ih =>
    have hstep := h.handler hp.1 w
    rw [Program.run_ask] at hr
    rcases hq : env.handler q w with ⟨e | b, w₁⟩ <;> rw [hq] at hr hstep
    · obtain ⟨rfl, rfl⟩ : .error e = r ∧ w₁ = w' := by simpa using hr
      exact ⟨hstep, by simp⟩
    · obtain ⟨hrest, houtcome⟩ := ih b (hp.2 b) hr
      refine ⟨h.trans hstep hrest, fun a Q ha hQ => ?_⟩
      exact houtcome a Q ha (hQ b (h.allows hq hrest))

end Evolves

/-! ## Runs -/

/-- From a world that meets `Pre` the run moves on along `R`, and a value that it ends in meets
`Post`. -/
def Leads (R : World σ → World σ → Prop) (Pre : World σ → Prop) (x : Run σ α)
    (Post : α → World σ → Prop) : Prop :=
  ∀ w r w', Pre w → x w = (r, w') → R w w' ∧ ∀ a, r = .ok a → Post a w'

namespace Leads

variable {x : Run σ α} {f : α → Run σ β} {Pre Pre' F : World σ → Prop}
  {Q Q' : α → World σ → Prop} {S : β → World σ → Prop}

theorem mono (h : Leads R Pre x Q) (hpre : ∀ w, Pre' w → Pre w) (hQ : ∀ a w, Q a w → Q' a w) :
    Leads R Pre' x Q' := by
  intro w r w' hw hr
  obtain ⟨hmove, hpost⟩ := h w r w' (hpre w hw) hr
  exact ⟨hmove, fun a ha => hQ a w' (hpost a ha)⟩

theorem pure (hrefl : ∀ w, R w w) {a : α} (h : ∀ w, Pre w → Q a w) :
    Leads R Pre (Pure.pure a : Run σ α) Q := by
  intro w r w' hw hr
  obtain ⟨rfl, rfl⟩ : .ok a = r ∧ w = w' := by
    have hpair : ((.ok a, w) : Except Crash α × World σ) = (r, w') := hr
    simpa using hpair
  exact ⟨hrefl w, by rintro _ ⟨rfl⟩; exact h w hw⟩

theorem bind (htrans : ∀ {w₁ w₂ w₃}, R w₁ w₂ → R w₂ w₃ → R w₁ w₃) (hx : Leads R Pre x Q)
    (hf : ∀ a, Leads R (Q a) (f a) S) : Leads R Pre (x >>= f) S := by
  intro w r w' hw hr
  have hcont : ExceptT.bindCont f (x w).1 (x w).2 = (r, w') := hr
  rcases hxw : x w with ⟨e | a, w₁⟩ <;> rw [hxw] at hcont
  · obtain ⟨rfl, rfl⟩ : .error e = r ∧ w₁ = w' := by
      have hpair : ((.error e, w₁) : Except Crash β × World σ) = (r, w') := hcont
      simpa using hpair
    exact ⟨(hx w _ w₁ hw hxw).1, by simp⟩
  · obtain ⟨hmove, hQ⟩ := hx w _ w₁ hw hxw
    obtain ⟨hmove', hS⟩ := hf a w₁ r w' (hQ a rfl) hcont
    exact ⟨htrans hmove hmove', hS⟩

/-- What lasts in later worlds is carried along. -/
theorem frame_and (h : Leads R Pre x Q) (hF : ∀ {w w'}, R w w' → F w → F w') :
    Leads R (fun w => Pre w ∧ F w) x fun a w => Q a w ∧ F w := by
  intro w r w' hw hr
  obtain ⟨hmove, hpost⟩ := h w r w' hw.1 hr
  exact ⟨hmove, fun a ha => ⟨hpost a ha, hF hmove hw.2⟩⟩

/-- The worlds before may be told apart by a value. -/
theorem of_exists {ι : Type} {P : ι → World σ → Prop} {F : ι → Prop}
    (h : ∀ i, F i → Leads R (P i) x Q) : Leads R (fun w => ∃ i, P i w ∧ F i) x Q := by
  rintro w r w' ⟨i, hw, hi⟩ hr
  exact h i hi w r w' hw hr

theorem frame (h : Leads R (fun _ => True) x Q) (hF : ∀ {w w'}, R w w' → F w → F w') :
    Leads R F x fun a w => Q a w ∧ F w :=
  (h.frame_and hF).mono (fun _ hw => ⟨.intro, hw⟩) fun _ _ => id

end Leads

/-- A program whose outcomes meet `Q` wherever its answers are known. -/
theorem leads_ofScan (h : Evolves env C R A) {p : Scan α} (hp : Asks C p) {Pre : World σ → Prop}
    {Q : α → World σ → Prop} (hQ : ∀ w, Gives (A w) p (Q · w)) :
    Leads R Pre (Run.ofScan env p) Q := by
  intro w r w' _ hr
  obtain ⟨hmove, houtcome⟩ := h.run hp hr
  exact ⟨hmove, fun a ha => houtcome a _ ha (hQ w')⟩

/-- Programs in sequence run in sequence. -/
theorem ofScan_bind (p : Scan α) (f : α → Scan β) :
    Run.ofScan env (p >>= f) = Run.ofScan env p >>= fun a => Run.ofScan env (f a) := by
  funext w
  show (p >>= f).run env.handler w =
    ExceptT.bindCont (fun a => Run.ofScan env (f a)) (p.run env.handler w).1
      (p.run env.handler w).2
  rw [Program.run_bind]
  rcases p.run env.handler w with ⟨e | a, w₁⟩ <;> rfl

/-- Attempts whose parts are programs. -/
theorem ofScan_attempts (seedFor : String → Scan (Except DerivationError Seed))
    (scan : Nat → Seed → String → Scan Attempt) (number : Nat) (as : Attempts)
    (passphrases : List String) :
    Run.ofScan env (Attempts.run seedFor scan number as passphrases) =
      Attempts.run (m := Run σ) (fun p => Run.ofScan env (seedFor p))
        (fun number seed p => Run.ofScan env (scan number seed p)) number as passphrases := by
  refine (Attempts.run_related (m := Run σ) (fun x p => x = Run.ofScan env p) (fun _ => rfl) ?_
    (fun _ => rfl) (fun _ _ _ => rfl) number as passphrases).symm
  rintro α β x p f g rfl hfg
  rw [ofScan_bind, funext hfg]

/-- Scans on a pool of workers: as many worlds as there are moves lie between the start of a scan
and its outcome, and what its answers told is known in each of them. -/
theorem leads_runPool (h : Evolves env C R A) {s : Scanner} {seed : Seed}
    {schemes : List PathScheme} {Q : SchemeOutcome → World σ → Prop}
    (hscan : ∀ j ∈ s.jobs schemes, Asks C (s.scanJob seed j) ∧
      ∀ w, Gives (A w) (s.scanJob seed j) (Q · w)) (schedule : List Nat) {Pre : World σ → Prop} :
    Leads R Pre (s.runPool env schedule schemes seed) fun pool w =>
      ∀ o ∈ pool.sortedOutcomes, Q o w := by
  intro w r w' _ hr
  have htracks : Tracks env (s.jobs schemes) (R w) (fun _ rest w₁ => Asks C rest ∧
      ∀ w₂, R w₁ w₂ → Gives (A w₂) rest (Q · w₂)) fun _ _ => True := {
    inv := fun _ hi hs => h.trans hi (h.handler hs.1.1 _)
    answered := fun {j q next w₁ a w₂} _ _ hs hq =>
      ⟨hs.1.2 a, fun w₃ hr => hs.2 w₃ (h.trans (by simpa [hq] using h.handler hs.1.1 w₁) hr) a
        (h.allows hq hr)⟩
    crashed := fun _ _ _ _ => .intro
    frame := fun _ _ _ _ hs hk => ⟨hk.1, fun w₂ hr => hk.2 w₂ (h.trans (h.handler hs.1.1 _) hr)⟩
    invLook := fun hi => h.trans hi h.looked
    look := fun _ _ hk => ⟨hk.1, fun w₂ hr => hk.2 w₂ (h.trans h.looked hr)⟩ }
  rcases hrun : Pool.run env (s.scanJob seed) (s.workerCount schemes.length) (s.jobs schemes)
    schedule w with ⟨pool, w₁⟩
  obtain ⟨settled, hdel, -, hsettles, -, hmove, -⟩ := Pool.accounted_run htracks
    (Scanner.nodup_jobs s schemes) _ schedule w (h.staffed _)
    (fun j hj => ⟨(hscan j hj).1, fun w₂ _ => (hscan j hj).2 w₂⟩) hrun
  obtain ⟨rfl, rfl⟩ : .ok pool = r ∧ w₁ = w' := by
    have hpair : ((.ok pool, w₁) : Except Crash Pool × World σ) = (r, w') := by
      rw [← hr]
      simp only [Scanner.runPool, hrun]
    simpa using hpair
  refine ⟨hmove, ?_⟩
  rintro _ ⟨rfl⟩ o ho
  rw [Pool.sortedOutcomes, List.mem_mergeSort, Pool.outcomes, hdel, List.filterMap_map] at ho
  obtain ⟨x, hx, hxo⟩ := List.mem_filterMap.mp ho
  rw [Function.comp_apply] at hxo
  obtain ⟨o', he, -, hs⟩ | ⟨task, e, he, -⟩ := hsettles x hx
  · rw [he] at hxo
    obtain rfl : o' = o := Option.some.inj hxo
    exact hs w₁ (h.refl w₁)
  · rw [he] at hxo
    cases hxo

end FundRecovery.Discovery

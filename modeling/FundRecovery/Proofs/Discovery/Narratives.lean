import FundRecovery.Proofs.Discovery.Conduct
import FundRecovery.Proofs.Program.Exchanges

/-!
# What the log of a run tells

The log of a run has the calls of its program with their answers, wherever the run ends.

* `answered`: the calls among exchanges, with their answers. `run_answered`: the log of a run grows
  by those that led to its end.
* `reportsIn`: the events that a log reports.
* `Narrates J log p Q`: if `log` comes before a program, then `Q` holds of each outcome and of the
  log by then, and `J` of the log where a crash ends the program. The rules follow the syntax of
  programs.
* `Call.Quiet`: calls that neither report anything nor look up a single address.
-/

namespace FundRecovery.Discovery

variable {σ α β : Type}

/-! ## Logs of exchanges -/

/-- The calls among exchanges, with their answers. -/
def answered : List (Exchange interface) → List Answered
  | [] => []
  | ⟨.call c, a⟩ :: rest => ⟨c, a⟩ :: answered rest
  | ⟨.isCancelled, _⟩ :: rest => answered rest

@[simp] theorem answered_nil : answered [] = [] := rfl

@[simp] theorem answered_append (t u : List (Exchange interface)) :
    answered (t ++ u) = answered t ++ answered u := by
  induction t with
  | nil => rfl
  | cons x t ih =>
    obtain ⟨q, a⟩ := x
    cases q with
    | call c => exact congrArg (⟨c, a⟩ :: ·) ih
    | isCancelled => exact ih

theorem answered_flatMap (t : List (Exchange interface)) :
    (t.flatMap fun x => answered [x]) = answered t := by
  induction t with
  | nil => rfl
  | cons x t ih => rw [List.flatMap_cons, ih, ← answered_append, List.singleton_append]

theorem calls_answered (t : List (Exchange interface)) :
    calls (t.map (·.request)) = (answered t).map (·.call) := by
  induction t with
  | nil => rfl
  | cons x t ih =>
    obtain ⟨q, a⟩ := x
    cases q with
    | call c => exact congrArg (c :: ·) ih
    | isCancelled => exact ih

theorem Environment.logged_answered (env : Environment σ) :
    env.logged.handler.Notes (fun w => w.state.2) fun x => answered [x] := by
  intro q w
  cases q with
  | call c => rfl
  | isCancelled => exact (List.append_nil _).symm

/-- The log of a run grows by the calls that led to its end. -/
theorem run_answered {env : Environment σ} {p : Scan α} {w w' : World (σ × List Answered)}
    {r : Except Crash α} (hr : p.run env.logged.handler w = (r, w')) :
    ∃ t, p.Exchanges t r ∧ w'.state.2 = w.state.2 ++ answered t := by
  obtain ⟨t, ht, hlog⟩ := Program.run_exchanges env.logged_answered hr
  exact ⟨t, ht, hlog.trans (by rw [answered_flatMap])⟩

theorem mem_answered {t : List (Exchange interface)} {c : Call} {r : Except Crash c.Answer}
    (h : ⟨.call c, r⟩ ∈ t) : ⟨c, r⟩ ∈ answered t := by
  rw [← answered_flatMap]
  exact List.mem_flatMap.mpr ⟨_, h, List.mem_singleton.mpr rfl⟩

/-- What is recorded of a program holds of its courses with answers that are allowed. -/
theorem Records.exchanges {A : (c : Call) → c.Answer → Prop} {p : Scan α}
    {Q : α → List Call → Prop} (hp : Records A (fun _ => True) [] p Q)
    {t : List (Exchange interface)} {a : α} (ht : p.Exchanges t (.ok a))
    (hA : ∀ c b, ⟨c, .ok b⟩ ∈ answered t → A c b) : Q a ((answered t).map (·.call)) := by
  have hQ := Program.Ensures.exchanges hp ht fun x hx b hb => by
    obtain ⟨q, r⟩ := x
    cases q with
    | call c =>
      have hr : r = .ok b := hb
      rw [hr] at hx
      exact hA c b (mem_answered hx)
    | isCancelled => exact .intro
  rwa [List.nil_append, calls_answered] at hQ

/-! ## Events of a log -/

/-- The events that a log reports. -/
def reportsIn (log : List Answered) : List ScanProgress := events (log.map (·.call))

@[simp] theorem reportsIn_append (log later : List Answered) :
    reportsIn (log ++ later) = reportsIn log ++ reportsIn later := by
  rw [reportsIn, List.map_append, events_append]
  rfl

theorem reportsIn_flatMap {ι : Type} (parts : List ι) (part : ι → List Answered) :
    reportsIn (parts.flatMap part) = parts.flatMap fun x => reportsIn (part x) := by
  rw [reportsIn, List.map_flatMap, events_flatMap]
  rfl

/-- The events of a log are those of its reports. -/
theorem World.events_eq (w : World (σ × List Answered)) : w.events = reportsIn w.state.2 := rfl

/-! ## A triple with logs -/

/-- If `log` comes before the program, then `Q` holds of each outcome and of the log by then, and
`J` of the log where a crash ends it. -/
structure Narrates (J : List Answered → Prop) (log : List Answered) (p : Scan α)
    (Q : α → List Answered → Prop) : Prop where
  outcome : ∀ {t a}, p.Exchanges t (.ok a) → Q a (log ++ answered t)
  crash : ∀ {t e}, p.Exchanges t (.error e) → J (log ++ answered t)

/-- The call neither reports anything nor looks up a single address. -/
def Call.Quiet : Call → Prop
  | .listUtxos _ | .report _ => False
  | _ => True

theorem Call.Quiet.event?_eq_none {c : Call} (h : c.Quiet) : c.event? = none := by
  cases c with
  | report event => exact h.elim
  | _ => rfl

namespace Narrates

variable {J : List Answered → Prop} {log : List Answered} {p : Scan α} {f : α → Scan β}
  {Q : α → List Answered → Prop} {S : β → List Answered → Prop}

theorem done {a : α} (h : Q a log) : Narrates J log (.done a) Q where
  outcome := by
    rintro _ _ ⟨rfl, ha⟩
    obtain rfl := Except.ok.inj ha
    rwa [answered_nil, List.append_nil]
  crash := by
    rintro _ _ ⟨-, ha⟩
    cases ha

theorem bind (hp : Narrates J log p Q) (hf : ∀ a log, Q a log → Narrates J log (f a) S) :
    Narrates J log (p >>= f) S where
  outcome {t b} h := by
    obtain ⟨e, he, -⟩ | ⟨a, u, v, rfl, hu, hv⟩ := Program.exchanges_bind.mp h
    · cases he
    · rw [answered_append, ← List.append_assoc]
      exact (hf a _ (hp.outcome hu)).outcome hv
  crash {t e} h := by
    obtain ⟨e, -, hu⟩ | ⟨a, u, v, rfl, hu, hv⟩ := Program.exchanges_bind.mp h
    · exact hp.crash hu
    · rw [answered_append, ← List.append_assoc]
      exact (hf a _ (hp.outcome hu)).crash hv

theorem call {c : Call} {Q : c.Answer → List Answered → Prop}
    (hcrash : ∀ e, J (log ++ [⟨c, .error e⟩])) (h : ∀ a, Q a (log ++ [⟨c, .ok a⟩])) :
    Narrates J log (Discovery.call c) Q where
  outcome ht := by
    rw [Program.exchanges_request.mp ht]
    exact h _
  crash ht := by
    rw [Program.exchanges_request.mp ht]
    exact hcrash _

theorem isCancelled {Q : Bool → List Answered → Prop} (hcrash : J log) (h : ∀ b, Q b log) :
    Narrates J log Discovery.isCancelled Q where
  outcome ht := by
    rw [Program.exchanges_request.mp ht, answered, answered_nil, List.append_nil]
    exact h _
  crash ht := by
    rwa [Program.exchanges_request.mp ht, answered, answered_nil, List.append_nil]

/-- An observer receives every report. -/
theorem report {options : ScanOptions} (ho : options.observed = true) {event : ScanProgress}
    {Q : List Answered → Prop} (hcrash : ∀ e, J (log ++ [⟨.report event, .error e⟩]))
    (h : Q (log ++ [⟨.report event, .ok ()⟩])) :
    Narrates J log (Discovery.report options event) fun _ => Q := by
  unfold Discovery.report
  rw [if_pos ho]
  exact call hcrash fun _ => h

/-- What survives quiet calls survives a program that makes no others. -/
theorem quiet {K : List Answered → Prop} (hp : Asks Call.Quiet p) (hJ : ∀ log, K log → J log)
    (hK : ∀ {c : Call} {log} (r : Except Crash c.Answer), c.Quiet → K log → K (log ++ [⟨c, r⟩]))
    (h : K log) : Narrates J log p fun _ => K := by
  induction p generalizing log with
  | done a => exact .done h
  | ask q next ih =>
    have hnext (a : q.Answer) {log : List Answered} (h : K log) :
        Narrates J log (next a) fun _ => K := ih a (hp.2 a) h
    cases q with
    | isCancelled =>
      have hlook : Narrates J log Discovery.isCancelled fun _ => K :=
        .isCancelled (hJ _ h) fun _ => h
      exact .bind hlook hnext
    | call c =>
      have hcall : Narrates J log (Discovery.call c) fun _ => K :=
        .call (fun e => hJ _ (hK _ hp.1 h)) fun a => hK _ hp.1 h
      exact .bind hcall fun a _ => hnext a

end Narrates

end FundRecovery.Discovery

import FundRecovery.Discovery.Request
import FundRecovery.Proofs.Program.FixedAnswers

/-!
# Environments of a scan

* `Environment.Answers A`: no call crashes, and every answer is one that `A` allows.
  `Environment.AnswersBy answer` is the case of answers that depend on the calls alone.
* `Environment.Uncancelled`: nobody cancels the token.
* `Environment.logged`: an environment that keeps its calls with their answers. `World.calls` is
  the log, `World.events` the progress events in it, `World.queries` the other calls.
* `Records A looks log p Q`: with answers that `A` allows, `Q` holds of the outcome of `p` and of
  the calls made by then, if `log` are the calls before. `Answers.run`: so it does of a run.
* `Scan.value`, `Scan.issued`: the outcome of a program and its calls under fixed answers.
  `AnswersBy.run`: so a run ends.
-/

namespace FundRecovery.Discovery

variable {σ α β : Type}

/-! ## Requests -/

namespace Request

/-- Answers to calls that `A` allows, and looks at the token that `looks` allows. -/
def Allows (A : (c : Call) → c.Answer → Prop) (looks : Bool → Prop) :
    (q : Request) → q.Answer → Prop
  | call c => A c
  | isCancelled => looks

/-- Fixed answers to calls, and a token that is not cancelled. -/
def fixed (answer : (c : Call) → c.Answer) : (q : Request) → q.Answer
  | call c => answer c
  | isCancelled => false

end Request

/-- The calls among requests. -/
def calls : List Request → List Call
  | [] => []
  | .call c :: rest => c :: calls rest
  | .isCancelled :: rest => calls rest

@[simp] theorem calls_nil : calls [] = [] := rfl

@[simp] theorem calls_call (c : Call) (rest : List Request) :
    calls (.call c :: rest) = c :: calls rest := rfl

@[simp] theorem calls_isCancelled (rest : List Request) :
    calls (.isCancelled :: rest) = calls rest := rfl

@[simp] theorem calls_append (a b : List Request) : calls (a ++ b) = calls a ++ calls b := by
  induction a with
  | nil => rfl
  | cons q a ih => cases q <;> simp [ih]

namespace Call

/-- The event that a call reports. -/
def event? : Call → Option ScanProgress
  | report e => some e
  | _ => none

end Call

/-- The events that calls report. -/
def events (calls : List Call) : List ScanProgress := calls.filterMap Call.event?

/-- The calls that are no reports. -/
def queries (calls : List Call) : List Call := calls.filter (·.event?.isNone)

@[simp] theorem events_nil : events [] = [] := rfl

@[simp] theorem events_append (a b : List Call) : events (a ++ b) = events a ++ events b :=
  List.filterMap_append

theorem events_flatMap {ι : Type} (parts : List ι) (part : ι → List Call) :
    events (parts.flatMap part) = parts.flatMap fun x => events (part x) :=
  List.filterMap_flatMap

/-- A query is no event. -/
theorem events_append_asked {c : Call} (h : c.event? = none) (log : List Call) :
    events (log ++ [c]) = events log := by
  simp [events, h]

@[simp] theorem queries_nil : queries [] = [] := rfl

@[simp] theorem queries_append (a b : List Call) : queries (a ++ b) = queries a ++ queries b :=
  List.filter_append ..

/-! ## Ends of runs -/

section Ends

variable {ε ε' ω : Type} {f : α → β} {b : β}

/-- A run that has a value of which `f` is `b` ends in one. -/
theorem exists_ok_of_map {x : Except ε α × ω} (h : x.1.map f = .ok b) :
    ∃ a w, x = (.ok a, w) ∧ f a = b := by
  rcases x with ⟨e | a, w⟩
  · cases h
  · exact ⟨a, w, rfl, Except.ok.inj h⟩

theorem exists_result_of_map {x : Except ε (Except ε' α) × ω}
    (h : x.1.map (·.map f) = .ok (.ok b)) : ∃ a w, x = (.ok (.ok a), w) ∧ f a = b := by
  obtain ⟨r, w, rfl, hr⟩ := exists_ok_of_map h
  cases r with
  | error e => cases hr
  | ok a => exact ⟨a, w, rfl, Except.ok.inj hr⟩

/-- The value that a run ends in is the one whose `f` is known. -/
theorem eq_of_ok_map {x : Except ε α × ω} {a : α} {w : ω} (hx : x = (.ok a, w))
    (h : x.1.map f = .ok b) : f a = b := by
  rw [hx] at h
  exact Except.ok.inj h

theorem eq_of_result_map {x : Except ε (Except ε' α) × ω} {a : α} {w : ω}
    (hx : x = (.ok (.ok a), w)) (h : x.1.map (·.map f) = .ok (.ok b)) : f a = b := by
  have hmap := eq_of_ok_map hx h
  exact Except.ok.inj hmap

end Ends

/-! ## Logs -/

/-- A call with its answer. -/
structure Answered where
  call : Call
  answer : Except Crash call.Answer

namespace World

/-- The calls of a log, in order. -/
def calls (w : World (σ × List Answered)) : List Call := w.state.2.map (·.call)

/-- The progress events of a log. -/
def events (w : World (σ × List Answered)) : List ScanProgress := Discovery.events w.calls

/-- The calls of a log other than reports. -/
def queries (w : World (σ × List Answered)) : List Call := Discovery.queries w.calls

end World

namespace Environment

variable {env : Environment σ} {A : (c : Call) → c.Answer → Prop} {answer : (c : Call) → c.Answer}
  {p : Scan α} {w : World (σ × List Answered)}

/-- Every call is answered, as `A` allows. -/
def Answers (env : Environment σ) (A : (c : Call) → c.Answer → Prop) : Prop :=
  ∀ c s, ∃ a, (env.reply c s).answer = .ok a ∧ A c a

/-- Every call is answered, and the answer depends on the call alone. -/
abbrev AnswersBy (env : Environment σ) (answer : (c : Call) → c.Answer) : Prop :=
  env.Answers fun c a => a = answer c

/-- Nobody cancels the token. -/
structure Uncancelled (env : Environment σ) : Prop where
  reply : ∀ c s, (env.reply c s).cancels = false
  interrupt : ∀ s, (env.interrupt s).1 = false

/-- Keeps every call with its answer, in order. -/
def logged (env : Environment σ) : Environment (σ × List Answered) where
  reply c s :=
    let r := env.reply c s.1
    ⟨r.answer, (r.state, s.2 ++ [⟨c, r.answer⟩]), r.cancels⟩
  interrupt s := ((env.interrupt s.1).1, ((env.interrupt s.1).2, s.2))
  taskError := env.taskError

theorem Answers.logged (h : env.Answers A) : env.logged.Answers A := fun c s => h c s.1

theorem Uncancelled.logged (h : env.Uncancelled) : env.logged.Uncancelled :=
  ⟨fun c s => h.reply c s.1, fun s => h.interrupt s.1⟩

theorem answersBy_ofAnswers (answer : (c : Call) → c.Answer) :
    (ofAnswers answer).AnswersBy answer := fun c _ => ⟨answer c, rfl, rfl⟩

theorem uncancelled_ofAnswers (answer : (c : Call) → c.Answer) : (ofAnswers answer).Uncancelled :=
  ⟨fun _ _ => rfl, fun _ => rfl⟩

/-- Fixed answers, and a token that is cancelled in the course of call number `last`, counted from
1. -/
def cancelling (answer : (c : Call) → c.Answer) (last : Nat) : Environment Nat where
  reply c made := ⟨.ok (answer c), made + 1, made + 1 = last⟩
  interrupt made := (false, made)
  taskError _ crash := crash.message

theorem answersBy_cancelling (answer : (c : Call) → c.Answer) (last : Nat) :
    (cancelling answer last).AnswersBy answer := fun c _ => ⟨answer c, rfl, rfl⟩

/-- What a ledger answers that holds `utxos` for each address; the address at index `i` of any chain
has `i` letters. -/
def ledgerAnswer (utxos : String → List Utxo) : (c : Call) → c.Answer
  | .deriveAddress _ _ _ _ i => .ok ⟨"".pushn 'a' i.toNat, "m"⟩
  | .deriveLegacyAddress _ i => .ok ⟨"".pushn 'a' i.toNat, "m"⟩
  | .seedForPassphrase seed _ => .ok seed
  | .listUtxos address => .ok (utxos address)
  | .checkActivity addresses => .ok (addresses.map fun a => ⟨a, !(utxos a).isEmpty, 1⟩)
  | .fetchUtxos addresses => .ok (addresses.map fun a => ⟨a, utxos a⟩)
  | .report _ => ()

/-- A ledger with half of what leaves a word, at index 1 of every chain. -/
def halfWord (address : String) : List Utxo :=
  if address = "a" then [⟨"t", 0, 9223372036854775808, "a", 1⟩] else []

/-- A token that nobody cancels stays as it is, and every look finds it so. -/
theorem Answers.keeps (h : env.Answers A) (hu : env.Uncancelled) :
    env.handler.Keeps (fun w => w.cancelled = false) (Request.Allows A (· = false)) where
  inv {q w} hw := by
    cases q with
    | call c => simp [handler, hw, hu.reply]
    | isCancelled => simp [handler, hw, hu.interrupt]
  allowed {q w a} hw ha := by
    cases q with
    | call c =>
      obtain ⟨b, hb, hA⟩ := h c w.state
      have he : (env.reply c w.state).answer = .ok a := ha
      rw [hb] at he
      exact Except.ok.inj he ▸ hA
    | isCancelled =>
      simp only [handler, hw, hu.interrupt, Bool.or_false] at ha
      exact (Except.ok.inj ha).symm

theorem Answers.total (h : env.Answers A) (Inv : World σ → Prop) : env.handler.Total Inv := by
  intro q w _
  cases q with
  | call c =>
    obtain ⟨a, ha, -⟩ := h c w.state
    exact ⟨a, ha⟩
  | isCancelled => exact ⟨_, rfl⟩

/-- The log keeps the calls. -/
theorem logged_notes (env : Environment σ) :
    env.logged.handler.Notes World.calls fun e => calls [e.request] := by
  intro q w
  cases q with
  | call c => simp [handler, Environment.logged, World.calls]
  | isCancelled => simp [handler, Environment.logged, World.calls]

theorem calls_map_request (t : List (Exchange interface)) :
    (t.flatMap fun e => calls [e.request]) = calls (t.map (·.request)) := by
  induction t with
  | nil => rfl
  | cons e t ih => rw [List.flatMap_cons, ih, ← calls_append, List.map_cons, List.singleton_append]

end Environment

/-! ## Programs and the log -/

/-- If `log` are the calls so far, and calls and looks at the token are answered as `A` and `looks`
allow, then `Q` holds of the outcome and of the calls by then. -/
def Records (A : (c : Call) → c.Answer → Prop) (looks : Bool → Prop) (log : List Call)
    (p : Scan α) (Q : α → List Call → Prop) : Prop :=
  p.Ensures (Request.Allows A looks) fun a t => Q a (log ++ calls (t.map (·.request)))

/-- The calls that hand an event to the observer, if there is one. -/
def reports (options : ScanOptions) (event : ScanProgress) : List Call :=
  if options.observed then [.report event] else []

namespace Scan

variable (answer : (c : Call) → c.Answer)

/-- The outcome under fixed answers, with the token never cancelled. -/
def value (p : Scan α) : α := p.eval (Request.fixed answer)

/-- The calls made under fixed answers, with the token never cancelled. -/
def issued (p : Scan α) : List Call := calls (p.trace (Request.fixed answer))

@[simp] theorem value_done (a : α) : value answer (.done a) = a := rfl

@[simp] theorem issued_done (a : α) : issued answer (.done a : Scan α) = [] := rfl

@[simp] theorem value_ask (q : Request) (next : q.Answer → Scan α) :
    value answer (.ask q next) = (next (Request.fixed answer q)).value answer := rfl

@[simp] theorem issued_ask (q : Request) (next : q.Answer → Scan α) :
    issued answer (.ask q next) =
      calls [q] ++ (next (Request.fixed answer q)).issued answer := by
  rw [issued, Program.trace_ask, ← List.singleton_append, calls_append]
  rfl

@[simp] theorem value_bind (p : Scan α) (f : α → Scan β) :
    value answer (p >>= f) = (f (p.value answer)).value answer := by
  rw [value, Program.eval_bind]
  rfl

@[simp] theorem issued_bind (p : Scan α) (f : α → Scan β) :
    issued answer (p >>= f) = p.issued answer ++ (f (p.value answer)).issued answer := by
  rw [issued, Program.trace_bind, calls_append]
  rfl

@[simp] theorem value_call (c : Call) : value answer (call c) = answer c := rfl

@[simp] theorem issued_call (c : Call) : issued answer (call c) = [c] := rfl

@[simp] theorem value_isCancelled : value answer isCancelled = false := rfl

@[simp] theorem issued_isCancelled : issued answer isCancelled = [] := rfl

@[simp] theorem issued_report (options : ScanOptions) (event : ScanProgress) :
    issued answer (report options event) = reports options event := by
  unfold report reports
  split <;> rfl

end Scan

namespace Records

variable {A : (c : Call) → c.Answer → Prop} {looks : Bool → Prop} {log : List Call}

theorem done {a : α} {Q : α → List Call → Prop} (h : Q a log) :
    Records A looks log (.done a) Q := by
  simpa [Records] using h

theorem bind {p : Scan α} {f : α → Scan β} {Q : α → List Call → Prop} {R : β → List Call → Prop}
    (hp : Records A looks log p Q) (hf : ∀ a log, Q a log → Records A looks log (f a) R) :
    Records A looks log (p >>= f) R := by
  refine Program.Ensures.bind hp fun a t hQ => (hf a _ hQ).mono fun b u hR => ?_
  simpa using hR

theorem mono {p : Scan α} {Q R : α → List Call → Prop} (hp : Records A looks log p Q)
    (hQ : ∀ a log, Q a log → R a log) : Records A looks log p R :=
  Program.Ensures.mono hp fun a _ => hQ a _

theorem and {p : Scan α} {Q R : α → List Call → Prop} (hQ : Records A looks log p Q)
    (hR : Records A looks log p R) : Records A looks log p fun a log => Q a log ∧ R a log :=
  Program.Ensures.and hQ hR

/-- Fewer answers are allowed. -/
theorem anti {B : (c : Call) → c.Answer → Prop} {p : Scan α} {Q : α → List Call → Prop}
    (hp : Records A looks log p Q) (hAB : ∀ c a, B c a → A c a) : Records B looks log p Q :=
  Program.Ensures.anti hp fun q a ha => by
    cases q with
    | call c => exact hAB c a ha
    | isCancelled => exact ha

/-- Nothing is said. -/
theorem trivial (p : Scan α) : Records A looks log p fun _ _ => True := Program.Ensures.trivial p

theorem call {c : Call} {Q : c.Answer → List Call → Prop} (h : ∀ a, A c a → Q a (log ++ [c])) :
    Records A looks log (Discovery.call c) Q := fun a ha => h a ha

theorem isCancelled {Q : Bool → List Call → Prop} (h : ∀ b, looks b → Q b log) :
    Records A looks log Discovery.isCancelled Q := fun b hb => by
  simpa using h b hb

theorem report {options : ScanOptions} {event : ScanProgress} {Q : Unit → List Call → Prop}
    (h : Q () (log ++ reports options event)) :
    Records A looks log (Discovery.report options event) Q := by
  unfold Discovery.report reports at *
  split <;> rename_i ho <;> simp only [ho, ↓reduceIte] at h
  · exact call fun _ _ => h
  · exact done (by simpa using h)

/-- With fixed answers there is one outcome and one sequence of calls. -/
theorem fixed_iff {answer : (c : Call) → c.Answer} {p : Scan α} {Q : α → List Call → Prop} :
    Records (fun c a => a = answer c) (· = false) log p Q ↔
      Q (p.value answer) (log ++ p.issued answer) := by
  have hA : Request.Allows (fun c a => a = answer c) (· = false) =
      fun q a => a = Request.fixed answer q := by
    funext q a; cases q <;> rfl
  rw [Records, hA, Program.ensures_fixed_iff, List.map_map, Scan.value, Scan.issued]
  exact Iff.of_eq (by congr; simp [Function.comp_def])

end Records

namespace Environment

variable {env : Environment σ} {A : (c : Call) → c.Answer → Prop} {answer : (c : Call) → c.Answer}
  {p : Scan α} {w : World (σ × List Answered)}

/-- A run that gets answers that `A` and `looks` allow ends, and the log has grown. -/
theorem run_records {looks : Bool → Prop} {Inv : World (σ × List Answered) → Prop}
    {Q : α → List Call → Prop} (hp : Records A looks w.calls p Q)
    (hk : env.logged.handler.Keeps Inv (Request.Allows A looks))
    (ht : env.logged.handler.Total Inv) (hw : Inv w) :
    ∃ a w' calls, p.run env.logged.handler w = (.ok a, w') ∧ Inv w' ∧
      w'.calls = w.calls ++ calls ∧ Q a w'.calls := by
  obtain ⟨a, w', hr, hw'⟩ := Program.run_total hk ht hw (p := p)
  obtain ⟨t, hQ, hcalls⟩ := Program.Ensures.run_notes hp hk (logged_notes env) hw hr
  rw [calls_map_request] at hcalls
  exact ⟨a, w', _, hr, hw', hcalls, by rwa [hcalls]⟩

/-- In an environment that answers, a program runs to its end. -/
theorem Answers.run {Q : α → List Call → Prop} (h : env.Answers A) (hu : env.Uncancelled)
    (hp : Records A (· = false) w.calls p Q) (hw : w.cancelled = false) :
    ∃ a w', p.run env.logged.handler w = (.ok a, w') ∧ w'.cancelled = false ∧ Q a w'.calls := by
  obtain ⟨a, w', -, hr, hw', -, hQ⟩ :=
    run_records hp (h.logged.keeps hu.logged) (h.logged.total _) hw
  exact ⟨a, w', hr, hw', hQ⟩

/-- With fixed answers a program ends in its value, and the log grows by the calls it makes. -/
theorem AnswersBy.run (h : env.AnswersBy answer) (hu : env.Uncancelled) (p : Scan α)
    (hw : w.cancelled = false) :
    ∃ w', p.run env.logged.handler w = (.ok (p.value answer), w') ∧ w'.cancelled = false ∧
      w'.calls = w.calls ++ p.issued answer := by
  obtain ⟨a, w', hr, hw', rfl, hc⟩ := Answers.run h hu
    (Q := fun a log => a = p.value answer ∧ log = w.calls ++ p.issued answer)
    (Records.fixed_iff.mpr ⟨rfl, rfl⟩) hw
  exact ⟨w', hr, hw', hc⟩

/-- A program ends in its value also where no log is kept. -/
theorem AnswersBy.run_value (h : env.AnswersBy answer) (hu : env.Uncancelled) (p : Scan α)
    {w : World σ} (hw : w.cancelled = false) :
    ∃ w', p.run env.handler w = (.ok (p.value answer), w') := by
  have hk := Answers.keeps h hu
  obtain ⟨a, w', hr, -⟩ := Program.run_total hk (Answers.total h _) hw (p := p)
  have hvalue : Records (fun c a => a = answer c) (· = false) [] p fun a _ => a = p.value answer :=
    Records.fixed_iff.mpr rfl
  obtain ⟨-, rfl⟩ := Program.Ensures.run hvalue hk hw hr
  exact ⟨w', hr⟩

end Environment

end FundRecovery.Discovery

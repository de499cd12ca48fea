import FundRecovery.Proofs.Program.Ensures

/-!
# What a program exchanges

`p.Exchanges t r`: in the exchanges `t` the program `p` comes to its end `r`, the outcome or the
crash that ended it, whatever the environment is. What holds of all of these holds of every run,
also of the runs that are cut short.

* `exchanges_bind`: the exchanges of programs in sequence. `Ensures.exchanges`: what a program
  ensures holds of them.
* `exists_exchanges`: a run comes to its end in exchanges with its handler. `run_exchanges`: and a
  state that records them has grown by them.
* `recorded`: the end of a run and its record; `exchanges_recorded`: they are such.
* `p.Leaves t rest`: after the exchanges `t`, what is left of `p` is `rest`. `Leaves.eq_nil`: no
  exchange leaves all of a program.
-/

namespace FundRecovery.Program

variable {I : Interface} {α β σ : Type}

/-- In the exchanges `t` the program comes to the end `r`. -/
def Exchanges : Program I α → List (Exchange I) → Except Crash α → Prop
  | done a, t, r => t = [] ∧ r = .ok a
  | ask q next, t, r => (∃ e, t = [⟨q, .error e⟩] ∧ r = .error e) ∨
      ∃ a u, t = ⟨q, .ok a⟩ :: u ∧ (next a).Exchanges u r

variable {t : List (Exchange I)}

@[simp] theorem exchanges_done {a : α} {r : Except Crash α} :
    (done a : Program I α).Exchanges t r ↔ t = [] ∧ r = .ok a := Iff.rfl

@[simp] theorem exchanges_ask {q : I.Request} {next : I.Answer q → Program I α}
    {r : Except Crash α} :
    (ask q next).Exchanges t r ↔ (∃ e, t = [⟨q, .error e⟩] ∧ r = .error e) ∨
      ∃ a u, t = ⟨q, .ok a⟩ :: u ∧ (next a).Exchanges u r := Iff.rfl

/-- One question is one exchange, and the answer is the end. -/
theorem exchanges_request {q : I.Request} {r : Except Crash (I.Answer q)} :
    (request q).Exchanges t r ↔ t = [⟨q, r⟩] := by
  cases r with
  | error e => simp [request]
  | ok a =>
    simp only [request, exchanges_ask, exchanges_done, Except.ok.injEq, reduceCtorEq, and_false,
      exists_false, false_or]
    constructor
    · rintro ⟨b, u, rfl, rfl, rfl⟩
      rfl
    · rintro rfl
      exact ⟨a, [], rfl, rfl, rfl⟩

/-- The second program goes on where the first comes to an outcome. -/
theorem exchanges_bind {p : Program I α} {f : α → Program I β} {r : Except Crash β} :
    (p >>= f).Exchanges t r ↔ (∃ e, r = .error e ∧ p.Exchanges t (.error e)) ∨
      ∃ a u v, t = u ++ v ∧ p.Exchanges u (.ok a) ∧ (f a).Exchanges v r := by
  induction p generalizing t with
  | done a =>
    constructor
    · exact fun h => .inr ⟨a, [], t, rfl, ⟨rfl, rfl⟩, h⟩
    · rintro (⟨e, -, -, he⟩ | ⟨b, u, v, rfl, ⟨rfl, he⟩, h⟩)
      · cases he
      · obtain rfl : b = a := Except.ok.inj he
        exact h
  | ask q next ih =>
    simp only [ask_bind, exchanges_ask, ih]
    constructor
    · rintro (⟨e, rfl, rfl⟩ | ⟨a, t, rfl, ⟨e, rfl, h⟩ | ⟨b, u, v, rfl, hp, hf⟩⟩)
      · exact .inl ⟨e, rfl, .inl ⟨e, rfl, rfl⟩⟩
      · exact .inl ⟨e, rfl, .inr ⟨a, t, rfl, h⟩⟩
      · exact .inr ⟨b, ⟨q, .ok a⟩ :: u, v, rfl, .inr ⟨a, u, rfl, hp⟩, hf⟩
    · rintro (⟨e, rfl, ⟨e', rfl, he⟩ | ⟨a, u, rfl, h⟩⟩ |
        ⟨b, u, v, rfl, ⟨e, -, he⟩ | ⟨a, u, rfl, hp⟩, hf⟩)
      · exact .inl ⟨e', rfl, by simpa using he⟩
      · exact .inr ⟨a, u, rfl, .inl ⟨e, rfl, h⟩⟩
      · cases he
      · exact .inr ⟨a, u ++ v, rfl, .inr ⟨b, u, v, rfl, hp, hf⟩⟩

/-- What a program ensures holds of its courses with answers that are allowed. -/
theorem Ensures.exchanges {A : (q : I.Request) → I.Answer q → Prop} {p : Program I α}
    {Q : α → List (Exchange I) → Prop} (hp : p.Ensures A Q) {a : α} (ht : p.Exchanges t (.ok a))
    (hA : ∀ x ∈ t, ∀ b, x.answer = .ok b → A x.request b) : Q a t := by
  induction p generalizing t Q with
  | done b =>
    obtain ⟨rfl, hb⟩ := ht
    exact Except.ok.inj hb ▸ hp
  | ask q next ih =>
    obtain ⟨e, -, he⟩ | ⟨b, u, rfl, hu⟩ := ht
    · cases he
    · obtain ⟨hfirst, hrest⟩ := List.forall_mem_cons.mp hA
      exact ih b (Q := fun c u => Q c (⟨q, .ok b⟩ :: u)) (hp b (hfirst b rfl)) hu hrest

/-- The exchanges of a run are answers of its handler, each in some state. -/
theorem exists_exchanges (h : Handler I σ) (p : Program I α) (s : σ) :
    ∃ t, p.Exchanges t (p.run h s).1 ∧ ∀ x ∈ t, ∃ s, (h x.request s).1 = x.answer := by
  induction p generalizing s with
  | done a => exact ⟨[], ⟨rfl, rfl⟩, by simp⟩
  | ask q next ih =>
    rw [run_ask]
    rcases hq : h q s with ⟨e | a, s₁⟩
    · exact ⟨_, .inl ⟨e, rfl, rfl⟩, List.forall_mem_singleton.mpr ⟨s, congrArg Prod.fst hq⟩⟩
    · obtain ⟨t, ht, hall⟩ := ih a s₁
      exact ⟨_, .inr ⟨a, t, rfl, ht⟩, List.forall_mem_cons.mpr ⟨⟨s, congrArg Prod.fst hq⟩, hall⟩⟩

/-- The end of a run from the state `s`, and the exchanges that led there. -/
def recorded (h : Handler I σ) (p : Program I α) (s : σ) : Except Crash α × List (Exchange I) :=
  let r := p.run h.logged (s, [])
  (r.1, r.2.2)

/-- What a state records grows by exchanges of the program that come to the end of the run. -/
theorem run_exchanges {ω : Type} {h : Handler I σ} {record : σ → List ω}
    {emit : Exchange I → List ω} (hn : h.Notes record emit) {p : Program I α} {s s' : σ}
    {r : Except Crash α} (hr : p.run h s = (r, s')) :
    ∃ t, p.Exchanges t r ∧ record s' = record s ++ t.flatMap emit := by
  induction p generalizing s with
  | done a =>
    obtain ⟨rfl, rfl⟩ : Except.ok a = r ∧ s = s' := by simpa using hr
    exact ⟨[], ⟨rfl, rfl⟩, by simp⟩
  | ask q next ih =>
    have hrecord := hn q s
    rw [run_ask] at hr
    rcases hq : h q s with ⟨e | a, s₁⟩ <;> rw [hq] at hr hrecord
    · obtain ⟨rfl, rfl⟩ : Except.error e = r ∧ s₁ = s' := by simpa using hr
      exact ⟨_, .inl ⟨e, rfl, rfl⟩, by simpa using hrecord⟩
    · obtain ⟨t, ht, hrest⟩ := ih a hr
      exact ⟨⟨q, .ok a⟩ :: t, .inr ⟨a, t, rfl, ht⟩, by rw [hrest, hrecord]; simp⟩

/-- A record grows by exchanges of the program. -/
theorem run_logged {h : Handler I σ} {p : Program I α} {s s' : σ} {log log' : List (Exchange I)}
    {r : Except Crash α} (hr : p.run h.logged (s, log) = (r, (s', log'))) :
    ∃ t, log' = log ++ t ∧ p.Exchanges t r := by
  have hnotes : h.logged.Notes Prod.snd fun x => [x] := fun _ _ => rfl
  obtain ⟨t, ht, hlog⟩ := run_exchanges hnotes hr
  exact ⟨t, by simpa using hlog, ht⟩

/-- What is logged before a run stays in front. -/
theorem prefix_run_logged (h : Handler I σ) (p : Program I α) (s : σ) (log : List (Exchange I)) :
    log <+: (p.run h.logged (s, log)).2.2 := by
  obtain ⟨t, ht, -⟩ := run_logged (rfl : p.run h.logged (s, log) = (_, (_, _)))
  exact ⟨t, ht.symm⟩

/-- The record of a run leads to its end. -/
theorem exchanges_recorded (h : Handler I σ) (p : Program I α) (s : σ) :
    p.Exchanges (p.recorded h s).2 (p.recorded h s).1 := by
  have hrun : p.run h.logged (s, []) =
      ((p.recorded h s).1, ((p.run h.logged (s, [])).2.1, (p.recorded h s).2)) := rfl
  obtain ⟨t, ht, hp⟩ := run_logged hrun
  rw [ht]
  exact hp

/-! ## What is left of a program -/

/-- After the exchanges, all of them answered, the rest of the program is left. -/
inductive Leaves : Program I α → List (Exchange I) → Program I α → Prop where
  | nothing (p : Program I α) : Leaves p [] p
  | answered {q : I.Request} {next : I.Answer q → Program I α} {a : I.Answer q}
      {t : List (Exchange I)} {rest : Program I α} (h : Leaves (next a) t rest) :
      Leaves (ask q next) (⟨q, .ok a⟩ :: t) rest

namespace Leaves

variable {p rest : Program I α}

theorem trans {u : List (Exchange I)} {last : Program I α} (h : p.Leaves t rest)
    (hrest : rest.Leaves u last) : p.Leaves (t ++ u) last := by
  induction h with
  | nothing => exact hrest
  | answered _ ih => exact .answered (ih hrest)

/-- Where an outcome is left, the program came to it. -/
theorem exchanges {a : α} (h : p.Leaves t (done a)) : p.Exchanges t (.ok a) := by
  generalize hlast : done a = last at h
  induction h with
  | nothing => exact hlast ▸ ⟨rfl, rfl⟩
  | answered _ ih => exact .inr ⟨_, _, rfl, ih hlast⟩

theorem eq_nil (h : p.Leaves t p) : t = [] := by
  induction p generalizing t with
  | done a =>
    cases h
    rfl
  | ask q next ih =>
    cases h with
    | nothing => rfl
    | @answered _ _ a t _ h =>
      -- What is left after the first answer would come round to itself, in one more exchange.
      have hround : (next a).Leaves (t ++ [⟨q, .ok a⟩]) (next a) := h.trans (.answered (.nothing _))
      have hnone := ih a hround
      simp at hnone

end Leaves

end FundRecovery.Program

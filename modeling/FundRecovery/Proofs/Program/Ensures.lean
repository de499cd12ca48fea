import FundRecovery.Program

/-!
# What a program ensures

`p.Ensures A Q`: whenever `p` ends, and every answer it got was one that `A` allows, `Q` holds of
its outcome and of its exchanges. The rules follow the syntax of programs (`Ensures.bind`,
`Ensures.mono`), so a fact about a program is a fact about the programs that it calls.

* `Ensures.run`: what a program ensures holds of each of its runs under a handler that keeps to
  `A` (`Handler.Keeps`).
* `Ensures.bind_congr`: programs that go on alike from every outcome there can be are one program.
* `run_total`: under a handler that never crashes, every run ends.
* `Handler.Answers A`: a handler that answers every question, as `A` allows. `Ensures.run_answers`:
  every program ends under it, as it ensures.
* `Handler.Notes`: a handler whose state records its exchanges. `Ensures.run_notes` reads the
  exchanges of a run off the record.
-/

namespace FundRecovery

variable {I : Interface} {α β σ ω : Type}

namespace Program

/-- If the answers are among those that `A` allows, `Q` holds of the outcome and the exchanges. -/
def Ensures (A : (q : I.Request) → I.Answer q → Prop) :
    Program I α → (α → List (Exchange I) → Prop) → Prop
  | done a, Q => Q a []
  | ask q next, Q => ∀ a, A q a → (next a).Ensures A fun b t => Q b (⟨q, .ok a⟩ :: t)

namespace Ensures

variable {A : (q : I.Request) → I.Answer q → Prop} {p : Program I α} {f : α → Program I β}
  {Q R : α → List (Exchange I) → Prop} {S : β → List (Exchange I) → Prop}

@[simp] theorem done_iff {a : α} : (done a : Program I α).Ensures A Q ↔ Q a [] := Iff.rfl

@[simp] theorem ask_iff {q : I.Request} {next : I.Answer q → Program I α} :
    (ask q next).Ensures A Q ↔
      ∀ a, A q a → (next a).Ensures A fun b t => Q b (⟨q, .ok a⟩ :: t) := Iff.rfl

theorem mono (h : p.Ensures A Q) (hQ : ∀ a t, Q a t → R a t) : p.Ensures A R := by
  induction p generalizing Q R with
  | done a => exact hQ a [] h
  | ask q next ih => exact fun a ha => ih a (h a ha) fun b t => hQ b _

theorem and (hQ : p.Ensures A Q) (hR : p.Ensures A R) :
    p.Ensures A fun a t => Q a t ∧ R a t := by
  induction p generalizing Q R with
  | done a => exact ⟨hQ, hR⟩
  | ask q next ih => exact fun a ha => ih a (hQ a ha) (hR a ha)

/-- Fewer answers are allowed. -/
theorem anti {B : (q : I.Request) → I.Answer q → Prop} (h : p.Ensures A Q)
    (hAB : ∀ q a, B q a → A q a) : p.Ensures B Q := by
  induction p generalizing Q with
  | done a => exact h
  | ask q next ih => exact fun a ha => ih a (h a (hAB q a ha))

/-- Programs in sequence: the exchanges of the second follow those of the first. -/
theorem bind (h : p.Ensures A Q)
    (hf : ∀ a t, Q a t → (f a).Ensures A fun b u => S b (t ++ u)) :
    (p >>= f).Ensures A S := by
  induction p generalizing Q S with
  | done a => exact hf a [] h
  | ask q next ih =>
    intro a ha
    exact ih a (h a ha) fun b t hb => hf b _ hb

/-- Nothing is said. -/
theorem trivial (p : Program I α) : p.Ensures A fun _ _ => True := by
  induction p with
  | done a => exact .intro
  | ask q next ih => exact fun a _ => ih a

/-- Only the outcomes that a program can come to matter for what goes on from there. -/
theorem bind_congr {P : α → Prop} {g : α → Program I β}
    (h : p.Ensures (fun _ _ => True) fun a _ => P a) (hfg : ∀ a, P a → f a = g a) :
    p >>= f = p >>= g := by
  induction p with
  | done a => exact hfg a h
  | ask q next ih => exact congrArg (ask q) (funext fun a => ih a (h a .intro))

end Ensures

end Program

namespace Handler

/-- From a state that meets `Inv`, the handler gives answers that `A` allows and goes on to a state
that meets `Inv`. -/
structure Keeps (h : Handler I σ) (Inv : σ → Prop) (A : (q : I.Request) → I.Answer q → Prop) :
    Prop where
  inv : ∀ {q s}, Inv s → Inv (h q s).2
  allowed : ∀ {q s a}, Inv s → (h q s).1 = .ok a → A q a

/-- From a state that meets `Inv`, the handler never crashes. -/
def Total (h : Handler I σ) (Inv : σ → Prop) : Prop := ∀ q s, Inv s → ∃ a, (h q s).1 = .ok a

/-- Every question is answered, as `A` allows. -/
def Answers (h : Handler I σ) (A : (q : I.Request) → I.Answer q → Prop) : Prop :=
  ∀ q s, ∃ a, (h q s).1 = .ok a ∧ A q a

namespace Answers

variable {h : Handler I σ} {A : (q : I.Request) → I.Answer q → Prop}

theorem total (ha : h.Answers A) (Inv : σ → Prop) : h.Total Inv := by
  intro q s _
  obtain ⟨a, he, -⟩ := ha q s
  exact ⟨a, he⟩

theorem keeps (ha : h.Answers A) : h.Keeps (fun _ => True) A where
  inv _ := trivial
  allowed {q s a} _ he := by
    obtain ⟨b, hb, hA⟩ := ha q s
    rw [hb] at he
    exact Except.ok.inj he ▸ hA

end Answers

/-- `record` keeps what `emit` makes of each exchange. -/
def Notes (h : Handler I σ) (record : σ → List ω) (emit : Exchange I → List ω) : Prop :=
  ∀ q s, record (h q s).2 = record s ++ emit ⟨q, (h q s).1⟩

end Handler

namespace Program

variable {h : Handler I σ} {Inv : σ → Prop} {A : (q : I.Request) → I.Answer q → Prop}
  {p : Program I α} {Q : α → List (Exchange I) → Prop} {s s' : σ} {a : α}

/-- A run that ends has exchanges of which the program ensures `Q`, and the record has grown by
them. -/
theorem Ensures.run_notes {record : σ → List ω} {emit : Exchange I → List ω}
    (hp : p.Ensures A Q) (hk : h.Keeps Inv A) (hn : h.Notes record emit) (hs : Inv s)
    (hr : p.run h s = (.ok a, s')) :
    ∃ t, Q a t ∧ record s' = record s ++ t.flatMap emit := by
  induction p generalizing s Q with
  | done b =>
    obtain ⟨rfl, rfl⟩ : b = a ∧ s = s' := by simpa using hr
    exact ⟨[], hp, by simp⟩
  | ask q next ih =>
    have hi := hk.inv (q := q) hs
    have hrec := hn q s
    rw [run_ask] at hr
    cases hq : h q s with
    | mk r s₁ =>
      rw [hq] at hr hi hrec
      cases r with
      | error e => simp at hr
      | ok b =>
        obtain ⟨t, hQ, ht⟩ := ih b (hp b (hk.allowed hs (by rw [hq]))) hi hr
        exact ⟨⟨q, .ok b⟩ :: t, hQ, by rw [ht, hrec]; simp⟩

theorem Ensures.run (hp : p.Ensures A Q) (hk : h.Keeps Inv A) (hs : Inv s)
    (hr : p.run h s = (.ok a, s')) : ∃ t, Q a t := by
  have hn : h.Notes (fun _ => ([] : List Unit)) fun _ => [] := fun _ _ => rfl
  obtain ⟨t, hQ, -⟩ := hp.run_notes hk hn hs hr
  exact ⟨t, hQ⟩

theorem run_total (hk : h.Keeps Inv A) (ht : h.Total Inv) (hs : Inv s) :
    ∃ a s', p.run h s = (.ok a, s') ∧ Inv s' := by
  induction p generalizing s with
  | done a => exact ⟨a, s, rfl, hs⟩
  | ask q next ih =>
    obtain ⟨b, hb⟩ := ht q s hs
    obtain ⟨a, s', hr, hi⟩ := ih b (hk.inv (q := q) hs)
    refine ⟨a, s', ?_, hi⟩
    rw [run_ask]
    cases hq : h q s with
    | mk r s₁ =>
      rw [hq] at hb hr
      obtain rfl : r = .ok b := hb
      exact hr

/-- Where every question is answered, a program ends as it ensures. -/
theorem Ensures.run_answers (hp : p.Ensures A Q) (ha : h.Answers A) (s : σ) :
    ∃ a s' t, p.run h s = (.ok a, s') ∧ Q a t := by
  obtain ⟨a, s', hr, -⟩ := run_total ha.keeps (ha.total _) (s := s) (p := p) .intro
  obtain ⟨t, hQ⟩ := hp.run ha.keeps .intro hr
  exact ⟨a, s', t, hr, hQ⟩

end Program

end FundRecovery

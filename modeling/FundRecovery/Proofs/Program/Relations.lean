import FundRecovery.Program

/-!
# Runs that go alike

`p.Alike h h' S R p'`: from states that `S` relates, `p` under `h` and `p'` under `h'` come to
outcomes that `R` relates or end in one crash, and leave states that `S` relates. The two programs
may ask different questions.

* `Agree R`: one failure, or results that `R` relates.
* `Alike.done`, `Alike.bind`, `Alike.request`: the rules follow the syntax of programs.
-/

namespace FundRecovery

variable {ε α β γ δ σ σ' : Type}

/-- The same failure, or results that `R` relates. -/
inductive Agree (R : α → β → Prop) : Except ε α → Except ε β → Prop where
  | error (e : ε) : Agree R (.error e) (.error e)
  | ok {a : α} {b : β} (h : R a b) : Agree R (.ok a) (.ok b)

namespace Agree

theorem refl {R : α → α → Prop} (h : ∀ a, R a a) (r : Except ε α) : Agree R r r := by
  cases r with
  | error e => exact .error e
  | ok a => exact .ok (h a)

theorem eq {r r' : Except ε α} (h : Agree Eq r r') : r = r' := by
  cases h with
  | error e => rfl
  | ok h => rw [h]

end Agree

namespace Program

variable {I : Interface}

/-- From related states, the programs end alike and in related states. -/
def Alike (h : Handler I σ) (h' : Handler I σ') (S : σ → σ' → Prop) (R : α → β → Prop)
    (p : Program I α) (p' : Program I β) : Prop :=
  ∀ s s', S s s' → Agree R (p.run h s).1 (p'.run h' s').1 ∧ S (p.run h s).2 (p'.run h' s').2

namespace Alike

variable {h : Handler I σ} {h' : Handler I σ'} {S : σ → σ' → Prop} {R : α → β → Prop}
  {p : Program I α} {p' : Program I β}

theorem done {a : α} {b : β} (hab : R a b) : Alike h h' S R (.done a) (.done b) :=
  fun _ _ hs => ⟨.ok hab, hs⟩

theorem request (q q' : I.Request) {R : I.Answer q → I.Answer q' → Prop}
    (hq : ∀ s s', S s s' → Agree R (h q s).1 (h' q' s').1 ∧ S (h q s).2 (h' q' s').2) :
    Alike h h' S R (request q) (request q') := by
  intro s s' hs
  obtain ⟨hanswer, hstate⟩ := hq s s' hs
  rw [Program.request, Program.request, run_ask, run_ask]
  revert hanswer hstate
  rcases h q s with ⟨r, s₁⟩
  rcases h' q' s' with ⟨r', s₁'⟩
  intro hanswer hstate
  cases hanswer with
  | error e => exact ⟨.error e, hstate⟩
  | ok hab => exact ⟨.ok hab, hstate⟩

theorem bind {f : α → Program I γ} {f' : β → Program I δ} {Q : γ → δ → Prop}
    (hp : Alike h h' S R p p') (hf : ∀ a b, R a b → Alike h h' S Q (f a) (f' b)) :
    Alike h h' S Q (p >>= f) (p' >>= f') := by
  intro s s' hs
  obtain ⟨hend, hstate⟩ := hp s s' hs
  rw [run_bind, run_bind]
  revert hend hstate
  rcases p.run h s with ⟨r, s₁⟩
  rcases p'.run h' s' with ⟨r', s₁'⟩
  intro hend hstate
  cases hend with
  | error e => exact ⟨.error e, hstate⟩
  | ok hab => exact hf _ _ hab _ _ hstate

end Alike

end Program

end FundRecovery

import FundRecovery.Proofs.Program.Ensures

/-!
# Programs whose questions have fixed answers

Where every question has one answer, a program has one outcome and asks one sequence of questions.

* `eval`, `trace`: the outcome and the questions, both compositional (`eval_bind`, `trace_bind`).
* `ensures_fixed_iff`: what a program with fixed answers ensures holds of exactly these.
-/

namespace FundRecovery.Program

variable {I : Interface} {α β : Type} (answer : (q : I.Request) → I.Answer q)

/-- The outcome under fixed answers. -/
def eval : Program I α → α
  | done a => a
  | ask q next => (next (answer q)).eval

/-- The questions asked under fixed answers, in order. -/
def trace : Program I α → List I.Request
  | done _ => []
  | ask q next => q :: (next (answer q)).trace

@[simp] theorem eval_done (a : α) : (done a : Program I α).eval answer = a := rfl

@[simp] theorem trace_done (a : α) : (done a : Program I α).trace answer = [] := rfl

@[simp] theorem eval_ask (q : I.Request) (next : I.Answer q → Program I α) :
    (ask q next).eval answer = (next (answer q)).eval answer := rfl

@[simp] theorem trace_ask (q : I.Request) (next : I.Answer q → Program I α) :
    (ask q next).trace answer = q :: (next (answer q)).trace answer := rfl

@[simp] theorem eval_request (q : I.Request) : (request q).eval answer = answer q := rfl

@[simp] theorem trace_request (q : I.Request) : (request q).trace answer = [q] := rfl

@[simp] theorem eval_bind (p : Program I α) (f : α → Program I β) :
    (p >>= f).eval answer = (f (p.eval answer)).eval answer := by
  induction p with
  | done a => rfl
  | ask q next ih => exact ih _

@[simp] theorem trace_bind (p : Program I α) (f : α → Program I β) :
    (p >>= f).trace answer = p.trace answer ++ (f (p.eval answer)).trace answer := by
  induction p with
  | done a => rfl
  | ask q next ih => exact congrArg (q :: ·) (ih _)

theorem ensures_fixed_iff {p : Program I α} {Q : α → List (Exchange I) → Prop} :
    p.Ensures (fun q a => a = answer q) Q ↔
      Q (p.eval answer) ((p.trace answer).map fun q => ⟨q, .ok (answer q)⟩) := by
  induction p generalizing Q with
  | done a => rfl
  | ask q next ih =>
    rw [Ensures.ask_iff, forall_eq, ih]
    rfl

end FundRecovery.Program

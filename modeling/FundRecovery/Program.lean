/-!
# Programs that ask

A program answers at once or asks its environment something and goes on with the answer, so that
what a program asks, and in which order, is part of its value. What the environment does is given
by a handler, which may crash instead of answering.

* `Program.run`: a program under a handler.
* `Program.run_bind`: programs in sequence run in sequence.
* `Handler.logged`: a handler that also keeps what was asked and answered.
-/

namespace FundRecovery

/-- What can be asked, and what kind of answer each question has. -/
structure Interface where
  Request : Type
  Answer : Request → Type

/-- A computation that asks questions of `I` before it ends in an `α`. -/
inductive Program (I : Interface) (α : Type) : Type where
  | done (a : α)
  | ask (q : I.Request) (next : I.Answer q → Program I α)

namespace Program

variable {I : Interface} {α β γ : Type}

def bind : Program I α → (α → Program I β) → Program I β
  | done a, f => f a
  | ask q next, f => ask q fun a => (next a).bind f

instance : Monad (Program I) where
  pure := done
  bind := bind

/-- Asks one question and ends in its answer. -/
def request (q : I.Request) : Program I (I.Answer q) := ask q done

@[simp] theorem pure_eq (a : α) : (pure a : Program I α) = done a := rfl

@[simp] theorem done_bind (a : α) (f : α → Program I β) : done a >>= f = f a := rfl

@[simp] theorem ask_bind (q : I.Request) (next : I.Answer q → Program I α) (f : α → Program I β) :
    ask q next >>= f = ask q fun a => next a >>= f := rfl

@[simp] theorem request_bind (q : I.Request) (f : I.Answer q → Program I β) :
    request q >>= f = ask q f := rfl

theorem bind_done (p : Program I α) : p.bind done = p := by
  induction p with
  | done => rfl
  | ask q next ih => exact congrArg (ask q) (funext ih)

theorem bind_assoc (p : Program I α) (f : α → Program I β) (g : β → Program I γ) :
    (p.bind f).bind g = p.bind fun a => (f a).bind g := by
  induction p with
  | done => rfl
  | ask q next ih => exact congrArg (ask q) (funext ih)

instance : LawfulMonad (Program I) :=
  LawfulMonad.mk' (Program I) bind_done (fun _ _ => rfl) bind_assoc

end Program

/-- The end of an environment that does not answer. -/
structure Crash where
  /-- What it said last. -/
  message : String
  deriving DecidableEq, Repr

/-- How an environment with states `σ` answers. -/
abbrev Handler (I : Interface) (σ : Type) : Type :=
  (q : I.Request) → σ → Except Crash (I.Answer q) × σ

namespace Program

variable {I : Interface} {α β σ : Type}

/-- The outcome of a program, or the crash that ended it, and the last state of the environment. -/
def run (h : Handler I σ) : Program I α → σ → Except Crash α × σ
  | done a, s => (.ok a, s)
  | ask q next, s =>
    match h q s with
    | (.ok a, s) => (next a).run h s
    | (.error e, s) => (.error e, s)

@[simp] theorem run_done (h : Handler I σ) (a : α) (s : σ) : (done a).run h s = (.ok a, s) := rfl

theorem run_ask (h : Handler I σ) (q : I.Request) (next : I.Answer q → Program I α) (s : σ) :
    (ask q next).run h s = match h q s with
      | (.ok a, s) => (next a).run h s
      | (.error e, s) => (.error e, s) := by
  rw [run]

theorem run_bind (h : Handler I σ) (p : Program I α) (f : α → Program I β) (s : σ) :
    (p >>= f).run h s = match p.run h s with
      | (.ok a, s) => (f a).run h s
      | (.error e, s) => (.error e, s) := by
  induction p generalizing s with
  | done => rfl
  | ask q next ih =>
    simp only [ask_bind, run_ask]
    split
    · exact ih _ _
    · rfl

end Program

/-- A question with the answer it got. -/
structure Exchange (I : Interface) where
  request : I.Request
  answer : Except Crash (I.Answer request)

/-- Keeps every exchange, in order. -/
def Handler.logged {I : Interface} {σ : Type} (h : Handler I σ) :
    Handler I (σ × List (Exchange I)) :=
  fun q (s, log) =>
    let r := h q s
    (r.1, (r.2, log ++ [⟨q, r.1⟩]))

end FundRecovery

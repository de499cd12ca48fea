import FundRecovery.Collaborator
import FundRecovery.Options
import FundRecovery.Program

/-!
# What a scan asks

A scan calls its collaborators and looks at its cancellation token. The environment of a scan may
cancel the token while it answers a call, or at any other moment; once cancelled, a token stays
cancelled.

* `Scan`: programs that make these requests.
* `Environment.handler`: an environment and its token as a handler.
* `Environment.ofAnswers`: an environment whose answers depend on the calls alone.
-/

namespace FundRecovery.Discovery

/-- A call of a collaborator: of the key deriver, the chain client, the bulk backend or the
observer of progress. -/
inductive Call where
  | deriveAddress (seed : Seed) (coinType account change index : UInt32)
  | deriveLegacyAddress (seed : Seed) (index : UInt32)
  | seedForPassphrase (seed : Seed) (passphrase : String)
  | listUtxos (address : String)
  | checkActivity (addresses : List String)
  | fetchUtxos (addresses : List String)
  | report (event : ScanProgress)
  deriving DecidableEq, Repr

/-- The kind of answer that a call has. -/
@[reducible]
def Call.Answer : Call → Type
  | deriveAddress .. => Except DerivationError DerivedAddress
  | deriveLegacyAddress .. => Except DerivationError DerivedAddress
  | seedForPassphrase .. => Except DerivationError Seed
  | listUtxos _ => Except ChainError (List Utxo)
  | checkActivity _ => Except ChainError (List AddressActivity)
  | fetchUtxos _ => Except ChainError (List AddressUtxos)
  | report _ => Unit

inductive Request where
  | call (c : Call)
  /-- Is the token cancelled? -/
  | isCancelled
  deriving DecidableEq, Repr

@[reducible]
def Request.Answer : Request → Type
  | call c => c.Answer
  | isCancelled => Bool

abbrev interface : Interface := ⟨Request, Request.Answer⟩

/-- A program of discovery. -/
abbrev Scan (α : Type) : Type := Program interface α

def call (c : Call) : Scan c.Answer := Program.request (I := interface) (.call c)

def isCancelled : Scan Bool := Program.request (I := interface) .isCancelled

/-- Hands an event to the observer, if there is one. -/
def report (options : ScanOptions) (event : ScanProgress) : Scan Unit :=
  if options.observed then call (.report event) else pure ()

/-- What becomes of one call: the answer, or the crash of the collaborator, and whether the token
was cancelled meanwhile. -/
structure Reply (α σ : Type) where
  answer : Except Crash α
  state : σ
  cancels : Bool

/-- The collaborators of a scan, with states `σ`, whoever holds its token, and the runtime that its
worker tasks run on. -/
structure Environment (σ : Type) where
  reply : (c : Call) → σ → Reply c.Answer σ
  /-- Whether the token is cancelled between two calls, decided when a scan looks at it. -/
  interrupt : σ → Bool × σ
  /-- What the runtime says of a task in which a collaborator crashed, which it knows by the number
  of tasks that were started up to then. -/
  taskError : Nat → Crash → String

/-- The state of an environment and of its token. -/
structure World (σ : Type) where
  state : σ
  cancelled : Bool
  /-- The worker tasks started so far. -/
  tasks : Nat
  deriving DecidableEq, Repr

namespace Environment

variable {σ : Type}

/-- The environment as a handler: a cancelled token stays cancelled. -/
def handler (env : Environment σ) : Handler interface (World σ)
  | .call c, w =>
    let r := env.reply c w.state
    (r.answer, { w with state := r.state, cancelled := w.cancelled || r.cancels })
  | .isCancelled, w =>
    let (now, state) := env.interrupt w.state
    (.ok (w.cancelled || now), { w with state, cancelled := w.cancelled || now })

/-- Answers that depend on the calls alone, and a token that nobody cancels. -/
def ofAnswers (answer : (c : Call) → c.Answer) : Environment Unit where
  reply c _ := ⟨.ok (answer c), (), false⟩
  interrupt _ := (false, ())
  taskError _ crash := crash.message

end Environment

end FundRecovery.Discovery

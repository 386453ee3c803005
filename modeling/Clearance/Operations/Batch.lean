import Clearance.Session

/-! Checks of many abilities in one session. -/
namespace Clearance

/-- The answer to each ability, and how many were asked for. -/
structure BatchAnswers where
  answers : SortedMap String Bool
  total : Nat
  deriving DecidableEq

def BatchAnswers.allowed? (b : BatchAnswers) (ability : String) : Option Bool :=
  b.answers.get? ability

def BatchAnswers.unique (b : BatchAnswers) : Nat := b.answers.size

namespace Operations

variable {Obj : Type} [DomainObject Obj]

def maxBatchSize : Nat := 50

def batchProblem? (abilities : List String) : Option BatchError :=
  if abilities.isEmpty then some .empty
  else if maxBatchSize < abilities.length then some (.tooLarge abilities.length maxBatchSize)
  else (abilities.findIdx? Text.allBlank).map .invalidAbility

/-- A check in which a reasoned denial is an answer like any other. -/
def checkPlain (v : Service Obj) (user : UserId) (ability : String) (subject : Subject Obj) :
    Act Scene Error Bool := do
  match ← (v.check user ability subject).attempt with
  | .ok allowed => return allowed
  | .error (.denied ..) => return false
  | .error e => throw e

def checkEach (v : Service Obj) (user : UserId) (subject : Subject Obj)
    (answers : SortedMap String Bool) : List String → Act Scene Error (SortedMap String Bool)
  | [] => return answers
  | ability :: rest => do
    if answers.contains ability then checkEach v user subject answers rest
    else
      let allowed ← checkPlain v user ability subject
      checkEach v user subject (answers.insert ability allowed) rest

def countBatch (n : Nat) : Act Scene BatchError Unit := do
  modify fun s =>
    { s with counters := { s.counters with batchChecks := s.counters.batchChecks + n } }
  Scene.tell (World.count fun m =>
    { m with batchChecks := m.batchChecks + n, batchSamples := m.batchSamples + 1 })

/-- Checks every ability in one session of its own, a repeated ability once. -/
def checkBatch (v : Service Obj) (user : UserId) (abilities : List String)
    (subject : Subject Obj) : Act Scene BatchError BatchAnswers := do
  match batchProblem? abilities with
  | some e => throw e
  | none =>
    let answers ← (Service.inFreshSession
      (checkEach v user subject .empty abilities)).mapError .check
    countBatch abilities.length
    Scene.log (.batchFinished user abilities.length answers.size)
    return ⟨answers, abilities.length⟩

end Operations

end Clearance

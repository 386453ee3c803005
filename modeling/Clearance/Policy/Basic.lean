import Clearance.Object

/-! Policies: rules of one kind of objects that come before any role. -/
namespace Clearance

/-- What a policy says before it looks at the action. -/
inductive Verdict where
  | allow
  | deny (reason : String)
  | defer
  deriving DecidableEq

inductive Response where
  | allow
  | deny
  | denyBecause (reason : String)
  deriving DecidableEq

structure Policy (Obj : Type) where
  actions : List String
  before : UserId → String → Verdict
  /-- Decides a declared action; no object is given where the check is about the kind. -/
  check : UserId → String → Option Obj → Response

/-- The action that an ability names: what follows its last colon. -/
def actionOf (ability : String) : String :=
  String.ofList (ability.toList.reverse.takeWhile (· ≠ ':')).reverse

structure PolicyRegistry (Obj : Type) where
  policies : SortedMap Kind (Policy Obj)

namespace PolicyRegistry

variable {Obj : Type}

def empty : PolicyRegistry Obj := ⟨.empty⟩

def size (r : PolicyRegistry Obj) : Nat := r.policies.size

def hasPolicyFor (r : PolicyRegistry Obj) (k : Kind) : Bool := r.policies.contains k

/-- An action that no ability could name, or none could name safely. -/
def isMalformed (action : String) : Bool :=
  action.isEmpty || action.toList.any fun c => c = ':' || Text.isBlank c

def actionProblem? (seen : List String) : List String → Option String
  | [] => none
  | a :: rest =>
    if isMalformed a then some s!"invalid action name '{a}'"
    else if a ∈ seen then some s!"duplicate action '{a}'"
    else actionProblem? (a :: seen) rest

def problem? (r : PolicyRegistry Obj) (k : Kind) (actions : List String) : Option String :=
  if r.hasPolicyFor k then some "a policy is already registered"
  else if actions.isEmpty then some "policy declares no actions"
  else actionProblem? [] actions

def register (r : PolicyRegistry Obj) (k : Kind) (p : Policy Obj) :
    Except Error (PolicyRegistry Obj) :=
  match r.problem? k p.actions with
  | some m => .error (.invalidPolicy k m)
  | none => .ok ⟨r.policies.insert k p⟩

def ofList (ps : List (Kind × Policy Obj)) : Except Error (PolicyRegistry Obj) :=
  ps.foldlM (fun r p => r.register p.1 p.2) empty

def describe (r : PolicyRegistry Obj) : String := describeKinds "PolicyRegistry" r.policies.keys

/-- What the policy of the subject's kind decides, if there is one and it decides. -/
def evaluate [DomainObject Obj] (r : PolicyRegistry Obj) (user : UserId) (ability : String)
    (subject : Subject Obj) : Option Response := do
  let p ← subject.kind? >>= r.policies.get?
  match p.before user ability with
  | .allow => return .allow
  | .deny reason => return .denyBecause reason
  | .defer =>
    let action := actionOf ability
    if action ∈ p.actions then return p.check user action subject.object? else none

end PolicyRegistry

end Clearance

import Clearance.Policy.Basic

/-! Resources, a ready-made kind of domain objects, and policies on them that are given as lists of
rules. -/
namespace Clearance

inductive Resource where
  | mk (kind : Kind) (owner : Owner) (above : Option Resource) (ownParent : Bool)
      (author : UserId) (locked : Bool)

namespace Resource

def kind : Resource → Kind
  | .mk k .. => k

def owner : Resource → Owner
  | .mk _ w .. => w

def author : Resource → UserId
  | .mk _ _ _ _ a _ => a

def locked : Resource → Bool
  | .mk _ _ _ _ _ l => l

/-- The resource above, or the resource itself where it is its own parent. -/
def parent? : Resource → Option Resource
  | .mk k w up true a l => some (.mk k w up true a l)
  | .mk _ _ up false _ _ => up

instance : DomainObject Resource := ⟨kind, owner, parent?⟩

end Resource

/-- Speaks when each condition that is given holds. -/
structure BeforeRule where
  user : Option UserId
  ability : Option String
  verdict : Verdict

def BeforeRule.applies (r : BeforeRule) (user : UserId) (ability : String) : Bool :=
  r.user.all (· = user) && r.ability.all (· = ability)

/-- Speaks when each condition that is given holds; those on the lock and on the author need a
resource. -/
structure CheckRule where
  user : Option UserId
  action : Option String
  /-- Whether the check is about a resource. -/
  present : Option Bool
  locked : Option Bool
  own : Option Bool
  answer : Response

def CheckRule.applies (r : CheckRule) (user : UserId) (action : String) (o : Option Resource) :
    Bool :=
  r.user.all (· = user) && r.action.all (· = action) && r.present.all (· = o.isSome) &&
    r.locked.all (fun b => o.any fun o => o.locked = b) &&
    r.own.all fun b => o.any fun o => decide (o.author = user) = b

/-- The first rule that applies speaks; where none does, the policy defers before the action and
denies the action. -/
def Policy.ofRules (actions : List String) (before : List BeforeRule) (rules : List CheckRule) :
    Policy Resource where
  actions
  before user ability := ((before.find? (·.applies user ability)).map (·.verdict)).getD .defer
  check user action o := ((rules.find? (·.applies user action o)).map (·.answer)).getD .deny

end Clearance

import Clearance.Context.Store
import Clearance.Sorted.Set
import Clearance.Text.Quoted

/-! Domain objects and the kinds of them that declare a parent. -/
namespace Clearance

abbrev Kind := String

/-- An object that contexts can be made for. The chain of parents may be endless. -/
class DomainObject (Obj : Type) where
  kind : Obj → Kind
  owner : Obj → Owner
  parent? : Obj → Option Obj

/-- The kinds whose objects are placed below their declared parent; objects of every other kind are
placed below the root. -/
structure ParentRegistry where
  kinds : SortedSet Kind

namespace ParentRegistry

def empty : ParentRegistry := ⟨.empty⟩

def register (r : ParentRegistry) (k : Kind) : ParentRegistry := ⟨r.kinds.insert k⟩

def ofList (ks : List Kind) : ParentRegistry := ks.foldl register empty

def size (r : ParentRegistry) : Nat := r.kinds.size

variable {Obj : Type} [DomainObject Obj]

def parentOf (r : ParentRegistry) (o : Obj) : Option Obj :=
  if r.kinds.contains (DomainObject.kind o) then DomainObject.parent? o else none

/-- The object and those declared above it, nearest first, at most `n` of them. -/
def chain (r : ParentRegistry) : Nat → Obj → List Obj
  | 0, _ => []
  | n + 1, o => o :: match r.parentOf o with
    | none => []
    | some p => r.chain n p

end ParentRegistry

/-- A registry in the notation of messages. -/
def describeKinds (registry : String) (kinds : List Kind) : String :=
  let names := String.intercalate ", " (kinds.map Text.quote)
  s!"{registry} \x7b types: [{names}] \x7d"

def ParentRegistry.describe (r : ParentRegistry) : String :=
  describeKinds "ParentRegistry" r.kinds.toList

/-- What a check is about. -/
inductive Subject (Obj : Type) where
  | root
  | context (c : Context)
  | object (o : Obj)
  | kind (k : Kind)

namespace Subject

variable {Obj : Type} [DomainObject Obj]

/-- The kind whose policy is asked. -/
def kind? : Subject Obj → Option Kind
  | .object o => some (DomainObject.kind o)
  | .kind k => some k
  | _ => none

def object? : Subject Obj → Option Obj
  | .object o => some o
  | _ => none

def describe : Subject Obj → String
  | .root => "Root"
  | .context c => s!"Context({Id.text c.id})"
  | .object o =>
    let w := DomainObject.owner o
    s!"Object \x7b level: {Text.quote w.level}, instance_id: {Id.text w.instanceId} \x7d"
  | .kind k => s!"Type({Text.quote k})"

end Subject

end Clearance

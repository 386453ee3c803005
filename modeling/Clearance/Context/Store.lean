import Clearance.Context.Basic
import Clearance.Sorted.Map
import Clearance.Text.Blank

/-! The store of contexts: records by id, an index of their owners, and the next id to give out. -/
namespace Clearance

open Std (ReflOrd TransCmp TransOrd LawfulEqOrd)

structure Owner where
  level : String
  instanceId : InstanceId
  deriving DecidableEq

namespace Owner

instance : Ord Owner where
  compare := compareLex (compareOn Owner.level) (compareOn Owner.instanceId)

instance : TransOrd Owner :=
  inferInstanceAs (TransCmp (compareLex (compareOn Owner.level) (compareOn Owner.instanceId)))

theorem compare_eq_iff {a b : Owner} :
    compare a b = .eq ↔ compare a.level b.level = .eq ∧ compare a.instanceId b.instanceId = .eq :=
  compareLex_eq_eq

instance : LawfulEqOrd Owner where
  eq_of_compare {a b} h := by
    obtain ⟨hl, hi⟩ := compare_eq_iff.1 h
    obtain ⟨l, i⟩ := a
    cases (LawfulEqOrd.eq_of_compare hl : l = b.level)
    cases (LawfulEqOrd.eq_of_compare hi : i = b.instanceId)
    rfl
  compare_self := compare_eq_iff.2 ⟨ReflOrd.compare_self, ReflOrd.compare_self⟩

end Owner

/-- A context to be made below an existing one. -/
structure Draft where
  parent : ContextId
  owner : Owner
  depth : Nat
  parentPath : String

def Draft.pathFor (d : Draft) (id : ContextId) : String := Path.child d.parentPath id

def Draft.record (d : Draft) (id : ContextId) : Record :=
  ⟨id, some d.parent, d.owner.level, some d.owner.instanceId, d.depth, d.pathFor id⟩

def Record.owner? (r : Record) : Option Owner := r.instanceId.map fun i => ⟨r.level, i⟩

structure ContextStore where
  records : SortedMap ContextId Record
  owners : SortedMap Owner ContextId
  /-- Counts up from two; behind the greatest id comes the least one. -/
  nextId : ContextId

namespace ContextStore

/-- A store that has not even a root. -/
def withoutRoot : ContextStore := ⟨.empty, .empty, 2⟩

/-- A store that holds the root alone. -/
def new : ContextStore := { withoutRoot with records := SortedMap.empty.insert rootId .root }

def get (s : ContextStore) (id : ContextId) : Option Record := s.records.get? id

def find (s : ContextStore) (o : Owner) : Option Record :=
  match s.owners.get? o with
  | none => none
  | some id => s.records.get? id

def size (s : ContextStore) : Nat := s.records.size

/-- Stores a record as it is, over one with the same id; the next id stays above it. -/
def insert (s : ContextStore) (r : Record) : ContextStore where
  records := s.records.insert r.id r
  owners := match r.owner? with
    | some o => s.owners.insert o r.id
    | none => s.owners
  nextId := max s.nextId (r.id + 1)

/-- Stores a draft under the next id. The level must not be blank, the parent must be stored and
the owner must be new, which is asked in this order. -/
def create (s : ContextStore) (d : Draft) : Except StorageError (Record × ContextStore) :=
  if Text.allBlank d.owner.level then .error (.invalidInput "context level cannot be empty")
  else if !s.records.contains d.parent then .error (.parentNotFound d.parent)
  else if s.owners.contains d.owner then
    .error (.contextConflict d.owner.level (some d.owner.instanceId))
  else
    .ok (d.record s.nextId, {
      records := s.records.insert s.nextId (d.record s.nextId)
      owners := s.owners.insert d.owner s.nextId
      nextId := s.nextId + 1 })

end ContextStore

end Clearance

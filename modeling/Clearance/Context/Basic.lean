import Clearance.Context.Path
import Clearance.Error

/-! Nodes of the scope tree. A record is what a store holds; a context is a record whose path
agrees with its own id, its parent and its depth. -/
namespace Clearance

def rootId : ContextId := 1

structure Record where
  id : ContextId
  parent : Option ContextId
  level : String
  instanceId : Option InstanceId
  depth : Nat
  path : String
  deriving DecidableEq

def Record.root : Record := ⟨rootId, none, "system", none, 0, "1/"⟩

/-- The path of the record leads from the root through its parent to itself. -/
structure Record.Lineage (r : Record) (ancestors : List ContextId) : Prop where
  path : Path.read? r.path = some ancestors
  first : ancestors.head? = some rootId
  last : ancestors.getLast? = some r.id
  parent : ancestors.dropLast.getLast? = r.parent
  depth : ancestors.length = r.depth + 1

instance (r : Record) (ancestors : List ContextId) : Decidable (r.Lineage ancestors) :=
  decidable_of_iff (Path.read? r.path = some ancestors ∧ ancestors.head? = some rootId ∧
      ancestors.getLast? = some r.id ∧ ancestors.dropLast.getLast? = r.parent ∧
      ancestors.length = r.depth + 1)
    ⟨fun ⟨a, b, c, d, e⟩ => ⟨a, b, c, d, e⟩, fun ⟨a, b, c, d, e⟩ => ⟨a, b, c, d, e⟩⟩

/-- A record with the ids on its path, from the root to its own. -/
structure Context where
  record : Record
  ancestors : List ContextId
  lineage : record.Lineage ancestors

namespace Context

theorem ext_record {a b : Context} (h : a.record = b.record) : a = b := by
  obtain ⟨ra, as, ha⟩ := a
  obtain ⟨rb, bs, hb⟩ := b
  cases h
  cases Option.some.inj (ha.path.symm.trans hb.path)
  rfl

instance : DecidableEq Context := fun a b =>
  if h : a.record = b.record then isTrue (ext_record h) else isFalse fun e => h (e ▸ rfl)

def ofRecord (r : Record) : Except Error Context :=
  match Path.read? r.path with
  | none => .error (.corruptPath r.id r.path)
  | some ancestors =>
    if h : r.Lineage ancestors then .ok ⟨r, ancestors, h⟩
    else .error (.corruptPath r.id r.path)

def id (c : Context) : ContextId := c.record.id

def path (c : Context) : String := c.record.path

def isRoot (c : Context) : Bool := c.id = rootId

/-- It is the other context or one of the other's ancestors. -/
def contains (c d : Context) : Bool := d.ancestors.contains c.id

theorem ofRecord_record (c : Context) : ofRecord c.record = .ok c := by
  obtain ⟨r, as, h⟩ := c
  simp [ofRecord, h.path, h]

theorem record_of_ofRecord {r : Record} {c : Context} (h : ofRecord r = .ok c) :
    c.record = r := by
  unfold ofRecord at h
  split at h
  · cases h
  · split at h
    · cases h; rfl
    · cases h

/-- The only way to fail is a corrupt path. -/
theorem ofRecord_error {r : Record} {e : Error} (h : ofRecord r = .error e) :
    e = .corruptPath r.id r.path := by
  unfold ofRecord at h
  split at h
  · cases h; rfl
  · split at h <;> cases h
    rfl

def root : Context :=
  ⟨.root, [rootId], by decide +kernel⟩

end Context

end Clearance

import Clearance.Json.Reader
import Clearance.Json.Writer
import Clearance.Permission.Snapshot

/-! Snapshots as JSON documents:
`{"contexts":{"5":{"roles":{"9":"editor"},"permissions":["edit"]}}}` -/
namespace Clearance

open Json (Literal Value)

/-- An id as the name of a member: just as it is written, and without escapes. -/
def idOfName? (name : Literal) : Option Int64 := do
  let text ← name.text
  let id ← Id.read? text.toList
  if name.plain ∧ Id.text id = text then some id else none

def nameOfId (id : Int64) : Literal := .ofString (Id.text id)

/-- The members of an object as a map from ids; of members with one name the last is kept. -/
def mapOfMembers? {α : Type} (read? : Value → Option α) : Value → Option (SortedMap Int64 α)
  | .object members => do
    let entries ← members.mapM fun m => do
      let id ← idOfName? m.1
      let a ← read? m.2
      return (id, a)
    return .ofList entries
  | _ => none

def membersOfMap {α : Type} (write : α → Value) (m : SortedMap Int64 α) : Value :=
  .object (m.entries.map fun e => (nameOfId e.1, write e.2))

namespace Grants

def toJson (g : Grants) : Value :=
  .obj [("roles", membersOfMap .str g.roles),
    ("permissions", .array (g.permissions.toList.map .str))]

def ofJson? (v : Value) : Option Grants := do
  match ← v.fields? ["roles", "permissions"] with
  | [some roles, some permissions] =>
    let roles ← mapOfMembers? Value.text? roles
    let items ← permissions.items?
    let permissions ← items.mapM Value.text?
    return ⟨roles, .ofList permissions⟩
  | _ => none

end Grants

namespace Snapshot

def toJson (s : Snapshot) : Value := .obj [("contexts", membersOfMap Grants.toJson s.contexts)]

def ofJson? (v : Value) : Option Snapshot := do
  match ← v.fields? ["contexts"] with
  | [some contexts] => return ⟨← mapOfMembers? Grants.ofJson? contexts⟩
  | _ => none

def text (s : Snapshot) : String := s.toJson.render

def toBytes (s : Snapshot) : ByteArray := s.text.toUTF8

def ofBytes? (b : ByteArray) : Option Snapshot := (Json.read? b).bind ofJson?

def ofBytes (b : ByteArray) : Except Error Snapshot :=
  match ofBytes? b with
  | some s => .ok s
  | none => .error .serialization

end Snapshot

end Clearance

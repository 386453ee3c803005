import Clearance.Permission.Codec
import Clearance.Proofs.Json.RoundTrip

/-! A snapshot that has been encoded is decoded to itself. -/
namespace Clearance

open Json (Literal Value)

theorem not_needsEscape_of_mem_write {id : Int64} {c : Char} (h : c ∈ Id.write id) :
    Json.needsEscape c = false := by
  rcases Text.mem_writeInteger h with h | rfl
  · have hlo : 48 ≤ c.toNat := by
      simp only [Char.isDigit, Bool.and_eq_true, decide_eq_true_eq] at h
      exact h.1
    have hquote : c ≠ '\x22' := by
      rintro rfl
      exact absurd h (by decide)
    have hslash : c ≠ '\\' := by
      rintro rfl
      exact absurd h (by decide)
    have hspace : ¬c < ' ' := fun hlt => by
      have hlt : c.toNat < 32 := hlt
      omega
    simp [Json.needsEscape, hquote, hslash, hspace]
  · decide

theorem idOfName?_nameOfId (id : Int64) : idOfName? (nameOfId id) = some id := by
  have hread : Id.read? (Id.text id).toList = some id := by
    rw [Id.text, String.toList_ofList]
    exact Id.read?_write id
  have hplain : (nameOfId id).plain = true := by
    simp only [nameOfId, Literal.ofString, Id.text, String.toList_ofList, Bool.not_eq_true',
      List.any_eq_false, Bool.not_eq_true]
    exact fun c hc => not_needsEscape_of_mem_write hc
  show (do
    let i ← Id.read? (Id.text id).toList
    if (nameOfId id).plain ∧ Id.text i = Id.text id then some i else none) = _
  rw [hread]
  simp [hplain]

theorem canonical_members {α β : Type} {members : List (α × β)}
    (name : α → String) (value : β → Value) (h : ∀ m ∈ members, (value m.2).Canonical) :
    (Value.object (members.map fun m => (.ofString (name m.1), value m.2))).Canonical := by
  apply Value.Canonical.object
  · intro e he
    obtain ⟨m, -, rfl⟩ := List.mem_map.1 he
    exact ⟨_, rfl⟩
  · intro e he
    obtain ⟨m, hm, rfl⟩ := List.mem_map.1 he
    exact h m hm

section Maps

variable {α : Type} {read? : Value → Option α} {write : α → Value}

theorem mapOfMembers?_membersOfMap (h : ∀ a, read? (write a) = some a) (m : SortedMap Int64 α) :
    mapOfMembers? read? (membersOfMap write m) = some m := by
  have hentries : ∀ l : List (Int64 × α),
      (l.map fun e => (nameOfId e.1, write e.2)).mapM (fun m => do
        let id ← idOfName? m.1
        let a ← read? m.2
        return (id, a)) = some l := by
    intro l
    induction l with
    | nil => rfl
    | cons e l ih =>
      rw [List.map_cons, List.mapM_cons, ih]
      simp [idOfName?_nameOfId, h]
  simp only [mapOfMembers?, membersOfMap]
  rw [hentries]
  exact congrArg some (SortedMap.ofList_entries m)

theorem canonical_membersOfMap (h : ∀ a, (write a).Canonical) (m : SortedMap Int64 α) :
    (membersOfMap write m).Canonical := canonical_members Id.text write fun e _ => h e.2

end Maps

theorem canonical_obj {members : List (String × Value)} (h : ∀ m ∈ members, m.2.Canonical) :
    (Value.obj members).Canonical := canonical_members id id h

namespace Grants

theorem canonical_toJson (g : Grants) : g.toJson.Canonical := by
  have hroles : (membersOfMap Value.str g.roles).Canonical := canonical_membersOfMap .str g.roles
  have hpermissions : (Value.array (g.permissions.toList.map .str)).Canonical := by
    apply Value.Canonical.array
    intro v hv
    obtain ⟨s, -, rfl⟩ := List.mem_map.1 hv
    exact .str s
  apply canonical_obj
  simp [hroles, hpermissions]

theorem ofJson?_toJson (g : Grants) : ofJson? g.toJson = some g := by
  have htext : ∀ s, Value.text? (.str s) = some s := fun _ => rfl
  have hroles : mapOfMembers? Value.text? (membersOfMap .str g.roles) = some g.roles :=
    mapOfMembers?_membersOfMap htext g.roles
  have hpermissions : ∀ l : List String, (l.map Value.str).mapM Value.text? = some l := by
    intro l
    induction l with
    | nil => rfl
    | cons s l ih =>
      rw [List.map_cons, List.mapM_cons, ih]
      rfl
  have hset := SortedSet.ofList_toList g.permissions
  have hfields : g.toJson.fields? ["roles", "permissions"] =
      some [some (membersOfMap .str g.roles), some (.array (g.permissions.toList.map .str))] := by
    simp [toJson, Value.obj, Value.fields?, Literal.ofString]
  rw [ofJson?, hfields]
  simp [hroles, Value.items?, hpermissions, hset]

end Grants

namespace Snapshot

theorem canonical_toJson (p : Snapshot) : p.toJson.Canonical :=
  canonical_obj (by simp [canonical_membersOfMap Grants.canonical_toJson])

theorem ofJson?_toJson (p : Snapshot) : ofJson? p.toJson = some p := by
  have hcontexts := mapOfMembers?_membersOfMap Grants.ofJson?_toJson p.contexts
  have hfields : p.toJson.fields? ["contexts"] =
      some [some (membersOfMap Grants.toJson p.contexts)] := by
    simp [toJson, Value.obj, Value.fields?, Literal.ofString]
  rw [ofJson?, hfields]
  simp [hcontexts]

/-- What is written of a snapshot is read back as it was. -/
theorem ofBytes?_toBytes (p : Snapshot) : ofBytes? p.toBytes = some p := by
  have hread : Json.read? p.toBytes = some p.toJson := p.canonical_toJson.read?_render
  rw [ofBytes?, hread]
  exact ofJson?_toJson p

/-- Every snapshot is decoded from its own bytes, the empty one too, and no two of them share their
bytes. -/
theorem ofBytes_toBytes : (∀ p : Snapshot, ofBytes p.toBytes = .ok p) ∧
    ofBytes empty.toBytes = .ok empty ∧ ∀ p q : Snapshot, p.toBytes = q.toBytes ↔ p = q := by
  have hdecode : ∀ p : Snapshot, ofBytes p.toBytes = .ok p := by
    intro p
    rw [ofBytes, ofBytes?_toBytes]
  refine ⟨hdecode, hdecode empty, fun p q => ⟨fun h => ?_, congrArg toBytes⟩⟩
  have hsame : Except.ok p = (Except.ok q : Except Error Snapshot) := by
    rw [← hdecode p, ← hdecode q, h]
  exact Except.ok.inj hsame

end Snapshot

end Clearance

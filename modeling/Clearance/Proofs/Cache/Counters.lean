import Clearance.Cache.Counters
import Clearance.Proofs.Permission.Codec
import Mathlib.Algebra.BigOperators.Group.List.Basic

/-! Counts are added field by field, and counts of 64 bits are read back from their record. -/
namespace Clearance

open Json (Literal Value)

namespace Counters

instance : Zero Counters := ⟨{}⟩

theorem add_def (a b : Counters) : a + b = ⟨a.requestHits + b.requestHits,
    a.sharedHits + b.sharedHits, a.persistentHits + b.persistentHits, a.misses + b.misses,
    a.batchChecks + b.batchChecks, a.invalidations + b.invalidations⟩ := rfl

theorem zero_def : (0 : Counters) = ⟨0, 0, 0, 0, 0, 0⟩ := rfl

instance : AddCancelCommMonoid Counters where
  add_assoc a b c := by simp only [add_def, Nat.add_assoc]
  zero_add a := by simp only [add_def, zero_def, Nat.zero_add]
  add_zero a := by simp only [add_def, zero_def, Nat.add_zero]
  add_comm a b := by simp only [add_def, Nat.add_comm]
  nsmul := nsmulRec
  add_left_cancel a b c h := by
    simp only [add_def, mk.injEq, Nat.add_left_cancel_iff] at h
    obtain ⟨h₁, h₂, h₃, h₄, h₅, h₆⟩ := h
    cases b
    cases c
    simp_all only

def Fits (c : Counters) : Prop := ∀ n ∈ c.toList, n < UInt64.size

theorem Fits.of_add {a b : Counters} (h : (a + b).Fits) : a.Fits := by
  simp only [Fits, add_def, toList, List.forall_mem_cons] at h ⊢
  obtain ⟨h₁, h₂, h₃, h₄, h₅, h₆, -⟩ := h
  exact ⟨by omega, by omega, by omega, by omega, by omega, by omega, nofun⟩

theorem canonical_toJson (c : Counters) : c.toJson.Canonical := by
  refine canonical_obj fun m hm => ?_
  obtain ⟨n, -, hn⟩ := List.mem_map.1 (List.of_mem_zip hm).2
  rw [← hn]
  exact .int n

theorem natural64?_nat {n : Nat} (h : n < UInt64.size) : (Value.nat n).natural64? = some n := by
  have hint : (Value.nat n).int? = some (n : Int) := Json.Number.int?_ofInt n
  have hrange : 0 ≤ (n : Int) ∧ (n : Int) < UInt64.size :=
    ⟨Int.natCast_nonneg n, Int.ofNat_lt.2 h⟩
  rw [Value.natural64?, hint, Option.bind_eq_bind, Option.bind_some, if_pos hrange,
    Int.toNat_natCast]

theorem mapM_some_nat {f : Option Value → Option Nat} {l : List Nat}
    (h : ∀ n ∈ l, f (some (.nat n)) = some n) :
    (l.map fun n => some (Value.nat n)).mapM f = some l := by
  induction l with
  | nil => rfl
  | cons n l ih =>
    obtain ⟨hn, hl⟩ := List.forall_mem_cons.1 h
    rw [List.map_cons, List.mapM_cons, hn, ih hl]
    rfl

theorem ofJson?_toJson {c : Counters} (h : c.Fits) : ofJson? c.toJson = some c := by
  have hfields : c.toJson.fields? names = some (c.toList.map fun n => some (.nat n)) := by
    simp [toJson, names, toList, Value.obj, Value.fields?, Literal.ofString]
  rw [ofJson?, hfields, Option.bind_eq_bind, Option.bind_some]
  refine (congrArg (Option.bind · ofList?) (mapM_some_nat ?_)).trans rfl
  intro n hn
  exact natural64?_nat (h n hn)

/-- What is recorded of counters is read back as it was. -/
theorem ofBytes?_toBytes {c : Counters} (h : c.Fits) : ofBytes? c.toBytes = some c := by
  have hread : Json.read? c.toBytes = some c.toJson := c.canonical_toJson.read?_render
  rw [ofBytes?, hread, Option.bind_some, ofJson?_toJson h]

theorem sum_set {l : List Counters} {i : Nat} {a : Counters} (h : l[i]? = some a) (c : Counters) :
    (l.set i c).sum + a = l.sum + c := by
  induction l generalizing i with
  | nil => cases h
  | cons b l ih =>
    cases i with
    | zero =>
      cases h
      simp only [List.set_cons_zero, List.sum_cons]
      rw [add_right_comm, add_comm c, add_right_comm]
    | succ i =>
      simp only [List.set_cons_succ, List.sum_cons]
      rw [add_assoc, ih h, add_assoc]

end Counters

end Clearance

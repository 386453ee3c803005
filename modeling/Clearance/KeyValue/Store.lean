import Clearance.Error
import Clearance.Sorted.Map

/-! A store of byte strings under keys, each with a time to live. A value lives while any time is
left to it; time does not pass between two operations. -/
namespace Clearance

structure Stored where
  value : ByteArray
  /-- The seconds left. -/
  ttl : Nat

def Stored.live (e : Stored) : Bool := 0 < e.ttl

structure KeyValueStore where
  entries : SortedMap String Stored

namespace KeyValueStore

def empty : KeyValueStore := ⟨.empty⟩

/-- Times to live from here on reach past the end of the clock. -/
def ttlLimit : Nat := 0x8000000000000000

def get (s : KeyValueStore) (key : String) : Option ByteArray :=
  ((s.entries.get? key).filter (·.live)).map (·.value)

def contains (s : KeyValueStore) (key : String) : Bool := (s.get key).isSome

def ttl? (s : KeyValueStore) (key : String) : Option Nat :=
  ((s.entries.get? key).filter (·.live)).map (·.ttl)

def set (s : KeyValueStore) (key : String) (value : ByteArray) (ttl : Nat) :
    Except StorageError KeyValueStore :=
  if ttl < ttlLimit then .ok ⟨s.entries.insert key ⟨value, ttl⟩⟩
  else .error (.invalidInput s!"ttl of {ttl}s is out of range")

def delete (s : KeyValueStore) (key : String) : KeyValueStore := ⟨s.entries.erase key⟩

theorem get_eq_some {s : KeyValueStore} {key : String} {value : ByteArray} :
    s.get key = some value ↔
      ∃ e, s.entries.get? key = some e ∧ e.live = true ∧ e.value = value := by
  simp only [get, Option.map_eq_some_iff, Option.filter_eq_some_iff, and_assoc]

theorem get_insert_self (s : KeyValueStore) (key : String) (value : ByteArray) {ttl : Nat}
    (h : 0 < ttl) : get ⟨s.entries.insert key ⟨value, ttl⟩⟩ key = some value :=
  get_eq_some.2 ⟨_, SortedMap.get?_insert_self .., decide_eq_true h, rfl⟩

theorem get_insert_of_ne (s : KeyValueStore) {key key' : String} (h : key' ≠ key) (e : Stored) :
    get ⟨s.entries.insert key e⟩ key' = s.get key' := by
  rw [get, get, SortedMap.get?_insert_of_ne _ _ h]

theorem get_insert_eq_some {s : KeyValueStore} {key key' : String} {new value : ByteArray}
    {ttl : Nat} (h : get ⟨s.entries.insert key ⟨new, ttl⟩⟩ key' = some value) :
    key' = key ∧ value = new ∨ key' ≠ key ∧ s.get key' = some value := by
  obtain ⟨e, he, hlive, hvalue⟩ := get_eq_some.1 h
  rcases SortedMap.get?_insert_eq_some he with ⟨rfl, rfl⟩ | ⟨hne, he⟩
  · exact .inl ⟨rfl, hvalue.symm⟩
  · exact .inr ⟨hne, get_eq_some.2 ⟨e, he, hlive, hvalue⟩⟩

theorem get_delete_self (s : KeyValueStore) (key : String) : (s.delete key).get key = none := by
  simp [get, delete]

theorem get_delete_of_ne (s : KeyValueStore) {key key' : String} (h : key' ≠ key) :
    (s.delete key).get key' = s.get key' := by
  rw [get, get, delete, SortedMap.get?_erase_of_ne _ h]

theorem get_delete_of_none {s : KeyValueStore} {key key' : String} (h : s.get key' = none) :
    (s.delete key).get key' = none := by
  by_cases hkey : key' = key
  · rw [hkey, get_delete_self]
  · rw [get_delete_of_ne s hkey, h]

theorem get_of_delete {s : KeyValueStore} {key key' : String} {value : ByteArray}
    (h : (s.delete key).get key' = some value) : key' ≠ key ∧ s.get key' = some value := by
  obtain ⟨e, he, hlive, hvalue⟩ := get_eq_some.1 h
  obtain ⟨hne, he⟩ := SortedMap.get?_of_erase he
  exact ⟨hne, get_eq_some.2 ⟨e, he, hlive, hvalue⟩⟩

end KeyValueStore

end Clearance

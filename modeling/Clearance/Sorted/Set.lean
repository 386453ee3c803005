import Clearance.Sorted.Map

/-! Finite sets kept as lists in strictly ascending order. -/
namespace Clearance

open Std (TransOrd LawfulEqOrd)

/-- A finite set, held as the keys of a map. -/
abbrev SortedSet (α : Type) [Ord α] := SortedMap α Unit

namespace SortedSet

variable {α : Type} [Ord α]

def empty : SortedSet α := SortedMap.empty

def contains (s : SortedSet α) (a : α) : Bool := SortedMap.contains s a

def insert [TransOrd α] (s : SortedSet α) (a : α) : SortedSet α := SortedMap.insert s a ()

def erase (s : SortedSet α) (a : α) : SortedSet α := SortedMap.erase s a

def insertMany [TransOrd α] (s : SortedSet α) (l : List α) : SortedSet α := l.foldl insert s

def ofList [TransOrd α] (l : List α) : SortedSet α := empty.insertMany l

def toList (s : SortedSet α) : List α := s.keys

theorem contains_insert_self [TransOrd α] (s : SortedSet α) (a : α) :
    (s.insert a).contains a = true := by
  simp [contains, insert, SortedMap.contains]

theorem contains_insert_of_ne [TransOrd α] [LawfulEqOrd α] (s : SortedSet α) {a b : α}
    (h : b ≠ a) : (s.insert a).contains b = s.contains b := by
  simp [contains, insert, SortedMap.contains, SortedMap.get?_insert_of_ne s () h]

theorem contains_erase_self (s : SortedSet α) (a : α) : (s.erase a).contains a = false := by
  simp [contains, erase, SortedMap.contains]

theorem contains_erase_of_ne [LawfulEqOrd α] (s : SortedSet α) {a b : α} (h : b ≠ a) :
    (s.erase a).contains b = s.contains b := by
  simp [contains, erase, SortedMap.contains, SortedMap.get?_erase_of_ne s h]

theorem mem_toList [TransOrd α] [LawfulEqOrd α] {s : SortedSet α} {a : α} :
    a ∈ s.toList ↔ s.contains a = true := by
  simp only [toList, SortedMap.keys, List.mem_map, Prod.exists, contains, SortedMap.contains,
    Option.isSome_iff_exists]
  constructor
  · rintro ⟨_, u, he, rfl⟩
    exact ⟨u, (SortedMap.mem_entries_iff _).1 he⟩
  · rintro ⟨u, he⟩
    exact ⟨a, u, (SortedMap.mem_entries_iff _).2 he, rfl⟩

theorem ofList_toList [TransOrd α] (s : SortedSet α) : ofList s.toList = s := by
  have h := SortedMap.ofList_entries s
  rw [SortedMap.ofList] at h
  rw [ofList, insertMany, toList, SortedMap.keys, List.foldl_map]
  exact h

end SortedSet

end Clearance

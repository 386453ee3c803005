import Clearance.Text.Integer

/-! Identifiers: signed 64-bit numbers, written in decimal. -/
namespace Clearance

abbrev ContextId := Int64
abbrev UserId := Int64
abbrev RoleId := Int64
/-- The number of a domain object among those of its level. -/
abbrev InstanceId := Int64

namespace Id

def ofInt? (n : Int) : Option Int64 :=
  if -0x8000000000000000 ≤ n ∧ n < 0x8000000000000000 then some (Int64.ofInt n) else none

def write (a : Int64) : List Char := Text.writeInteger a.toInt

def text (a : Int64) : String := String.ofList (write a)

def read? (cs : List Char) : Option Int64 := (Text.integer? cs).bind ofInt?

theorem ofInt?_toInt (a : Int64) : ofInt? a.toInt = some a := by
  rw [ofInt?, if_pos ⟨Int64.le_toInt a, Int64.toInt_lt a⟩, Int64.ofInt_toInt]

theorem toInt_of_ofInt? {n : Int} {a : Int64} (h : ofInt? n = some a) : a.toInt = n := by
  unfold ofInt? at h
  split at h
  · next hn =>
    cases h
    exact Int64.toInt_ofInt_of_le (by omega) (by omega)
  · cases h

theorem read?_write (a : Int64) : read? (write a) = some a := by
  simp [read?, write, Text.integer?_writeInteger, ofInt?_toInt]

theorem write_injective {a b : Int64} (h : write a = write b) : a = b := by
  have := congrArg read? h
  simpa [read?_write] using this

theorem text_injective {a b : Int64} (h : text a = text b) : a = b :=
  write_injective (String.ofList_injective h)

end Id

end Clearance

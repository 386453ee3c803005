/-! Integers in decimal. A number that is read may carry either sign and leading zeros; a number
that is written carries neither a plus nor a leading zero. -/
namespace Clearance.Text

def natural? (cs : List Char) : Option Nat :=
  if cs ≠ [] ∧ cs.all Char.isDigit then some (Nat.ofDigitChars 10 cs 0) else none

def integer? : List Char → Option Int
  | '-' :: cs => (natural? cs).map fun n => -(n : Int)
  | '+' :: cs => (natural? cs).map fun n => (n : Int)
  | cs => (natural? cs).map fun n => (n : Int)

def integer64? (n : Int) : Option Int :=
  if -0x8000000000000000 ≤ n ∧ n < 0x8000000000000000 then some n else none

def hexDigit? (c : Char) : Option Nat :=
  if '0' ≤ c && c ≤ '9' then some (c.toNat - 48)
  else if 'a' ≤ c && c ≤ 'f' then some (c.toNat - 87)
  else if 'A' ≤ c && c ≤ 'F' then some (c.toNat - 55)
  else none

def radix? (base : Nat) (cs : List Char) : Option Nat :=
  if cs = [] then none
  else cs.foldlM (fun n c => do
    let d ← hexDigit? c
    if d < base then some (n * base + d) else none) 0

def writeInteger : Int → List Char
  | .ofNat n => Nat.toDigits 10 n
  | .negSucc n => '-' :: Nat.toDigits 10 (n + 1)

theorem natural?_toDigits (n : Nat) : natural? (Nat.toDigits 10 n) = some n := by
  have h : (Nat.toDigits 10 n).all Char.isDigit = true :=
    List.all_eq_true.2 fun c hc => Nat.isDigit_of_mem_toDigits (by decide) (by decide) hc
  simp [natural?, Nat.toDigits_ne_nil, h, Nat.ofDigitChars_ten_toDigits]

theorem integer?_of_isDigit {c : Char} {cs : List Char} (h : c.isDigit = true) :
    integer? (c :: cs) = (natural? (c :: cs)).map fun n => (n : Int) := by
  unfold integer?
  split
  · next heq => cases heq; simp [Char.isDigit] at h
  · next heq => cases heq; simp [Char.isDigit] at h
  · rfl

theorem integer?_toDigits (n : Nat) : integer? (Nat.toDigits 10 n) = some (n : Int) := by
  cases hd : Nat.toDigits 10 n with
  | nil => exact absurd hd Nat.toDigits_ne_nil
  | cons c cs =>
    have hc : c.isDigit = true :=
      Nat.isDigit_of_mem_toDigits (by decide) (by decide) (hd ▸ List.mem_cons_self ..)
    rw [integer?_of_isDigit hc, ← hd, natural?_toDigits]
    rfl

theorem integer?_writeInteger (n : Int) : integer? (writeInteger n) = some n := by
  cases n with
  | ofNat n => exact integer?_toDigits n
  | negSucc n => simp [writeInteger, integer?, natural?_toDigits, Int.negSucc_eq]

theorem mem_writeInteger {n : Int} {c : Char} (h : c ∈ writeInteger n) :
    c.isDigit = true ∨ c = '-' := by
  cases n with
  | ofNat n => exact .inl (Nat.isDigit_of_mem_toDigits (by decide) (by decide) h)
  | negSucc n =>
    rcases List.mem_cons.1 h with h | h
    · exact .inr h
    · exact .inl (Nat.isDigit_of_mem_toDigits (by decide) (by decide) h)

end Clearance.Text

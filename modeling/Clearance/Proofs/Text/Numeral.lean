import Clearance.Text.Integer

/-! Numerals, the texts that integers are read from. Several numerals stand for one integer, and the
one that is written for it is the one that has no plus and no zero that could be left out. -/
namespace Clearance.Text

/-- One digit or more, and the number that they stand for. -/
inductive Digits : List Char → Nat → Prop
  | one {c : Char} : c.isDigit = true → Digits [c] (c.toNat - '0'.toNat)
  | more {cs : List Char} {n : Nat} {c : Char} : Digits cs n → c.isDigit = true →
      Digits (cs ++ [c]) (10 * n + (c.toNat - '0'.toNat))

/-- Digits after at most one sign, and the integer that they stand for. -/
inductive Numeral : List Char → Int → Prop
  | bare {cs : List Char} {n : Nat} : Digits cs n → Numeral cs n
  | plus {cs : List Char} {n : Nat} : Digits cs n → Numeral ('+' :: cs) n
  | minus {cs : List Char} {n : Nat} : Digits cs n → Numeral ('-' :: cs) (-n)

/-- No plus, and no zero before another digit or after a minus. -/
structure Plain (cs : List Char) : Prop where
  plus : ¬['+'] <+: cs
  zero : ['0'] <+: cs → cs = ['0']
  minus : ¬['-', '0'] <+: cs

instance (cs : List Char) : Decidable (Plain cs) :=
  decidable_of_iff (¬['+'] <+: cs ∧ (['0'] <+: cs → cs = ['0']) ∧ ¬['-', '0'] <+: cs)
    ⟨fun ⟨a, b, c⟩ => ⟨a, b, c⟩, fun ⟨a, b, c⟩ => ⟨a, b, c⟩⟩

section Digits

variable {cs : List Char} {n : Nat}

theorem Digits.exists_head (h : Digits cs n) : ∃ c ds, cs = c :: ds ∧ c.isDigit = true := by
  induction h with
  | one hc => exact ⟨_, [], rfl, hc⟩
  | @more cs n d _ _ ih =>
    obtain ⟨c, ds, rfl, hc⟩ := ih
    exact ⟨c, ds ++ [d], rfl, hc⟩

theorem Digits.isDigit (h : Digits cs n) : ∀ c ∈ cs, c.isDigit = true := by
  induction h with
  | one hc => simpa using hc
  | more _ hc ih =>
    intro d hd
    rcases List.mem_append.1 hd with hd | hd
    · exact ih d hd
    · rw [List.mem_singleton.1 hd]
      exact hc

theorem Digits.value (h : Digits cs n) : Nat.ofDigitChars 10 cs 0 = n := by
  induction h with
  | one _ => simp [Nat.ofDigitChars_cons]
  | more _ _ ih => simp [Nat.ofDigitChars_append, ih, Nat.ofDigitChars_cons]

theorem digits_ofDigitChars {c : Char} (hc : c.isDigit = true) (cs : List Char)
    (hcs : ∀ d ∈ cs, d.isDigit = true) :
    Digits (c :: cs) (Nat.ofDigitChars 10 (c :: cs) 0) := by
  -- the value is that of the digits before the last one, times ten, and the last one
  generalize hlength : cs.length = k
  induction k generalizing cs with
  | zero =>
    rw [List.length_eq_zero_iff] at hlength
    subst hlength
    simpa [Nat.ofDigitChars_cons] using Digits.one hc
  | succ k ih =>
    obtain ⟨front, d, rfl⟩ : ∃ front d, cs = front ++ [d] := by
      have hne : cs ≠ [] := List.ne_nil_of_length_eq_add_one hlength
      exact ⟨_, _, (List.dropLast_concat_getLast hne).symm⟩
    have hfront := ih front (fun e he => hcs e (List.mem_append_left _ he)) (by simpa using hlength)
    have hd := hcs d (List.mem_append_right _ (List.mem_singleton_self d))
    have hmore := Digits.more hfront hd
    rw [← List.cons_append, Nat.ofDigitChars_append]
    simpa [Nat.ofDigitChars_cons] using hmore

theorem natural?_eq_some_iff : natural? cs = some n ↔ Digits cs n := by
  constructor
  · intro h
    unfold natural? at h
    split at h
    next hdigits =>
      obtain ⟨hne, hall⟩ := hdigits
      cases h
      obtain ⟨c, ds, rfl⟩ := List.exists_cons_of_ne_nil hne
      rw [List.all_eq_true, List.forall_mem_cons] at hall
      exact digits_ofDigitChars hall.1 ds hall.2
    next => cases h
  · intro h
    obtain ⟨c, ds, rfl, -⟩ := h.exists_head
    have hall : (c :: ds).all Char.isDigit = true := List.all_eq_true.2 h.isDigit
    rw [natural?, if_pos ⟨List.cons_ne_nil c ds, hall⟩, h.value]

end Digits

section Numeral

variable {cs : List Char} {n : Int}

/-- Integers are read from numerals and from nothing else. -/
theorem integer?_eq_some_iff : integer? cs = some n ↔ Numeral cs n := by
  constructor
  · intro h
    unfold integer? at h
    split at h
    all_goals
      obtain ⟨m, hm, rfl⟩ := Option.map_eq_some_iff.1 h
      obtain ⟨k, hk, hm⟩ := Option.bind_eq_some_iff.1 hm
      cases hm
      have hdigits := natural?_eq_some_iff.1 hk
    · exact .minus hdigits
    · exact .plus hdigits
    · exact .bare hdigits
  · intro h
    cases h with
    | bare hdigits =>
      have hread := natural?_eq_some_iff.2 hdigits
      obtain ⟨c, ds, rfl, hc⟩ := hdigits.exists_head
      rw [integer?_of_isDigit hc, hread]
      rfl
    | plus hdigits => rw [integer?, natural?_eq_some_iff.2 hdigits]; rfl
    | minus hdigits => rw [integer?, natural?_eq_some_iff.2 hdigits]; rfl

end Numeral

section Plain

theorem exists_head_toDigits {n : Nat} (h : 0 < n) :
    ∃ c cs, Nat.toDigits 10 n = c :: cs ∧ c ≠ '0' := by
  induction n using Nat.strongRecOn with
  | ind n ih =>
    by_cases hn : n < 10
    · refine ⟨n.digitChar, [], Nat.toDigits_of_lt_base hn, ?_⟩
      have hdigit : ∀ n < 10, 0 < n → n.digitChar ≠ '0' := by decide
      exact hdigit n hn h
    · obtain ⟨c, cs, hc, hne⟩ := ih (n / 10) (by omega) (by omega)
      refine ⟨c, cs ++ [(n % 10).digitChar], ?_, hne⟩
      rw [Nat.toDigits_of_base_le (by decide) (by omega), hc]
      rfl

theorem toDigits_digit {c : Char} (hc : c.isDigit = true) :
    Nat.toDigits 10 (c.toNat - '0'.toNat) = [c] ∧ c.toNat - '0'.toNat < 10 := by
  have hbounds : 48 ≤ c.val ∧ c.val ≤ 57 := by simpa [Char.isDigit] using hc
  have hlo : 48 ≤ c.toNat := hbounds.1
  have hhi : c.toNat ≤ 57 := hbounds.2
  have hzero : '0'.toNat = 48 := rfl
  have hlt : c.toNat - '0'.toNat < 10 := by omega
  refine ⟨?_, hlt⟩
  rw [Nat.toDigits_of_lt_base hlt]
  congr 1
  apply Char.toNat_inj.1
  rw [Nat.toNat_digitChar_of_lt_ten hlt]
  omega

/-- Digits that do not begin with a zero, unless it is all there is, are those that are written. -/
theorem Digits.eq_toDigits {cs : List Char} {n : Nat} (h : Digits cs n)
    (hzero : ['0'] <+: cs → cs = ['0']) : cs = Nat.toDigits 10 n := by
  induction h with
  | one hc => exact (toDigits_digit hc).1.symm
  | @more cs n c hcs hc ih =>
    obtain ⟨d, ds, rfl, -⟩ := hcs.exists_head
    have hd : d ≠ '0' := by
      rintro rfl
      have := hzero ⟨ds ++ [c], rfl⟩
      simp at this
    have hfront : d :: ds = Nat.toDigits 10 n := by
      apply ih
      intro hbegins
      rw [List.cons_prefix_cons] at hbegins
      exact absurd hbegins.1.symm hd
    have hn : 0 < n := by
      apply Nat.pos_of_ne_zero
      rintro rfl
      rw [Nat.toDigits_zero, List.cons.injEq] at hfront
      exact hd hfront.1
    obtain ⟨hlast, hlt⟩ := toDigits_digit hc
    rw [← Nat.toDigits_append_toDigits (by decide) hn hlt, hlast, ← hfront]

theorem plain_toDigits (n : Nat) : Plain (Nat.toDigits 10 n) := by
  by_cases hn : n = 0
  · subst hn
    decide
  · obtain ⟨c, cs, hc, hne⟩ := exists_head_toDigits (Nat.pos_of_ne_zero hn)
    have hdigit : c.isDigit = true :=
      Nat.isDigit_of_mem_toDigits (by decide) (by decide) (hc ▸ List.mem_cons_self ..)
    rw [hc]
    refine ⟨?_, ?_, ?_⟩
    all_goals
      intro hbegins
      rw [List.cons_prefix_cons] at hbegins
      obtain ⟨rfl, -⟩ := hbegins
    · exact absurd hdigit (by decide)
    · exact absurd rfl hne
    · exact absurd hdigit (by decide)

theorem plain_writeInteger (n : Int) : Plain (writeInteger n) := by
  cases n with
  | ofNat n => exact plain_toDigits n
  | negSucc n =>
    obtain ⟨c, cs, hc, hne⟩ := exists_head_toDigits n.succ_pos
    have hwrite : writeInteger (.negSucc n) = '-' :: c :: cs := congrArg _ hc
    rw [hwrite]
    refine ⟨?_, ?_, ?_⟩
    · simp
    · simp
    · simpa using hne.symm

/-- Of the numerals for an integer the plain one is the one that is written. -/
theorem Numeral.eq_writeInteger_iff {cs : List Char} {n : Int} (h : Numeral cs n) :
    cs = writeInteger n ↔ Plain cs := by
  constructor
  · rintro rfl
    exact plain_writeInteger n
  · intro hplain
    cases h with
    | bare h => exact h.eq_toDigits hplain.zero
    | plus _ => exact absurd ⟨_, rfl⟩ hplain.plus
    | @minus cs n h =>
      have hzero : ¬['0'] <+: cs := by
        intro hbegins
        exact hplain.minus (List.cons_prefix_cons.2 ⟨rfl, hbegins⟩)
      have hwritten : cs = Nat.toDigits 10 n := h.eq_toDigits fun hbegins => absurd hbegins hzero
      cases n with
      | zero =>
        subst hwritten
        exact absurd (by decide) hzero
      | succ n => rw [hwritten]; rfl

end Plain

end Clearance.Text

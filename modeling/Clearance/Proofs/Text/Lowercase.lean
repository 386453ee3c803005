import Clearance.Text.Lowercase

/-! Small letters of every script. Unicode lists which letters are capitals and what the small ones
are; of all capitals outside ASCII two alone have small letters in it, so that a text whose small
form is ASCII is found without the list. -/
namespace Clearance.Text

/-- Capitals that follow one another in steps of one size, each as far behind its small letter. -/
structure Capitals where
  first : Nat
  last : Nat
  step : Nat
  shift : Int
  deriving DecidableEq

structure Capitals.Has (r : Capitals) (c : Char) : Prop where
  first_le : r.first ≤ c.toNat
  le_last : c.toNat ≤ r.last
  step : r.step ∣ c.toNat - r.first

/-- The capitals of Unicode 17, except for the dotted I. -/
def capitals : List Capitals :=
  [⟨0x41, 0x5A, 1, 32⟩, ⟨0xC0, 0xD6, 1, 32⟩, ⟨0xD8, 0xDE, 1, 32⟩, ⟨0x100, 0x12E, 2, 1⟩,
    ⟨0x132, 0x136, 2, 1⟩, ⟨0x139, 0x147, 2, 1⟩, ⟨0x14A, 0x176, 2, 1⟩, ⟨0x178, 0x178, 1, -121⟩,
    ⟨0x179, 0x17D, 2, 1⟩, ⟨0x181, 0x181, 1, 210⟩, ⟨0x182, 0x184, 2, 1⟩, ⟨0x186, 0x186, 1, 206⟩,
    ⟨0x187, 0x187, 1, 1⟩, ⟨0x189, 0x18A, 1, 205⟩, ⟨0x18B, 0x18B, 1, 1⟩, ⟨0x18E, 0x18E, 1, 79⟩,
    ⟨0x18F, 0x18F, 1, 202⟩, ⟨0x190, 0x190, 1, 203⟩, ⟨0x191, 0x191, 1, 1⟩, ⟨0x193, 0x193, 1, 205⟩,
    ⟨0x194, 0x194, 1, 207⟩, ⟨0x196, 0x196, 1, 211⟩, ⟨0x197, 0x197, 1, 209⟩, ⟨0x198, 0x198, 1, 1⟩,
    ⟨0x19C, 0x19C, 1, 211⟩, ⟨0x19D, 0x19D, 1, 213⟩, ⟨0x19F, 0x19F, 1, 214⟩, ⟨0x1A0, 0x1A4, 2, 1⟩,
    ⟨0x1A6, 0x1A6, 1, 218⟩, ⟨0x1A7, 0x1A7, 1, 1⟩, ⟨0x1A9, 0x1A9, 1, 218⟩, ⟨0x1AC, 0x1AC, 1, 1⟩,
    ⟨0x1AE, 0x1AE, 1, 218⟩, ⟨0x1AF, 0x1AF, 1, 1⟩, ⟨0x1B1, 0x1B2, 1, 217⟩, ⟨0x1B3, 0x1B5, 2, 1⟩,
    ⟨0x1B7, 0x1B7, 1, 219⟩, ⟨0x1B8, 0x1B8, 1, 1⟩, ⟨0x1BC, 0x1BC, 1, 1⟩, ⟨0x1C4, 0x1C4, 1, 2⟩,
    ⟨0x1C5, 0x1C5, 1, 1⟩, ⟨0x1C7, 0x1C7, 1, 2⟩, ⟨0x1C8, 0x1C8, 1, 1⟩, ⟨0x1CA, 0x1CA, 1, 2⟩,
    ⟨0x1CB, 0x1DB, 2, 1⟩, ⟨0x1DE, 0x1EE, 2, 1⟩, ⟨0x1F1, 0x1F1, 1, 2⟩, ⟨0x1F2, 0x1F4, 2, 1⟩,
    ⟨0x1F6, 0x1F6, 1, -97⟩, ⟨0x1F7, 0x1F7, 1, -56⟩, ⟨0x1F8, 0x21E, 2, 1⟩, ⟨0x220, 0x220, 1, -130⟩,
    ⟨0x222, 0x232, 2, 1⟩, ⟨0x23A, 0x23A, 1, 10795⟩, ⟨0x23B, 0x23B, 1, 1⟩, ⟨0x23D, 0x23D, 1, -163⟩,
    ⟨0x23E, 0x23E, 1, 10792⟩, ⟨0x241, 0x241, 1, 1⟩, ⟨0x243, 0x243, 1, -195⟩, ⟨0x244, 0x244, 1, 69⟩,
    ⟨0x245, 0x245, 1, 71⟩, ⟨0x246, 0x24E, 2, 1⟩, ⟨0x370, 0x372, 2, 1⟩, ⟨0x376, 0x376, 1, 1⟩,
    ⟨0x37F, 0x37F, 1, 116⟩, ⟨0x386, 0x386, 1, 38⟩, ⟨0x388, 0x38A, 1, 37⟩, ⟨0x38C, 0x38C, 1, 64⟩,
    ⟨0x38E, 0x38F, 1, 63⟩, ⟨0x391, 0x3A1, 1, 32⟩, ⟨0x3A3, 0x3AB, 1, 32⟩, ⟨0x3CF, 0x3CF, 1, 8⟩,
    ⟨0x3D8, 0x3EE, 2, 1⟩, ⟨0x3F4, 0x3F4, 1, -60⟩, ⟨0x3F7, 0x3F7, 1, 1⟩, ⟨0x3F9, 0x3F9, 1, -7⟩,
    ⟨0x3FA, 0x3FA, 1, 1⟩, ⟨0x3FD, 0x3FF, 1, -130⟩, ⟨0x400, 0x40F, 1, 80⟩, ⟨0x410, 0x42F, 1, 32⟩,
    ⟨0x460, 0x480, 2, 1⟩, ⟨0x48A, 0x4BE, 2, 1⟩, ⟨0x4C0, 0x4C0, 1, 15⟩, ⟨0x4C1, 0x4CD, 2, 1⟩,
    ⟨0x4D0, 0x52E, 2, 1⟩, ⟨0x531, 0x556, 1, 48⟩, ⟨0x10A0, 0x10C5, 1, 7264⟩,
    ⟨0x10C7, 0x10C7, 1, 7264⟩, ⟨0x10CD, 0x10CD, 1, 7264⟩, ⟨0x13A0, 0x13EF, 1, 38864⟩,
    ⟨0x13F0, 0x13F5, 1, 8⟩, ⟨0x1C89, 0x1C89, 1, 1⟩, ⟨0x1C90, 0x1CBA, 1, -3008⟩,
    ⟨0x1CBD, 0x1CBF, 1, -3008⟩, ⟨0x1E00, 0x1E94, 2, 1⟩, ⟨0x1E9E, 0x1E9E, 1, -7615⟩,
    ⟨0x1EA0, 0x1EFE, 2, 1⟩, ⟨0x1F08, 0x1F0F, 1, -8⟩, ⟨0x1F18, 0x1F1D, 1, -8⟩,
    ⟨0x1F28, 0x1F2F, 1, -8⟩, ⟨0x1F38, 0x1F3F, 1, -8⟩, ⟨0x1F48, 0x1F4D, 1, -8⟩,
    ⟨0x1F59, 0x1F5F, 2, -8⟩, ⟨0x1F68, 0x1F6F, 1, -8⟩, ⟨0x1F88, 0x1F8F, 1, -8⟩,
    ⟨0x1F98, 0x1F9F, 1, -8⟩, ⟨0x1FA8, 0x1FAF, 1, -8⟩, ⟨0x1FB8, 0x1FB9, 1, -8⟩,
    ⟨0x1FBA, 0x1FBB, 1, -74⟩, ⟨0x1FBC, 0x1FBC, 1, -9⟩, ⟨0x1FC8, 0x1FCB, 1, -86⟩,
    ⟨0x1FCC, 0x1FCC, 1, -9⟩, ⟨0x1FD8, 0x1FD9, 1, -8⟩, ⟨0x1FDA, 0x1FDB, 1, -100⟩,
    ⟨0x1FE8, 0x1FE9, 1, -8⟩, ⟨0x1FEA, 0x1FEB, 1, -112⟩, ⟨0x1FEC, 0x1FEC, 1, -7⟩,
    ⟨0x1FF8, 0x1FF9, 1, -128⟩, ⟨0x1FFA, 0x1FFB, 1, -126⟩, ⟨0x1FFC, 0x1FFC, 1, -9⟩,
    ⟨0x2126, 0x2126, 1, -7517⟩, ⟨0x212A, 0x212A, 1, -8383⟩, ⟨0x212B, 0x212B, 1, -8262⟩,
    ⟨0x2132, 0x2132, 1, 28⟩, ⟨0x2160, 0x216F, 1, 16⟩, ⟨0x2183, 0x2183, 1, 1⟩,
    ⟨0x24B6, 0x24CF, 1, 26⟩, ⟨0x2C00, 0x2C2F, 1, 48⟩, ⟨0x2C60, 0x2C60, 1, 1⟩,
    ⟨0x2C62, 0x2C62, 1, -10743⟩, ⟨0x2C63, 0x2C63, 1, -3814⟩, ⟨0x2C64, 0x2C64, 1, -10727⟩,
    ⟨0x2C67, 0x2C6B, 2, 1⟩, ⟨0x2C6D, 0x2C6D, 1, -10780⟩, ⟨0x2C6E, 0x2C6E, 1, -10749⟩,
    ⟨0x2C6F, 0x2C6F, 1, -10783⟩, ⟨0x2C70, 0x2C70, 1, -10782⟩, ⟨0x2C72, 0x2C72, 1, 1⟩,
    ⟨0x2C75, 0x2C75, 1, 1⟩, ⟨0x2C7E, 0x2C7F, 1, -10815⟩, ⟨0x2C80, 0x2CE2, 2, 1⟩,
    ⟨0x2CEB, 0x2CED, 2, 1⟩, ⟨0x2CF2, 0x2CF2, 1, 1⟩, ⟨0xA640, 0xA66C, 2, 1⟩, ⟨0xA680, 0xA69A, 2, 1⟩,
    ⟨0xA722, 0xA72E, 2, 1⟩, ⟨0xA732, 0xA76E, 2, 1⟩, ⟨0xA779, 0xA77B, 2, 1⟩,
    ⟨0xA77D, 0xA77D, 1, -35332⟩, ⟨0xA77E, 0xA786, 2, 1⟩, ⟨0xA78B, 0xA78B, 1, 1⟩,
    ⟨0xA78D, 0xA78D, 1, -42280⟩, ⟨0xA790, 0xA792, 2, 1⟩, ⟨0xA796, 0xA7A8, 2, 1⟩,
    ⟨0xA7AA, 0xA7AA, 1, -42308⟩, ⟨0xA7AB, 0xA7AB, 1, -42319⟩, ⟨0xA7AC, 0xA7AC, 1, -42315⟩,
    ⟨0xA7AD, 0xA7AD, 1, -42305⟩, ⟨0xA7AE, 0xA7AE, 1, -42308⟩, ⟨0xA7B0, 0xA7B0, 1, -42258⟩,
    ⟨0xA7B1, 0xA7B1, 1, -42282⟩, ⟨0xA7B2, 0xA7B2, 1, -42261⟩, ⟨0xA7B3, 0xA7B3, 1, 928⟩,
    ⟨0xA7B4, 0xA7C2, 2, 1⟩, ⟨0xA7C4, 0xA7C4, 1, -48⟩, ⟨0xA7C5, 0xA7C5, 1, -42307⟩,
    ⟨0xA7C6, 0xA7C6, 1, -35384⟩, ⟨0xA7C7, 0xA7C9, 2, 1⟩, ⟨0xA7CB, 0xA7CB, 1, -42343⟩,
    ⟨0xA7CC, 0xA7DA, 2, 1⟩, ⟨0xA7DC, 0xA7DC, 1, -42561⟩, ⟨0xA7F5, 0xA7F5, 1, 1⟩,
    ⟨0xFF21, 0xFF3A, 1, 32⟩, ⟨0x10400, 0x10427, 1, 40⟩, ⟨0x104B0, 0x104D3, 1, 40⟩,
    ⟨0x10570, 0x1057A, 1, 39⟩, ⟨0x1057C, 0x1058A, 1, 39⟩, ⟨0x1058C, 0x10592, 1, 39⟩,
    ⟨0x10594, 0x10595, 1, 39⟩, ⟨0x10C80, 0x10CB2, 1, 64⟩, ⟨0x10D50, 0x10D65, 1, 32⟩,
    ⟨0x118A0, 0x118BF, 1, 32⟩, ⟨0x16E40, 0x16E5F, 1, 32⟩, ⟨0x16EA0, 0x16EB8, 1, 27⟩,
    ⟨0x1E900, 0x1E921, 1, 34⟩]

/-- The small forms of a character. A dotted I has one of two characters, a sigma has another one at
the end of a word, and what is no capital stays as it is. -/
inductive Small : Char → List Char → Prop
  | capital {r : Capitals} {c d : Char} : r ∈ capitals → r.Has c →
    (d.toNat : Int) = c.toNat + r.shift → Small c [d]
  | dotted : Small '\u0130' ['i', '\u0307']
  | sigma : Small '\u03A3' ['\u03C2']
  | other {c : Char} : (∀ r ∈ capitals, ¬r.Has c) → c ≠ '\u0130' → Small c [c]

/-- The second text is the first one with a small form in the place of each character. -/
inductive Lowered : List Char → List Char → Prop
  | nil : Lowered [] []
  | cons {c : Char} {l cs ds : List Char} : Small c l → Lowered cs ds → Lowered (c :: cs) (l ++ ds)

section Ascii

variable {c : Char} {l : List Char}

def asciiCapitals : Capitals := ⟨0x41, 0x5A, 1, 32⟩

def kelvin : Capitals := ⟨0x212A, 0x212A, 1, -8383⟩

theorem asciiCapitals_mem : asciiCapitals ∈ capitals := by decide +kernel

theorem kelvin_mem : kelvin ∈ capitals := by decide +kernel

/-- Of the capitals beyond ASCII the Kelvin sign alone has a small letter in it. -/
theorem cases_of_mem_capitals : ∀ r ∈ capitals, r = asciiCapitals ∨ r = kelvin ∨
    128 ≤ r.first ∧ (r.last < 0x212A ∨ 0x212A < r.first) ∧ 128 ≤ r.first + r.shift := by
  decide +kernel

theorem isUpper_iff : c.isUpper = true ↔ 0x41 ≤ c.toNat ∧ c.toNat ≤ 0x5A := by
  have hbounds : c.isUpper = true ↔ 'A'.val ≤ c.val ∧ c.val ≤ 'Z'.val := decide_eq_true_iff
  rw [hbounds]
  rfl

theorem has_asciiCapitals : asciiCapitals.Has c ↔ c.isUpper = true := by
  rw [isUpper_iff]
  exact ⟨fun h => ⟨h.first_le, h.le_last⟩, fun h => ⟨h.1, h.2, ⟨_, (Nat.one_mul _).symm⟩⟩⟩

theorem has_kelvin : kelvin.Has c ↔ c = '\u212A' := by
  constructor
  · intro h
    exact Char.toNat_inj.1 (Nat.le_antisymm h.le_last h.first_le)
  · rintro rfl
    exact ⟨by decide, by decide, by decide⟩

theorem toLower_of_not_isUpper (h : ¬c.isUpper = true) : c.toLower = c :=
  dif_neg fun hupper => h (decide_eq_true hupper)

theorem toLower_of_isDigit (h : c.isDigit = true) : c.toLower = c := by
  refine toLower_of_not_isUpper fun hupper => ?_
  have hbounds : 48 ≤ c.val ∧ c.val ≤ 57 := by simpa [Char.isDigit] using h
  have hdigit : c.toNat ≤ 57 := hbounds.2
  have hcapital := (isUpper_iff.1 hupper).1
  omega

theorem toNat_toLower_of_isUpper (h : c.isUpper = true) : c.toLower.toNat = c.toNat + 32 := by
  have hupper : ∀ n ≤ 0x5A, 0x41 ≤ n → (Char.ofNat n).toLower.toNat = n + 32 := by decide +kernel
  obtain ⟨hlo, hhi⟩ := isUpper_iff.1 h
  have hlower := hupper c.toNat hhi hlo
  rwa [Char.ofNat_toNat] at hlower

theorem lowerChar_eq (hkelvin : c ≠ '\u212A') (hdotted : c ≠ '\u0130') :
    lowerChar c = [c.toLower] := by
  rw [lowerChar, if_neg hkelvin, if_neg hdotted]

theorem lowerChar_of_ascii (hc : c.toNat < 128) : lowerChar c = [c.toLower] := by
  apply lowerChar_eq
  · rintro rfl
    exact absurd hc (by decide)
  · rintro rfl
    exact absurd hc (by decide)

/-- Characters whose small form is in ASCII are in it themselves, except for the Kelvin sign. -/
theorem ascii_of_small (hl : ∀ d ∈ l, d.toNat < 128) (h : Small c l) :
    c.toNat < 128 ∨ c = '\u212A' := by
  cases h with
  | @capital r _ d hr hc hd =>
    have hd' : d.toNat < 128 := hl d (List.mem_singleton_self d)
    have hfirst := hc.first_le
    rcases cases_of_mem_capitals r hr with rfl | rfl | ⟨-, -, hshift⟩
    · exact .inl (Nat.lt_of_le_of_lt hc.le_last (by decide))
    · exact .inr (has_kelvin.1 hc)
    · omega
  | dotted => exact absurd (hl '\u0307' (by decide)) (by decide)
  | sigma => exact absurd (hl '\u03C2' (List.mem_singleton_self _)) (by decide)
  | other _ _ => exact .inl (hl c (List.mem_singleton_self c))

theorem ascii_of_lowerChar (hl : ∀ d ∈ lowerChar c, d.toNat < 128) :
    c.toNat < 128 ∨ c = '\u212A' := by
  by_cases hkelvin : c = '\u212A'
  · exact .inr hkelvin
  by_cases hdotted : c = '\u0130'
  · subst hdotted
    exact absurd (hl '\u0307' (by decide)) (by decide)
  rw [lowerChar_eq hkelvin hdotted, List.forall_mem_singleton] at hl
  by_cases hupper : c.isUpper = true
  · have := isUpper_iff.1 hupper
    exact .inl (by omega)
  · rw [toLower_of_not_isUpper hupper] at hl
    exact .inl hl

theorem Small.eq_lowerChar (h : Small c l) (hc : c.toNat < 128 ∨ c = '\u212A') :
    l = lowerChar c := by
  cases h with
  | @capital r _ d hr hhas hd =>
    have hfirst := hhas.first_le
    have hlast := hhas.le_last
    rcases cases_of_mem_capitals r hr with rfl | rfl | ⟨hlo, hapart, -⟩
    · have hd : d = c.toLower := Char.toNat_inj.1 <| by
        rw [toNat_toLower_of_isUpper (has_asciiCapitals.1 hhas)]
        exact Int.ofNat.inj hd
      rw [lowerChar_of_ascii (Nat.lt_of_le_of_lt hlast (by decide)), hd]
    · cases has_kelvin.1 hhas
      have hd : d = 'k' := Char.toNat_inj.1 (Int.ofNat.inj hd)
      rw [hd]
      rfl
    · have hbeyond : 128 ≤ c.toNat := Nat.le_trans hlo hfirst
      obtain rfl := hc.resolve_left (Nat.not_lt.2 hbeyond)
      have hkelvin : '\u212A'.toNat = 0x212A := rfl
      omega
  | dotted => exact absurd hc (by decide)
  | sigma => exact absurd hc (by decide)
  | other hother _ =>
    have hupper : ¬c.isUpper = true := fun h => hother _ asciiCapitals_mem (has_asciiCapitals.2 h)
    rcases hc with hc | rfl
    · rw [lowerChar_of_ascii hc, toLower_of_not_isUpper hupper]
    · exact absurd (has_kelvin.2 rfl) (hother _ kelvin_mem)

theorem small_toLower (hc : c.toNat < 128) : Small c [c.toLower] := by
  by_cases hupper : c.isUpper = true
  · refine .capital asciiCapitals_mem (has_asciiCapitals.2 hupper) ?_
    rw [toNat_toLower_of_isUpper hupper]
    rfl
  · rw [toLower_of_not_isUpper hupper]
    refine .other (fun r hr hhas => ?_) fun hdotted => absurd hc (hdotted ▸ by decide)
    have hfirst := hhas.first_le
    rcases cases_of_mem_capitals r hr with rfl | rfl | ⟨hlo, -⟩
    · exact hupper (has_asciiCapitals.1 hhas)
    · exact absurd (Nat.lt_of_le_of_lt hfirst hc) (by decide)
    · omega

theorem small_lowerChar (hc : c.toNat < 128 ∨ c = '\u212A') : Small c (lowerChar c) := by
  rcases hc with hc | rfl
  · rw [lowerChar_of_ascii hc]
    exact small_toLower hc
  · exact .capital kelvin_mem (has_kelvin.2 rfl) rfl

end Ascii

section Texts

variable {cs ds es : List Char}

theorem Lowered.eq_flatMap (hds : ∀ d ∈ ds, d.toNat < 128) (h : Lowered cs ds)
    (h' : Lowered cs es) : es = cs.flatMap lowerChar := by
  induction h generalizing es with
  | nil =>
    cases h'
    rfl
  | cons hsmall _ ih =>
    cases h' with
    | cons hsmall' hrest =>
      rw [List.forall_mem_append] at hds
      rw [List.flatMap_cons, hsmall'.eq_lowerChar (ascii_of_small hds.1 hsmall), ih hds.2 hrest]

theorem lowered_flatMap (h : ∀ d ∈ cs.flatMap lowerChar, d.toNat < 128) :
    Lowered cs (cs.flatMap lowerChar) := by
  induction cs with
  | nil => exact .nil
  | cons c cs ih =>
    rw [List.flatMap_cons, List.forall_mem_append] at h
    exact .cons (small_lowerChar (ascii_of_lowerChar h.1)) (ih h.2)

/-- Where a text has a small form in ASCII, this is the only one and is found without the list. -/
theorem lowered_iff {s t : String} (ht : ∀ c ∈ t.toList, c.toNat < 128) (h : lower s = t)
    (u : String) : Lowered s.toList u.toList ↔ u = t := by
  subst h
  rw [lower, String.toList_ofList] at ht
  have hlowered := lowered_flatMap ht
  constructor
  · intro hu
    rw [lower, ← hlowered.eq_flatMap ht hu, String.ofList_toList]
  · rintro rfl
    rwa [lower, String.toList_ofList]

theorem lower_eq_iff {s t : String} (ht : ∀ c ∈ t.toList, c.toNat < 128) :
    lower s = t ↔ Lowered s.toList t.toList := by
  constructor
  · intro h
    exact (lowered_iff ht h t).2 rfl
  · intro h
    rw [lower, ← h.eq_flatMap ht h, String.ofList_toList]

end Texts

end Clearance.Text

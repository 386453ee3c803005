import Clearance.Json.Reader
import Clearance.Json.Writer
import Clearance.Proofs.Text.Numeral

/-! What has been written as JSON is read back, if the strings and numbers in it are ones that the
writer makes. -/
namespace Clearance.Json

open Clearance.Text (Piece pieces)

def Atom.of (c : Char) : Atom := if needsEscape c then .unit c.toNat else .char c

section Strings

theorem hexUnit?_hexChar : ∀ n < 32,
    hexUnit? '0' '0' (hexChar (n / 16)) (hexChar n) = some n := by decide

theorem toNat_lt_of_needsEscape {c : Char} (h : needsEscape c = true) : c.toNat < 0xD800 := by
  unfold needsEscape at h
  rcases (by simpa using h : (c = '\x22' ∨ c = '\\') ∨ c < ' ') with (rfl | rfl) | h
  · decide
  · decide
  · have h : c.toNat < 32 := h
    omega

theorem readAtoms_short {c e : Char} (he : e ≠ 'u') (hc : needsEscape c = true)
    (h : shortEscape? e = some c.toNat) (rest : List Piece) :
    readAtoms (.char '\\' :: .char e :: rest) =
      (readAtoms rest).map fun r => (Atom.of c :: r.1, r.2) := by
  have hof : Atom.of c = .unit c.toNat := if_pos hc
  cases hr : readAtoms rest <;> simp [readAtoms, he, h, hr, hof]

theorem readAtoms_escapeChar (c : Char) (rest : List Piece) :
    readAtoms ((escapeChar c).map .char ++ rest) =
      (readAtoms rest).map fun r => (Atom.of c :: r.1, r.2) := by
  unfold escapeChar
  split
  · next h =>
    rcases (by simpa using h : c = '\x22' ∨ c = '\\') with rfl | rfl
    · exact readAtoms_short (by decide) (by decide) (by decide) rest
    · exact readAtoms_short (by decide) (by decide) (by decide) rest
  split
  · next h => exact readAtoms_short (by decide) (h ▸ by decide) (h ▸ by decide) rest
  split
  · next h => exact readAtoms_short (by decide) (h ▸ by decide) (h ▸ by decide) rest
  split
  · next h => exact readAtoms_short (by decide) (h ▸ by decide) (h ▸ by decide) rest
  split
  · next h => exact readAtoms_short (by decide) (h ▸ by decide) (h ▸ by decide) rest
  split
  · next h => exact readAtoms_short (by decide) (h ▸ by decide) (h ▸ by decide) rest
  have hquote : ¬(c = '\x22' ∨ c = '\\') := by simpa using ‹¬(c = '\x22' || c = '\\') = true›
  rw [not_or] at hquote
  split
  · next h =>
    have hu := hexUnit?_hexChar c.toNat h
    have hof : Atom.of c = .unit c.toNat := if_pos (by simp [needsEscape, h])
    cases hr : readAtoms rest <;> simp [readAtoms, hu, hr, hof]
  · next h =>
    have hof : Atom.of c = .char c := if_neg (by simp [needsEscape, hquote, h])
    cases hr : readAtoms rest <;> simp [readAtoms, hquote, h, hr, hof]

theorem readAtoms_writeString (cs : List Char) (rest : List Piece) :
    readAtoms ((cs.flatMap escapeChar).map .char ++ .char '\x22' :: rest) =
      some (cs.map .of, rest) := by
  induction cs with
  | nil => simp [readAtoms]
  | cons c cs ih =>
    rw [List.flatMap_cons, List.map_append, List.append_assoc, readAtoms_escapeChar, ih]
    rfl

theorem joinAtoms_unit {u : Nat} (h : u < 0xD800) (rest : List Atom) :
    joinAtoms (.unit u :: rest) = (joinAtoms rest).map (Char.ofNat u :: ·) := by
  have hhigh : isHighSurrogate u = false := by simp [isHighSurrogate]; omega
  have hlow : isLowSurrogate u = false := by simp [isLowSurrogate]; omega
  cases rest with
  | nil => simp [joinAtoms, hhigh, hlow]
  | cons a rest => cases a <;> simp [joinAtoms, hhigh, hlow]

theorem joinAtoms_map_of (cs : List Char) : joinAtoms (cs.map .of) = some cs := by
  induction cs with
  | nil => rfl
  | cons c cs ih =>
    rw [List.map_cons, Atom.of]
    split
    · next h =>
      rw [joinAtoms_unit (toNat_lt_of_needsEscape h), ih, Char.ofNat_toNat]
      rfl
    · rw [joinAtoms, ih]
      rfl

theorem isPlain_of (c : Char) : (Atom.of c).isPlain = !needsEscape c := by
  unfold Atom.of
  cases needsEscape c <;> rfl

theorem Literal.ofAtoms_map_of (s : String) : Literal.ofAtoms (s.toList.map .of) = .ofString s := by
  rw [ofAtoms, joinAtoms_map_of, List.all_map, ofString]
  simp [Function.comp_def, isPlain_of, List.all_eq_not_any_not]

theorem readLiteral_writeString (s : String) (rest : List Piece) :
    readLiteral ((s.toList.flatMap escapeChar).map .char ++ .char '\x22' :: rest) =
      some (.ofString s, rest) := by
  rw [readLiteral, readAtoms_writeString]
  show some (Literal.ofAtoms _, rest) = _
  rw [Literal.ofAtoms_map_of]

end Strings

/-- What stands here, if anything, does not continue a number. -/
def Closes (ps : List Piece) : Prop :=
  ∀ {c rest}, ps = .char c :: rest → c = ',' ∨ c = ']' ∨ c = '\x7d'

section Numbers

theorem readDigits_append {ds : List Char} (hds : ∀ d ∈ ds, d.isDigit = true) {rest : List Piece}
    (hrest : Closes rest) : readDigits (ds.map .char ++ rest) = (ds, rest) := by
  induction ds with
  | nil =>
    cases rest with
    | nil => rfl
    | cons p ps =>
      cases p with
      | stray b => rfl
      | char c =>
        rcases hrest rfl with rfl | rfl | rfl <;> rfl
  | cons d ds ih =>
    rw [List.forall_mem_cons] at hds
    simp [readDigits, hds.1, ih hds.2]

theorem isDigit_toDigits (n : Nat) : ∀ d ∈ Nat.toDigits 10 n, d.isDigit = true :=
  fun _ h => Nat.isDigit_of_mem_toDigits (by decide) (by decide) h

theorem readWhole_toDigits (n : Nat) {rest : List Piece} (hrest : Closes rest) :
    readWhole ((Nat.toDigits 10 n).map .char ++ rest) = some (Nat.toDigits 10 n, rest) := by
  by_cases hn : n = 0
  · subst hn
    rfl
  · obtain ⟨c, cs, hc, hne⟩ := Text.exists_head_toDigits (Nat.pos_of_ne_zero hn)
    have hread := readDigits_append (isDigit_toDigits n) hrest
    rw [hc] at hread ⊢
    simp only [List.map_cons, List.cons_append] at hread ⊢
    unfold readWhole
    split
    · next heq =>
      cases heq
      exact absurd rfl hne
    · rw [hread]

theorem readFraction_of_closes {rest : List Piece} (h : Closes rest) :
    readFraction rest = some ([], rest) := by
  cases rest with
  | nil => rfl
  | cons p ps =>
    cases p with
    | stray b => rfl
    | char c => rcases h rfl with rfl | rfl | rfl <;> rfl

theorem readExponent_of_closes {rest : List Piece} (h : Closes rest) :
    readExponent rest = some (none, rest) := by
  cases rest with
  | nil => rfl
  | cons p ps =>
    cases p with
    | stray b => rfl
    | char c => rcases h rfl with rfl | rfl | rfl <;> rfl

theorem readNumber_ofInt (n : Int) {rest : List Piece} (hrest : Closes rest) :
    readNumber ((Number.ofInt n).write.map .char ++ rest) = some (.ofInt n, rest) := by
  have hwhole := readWhole_toDigits n.natAbs hrest
  have hvalue : Nat.ofDigitChars 10 (Nat.toDigits 10 n.natAbs) 0 = n.natAbs :=
    Nat.ofDigitChars_ten_toDigits
  by_cases hn : n < 0
  · simp [Number.write, Number.ofInt, hn, readNumber, hwhole, readFraction_of_closes hrest,
      readExponent_of_closes hrest, hvalue]
  · -- the first digit is no sign
    obtain ⟨c, cs, hc⟩ := List.exists_cons_of_ne_nil (Nat.toDigits_ne_nil (n := n.natAbs) (b := 10))
    have hsign : c ≠ '-' := by
      rintro rfl
      have := isDigit_toDigits n.natAbs '-' (hc ▸ List.mem_cons_self ..)
      revert this
      decide
    rw [hc] at hwhole hvalue
    simp only [List.map_cons, List.cons_append] at hwhole
    simp [Number.write, Number.ofInt, hn, readNumber, hc, hsign, hwhole,
      readFraction_of_closes hrest, readExponent_of_closes hrest, hvalue]

end Numbers

/-- The strings and numbers are as the writer makes them. -/
inductive Value.Canonical : Value → Prop
  | null : Canonical .null
  | bool (b : Bool) : Canonical (.bool b)
  | int (n : Int) : Canonical (.int n)
  | str (s : String) : Canonical (.str s)
  | array {items : List Value} : (∀ v ∈ items, Canonical v) → Canonical (.array items)
  | object {members : List (Literal × Value)} :
      (∀ m ∈ members, ∃ s, m.1 = .ofString s) → (∀ m ∈ members, Canonical m.2) →
      Canonical (.object members)

section Values

/-- The value is read back whatever closes it, with fuel for twice its length. -/
def Value.Reads (v : Value) : Prop := ∀ {fuel : Nat} {rest : List Piece}, Closes rest →
  2 * v.write.length ≤ fuel → readValue fuel (v.write.map .char ++ rest) = some (v, rest)

def Leads (c : Char) : Prop := c = '-' ∨ c.isDigit = true

theorem Leads.ne {c d : Char} (h : Leads c) (hd : d ≠ '-') (hdigit : d.isDigit = false) :
    c ≠ d := by
  rintro rfl
  rcases h with h | h
  · exact hd h
  · rw [hdigit] at h
    cases h

theorem exists_head_ofInt (n : Int) : ∃ c cs, (Number.ofInt n).write = c :: cs ∧ Leads c := by
  by_cases hn : n < 0
  · refine ⟨'-', Nat.toDigits 10 n.natAbs, ?_, .inl rfl⟩
    simp [Number.write, Number.ofInt, hn]
  · obtain ⟨c, cs, hc⟩ := List.exists_cons_of_ne_nil (Nat.toDigits_ne_nil (n := n.natAbs) (b := 10))
    have hdigit := isDigit_toDigits n.natAbs c (hc ▸ List.mem_cons_self ..)
    exact ⟨c, cs, by simp [Number.write, Number.ofInt, hn, hc], .inr hdigit⟩

theorem reads_int (n : Int) : (Value.int n).Reads := by
  intro fuel rest hrest hfuel
  obtain ⟨c, cs, hc, hlead⟩ := exists_head_ofInt n
  have hread := readNumber_ofInt n hrest
  have hwrite : (Value.int n).write = c :: cs := hc
  rw [hc] at hread
  rw [hwrite] at hfuel ⊢
  obtain ⟨fuel, rfl⟩ : ∃ f, fuel = f + 1 := ⟨fuel - 1, by simp at hfuel; omega⟩
  simp only [List.map_cons, List.cons_append] at hread ⊢
  have hblank : skipBlank (.char c :: (cs.map .char ++ rest)) = .char c :: (cs.map .char ++ rest) := by
    simp [skipBlank, hlead.ne]
  unfold readValue
  rw [hblank]
  simp [hlead.ne, hread, Value.int]

theorem reads_str (s : String) : (Value.str s).Reads := by
  intro fuel rest _ hfuel
  have hread := readLiteral_writeString s rest
  have hwrite : (Value.str s).write = '\x22' :: (s.toList.flatMap escapeChar ++ ['\x22']) := rfl
  rw [hwrite] at hfuel ⊢
  obtain ⟨fuel, rfl⟩ : ∃ f, fuel = f + 1 := ⟨fuel - 1, by simp at hfuel; omega⟩
  simp only [List.map_cons, List.cons_append]
  unfold readValue
  simp only [skipBlank]
  simp [hread, Value.str]

theorem closes_cons {c : Char} (h : c = ',' ∨ c = ']' ∨ c = '\x7d') (rest : List Piece) :
    Closes (.char c :: rest) := by
  intro d ps he
  cases he
  exact h

theorem readItems_write {items : List Value} (hne : items ≠ []) (h : ∀ v ∈ items, v.Reads)
    {fuel : Nat} {rest : List Piece} (hfuel : 2 * (writeItems items).length ≤ fuel) :
    readItems fuel ((writeItems items).map .char ++ rest) = some (items, rest) := by
  induction items generalizing fuel with
  | nil => exact absurd rfl hne
  | cons v items ih =>
    rw [List.forall_mem_cons] at h
    cases items with
    | nil =>
      rw [writeItems, List.length_append, List.length_singleton] at hfuel
      obtain ⟨fuel, rfl⟩ : ∃ f, fuel = f + 1 := ⟨fuel - 1, by omega⟩
      have hv : readValue fuel _ = _ := h.1 (closes_cons (.inr (.inl rfl)) rest) (by omega)
      simp [writeItems, readItems, hv, skipBlank]
    | cons w items =>
      rw [writeItems, List.length_append, List.length_cons] at hfuel
      · obtain ⟨fuel, rfl⟩ : ∃ f, fuel = f + 1 := ⟨fuel - 1, by omega⟩
        have hv : readValue fuel _ = _ := h.1 (closes_cons (.inl rfl)
          ((writeItems (w :: items)).map .char ++ rest)) (by omega)
        have hitems : readItems fuel _ = _ := ih nofun h.2 (by omega)
        simp [writeItems, readItems, hv, skipBlank, hitems]
      · nofun

theorem readMembers_write {members : List (Literal × Value)} (hne : members ≠ [])
    (hkeys : ∀ m ∈ members, ∃ s, m.1 = .ofString s) (h : ∀ m ∈ members, m.2.Reads)
    {fuel : Nat} {rest : List Piece} (hfuel : 2 * (writeMembers members).length ≤ fuel) :
    readMembers fuel ((writeMembers members).map .char ++ rest) = some (members, rest) := by
  induction members generalizing fuel with
  | nil => exact absurd rfl hne
  | cons m members ih =>
    rw [List.forall_mem_cons] at h hkeys
    obtain ⟨k, v⟩ := m
    obtain ⟨⟨s, rfl⟩, hkeys⟩ := hkeys
    have hkey : (Literal.ofString s).write =
      '\x22' :: (s.toList.flatMap escapeChar ++ ['\x22']) := rfl
    cases members with
    | nil =>
      rw [writeMembers, List.length_append, List.length_cons, List.length_append,
        List.length_singleton] at hfuel
      obtain ⟨fuel, rfl⟩ : ∃ f, fuel = f + 1 := ⟨fuel - 1, by omega⟩
      have hreads : v.Reads := h.1
      have hv : readValue fuel _ = _ := hreads (closes_cons (.inr (.inr rfl)) rest) (by omega)
      simp [writeMembers, readMembers, hkey, skipBlank, readLiteral_writeString, hv]
    | cons m members =>
      rw [writeMembers, List.length_append, List.length_cons, List.length_append,
        List.length_cons] at hfuel
      · obtain ⟨fuel, rfl⟩ : ∃ f, fuel = f + 1 := ⟨fuel - 1, by omega⟩
        have hreads : v.Reads := h.1
        have hv : readValue fuel _ = _ := hreads (closes_cons (.inl rfl)
          ((writeMembers (m :: members)).map .char ++ rest)) (by omega)
        have hmembers : readMembers fuel _ = _ := ih nofun hkeys h.2 (by omega)
        simp [writeMembers, readMembers, hkey, skipBlank, readLiteral_writeString, hv, hmembers]
      · nofun

/-- Whatever is canonical starts with a character that no list ends with, and no blank. -/
theorem Value.Canonical.exists_head {v : Value} (h : v.Canonical) :
    ∃ c cs, v.write = c :: cs ∧ c ≠ ']' ∧ ∀ rest, skipBlank (.char c :: rest) = .char c :: rest := by
  cases h with
  | null => exact ⟨_, _, rfl, by decide, fun _ => rfl⟩
  | bool b => cases b <;> exact ⟨_, _, rfl, by decide, fun _ => rfl⟩
  | str s => exact ⟨_, _, rfl, by decide, fun _ => rfl⟩
  | array => exact ⟨_, _, rfl, by decide, fun _ => rfl⟩
  | object => exact ⟨_, _, rfl, by decide, fun _ => rfl⟩
  | int n =>
    obtain ⟨c, cs, hc, hlead⟩ := exists_head_ofInt n
    exact ⟨c, cs, hc, hlead.ne (by decide) (by decide), fun _ => by simp [skipBlank, hlead.ne]⟩

theorem exists_writeItems_cons (v : Value) (vs : List Value) :
    ∃ cs, writeItems (v :: vs) = v.write ++ cs := by
  cases vs with
  | nil => exact ⟨_, rfl⟩
  | cons w vs =>
    refine ⟨',' :: writeItems (w :: vs), ?_⟩
    rw [writeItems]
    nofun

theorem exists_writeMembers_cons (k : Literal) (v : Value) (ms : List (Literal × Value)) :
    ∃ cs, writeMembers ((k, v) :: ms) = k.write ++ cs := by
  cases ms with
  | nil => exact ⟨_, rfl⟩
  | cons m ms =>
    refine ⟨':' :: (v.write ++ ',' :: writeMembers (m :: ms)), ?_⟩
    rw [writeMembers]
    nofun

theorem skipBlank_bracket (ps : List Piece) : skipBlank (.char '[' :: ps) = .char '[' :: ps := rfl

theorem skipBlank_brace (ps : List Piece) :
    skipBlank (.char '\x7b' :: ps) = .char '\x7b' :: ps := rfl

theorem reads_array {items : List Value} (hitems : ∀ v ∈ items, v.Canonical)
    (h : ∀ v ∈ items, v.Reads) : (Value.array items).Reads := by
  intro fuel rest _ hfuel
  rw [Value.write, List.length_cons] at hfuel
  obtain ⟨fuel, rfl⟩ : ∃ f, fuel = f + 1 := ⟨fuel - 1, by omega⟩
  cases items with
  | nil => simp [Value.write, writeItems, readValue, skipBlank]
  | cons v items =>
    have hread : readItems fuel _ = some (_, rest) :=
      readItems_write (nofun : v :: items ≠ []) h (by omega)
    obtain ⟨c, cs, hc, hne, hskip⟩ := (hitems v (List.mem_cons_self ..)).exists_head
    obtain ⟨ds, hds⟩ := exists_writeItems_cons v items
    rw [hds, hc] at hread
    rw [Value.write, hds, hc]
    simp only [List.map_cons, List.cons_append, List.map_append, List.append_assoc] at hread ⊢
    simp only [readValue, skipBlank_bracket, hskip]
    simp [hne, hread]

theorem reads_object {members : List (Literal × Value)}
    (hkeys : ∀ m ∈ members, ∃ s, m.1 = .ofString s) (h : ∀ m ∈ members, m.2.Reads) :
    (Value.object members).Reads := by
  intro fuel rest _ hfuel
  rw [Value.write, List.length_cons] at hfuel
  obtain ⟨fuel, rfl⟩ : ∃ f, fuel = f + 1 := ⟨fuel - 1, by omega⟩
  cases members with
  | nil => simp [Value.write, writeMembers, readValue, skipBlank]
  | cons m members =>
    have hread : readMembers fuel _ = some (_, rest) :=
      readMembers_write (nofun : m :: members ≠ []) hkeys h (by omega)
    obtain ⟨k, v⟩ := m
    obtain ⟨s, rfl⟩ := hkeys _ (List.mem_cons_self ..)
    obtain ⟨ds, hds⟩ := exists_writeMembers_cons (.ofString s) v members
    have hkey : (Literal.ofString s).write = '\x22' :: (s.toList.flatMap escapeChar ++ ['\x22']) :=
      rfl
    rw [hds, hkey] at hread
    rw [Value.write, hds, hkey]
    simp only [List.map_cons, List.cons_append, List.nil_append, List.map_append,
      List.append_assoc] at hread ⊢
    simp only [readValue, skipBlank_brace]
    simp [skipBlank, hread]

theorem reads_of_word {v : Value} (hne : v.write ≠ []) (h : ∀ fuel rest,
    readValue (fuel + 1) (v.write.map .char ++ rest) = some (v, rest)) : v.Reads := by
  intro fuel rest _ hfuel
  have := List.length_pos_iff.2 hne
  obtain ⟨fuel, rfl⟩ : ∃ f, fuel = f + 1 := ⟨fuel - 1, by omega⟩
  exact h fuel rest

theorem Value.Canonical.reads {v : Value} (h : v.Canonical) : v.Reads := by
  induction h with
  | null =>
    apply reads_of_word (by decide)
    intro _ _
    simp [Value.write, readValue, skipBlank, readWord]
  | bool b =>
    cases b with
    | true =>
      apply reads_of_word (by decide)
      intro _ _
      simp [Value.write, readValue, skipBlank, readWord]
    | false =>
      apply reads_of_word (by decide)
      intro _ _
      simp [Value.write, readValue, skipBlank, readWord]
  | int n => exact reads_int n
  | str s => exact reads_str s
  | array hitems ih => exact reads_array hitems ih
  | object hkeys _ ih => exact reads_object hkeys ih

end Values

/-- A canonical document is read back from the bytes of its text. -/
theorem Value.Canonical.read?_render {v : Value} (h : v.Canonical) :
    read? v.render.toUTF8 = some v := by
  have hpieces : pieces v.render.toUTF8 = v.write.map .char := by
    rw [Text.pieces_toUTF8, Value.render, String.toList_ofList]
  have hread : readValue (2 * v.write.length + 2) (v.write.map .char ++ []) = some (v, []) :=
    h.reads nofun (by omega)
  rw [List.append_nil] at hread
  rw [read?, hpieces, readPieces, List.length_map, hread]
  rfl

end Clearance.Json

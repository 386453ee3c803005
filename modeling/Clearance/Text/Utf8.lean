/-! Bytes read as UTF-8 text. A byte that starts no encoded character is kept as it is, so that a
reader decides for itself where such bytes matter. -/
namespace Clearance.Text

/-- A character, or a byte that belongs to none. -/
inductive Piece where
  | char (c : Char)
  | stray (b : UInt8)
  deriving DecidableEq

def piecesFrom (b : ByteArray) (i : Nat) : List Piece :=
  if h : i < b.size then
    match b.utf8DecodeChar? i with
    | some c => .char c :: piecesFrom b (i + c.utf8Size)
    | none => .stray b[i] :: piecesFrom b (i + 1)
  else []
termination_by b.size - i
decreasing_by
  · have := c.utf8Size_pos
    omega
  · omega

def pieces (b : ByteArray) : List Piece := piecesFrom b 0

theorem piecesFrom_append_utf8Encode (p : ByteArray) (cs : List Char) :
    piecesFrom (p ++ cs.utf8Encode) p.size = cs.map .char := by
  induction cs generalizing p with
  | nil => unfold piecesFrom; simp
  | cons c cs ih =>
    have hd : (p ++ (c :: cs).utf8Encode).utf8DecodeChar? p.size = some c := by
      rw [ByteArray.utf8DecodeChar?_eq_utf8DecodeChar?_extract, ByteArray.extract_append_eq_right
        (by rfl) (by simp)]
      exact List.utf8DecodeChar?_utf8Encode_cons
    have he : p ++ (c :: cs).utf8Encode = (p ++ [c].utf8Encode) ++ cs.utf8Encode := by
      rw [ByteArray.append_assoc, ← List.utf8Encode_append]; rfl
    have hs : p.size + c.utf8Size = (p ++ [c].utf8Encode).size := by
      simp [List.utf8Encode_singleton, String.length_utf8EncodeChar]
    have hl := ByteArray.lt_size_of_isSome_utf8DecodeChar? (hd ▸ rfl :
      ((p ++ (c :: cs).utf8Encode).utf8DecodeChar? p.size).isSome)
    rw [piecesFrom, dif_pos hl, hd]
    simp only [List.map_cons, List.cons.injEq, true_and, hs, he]
    exact ih _

theorem pieces_toUTF8 (s : String) : pieces s.toUTF8 = s.toList.map .char := by
  have := piecesFrom_append_utf8Encode ByteArray.empty s.toList
  rw [ByteArray.empty_append, String.utf8Encode_toList] at this
  exact this

def ofUtf8? (b : ByteArray) : Option String := String.fromUTF8? b

end Clearance.Text

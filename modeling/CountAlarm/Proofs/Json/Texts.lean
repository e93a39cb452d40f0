import CountAlarm.Json.Printer
import CountAlarm.Json.Reader
/-!
# Quoted text reads back

Whatever follows the closing quotation mark, the reader returns the characters that were quoted.
Each character is read as one piece: a control character without a short escape as a code unit, any
other one as itself.
-/

namespace CountAlarm.Json

open Text.Quoted (escape hexDigit quote)

/-! ## One character -/

theorem pieces?_plain {c : Char} (hquote : c ≠ '"') (hsolidus : c ≠ '\\') (h : ¬c.toNat < 0x20)
    (rest : List Char) :
    pieces? (c :: rest) = (pieces? rest).map fun (ps, rest) => (.char c :: ps, rest) := by
  rw [pieces?.eq_5 _ _ hquote (fun _ _ _ _ _ h => absurd h hsolidus)
    (fun _ _ h => absurd h hsolidus), if_neg (not_or.mpr ⟨h, hsolidus⟩), Option.map_eq_bind]
  rfl

theorem pieces?_short {c e : Char} (he : e ≠ 'u') (h : simpleEscape? e = some c)
    (rest : List Char) :
    pieces? ('\\' :: e :: rest) = (pieces? rest).map fun (ps, rest) => (.char c :: ps, rest) := by
  rw [pieces?.eq_4 _ _ (fun _ _ _ _ _ h => absurd h he), h, Option.map_eq_bind]
  rfl

theorem pieces?_unit {a b c d : Char} {n : Nat} (h : hexQuad? a b c d = some n)
    (rest : List Char) :
    pieces? ('\\' :: 'u' :: a :: b :: c :: d :: rest) =
      (pieces? rest).map fun (ps, rest) => (.unit n :: ps, rest) := by
  rw [pieces?, h, Option.map_eq_bind]
  rfl

theorem hexQuad?_hexDigit : ∀ n < 0x20,
    hexQuad? '0' '0' (hexDigit (n / 16)) (hexDigit n) = some n := by
  decide

/-- The piece that a quoted character is read as. -/
def pieceOf (c : Char) : Piece :=
  if c.toNat < 0x20 ∧ c ∉ ['\x08', '\x0c', '\n', '\r', '\t'] then .unit c.toNat else .char c

theorem pieces?_escape (c : Char) (rest : List Char) :
    pieces? (escape c ++ rest) = (pieces? rest).map fun (ps, rest) => (pieceOf c :: ps, rest) := by
  unfold escape
  split
  · next h => subst h; exact pieces?_short (by decide) rfl rest
  split
  · next h => subst h; exact pieces?_short (by decide) rfl rest
  split
  · next h => subst h; exact pieces?_short (by decide) rfl rest
  split
  · next h => subst h; exact pieces?_short (by decide) rfl rest
  split
  · next h => subst h; exact pieces?_short (by decide) rfl rest
  split
  · next h => subst h; exact pieces?_short (by decide) rfl rest
  split
  · next h => subst h; exact pieces?_short (by decide) rfl rest
  split
  · next hcontrol =>
    have hpiece : pieceOf c = .unit c.toNat := by simp_all [pieceOf]
    rw [hpiece]
    exact pieces?_unit (hexQuad?_hexDigit c.toNat hcontrol) rest
  · next hquote hsolidus _ _ _ _ _ hcontrol =>
    have hpiece : pieceOf c = .char c := by simp [pieceOf, hcontrol]
    rw [hpiece]
    exact pieces?_plain hquote hsolidus hcontrol rest

/-! ## Whole texts -/

theorem pieces?_flatMap_escape (chars rest : List Char) :
    pieces? (chars.flatMap escape ++ '"' :: rest) = some (chars.map pieceOf, rest) := by
  induction chars with
  | nil => rfl
  | cons c chars ih =>
      rw [List.flatMap_cons, List.append_assoc, pieces?_escape, ih, Option.map_some, List.map_cons]

/-- A code unit that is no half of a pair stands for its character, even before another unit. -/
theorem characters?_unit {n : Nat} (hhigh : isHighSurrogate n = false)
    (hlow : isLowSurrogate n = false) (pieces : List Piece) :
    characters? (.unit n :: pieces) = (characters? pieces).map (Char.ofNat n :: ·) := by
  rcases pieces with _ | ⟨_ | _, _⟩ <;> simp [characters?, hhigh, hlow]

theorem characters?_pieceOf_cons (c : Char) (pieces : List Piece) :
    characters? (pieceOf c :: pieces) = (characters? pieces).map (c :: ·) := by
  unfold pieceOf
  split
  · next h =>
    have hhigh : isHighSurrogate c.toNat = false := by
      rw [isHighSurrogate, decide_eq_false (by omega), Bool.false_and]
    have hlow : isLowSurrogate c.toNat = false := by
      rw [isLowSurrogate, decide_eq_false (by omega), Bool.false_and]
    rw [characters?_unit hhigh hlow, Char.ofNat_toNat]
  · rfl

theorem characters?_map_pieceOf (chars : List Char) :
    characters? (chars.map pieceOf) = some chars := by
  induction chars with
  | nil => rfl
  | cons c chars ih => rw [List.map_cons, characters?_pieceOf_cons, ih, Option.map_some]

/-- A quoted text reads back as the text, whatever follows. -/
theorem text?_quoted (text : String) (rest : List Char) :
    text? (text.toList.flatMap escape ++ '"' :: rest) = some (some text, rest) := by
  rw [text?, pieces?_flatMap_escape, Option.map_some]
  simp [characters?_map_pieceOf]

end CountAlarm.Json

import CountAlarm.Json.Printer
import CountAlarm.Json.Reader
import Mathlib.Data.List.TakeWhile
/-!
# Whole numbers read back

A number is read up to the first character that cannot go on with it, so what a number is read as
does not depend on what follows behind a comma or a closing bracket. Whole numbers of 64 bits are
read as they were written.
-/

namespace CountAlarm.Json

open Decimal (ofDigits)
open Decimal.Numeral (absorb)

/-! ## What follows a number -/

/-- Nothing follows in the same value: the text ends, or goes on with a comma or a closing bracket.
-/
def Delimited (rest : List Char) : Prop :=
  ∀ c ∈ rest.head?, c = ',' ∨ c = ']' ∨ c = '\x7d'

theorem Delimited.nil : Delimited [] := by
  simp [Delimited]

section

variable {rest : List Char} (hrest : Delimited rest) (chars : List Char)
include hrest

theorem digits_append :
    digits (chars ++ rest) = ((digits chars).1, (digits chars).2 ++ rest) := by
  induction chars with
  | nil =>
      cases rest with
      | nil => rfl
      | cons c rest =>
          have hc : isDigit c = false := by
            rcases hrest c rfl with rfl | rfl | rfl <;> rfl
          simp [digits, hc]
  | cons c chars ih =>
      simp only [digits, Prod.mk.injEq] at ih
      cases hc : isDigit c with
      | false => simp [digits, hc]
      | true => simp only [digits, List.cons_append, List.takeWhile_cons, List.dropWhile_cons, hc,
          if_true, List.map_cons, ih]

theorem wholePart?_append :
    wholePart? (chars ++ rest) = (wholePart? chars).map fun (ds, left) => (ds, left ++ rest) := by
  unfold wholePart?
  rw [digits_append hrest]
  rcases digits chars with ⟨_ | ⟨d, _ | ⟨d', ds⟩⟩, left⟩
  · rfl
  · rfl
  · simp only
    split <;> rfl

theorem fractionPart?_append :
    fractionPart? (chars ++ rest) =
      (fractionPart? chars).map fun (ds, left) => (ds, left ++ rest) := by
  rcases chars with _ | ⟨c, chars⟩
  · rcases rest with _ | ⟨c, rest⟩
    · rfl
    · rcases hrest c rfl with rfl | rfl | rfl <;> rfl
  · by_cases hc : c = '.'
    · subst hc
      simp only [List.cons_append, fractionPart?]
      rw [digits_append hrest]
      rcases digits chars with ⟨_ | ⟨d, ds⟩, left⟩ <;> rfl
    · simp [fractionPart?, hc]

theorem exponentDigits?_append (negated : Bool) :
    exponentDigits? negated (chars ++ rest) =
      (exponentDigits? negated chars).map fun (e, left) => (e, left ++ rest) := by
  unfold exponentDigits?
  rw [digits_append hrest]
  rcases digits chars with ⟨_ | ⟨d, ds⟩, left⟩ <;> rfl

theorem exponentPart?_append :
    exponentPart? (chars ++ rest) =
      (exponentPart? chars).map fun (e, left) => (e, left ++ rest) := by
  rcases chars with _ | ⟨c, chars⟩
  · rcases rest with _ | ⟨c, rest⟩
    · rfl
    · rcases hrest c rfl with rfl | rfl | rfl <;> rfl
  · by_cases hc : c = 'e' ∨ c = 'E'
    · simp only [List.cons_append, exponentPart?, if_pos hc]
      rcases chars with _ | ⟨sign, chars⟩
      · rcases rest with _ | ⟨c, rest⟩
        · rfl
        · rcases hrest c rfl with rfl | rfl | rfl <;> rfl
      · by_cases hplus : sign = '+'
        · subst hplus
          exact exponentDigits?_append hrest chars false
        by_cases hminus : sign = '-'
        · subst hminus
          exact exponentDigits?_append hrest chars true
        · simpa [hplus, hminus] using exponentDigits?_append hrest (sign :: chars) false
    · simp [exponentPart?, hc]

theorem number?_append (negative : Bool) :
    number? negative (chars ++ rest) =
      (number? negative chars).map fun (d, left) => (d, left ++ rest) := by
  simp only [number?, numeral?, wholePart?_append hrest]
  rcases wholePart? chars with _ | ⟨whole, chars⟩
  · rfl
  simp only [Option.bind_eq_bind, Option.bind_some, fractionPart?_append hrest, Option.map_some]
  rcases fractionPart? chars with _ | ⟨fraction, chars⟩
  · rfl
  simp only [Option.bind_some, exponentPart?_append hrest, Option.map_some]
  rcases exponentPart? chars with _ | ⟨exponent, chars⟩ <;> rfl

end

/-! ## Whole numbers -/

/-- Where the value of all digits fits into 64 bits, so do the values on the way to it. -/
theorem absorb_eq (digits : List Nat) (significand : Nat)
    (h : digits.foldl (fun n d => 10 * n + d) significand < UInt64.size) :
    absorb significand digits = (digits.foldl (fun n d => 10 * n + d) significand, []) := by
  induction digits generalizing significand with
  | nil => rfl
  | cons d digits ih =>
      have hle : ∀ (ds : List Nat) (n : Nat), n ≤ ds.foldl (fun n d => 10 * n + d) n := by
        intro ds
        induction ds with
        | nil => exact fun n => Nat.le_refl n
        | cons d ds ih => exact fun n => Nat.le_trans (by omega) (ih (10 * n + d))
      have hlt : 10 * significand + d < UInt64.size := Nat.lt_of_le_of_lt (hle digits _) h
      rw [absorb, if_pos hlt, ih _ h, List.foldl_cons]

theorem isDigit_of_mem_toDigits {n : Nat} {c : Char} (h : c ∈ Nat.toDigits 10 n) :
    isDigit c = true := by
  have hdigit := Nat.isDigit_of_mem_toDigits (by omega) (by omega) h
  simpa [isDigit, Char.isDigit, Char.le_def] using hdigit

theorem head?_toDigits {n : Nat} (h : 0 < n) : (Nat.toDigits 10 n).head? ≠ some '0' := by
  induction n using Nat.strongRecOn with
  | ind n ih =>
      rw [Nat.toDigits_eq_if (by omega)]
      split
      · rw [List.head?_singleton, Ne, Option.some.injEq, Nat.digitChar_eq_zero]
        omega
      · next hle =>
        rw [List.head?_append, Option.or_of_isSome (by simp [Nat.toDigits_ne_nil])]
        exact ih (n / 10) (by omega) (by omega)

/-- The digits of a number as values. -/
def digitValues (n : Nat) : List Nat :=
  (Nat.toDigits 10 n).map fun c => c.toNat - '0'.toNat

theorem ofDigits_digitValues (n : Nat) : ofDigits (digitValues n) = n := by
  rw [ofDigits, digitValues, List.foldl_map]
  exact (Nat.ofDigitChars_eq_foldl ..).symm.trans Nat.ofDigitChars_ten_toDigits

theorem digits_toDigits (n : Nat) : digits (Nat.toDigits 10 n) = (digitValues n, []) := by
  rw [digits, List.takeWhile_eq_self_iff.mpr fun c => isDigit_of_mem_toDigits,
    List.dropWhile_eq_nil_iff.mpr fun c => isDigit_of_mem_toDigits, digitValues]

/-- Only the number zero is written with a leading zero. -/
theorem head?_digitValues {n : Nat} (h : 0 < n) : (digitValues n).head? ≠ some 0 := by
  rw [digitValues, List.head?_map]
  intro hzero
  obtain ⟨c, hc, hvalue⟩ := Option.map_eq_some_iff.mp hzero
  have hdigit : isDigit c = true := isDigit_of_mem_toDigits (List.mem_of_mem_head? hc)
  have hle : '0'.toNat ≤ c.toNat := by
    rw [isDigit, Bool.and_eq_true, decide_eq_true_eq, Char.le_def] at hdigit
    exact hdigit.1
  have hchar : c = '0' := Char.toNat_inj.mp (by omega)
  exact head?_toDigits h (hchar ▸ hc)

theorem wholePart?_toDigits (n : Nat) :
    wholePart? (Nat.toDigits 10 n) = some (digitValues n, []) := by
  unfold wholePart?
  rw [digits_toDigits]
  rcases hvalues : digitValues n with _ | ⟨d, _ | ⟨d', ds⟩⟩
  · simp [digitValues, Nat.toDigits_ne_nil] at hvalues
  · rfl
  · have hpos : 0 < n := by
      rcases Nat.eq_zero_or_pos n with rfl | hpos
      · simp [digitValues] at hvalues
      · exact hpos
    have hd : d ≠ 0 := by
      have hhead := head?_digitValues hpos
      rw [hvalues] at hhead
      simpa using hhead
    exact if_neg hd

/-- Digits alone are a number without fraction and exponent. -/
theorem number?_toDigits (negative : Bool) (n : Nat) :
    number? negative (Nat.toDigits 10 n) =
      some (ofReading (Decimal.Numeral.stepwise
        { negative, whole := digitValues n, fraction := [], exponent := none }), []) := by
  rw [number?, numeral?, wholePart?_toDigits]
  rfl

theorem absorb_digitValues {n : Nat} (h : n < UInt64.size) :
    absorb 0 (digitValues n) = (n, []) := by
  have hvalue : (digitValues n).foldl (fun n d => 10 * n + d) 0 = n := ofDigits_digitValues n
  rw [absorb_eq _ _ (hvalue.symm ▸ h), hvalue]

theorem number?_natural (n : UInt64) :
    number? false (Nat.toDigits 10 n.toNat) = some (.natural n, []) := by
  rw [number?_toDigits, Decimal.Numeral.stepwise, absorb_digitValues n.toNat_lt_size]
  simp [ofReading]

theorem number?_integer {i : Int64} (h : i < 0) :
    number? true (Nat.toDigits 10 (-i.toInt).toNat) = some (.integer i, []) := by
  have hneg : i.toInt < 0 := by simpa [Int64.lt_iff_toInt_lt] using h
  have hleast : -9223372036854775808 ≤ i.toInt := by simpa using i.minValue_le_toInt
  generalize hmagnitude : (-i.toInt).toNat = magnitude
  have hlt : magnitude < UInt64.size := by
    change _ < 18446744073709551616
    omega
  have hfits : ¬(magnitude = 0 ∨ 9223372036854775808 < magnitude) := by omega
  have hback : Int64.ofInt (-(magnitude : Int)) = i := by
    rw [show -(magnitude : Int) = i.toInt by omega, Int64.ofInt_toInt]
  rw [number?_toDigits, Decimal.Numeral.stepwise, absorb_digitValues hlt]
  simp [ofReading, hfits, ← hback]

end CountAlarm.Json

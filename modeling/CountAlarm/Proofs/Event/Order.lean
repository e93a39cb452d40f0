import CountAlarm.Event.SliceKey
import Mathlib.Data.List.Basic
/-!
# The order of values and keys

What comparing means, said without comparing: values of one kind by what they hold, a double by its
bits as a signed number, a byte string and a key by the first difference. `Orders` ties such a
relation to a comparison, which is then a total order that finds only identical things equal.
-/

namespace CountAlarm

/-! ## Comparisons and relations -/

/-- A comparison decides a total order, and finds equal just what is the same. -/
structure Orders {α : Type} [Ord α] (Below : α → α → Prop) : Prop where
  lt_iff : ∀ a b : α, compare a b = .lt ↔ Below a b
  eq_iff : ∀ a b : α, compare a b = .eq ↔ a = b
  gt_iff : ∀ a b : α, compare a b = .gt ↔ Below b a
  trans : ∀ a b c : α, Below a b → Below b c → Below a c

theorem Orders.of_lt_iff {α : Type} [Ord α] [Std.TransOrd α] [Std.LawfulEqOrd α]
    {Below : α → α → Prop} (h : ∀ a b : α, compare a b = .lt ↔ Below a b) : Orders Below where
  lt_iff := h
  eq_iff _ _ := Std.compare_eq_iff_eq
  gt_iff a b := Std.OrientedCmp.gt_iff_lt.trans (h b a)
  trans a b c hab hbc :=
    (h a c).mp (Std.TransCmp.lt_trans ((h a b).mpr hab) ((h b c).mpr hbc))

theorem Orders.irrefl {α : Type} [Ord α] {Below : α → α → Prop} (h : Orders Below) (a : α) :
    ¬Below a a := by
  rw [← h.lt_iff, (h.eq_iff a a).mpr rfl]
  exact Ordering.noConfusion

/-- Lists are compared at their first difference; a list is below all its extensions. -/
theorem compare_list_eq_lt_iff {α : Type} [Ord α] [Std.LawfulEqOrd α] {Below : α → α → Prop}
    (h : ∀ a b : α, compare a b = .lt ↔ Below a b) (as bs : List α) :
    compare as bs = .lt ↔ List.Lex Below as bs := by
  induction as generalizing bs with
  | nil =>
      cases bs with
      | nil => simp [List.not_lex_nil]
      | cons b bs => exact iff_of_true List.compare_nil_cons .nil
  | cons a as ih =>
      cases bs with
      | nil => simp [List.compare_cons_nil, List.not_lex_nil]
      | cons b bs =>
          rw [List.compare_cons_cons, Ordering.then_eq_lt, List.cons_lex_cons_iff, h, ih,
            Std.compare_eq_iff_eq]

/-! ## Doubles -/

namespace Decimal.Double

/-- The bits as a signed number, with all bits below the sign flipped if the sign is set. -/
def signedKey (x : Double) : Int64 :=
  let bits := x.bits.toInt64
  bits ^^^ ((bits >>> 63).toUInt64 >>> 1).toInt64

/-- All bits below the sign. -/
def belowSign : BitVec 64 :=
  BitVec.allOnes 64 >>> 1

theorem toBitVec_signedKey (x : Double) :
    x.signedKey.toBitVec =
      if x.bits.toBitVec.msb then x.bits.toBitVec ^^^ belowSign else x.bits.toBitVec := by
  have hdistance : (63 : Int64).toBitVec.smod 64 = 63#64 := by decide
  have hone : (1 : UInt64).toBitVec % 64 = 1#64 := by decide
  unfold signedKey
  simp only [Int64.toBitVec_xor, UInt64.toBitVec_toInt64, UInt64.toBitVec_shiftRight,
    Int64.toBitVec_toUInt64, Int64.toBitVec_shiftRight, hdistance, hone, BitVec.sshiftRight_eq']
  generalize x.bits.toBitVec = b
  cases h : b.msb with
  | false =>
      have hfill : b >>> (63#64).toNat = 0#64 := by
        rw [BitVec.msb_eq_decide] at h
        apply BitVec.eq_of_toNat_eq
        simp at h ⊢
        omega
      rw [BitVec.sshiftRight_eq_of_msb_false h, hfill]
      exact BitVec.xor_zero
  | true =>
      have hfill : ~~~b >>> (63#64).toNat = 0#64 := by
        rw [BitVec.msb_eq_decide] at h
        apply BitVec.eq_of_toNat_eq
        simp at h ⊢
        omega
      rw [BitVec.sshiftRight_eq_of_msb_true h, hfill]
      rfl

/-- Flipping all bits below a set sign counts the numbers with that sign backwards. -/
theorem toNat_xor_belowSign {b : BitVec 64} (h : b.msb = true) :
    (b ^^^ belowSign).toNat + b.toNat = 3 * signBit - 1 := by
  have hlow : (b ^^^ belowSign).setWidth 63 = ~~~b.setWidth 63 := by
    rw [BitVec.setWidth_xor, show belowSign.setWidth 63 = BitVec.allOnes 63 by decide,
      BitVec.xor_allOnes]
  have hmod := congrArg BitVec.toNat hlow
  rw [BitVec.toNat_setWidth, BitVec.toNat_not, BitVec.toNat_setWidth] at hmod
  have htop : (b ^^^ belowSign).msb = true := by
    rw [BitVec.msb_xor, h, show belowSign.msb = false by decide]
    rfl
  rw [BitVec.msb_eq_decide, decide_eq_true_iff] at h htop
  have hb := b.isLt
  have hflipped := (b ^^^ belowSign).isLt
  unfold signBit
  omega

theorem toInt_signedKey (x : Double) : x.signedKey.toInt = (x.orderKey : Int) - signBit := by
  have hbits : x.bits.toNat < 2 ^ 64 := x.bits.toNat_lt
  have hmsb : x.bits.toBitVec.msb = true ↔ signBit ≤ x.bits.toNat := by
    rw [BitVec.msb_eq_decide, decide_eq_true_iff]
    rfl
  rw [← Int64.toInt_toBitVec, toBitVec_signedKey, orderKey]
  by_cases hsign : signBit ≤ x.bits.toNat
  · have hsum : (x.bits.toBitVec ^^^ belowSign).toNat + x.bits.toNat = 3 * signBit - 1 :=
      toNat_xor_belowSign (hmsb.mpr hsign)
    rw [if_pos (hmsb.mpr hsign), if_neg (Nat.not_lt_of_le hsign)]
    unfold signBit at hsum hsign ⊢
    rw [BitVec.toInt_eq_toNat_cond, if_neg (by omega)]
    omega
  · have htoNat : x.bits.toBitVec.toNat = x.bits.toNat := rfl
    rw [if_neg (fun h => hsign (hmsb.mp h)), if_pos (Nat.lt_of_not_le hsign)]
    unfold signBit at hsign ⊢
    rw [BitVec.toInt_eq_toNat_cond, if_pos (by omega)]
    omega

theorem compare_orderKey_eq_lt_iff (x y : Double) :
    compare x.orderKey y.orderKey = .lt ↔ x.signedKey < y.signedKey := by
  rw [Nat.compare_eq_lt, Int64.lt_iff_toInt_lt, toInt_signedKey, toInt_signedKey]
  omega

end Decimal.Double

/-! ## Values -/

open Decimal (Double)

/-- Values are ordered by kind, and then by what they hold. -/
inductive Value.Below : Value → Value → Prop where
  | kind {a b : Value} (h : a.rank < b.rank) : Below a b
  | int {i j : Int32} (h : i < j) : Below (.int i) (.int j)
  | long {i j : Int64} (h : i < j) : Below (.long i) (.long j)
  | float {x y : Double} (h : x.signedKey < y.signedKey) : Below (.float x) (.float y)
  | bytes {s t : List UInt8} (h : List.Lex (· < ·) s t) : Below (.bytes s) (.bytes t)

namespace Value

theorem compare_eq_lt_iff (a b : Value) : compare a b = .lt ↔ a.Below b := by
  by_cases hrank : a.rank = b.rank
  · match a, b, hrank with
    | .int i, .int j, _ =>
        rw [compare_int, Std.compare_eq_lt]
        exact ⟨.int, fun | .int h => h⟩
    | .long i, .long j, _ =>
        rw [compare_long, Std.compare_eq_lt]
        exact ⟨.long, fun | .long h => h⟩
    | .float x, .float y, _ =>
        rw [compare_float, Double.compare_orderKey_eq_lt_iff]
        exact ⟨.float, fun | .float h => h⟩
    | .bytes s, .bytes t, _ =>
        rw [compare_bytes, compare_list_eq_lt_iff fun _ _ => Std.compare_eq_lt]
        exact ⟨.bytes, fun | .bytes h => h⟩
  · rw [compare_of_rank_ne hrank, Nat.compare_eq_lt]
    refine ⟨.kind, fun h => ?_⟩
    cases h with
    | kind h => exact h
    | _ => exact absurd rfl hrank

theorem orders_below : Orders Value.Below :=
  .of_lt_iff compare_eq_lt_iff

end Value

/-! ## Fields and keys -/

/-- Fields are ordered by path, and then by value. -/
def Field.Below (f g : Field) : Prop :=
  f.path < g.path ∨ f.path = g.path ∧ f.value.Below g.value

theorem Field.compare_eq_lt_iff (f g : Field) : compare f g = .lt ↔ f.Below g := by
  change (compare f.path g.path).then (compare f.value g.value) = .lt ↔ f.Below g
  rw [Ordering.then_eq_lt, Std.compare_eq_lt, Std.compare_eq_iff_eq, Value.compare_eq_lt_iff]
  rfl

theorem Field.orders_below : Orders Field.Below :=
  .of_lt_iff Field.compare_eq_lt_iff

/-- Keys are ordered by their first different fields. -/
def SliceKey.Below (a b : SliceKey) : Prop :=
  List.Lex Field.Below a.fields b.fields

theorem SliceKey.orders_below : Orders SliceKey.Below :=
  .of_lt_iff fun a b => compare_list_eq_lt_iff Field.compare_eq_lt_iff a.fields b.fields

end CountAlarm

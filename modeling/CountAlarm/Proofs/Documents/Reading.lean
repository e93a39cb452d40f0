import CountAlarm.Document
import Mathlib.Data.List.Forall2
/-!
# Reading what was written

Leaves of documents read back as the data that they were written from, and so do lists of data that
read back. Members are looked up by name, so their order does not matter, nor do members of other
names.
-/

namespace CountAlarm

open Decimal (Double)

namespace Document

/-! ## Leaves -/

theorem uint64?_natural (n : UInt64) : (natural n).uint64? = some n := by
  have hlt : (n.toNat : Int) < UInt64.size := Int.ofNat_lt.mpr n.toNat_lt_size
  unfold uint64?
  rw [int?, Option.bind_eq_bind, Option.bind_some, if_pos ⟨Int.natCast_nonneg _, hlt⟩,
    Int.toNat_natCast, UInt64.ofNat_toNat]

theorem uint32?_ofUInt32 (n : UInt32) : (ofUInt32 n).uint32? = some n := by
  have hlt : (n.toNat : Int) < UInt32.size := Int.ofNat_lt.mpr n.toNat_lt_size
  unfold uint32?
  rw [ofUInt32, int?, UInt32.toNat_toUInt64, Option.bind_eq_bind, Option.bind_some,
    if_pos ⟨Int.natCast_nonneg _, hlt⟩, Int.toNat_natCast, UInt32.ofNat_toNat]

theorem uint8?_natural (n : UInt8) : (natural n.toUInt64).uint8? = some n := by
  have hlt : (n.toNat : Int) < UInt8.size := Int.ofNat_lt.mpr n.toNat_lt_size
  unfold uint8?
  rw [int?, UInt8.toNat_toUInt64, Option.bind_eq_bind, Option.bind_some,
    if_pos ⟨Int.natCast_nonneg _, hlt⟩, Int.toNat_natCast, UInt8.ofNat_toNat]

/-- A signed number without a sign is the same number when it is taken as a natural. -/
theorem toNat_toUInt64_of_nonneg {i : Int64} (h : 0 ≤ i) : (i.toUInt64.toNat : Int) = i.toInt := by
  have hnonneg : 0 ≤ i.toInt := by simpa [Int64.le_iff_toInt_le] using h
  have hlt := i.toBitVec.isLt
  change 0 ≤ i.toBitVec.toInt at hnonneg
  change (i.toBitVec.toNat : Int) = i.toBitVec.toInt
  rw [BitVec.toInt_eq_toNat_cond] at hnonneg ⊢
  split at hnonneg
  · rw [if_pos ‹_›]
  · omega

theorem int?_ofInt64 (i : Int64) : (ofInt64 i).int? = some i.toInt := by
  unfold ofInt64
  split
  · next h => exact congrArg some (toNat_toUInt64_of_nonneg h)
  · rfl

theorem int64?_ofInt64 (i : Int64) : (ofInt64 i).int64? = some i := by
  unfold int64?
  rw [int?_ofInt64, Option.bind_eq_bind, Option.bind_some,
    if_pos ⟨i.minValue_le_toInt, i.toInt_le⟩, Int64.ofInt_toInt]

theorem int32?_ofInt64 (i : Int32) : (ofInt64 i.toInt64).int32? = some i := by
  unfold int32?
  rw [int?_ofInt64, Int32.toInt_toInt64, Option.bind_eq_bind, Option.bind_some,
    if_pos ⟨i.minValue_le_toInt, i.toInt_le⟩, Int32.ofInt_toInt]

/-- A double that is no number of the real line is written as nothing that could be read as a
double. -/
theorem double?_ofDouble (x : Double) :
    (ofDouble x).double? = if x.isFinite then some x else none := by
  unfold ofDouble
  split <;> rfl

/-! ## Lists -/

section Lists

variable {α : Type} {read : Document → Option α}

theorem mapM_eq_some_iff {items : List Document} {as : List α} :
    items.mapM read = some as ↔ List.Forall₂ (fun d a => read d = some a) items as := by
  induction items generalizing as with
  | nil => simp [eq_comm]
  | cons d rest ih =>
      rw [List.mapM_cons, List.forall₂_cons_left_iff]
      simp only [Option.bind_eq_bind, Option.bind_eq_some_iff, ih]
      constructor
      · rintro ⟨a, ha, as, has, heq⟩
        exact ⟨a, as, ha, has, (Option.some.inj heq).symm⟩
      · rintro ⟨a, as, ha, has, rfl⟩
        exact ⟨a, ha, as, has, rfl⟩

/-- A list with an element that cannot be read cannot be read. -/
theorem mapM_eq_none_of_mem {items : List Document} {d : Document} (hd : d ∈ items)
    (hnone : read d = none) : items.mapM read = none := by
  rw [Option.eq_none_iff_forall_ne_some]
  intro as has
  obtain ⟨i, hi, rfl⟩ := List.getElem_of_mem hd
  have hread := (mapM_eq_some_iff.mp has).get hi ((mapM_eq_some_iff.mp has).length_eq ▸ hi)
  simp only [List.get_eq_getElem, hnone] at hread
  cases hread

/-- Where a test tells which data read back, it tells so of lists. -/
theorem listOf?_map {write : α → Document} {test : α → Bool}
    (h : ∀ a, read (write a) = if test a then some a else none) (items : List α) :
    listOf? read (.list (items.map write)) = if items.all test then some items else none := by
  have hmapM : listOf? read (.list (items.map write)) = (items.map write).mapM read := rfl
  rw [hmapM]
  split
  · next hall =>
    rw [mapM_eq_some_iff, List.forall₂_map_left_iff, List.forall₂_same]
    intro a ha
    rw [h, if_pos (List.all_eq_true.mp hall a ha)]
  · next hnot =>
    obtain ⟨a, ha, hfails⟩ : ∃ a ∈ items, ¬test a = true := by simpa using hnot
    exact mapM_eq_none_of_mem (List.mem_map_of_mem ha) (by rw [h, if_neg hfails])

theorem listOf?_map_eq_some {write : α → Document} (h : ∀ a, read (write a) = some a)
    (items : List α) : listOf? read (.list (items.map write)) = some items := by
  have hall : ∀ a, read (write a) = if (fun _ : α => true) a then some a else none := h
  rw [listOf?_map hall, if_pos (by simp)]

/-- An element of a list may be replaced by one that is read alike. -/
theorem listOf?_replace {ahead behind : List Document} {d d' : Document} {as : List α}
    (h : ∀ a, read d = some a → read d' = some a)
    (hread : listOf? read (.list (ahead ++ d :: behind)) = some as) :
    listOf? read (.list (ahead ++ d' :: behind)) = some as := by
  change (ahead ++ d :: behind).mapM read = some as at hread
  change (ahead ++ d' :: behind).mapM read = some as
  rw [mapM_eq_some_iff] at hread ⊢
  induction ahead generalizing as with
  | nil =>
      obtain ⟨a, as, ha, has, rfl⟩ := List.forall₂_cons_left_iff.mp hread
      exact .cons (h a ha) has
  | cons first ahead ih =>
      obtain ⟨a, as, ha, has, rfl⟩ := List.forall₂_cons_left_iff.mp hread
      exact .cons ha (ih has)

end Lists

/-! ## Members -/

theorem record?_object (names : List String) (members : Members) :
    (object members).record? names = some members := rfl

end Document

namespace Members

variable {α : Type} {read : Document → Option α} {names : List String} {members : Members}
  {m : String × Document}

theorem required?_of_named (h : members.named names = [m]) :
    members.required? names read = read m.2 := by
  rw [required?, h]

theorem optional?_of_named {absent : α} (h : members.named names = [m]) :
    members.optional? names absent read = read m.2 := by
  rw [optional?, h]

end Members

end CountAlarm

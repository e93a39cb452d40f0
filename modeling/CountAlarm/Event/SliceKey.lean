import CountAlarm.Event.Value
/-!
# Fields and slice keys

A field is a path with a value. A slice key is a list of fields in ascending order, so two lists of
the same fields make the same key whatever their order; repeated fields are kept.
-/

namespace CountAlarm

/-- The packed position of a field inside an event. -/
abbrev Path := UInt32

structure Field where
  path : Path
  value : Value
deriving DecidableEq, Repr, Inhabited

namespace Field

/-- Fields are ordered by path, then by value. -/
instance : Ord Field where
  compare a b := (compare a.path b.path).then (compare a.value b.value)

instance : Std.TransOrd Field where
  eq_swap {a b} := by
    show (compare a.path b.path).then (compare a.value b.value) =
      ((compare b.path a.path).then (compare b.value a.value)).swap
    rw [Ordering.swap_then, ← Std.OrientedOrd.eq_swap, ← Std.OrientedOrd.eq_swap]
  isLE_trans {a b c} hab hbc :=
    @Std.TransCmp.isLE_trans _ (compareLex (compareOn Field.path) (compareOn Field.value)) _
      a b c hab hbc

instance : Std.LawfulEqOrd Field where
  compare_self {a} := by
    show (compare a.path a.path).then (compare a.value a.value) = .eq
    simp
  eq_of_compare {a b} h := by
    have h' : (compare a.path b.path).then (compare a.value b.value) = .eq := h
    rw [Ordering.then_eq_eq] at h'
    obtain ⟨hpath, hvalue⟩ := h'
    cases a
    cases b
    simp only [Std.LawfulEqOrd.compare_eq_iff_eq] at hpath hvalue
    simp_all

def display (f : Field) : String :=
  toString f.path.toNat ++ "=" ++ f.value.display

def toDocument (f : Field) : Document :=
  .list [.ofUInt32 f.path, f.value.toDocument]

/-- A field is a pair of a path and a value. -/
def ofDocument? (d : Document) : Option Field := do
  let (path, value) ← d.pair?
  let path ← path.uint32?
  let value ← Value.ofDocument? value
  some ⟨path, value⟩

def lookup (fields : List Field) (path : Path) : Option Value :=
  (fields.find? fun f => f.path == path).map Field.value

/-! ## Sorting -/

/-- Puts a field before the first field that is not below it. -/
def insertSorted (f : Field) : List Field → List Field
  | [] => [f]
  | g :: gs => if (compare f g).isLE then f :: g :: gs else g :: insertSorted f gs

def sort (fields : List Field) : List Field :=
  fields.foldr insertSorted []

/-- Ascending, equal fields allowed. -/
def Sorted (fields : List Field) : Prop :=
  fields.Pairwise fun a b => (compare a b).isLE

theorem mem_insertSorted {f g : Field} {fields : List Field} :
    g ∈ insertSorted f fields ↔ g = f ∨ g ∈ fields := by
  induction fields with
  | nil => simp [insertSorted]
  | cons h hs ih =>
    unfold insertSorted
    split
    · simp
    · simp only [List.mem_cons, ih]
      constructor <;> rintro (h | h | h) <;> simp [h]

theorem insertSorted_perm (f : Field) (fields : List Field) :
    (insertSorted f fields).Perm (f :: fields) := by
  induction fields with
  | nil => exact List.Perm.refl _
  | cons g gs ih =>
    unfold insertSorted
    split
    · exact List.Perm.refl _
    · exact (ih.cons g).trans (List.Perm.swap f g gs)

theorem sorted_insertSorted {f : Field} {fields : List Field} (h : Sorted fields) :
    Sorted (insertSorted f fields) := by
  induction fields with
  | nil => exact List.pairwise_singleton _ _
  | cons g gs ih =>
    obtain ⟨hg, hgs⟩ := List.pairwise_cons.1 h
    unfold insertSorted
    split
    · next hle =>
      refine List.pairwise_cons.2 ⟨fun x hx => ?_, h⟩
      rcases List.mem_cons.1 hx with rfl | hx
      · exact hle
      · exact Std.TransOrd.isLE_trans hle (hg x hx)
    · next hnot =>
      refine List.pairwise_cons.2 ⟨fun x hx => ?_, ih hgs⟩
      rcases mem_insertSorted.1 hx with rfl | hx
      · rw [Std.OrientedOrd.eq_swap (a := g)]
        revert hnot
        cases compare x g <;> simp
      · exact hg x hx

theorem sort_perm (fields : List Field) : (sort fields).Perm fields := by
  induction fields with
  | nil => exact List.Perm.refl _
  | cons f fs ih => exact (insertSorted_perm f (sort fs)).trans (ih.cons f)

theorem sorted_sort (fields : List Field) : Sorted (sort fields) := by
  induction fields with
  | nil => exact List.Pairwise.nil
  | cons f fs ih => exact sorted_insertSorted ih

theorem sort_eq_of_perm {first second : List Field} (h : first.Perm second) :
    sort first = sort second := by
  have hantisymm : ∀ a b : Field, (compare a b).isLE → (compare b a).isLE → a = b :=
    fun a b hab hba => Std.LawfulEqOrd.eq_of_compare (Std.OrientedCmp.isLE_antisymm hab hba)
  exact List.Perm.eq_of_pairwise (fun a b _ _ => hantisymm a b) (sorted_sort first)
    (sorted_sort second) ((sort_perm first).trans (h.trans (sort_perm second).symm))

theorem sort_eq_self {fields : List Field} (h : Sorted fields) : sort fields = fields := by
  induction fields with
  | nil => rfl
  | cons f fs ih =>
    obtain ⟨hf, hfs⟩ := List.pairwise_cons.1 h
    rw [sort, List.foldr_cons]
    change insertSorted f (sort fs) = f :: fs
    rw [ih hfs]
    cases fs with
    | nil => rfl
    | cons g gs => rw [insertSorted, if_pos (hf g List.mem_cons_self)]

end Field

/-- The fields that tell one slice of a metric from another. -/
structure SliceKey where
  fields : List Field
  sorted : Field.Sorted fields

namespace SliceKey

instance : DecidableEq SliceKey := fun a b =>
  decidable_of_iff (a.fields = b.fields) (by cases a; cases b; simp)

instance : Repr SliceKey where
  reprPrec key p := reprPrec key.fields p

@[ext] theorem ext {a b : SliceKey} (h : a.fields = b.fields) : a = b := by
  cases a
  cases b
  simpa using h

def ofList (fields : List Field) : SliceKey :=
  ⟨Field.sort fields, Field.sorted_sort fields⟩

theorem ofList_fields (key : SliceKey) : ofList key.fields = key :=
  ext (Field.sort_eq_self key.sorted)

/-- The key of a metric without dimensions. -/
def whole : SliceKey :=
  ⟨[], List.Pairwise.nil⟩

instance : Inhabited SliceKey := ⟨whole⟩

/-- Keys are ordered lexicographically. -/
instance : Ord SliceKey where
  compare a b := compare a.fields b.fields

instance : Std.TransOrd SliceKey where
  eq_swap {a b} := Std.OrientedOrd.eq_swap (a := a.fields) (b := b.fields)
  isLE_trans {a b c} hab hbc :=
    Std.TransOrd.isLE_trans (a := a.fields) (b := b.fields) (c := c.fields) hab hbc

instance : Std.LawfulEqOrd SliceKey where
  compare_self {a} := Std.ReflOrd.compare_self (a := a.fields)
  eq_of_compare {a b} h :=
    ext (Std.LawfulEqOrd.eq_of_compare (a := a.fields) (b := b.fields) h)

/-- The words that a hash of a key is made from, the number of fields first. -/
def hashWords (key : SliceKey) : List UInt64 :=
  UInt64.ofNat key.fields.length ::
    key.fields.flatMap fun f => f.path.toUInt64 :: f.value.hashWords

instance : Hashable SliceKey where
  hash key := hash key.hashWords

def size (key : SliceKey) : Nat :=
  key.fields.length

def isWhole (key : SliceKey) : Bool :=
  key.fields.isEmpty

def get? (key : SliceKey) (path : Path) : Option Value :=
  Field.lookup key.fields path

def display (key : SliceKey) : String :=
  if key.isWhole then "DEFAULT"
  else ", ".intercalate (key.fields.map Field.display)

def toDocument (key : SliceKey) : Document :=
  .list (key.fields.map Field.toDocument)

/-- Reads the fields of a key, which may stand in any order. -/
def ofDocument? (d : Document) : Option SliceKey :=
  (d.listOf? Field.ofDocument?).map ofList

end SliceKey

end CountAlarm

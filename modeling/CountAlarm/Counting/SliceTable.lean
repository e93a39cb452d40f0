import CountAlarm.Event.SliceKey
/-!
# Tables by slice key

A finite map from slice keys, kept as a list with strictly ascending keys, so that two tables with
the same entries are the same table and a listing is in the order of the keys. `get?` is the view
through which the other operations are described.
-/

namespace CountAlarm

/-- Entries with strictly ascending keys. -/
def Ascending {α : Type} (entries : List (SliceKey × α)) : Prop :=
  entries.Pairwise fun a b => compare a.1 b.1 = .lt

structure SliceTable (α : Type) where
  entries : List (SliceKey × α)
  ascending : Ascending entries

namespace SliceTable

variable {α : Type}

/-! ## Entries -/

/-- Puts an entry at its place, over an entry with the same key. -/
def insertEntry (key : SliceKey) (a : α) : List (SliceKey × α) → List (SliceKey × α)
  | [] => [(key, a)]
  | e :: es =>
    match compare key e.1 with
    | .lt => (key, a) :: e :: es
    | .eq => (key, a) :: es
    | .gt => e :: insertEntry key a es

def lookup (key : SliceKey) (entries : List (SliceKey × α)) : Option α :=
  (entries.find? fun e => e.1 == key).map Prod.snd

theorem lookup_cons (key : SliceKey) (e : SliceKey × α) (es : List (SliceKey × α)) :
    lookup key (e :: es) = if e.1 = key then some e.2 else lookup key es := by
  unfold lookup
  by_cases h : e.1 = key <;> simp [h]

theorem mem_insertEntry {key : SliceKey} {a : α} {e : SliceKey × α}
    {entries : List (SliceKey × α)} (h : e ∈ insertEntry key a entries) :
    e = (key, a) ∨ e ∈ entries := by
  induction entries with
  | nil => exact Or.inl (List.mem_singleton.1 h)
  | cons d ds ih =>
    unfold insertEntry at h
    split at h
    · exact List.mem_cons.1 h
    · rcases List.mem_cons.1 h with h | h
      · exact Or.inl h
      · exact Or.inr (List.mem_cons_of_mem d h)
    · rcases List.mem_cons.1 h with h | h
      · exact Or.inr (h ▸ List.mem_cons_self)
      · exact (ih h).imp_right (List.mem_cons_of_mem d)

theorem ascending_insertEntry {key : SliceKey} {a : α} {entries : List (SliceKey × α)}
    (h : Ascending entries) : Ascending (insertEntry key a entries) := by
  induction entries with
  | nil => exact List.pairwise_singleton _ _
  | cons e es ih =>
    obtain ⟨he, hes⟩ := List.pairwise_cons.1 h
    unfold insertEntry
    split
    · next hlt =>
      refine List.pairwise_cons.2 ⟨fun d hd => ?_, h⟩
      rcases List.mem_cons.1 hd with rfl | hd
      · exact hlt
      · exact Std.TransCmp.lt_trans hlt (he d hd)
    · next heq =>
      have hkey : key = e.1 := Std.LawfulEqOrd.eq_of_compare heq
      exact List.pairwise_cons.2 ⟨fun d hd => hkey ▸ he d hd, hes⟩
    · next hgt =>
      refine List.pairwise_cons.2 ⟨fun d hd => ?_, ih hes⟩
      rcases mem_insertEntry hd with rfl | hd
      · exact Std.OrientedCmp.lt_of_gt hgt
      · exact he d hd

theorem lookup_insertEntry (key : SliceKey) (a : α) (entries : List (SliceKey × α))
    (other : SliceKey) :
    lookup other (insertEntry key a entries) =
      if other = key then some a else lookup other entries := by
  induction entries with
  | nil =>
    simp only [insertEntry, lookup_cons, eq_comm (a := key)]
  | cons e es ih =>
    unfold insertEntry
    split
    · simp only [lookup_cons, eq_comm (a := key)]
    · next heq =>
      have hkey : key = e.1 := Std.LawfulEqOrd.eq_of_compare heq
      simp only [lookup_cons, ← hkey, eq_comm (a := key)]
      split <;> rfl
    · next hgt =>
      simp only [lookup_cons, ih]
      by_cases h : e.1 = other
      · have hne : other ≠ key := by
          rintro rfl
          rw [← h, Std.ReflOrd.compare_self] at hgt
          exact Ordering.noConfusion hgt
        simp [h, hne]
      · simp [h]

/-! ## Operations -/

def empty : SliceTable α :=
  ⟨[], List.Pairwise.nil⟩

instance : Inhabited (SliceTable α) := ⟨empty⟩

instance : EmptyCollection (SliceTable α) := ⟨empty⟩

def get? (t : SliceTable α) (key : SliceKey) : Option α :=
  lookup key t.entries

def contains (t : SliceTable α) (key : SliceKey) : Bool :=
  (t.get? key).isSome

def insert (t : SliceTable α) (key : SliceKey) (a : α) : SliceTable α :=
  ⟨insertEntry key a t.entries, ascending_insertEntry t.ascending⟩

def filter (t : SliceTable α) (keep : SliceKey → α → Bool) : SliceTable α :=
  ⟨t.entries.filter fun e => keep e.1 e.2, List.Pairwise.filter _ t.ascending⟩

def keys (t : SliceTable α) : List SliceKey :=
  t.entries.map Prod.fst

def size (t : SliceTable α) : Nat :=
  t.entries.length

def isEmpty (t : SliceTable α) : Bool :=
  t.entries.isEmpty

/-! ## The view -/

@[simp] theorem get?_empty (key : SliceKey) : (empty : SliceTable α).get? key = none := rfl

theorem get?_insert (t : SliceTable α) (key : SliceKey) (a : α) (other : SliceKey) :
    (t.insert key a).get? other = if other = key then some a else t.get? other :=
  lookup_insertEntry key a t.entries other

theorem get?_eq_some_iff (t : SliceTable α) (key : SliceKey) (a : α) :
    t.get? key = some a ↔ (key, a) ∈ t.entries := by
  obtain ⟨entries, h⟩ := t
  show lookup key entries = some a ↔ (key, a) ∈ entries
  induction entries with
  | nil => simp [lookup]
  | cons e es ih =>
    obtain ⟨he, hes⟩ := List.pairwise_cons.1 h
    rw [lookup_cons, List.mem_cons]
    by_cases hkey : e.1 = key
    · have hnot : (key, a) ∉ es := fun hmem => by
        have := he _ hmem
        rw [hkey, Std.ReflOrd.compare_self] at this
        exact Ordering.noConfusion this
      rw [if_pos hkey, or_iff_left hnot]
      obtain ⟨k, b⟩ := e
      simp only at hkey
      simp [hkey, eq_comm]
    · have hne : (key, a) ≠ e := fun heq => hkey (heq ▸ rfl)
      rw [if_neg hkey, ih hes, or_iff_right hne]

theorem get?_filter (t : SliceTable α) (keep : SliceKey → α → Bool) (key : SliceKey) :
    (t.filter keep).get? key = (t.get? key).filter (keep key) := by
  apply Option.ext
  intro a
  rw [get?_eq_some_iff, Option.filter_eq_some_iff, get?_eq_some_iff]
  exact List.mem_filter

theorem mem_keys (t : SliceTable α) (key : SliceKey) :
    key ∈ t.keys ↔ t.contains key = true := by
  unfold keys contains
  rw [List.mem_map, Option.isSome_iff_exists]
  constructor
  · rintro ⟨⟨k, a⟩, hmem, rfl⟩
    exact ⟨a, (get?_eq_some_iff t k a).2 hmem⟩
  · rintro ⟨a, h⟩
    exact ⟨(key, a), (get?_eq_some_iff t key a).1 h, rfl⟩

end SliceTable

end CountAlarm

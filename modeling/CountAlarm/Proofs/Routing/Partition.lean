import CountAlarm.Proofs.Routing.Slices
import Mathlib.Logic.Relation
/-!
# What a slice key depends on

A projection looks at the first value under each of its paths and at nothing else. Two events have
one key just when these values are the same: `key?_partitions`. Edits of an event that leave them
alone are the steps of `Overlooks`.
-/

namespace CountAlarm

/-! ## First values -/

namespace Field

variable {fields : List Field} {path : Path}

/-- The first of the fields with some path has some value. -/
def FirstUnder (fields : List Field) (path : Path) (value : Value) : Prop :=
  ∃ before after, fields = before ++ ⟨path, value⟩ :: after ∧ ∀ f ∈ before, f.path ≠ path

theorem lookup_eq_some_iff {value : Value} :
    lookup fields path = some value ↔ FirstUnder fields path value := by
  unfold lookup FirstUnder
  rw [Option.map_eq_some_iff]
  simp only [List.find?_eq_some_iff_append, beq_iff_eq, Bool.not_eq_true', beq_eq_false_iff_ne]
  constructor
  · rintro ⟨f, ⟨rfl, before, after, hsplit, hbefore⟩, rfl⟩
    exact ⟨before, after, hsplit, hbefore⟩
  · rintro ⟨before, after, hsplit, hbefore⟩
    exact ⟨⟨path, value⟩, ⟨rfl, before, after, hsplit, hbefore⟩, rfl⟩

theorem lookup_isSome_iff : (lookup fields path).isSome ↔ path ∈ fields.map Field.path := by
  unfold lookup
  rw [Option.isSome_map, List.find?_isSome, List.mem_map]
  simp only [beq_iff_eq]

theorem lookup_append (first second : List Field) :
    lookup (first ++ second) path = (lookup first path).or (lookup second path) := by
  unfold lookup
  rw [List.find?_append, Option.map_or]

theorem lookup_cons (f : Field) (fields : List Field) :
    lookup (f :: fields) path = if f.path = path then some f.value else lookup fields path := by
  unfold lookup
  rw [List.find?_cons]
  by_cases hpath : f.path = path
  · rw [if_pos hpath, beq_iff_eq.mpr hpath]
    rfl
  · rw [if_neg hpath, beq_eq_false_iff_ne.mpr hpath]

end Field

namespace Projection

variable {p q : Projection} {event other : Event}

/-! ## Success and keys -/

theorem key?_isSome_iff : (p.key? event).isSome ↔ p.Covers event := by
  rw [key?_eq]
  split
  · next hcovers => exact iff_of_true rfl hcovers
  · next hnot => exact iff_of_false (by simp) hnot

theorem of_key?_eq_some {key : SliceKey} (h : p.key? event = some key) :
    p.Covers event ∧ p.keyOf event = key := by
  rw [key?_eq] at h
  split at h
  · next hcovers => exact ⟨hcovers, Option.some.inj h⟩
  · cases h

theorem key?_of_agree (h : p.Agree event other) : p.key? event = p.key? other := by
  have hcovers : p.Covers event ↔ p.Covers other :=
    forall₂_congr fun path hpath => by rw [h path hpath]
  rw [key?_eq, key?_eq]
  by_cases hevent : p.Covers event
  · rw [if_pos hevent, if_pos (hcovers.mp hevent), (keyOf_eq_iff hevent).mpr h]
  · rw [if_neg hevent, if_neg (mt hcovers.mpr hevent)]

/-- Two events have the same value first under every path. -/
def ShareFirst (p : Projection) (event other : Event) : Prop :=
  ∀ path ∈ p.paths, ∃ value,
    Field.FirstUnder event.fields path value ∧ Field.FirstUnder other.fields path value

theorem shareFirst_iff (h : p.Covers event) : p.ShareFirst event other ↔ p.Agree event other := by
  refine forall₂_congr fun path hpath => ?_
  simp only [← Field.lookup_eq_some_iff]
  constructor
  · rintro ⟨value, hevent, hother⟩
    exact hevent.trans hother.symm
  · intro hagree
    obtain ⟨value, hvalue⟩ := Option.isSome_iff_exists.mp (h path hpath)
    exact ⟨value, hvalue, hagree.symm.trans hvalue⟩

/-! ## The order of the paths -/

theorem key?_of_perm (h : q.paths.Perm p.paths) (event : Event) : q.key? event = p.key? event := by
  have hcovers : q.Covers event ↔ p.Covers event :=
    forall_congr' fun path => by rw [h.mem_iff]
  have hkey : q.keyOf event = p.keyOf event :=
    SliceKey.ext (Field.sort_eq_of_perm (h.filterMap _))
  rw [key?_eq, key?_eq, hkey]
  exact if_congr hcovers rfl rfl

/-! ## Edits that are not seen -/

/-- An edit of the fields of an event that a projection does not see: a field of another path or one
behind another of its path is put anywhere, or two fields of different paths change places. -/
inductive Overlooks (p : Projection) : List Field → List Field → Prop where
  | unlisted (before after : List Field) {f : Field} : f.path ∉ p.paths →
      Overlooks p (before ++ after) (before ++ f :: after)
  | later (before after : List Field) {f : Field} : f.path ∈ before.map Field.path →
      Overlooks p (before ++ after) (before ++ f :: after)
  | swap (before after : List Field) {f g : Field} : f.path ≠ g.path →
      Overlooks p (before ++ f :: g :: after) (before ++ g :: f :: after)

theorem Overlooks.lookup_eq {fields edited : List Field} (h : p.Overlooks fields edited)
    {path : Path} (hpath : path ∈ p.paths) :
    Field.lookup fields path = Field.lookup edited path := by
  cases h with
  | unlisted before after hunlisted =>
      have hne := ne_of_mem_of_not_mem hpath hunlisted
      rw [Field.lookup_append, Field.lookup_append, Field.lookup_cons, if_neg hne.symm]
  | @later before after f hlater =>
      rw [Field.lookup_append, Field.lookup_append, Field.lookup_cons]
      by_cases hsame : f.path = path
      · -- The field is not reached: there is a value before it.
        obtain ⟨value, hvalue⟩ :=
          Option.isSome_iff_exists.mp (Field.lookup_isSome_iff.mpr (hsame ▸ hlater))
        rw [hvalue, Option.some_or, Option.some_or]
      · rw [if_neg hsame]
  | @swap before after f g hdifferent =>
      simp only [Field.lookup_append, Field.lookup_cons]
      by_cases hfirst : f.path = path
      · have hsecond : g.path ≠ path := fun h => hdifferent (hfirst.trans h.symm)
        rw [if_pos hfirst, if_neg hsecond, if_pos hfirst]
      · rw [if_neg hfirst, if_neg hfirst]

/-- Edits that a projection does not see, done or undone, keep what it looks up. -/
theorem lookup_eq_of_overlooks {fields edited : List Field}
    (h : Relation.EqvGen p.Overlooks fields edited) :
    ∀ path ∈ p.paths, Field.lookup fields path = Field.lookup edited path := by
  induction h with
  | rel _ _ hedit => exact fun path hpath => hedit.lookup_eq hpath
  | refl _ => exact fun _ _ => rfl
  | symm _ _ _ ih => exact fun path hpath => (ih path hpath).symm
  | trans _ _ _ _ _ ihfirst ihsecond =>
      exact fun path hpath => (ihfirst path hpath).trans (ihsecond path hpath)

/-! ## Partition -/

/-- A projection has a key for just the events with a field of each of its paths. Two keys are
equal, and compare as equal, just when the events have the same value first under every path. The
order of the paths does not change a key, nor do other fields, later fields of a path and the order
of fields of different paths. -/
theorem key?_partitions (p : Projection) :
    (∀ event, (p.key? event).isSome ↔ ∀ path ∈ p.paths, path ∈ event.fields.map Field.path) ∧
      (∀ event other key otherKey, p.key? event = some key → p.key? other = some otherKey →
        (key = otherKey ↔ p.ShareFirst event other) ∧
          (compare key otherKey = .eq ↔ p.ShareFirst event other)) ∧
      (∀ q : Projection, q.paths.Perm p.paths → ∀ event, q.key? event = p.key? event) ∧
      ∀ event other, Relation.EqvGen p.Overlooks event.fields other.fields →
        p.key? event = p.key? other := by
  refine ⟨fun event => ?_, fun event other key otherKey hkey hother => ?_,
    fun q h event => key?_of_perm h event,
    fun event other h => key?_of_agree (lookup_eq_of_overlooks h)⟩
  · rw [key?_isSome_iff]
    exact forall₂_congr fun path _ => Field.lookup_isSome_iff
  · obtain ⟨hcovers, rfl⟩ := of_key?_eq_some hkey
    obtain ⟨-, rfl⟩ := of_key?_eq_some hother
    rw [Std.LawfulEqOrd.compare_eq_iff_eq, keyOf_eq_iff hcovers, shareFirst_iff hcovers]
    exact ⟨Iff.rfl, Iff.rfl⟩

/-- One path is listed twice. An event keeps its key when its time and atom change, its fields
change places, another path is logged and one of its own again. Another payload of what is not a
number makes another slice, and so does the sign of zero. -/
theorem key?_partitions_repeated_path :
    let p : Projection := ⟨[4, 6, 4]⟩
    let event : UInt64 → Event := fun bits => ⟨0, 1, [⟨4, .float ⟨bits⟩⟩, ⟨6, .int 5⟩]⟩
    let nan : UInt64 := 0x7ff8000000000000
    let edited : Event :=
      ⟨9, 2, [⟨6, .int 5⟩, ⟨7, .long 1⟩, ⟨4, .float ⟨nan⟩⟩, ⟨4, .bytes [0]⟩]⟩
    (p.key? (event nan)).isSome ∧ p.key? (event nan) = p.key? edited ∧
      (⟨[6, 4, 4]⟩ : Projection).key? edited = p.key? edited ∧
      p.key? ⟨0, 1, [⟨4, .int 1⟩, ⟨7, .int 5⟩]⟩ = none ∧
      p.key? (event nan) ≠ p.key? (event (nan + 1)) ∧
      p.key? (event 0) ≠ p.key? (event 0x8000000000000000) := by
  intro p event nan edited
  obtain ⟨hsome, hkeys, hperm, hoverlooks⟩ := key?_partitions p
  have hlisted : ∀ path ∈ p.paths, path ∈ [4, 6] := by simp [p]
  have hcovers : ∀ bits, (p.key? (event bits)).isSome := fun _ => (hsome _).mpr hlisted
  have hdiffer : ∀ bits bits', bits ≠ bits' → p.key? (event bits) ≠ p.key? (event bits') := by
    intro bits bits' hbits hsame
    obtain ⟨key, hkey⟩ := Option.isSome_iff_exists.mp (hcovers bits)
    obtain ⟨value, hvalue, hvalue'⟩ :=
      (hkeys _ _ _ _ hkey (hsame ▸ hkey)).1.mp rfl 4 List.mem_cons_self
    have hfloat : some (Value.float ⟨bits⟩) = some value := Field.lookup_eq_some_iff.mpr hvalue
    have hfloat' : some (Value.float ⟨bits'⟩) = some value := Field.lookup_eq_some_iff.mpr hvalue'
    have hboth := hfloat.trans hfloat'.symm
    simp only [Option.some.injEq, Value.float.injEq, Decimal.Double.mk.injEq] at hboth
    exact hbits hboth
  have hedits : Relation.EqvGen p.Overlooks (event nan).fields edited.fields :=
    .trans _ _ _ (.rel _ _ (.swap [] [] (by decide)))
      (.trans _ _ _ (.rel _ _ (.unlisted [⟨6, .int 5⟩] [⟨4, .float ⟨nan⟩⟩] (by decide)))
        (.rel _ _ (.later [⟨6, .int 5⟩, ⟨7, .long 1⟩, ⟨4, .float ⟨nan⟩⟩] [] (by decide))))
  refine ⟨hcovers nan, hoverlooks _ _ hedits, hperm _ (by decide) edited, ?_,
    hdiffer _ _ (by decide), hdiffer _ _ (by decide)⟩
  rw [← Option.not_isSome_iff_eq_none, hsome]
  intro h
  exact absurd (h 6 (by simp [p])) (by decide)

end Projection

end CountAlarm

import CountAlarm.Routing.Projection
import Mathlib.Data.List.Basic
/-!
# Slices of events

A projection has a key for the events with a value under each of its paths. Sorting loses nothing:
two of them have the same key just when they agree on all paths.
-/

namespace CountAlarm.Projection

/-- An event has a value under every path. -/
def Covers (p : Projection) (event : Event) : Prop :=
  ∀ path ∈ p.paths, (event.get? path).isSome

instance (p : Projection) (event : Event) : Decidable (p.Covers event) :=
  List.decidableBAll _ p.paths

/-- Two events have the same values under all paths. -/
def Agree (p : Projection) (event other : Event) : Prop :=
  ∀ path ∈ p.paths, event.get? path = other.get? path

instance (p : Projection) (event other : Event) : Decidable (p.Agree event other) :=
  List.decidableBAll _ p.paths

/-- The values that an event has under the paths, with the paths. -/
def fieldsOf (p : Projection) (event : Event) : List Field :=
  p.paths.filterMap fun path => (event.get? path).map fun value => ⟨path, value⟩

def keyOf (p : Projection) (event : Event) : SliceKey :=
  .ofList (p.fieldsOf event)

theorem covers_cons {path : Path} {paths : List Path} {event : Event} :
    Covers ⟨path :: paths⟩ event ↔ (event.get? path).isSome ∧ Covers ⟨paths⟩ event :=
  List.forall_mem_cons

private theorem mapM_fields (paths : List Path) (event : Event) :
    (paths.mapM fun path => (event.get? path).map fun value => Field.mk path value) =
      if Covers ⟨paths⟩ event then some (fieldsOf ⟨paths⟩ event) else none := by
  unfold fieldsOf
  induction paths with
  | nil =>
      have hcovers : Covers ⟨[]⟩ event := fun path hpath => (List.not_mem_nil hpath).elim
      rw [if_pos hcovers]
      rfl
  | cons path paths ih =>
      rw [List.mapM_cons, ih]
      cases hvalue : event.get? path with
      | none =>
          have hnot : ¬Covers ⟨path :: paths⟩ event := fun h => by
            have hsome := (covers_cons.mp h).1
            rw [hvalue] at hsome
            cases hsome
          rw [if_neg hnot]
          rfl
      | some value =>
          by_cases hall : Covers ⟨paths⟩ event
          · rw [if_pos hall, if_pos (covers_cons.mpr ⟨by rw [hvalue]; rfl, hall⟩),
              List.filterMap_cons, hvalue]
            rfl
          · rw [if_neg hall, if_neg fun h => hall (covers_cons.mp h).2]
            rfl

theorem key?_eq (p : Projection) (event : Event) :
    p.key? event = if p.Covers event then some (p.keyOf event) else none := by
  unfold key?
  rw [mapM_fields]
  split <;> rfl

theorem mem_fieldsOf {p : Projection} {event : Event} {path : Path} {value : Value} :
    ⟨path, value⟩ ∈ p.fieldsOf event ↔ path ∈ p.paths ∧ event.get? path = some value := by
  unfold fieldsOf
  rw [List.mem_filterMap]
  constructor
  · rintro ⟨path', hpath, hfield⟩
    obtain ⟨value', hvalue, heq⟩ := Option.map_eq_some_iff.mp hfield
    cases heq
    exact ⟨hpath, hvalue⟩
  · rintro ⟨hpath, hvalue⟩
    exact ⟨path, hpath, by rw [hvalue]; rfl⟩

theorem keyOf_eq_iff {p : Projection} {event other : Event} (h : p.Covers event) :
    p.keyOf event = p.keyOf other ↔ p.Agree event other := by
  constructor
  · intro hkey path hpath
    have hsorted : Field.sort (p.fieldsOf event) = Field.sort (p.fieldsOf other) :=
      congrArg SliceKey.fields hkey
    have hperm : (p.fieldsOf event).Perm (p.fieldsOf other) :=
      (Field.sort_perm _).symm.trans (hsorted ▸ Field.sort_perm _)
    obtain ⟨value, hvalue⟩ := Option.isSome_iff_exists.mp (h path hpath)
    have hother := hperm.mem_iff.mp (mem_fieldsOf.mpr ⟨hpath, hvalue⟩)
    rw [hvalue, (mem_fieldsOf.mp hother).2]
  · intro hagree
    unfold keyOf fieldsOf
    congr 1
    apply List.filterMap_congr
    intro path hpath
    rw [hagree path hpath]

end CountAlarm.Projection

import CountAlarm.Alerting.Alert
import CountAlarm.Proofs.Documents.Reading
import Mathlib.Data.List.Perm.Basic
/-!
# Values, keys, events and alerts as documents

What is written of a value, a slice key, an event or an alert is read back as the same, unless it
has a double in it that is no number of the real line. Such a double is written as nothing, and then
nothing is read. A key may also be read from its fields in any other order.
-/

namespace CountAlarm

open Decimal (Double)

/-! ## Values -/

namespace Value

/-- A value is no infinity and no double that is not a number. -/
def isFinite : Value → Bool
  | .float x => x.isFinite
  | _ => true

theorem ofContent?_int (content : Document) :
    ofContent? "int" content = content.int32?.map .int := rfl

theorem ofContent?_long (content : Document) :
    ofContent? "long" content = content.int64?.map .long := rfl

theorem ofContent?_float (content : Document) :
    ofContent? "float" content = content.double?.map .float := rfl

theorem ofContent?_bytes (content : Document) :
    ofContent? "bytes" content = (content.listOf? Document.uint8?).map .bytes := rfl

theorem ofDocument?_object (kind : String) (content : Document) :
    ofDocument? (.object [("type", .text kind), ("value", content)]) = ofContent? kind content := by
  unfold ofDocument?
  rw [Document.record?_object, Option.bind_eq_bind, Option.bind_some,
    Members.required?_of_named (m := ("type", .text kind)) (by rfl), Document.caseName?,
    Option.bind_eq_bind, Option.bind_some,
    Members.required?_of_named (m := ("value", content)) (by rfl)]

theorem ofDocument?_toDocument (v : Value) :
    ofDocument? v.toDocument = if v.isFinite then some v else none := by
  cases v with
  | int i =>
      rw [toDocument, ofDocument?_object, ofContent?_int, Document.int32?_ofInt64]
      rfl
  | long i =>
      rw [toDocument, ofDocument?_object, ofContent?_long, Document.int64?_ofInt64]
      rfl
  | float x =>
      rw [toDocument, ofDocument?_object, ofContent?_float, Document.double?_ofDouble, isFinite]
      split <;> rfl
  | bytes b =>
      rw [toDocument, ofDocument?_object, ofContent?_bytes,
        Document.listOf?_map_eq_some Document.uint8?_natural]
      rfl

end Value

/-! ## Fields and keys -/

namespace Field

theorem ofDocument?_toDocument (f : Field) :
    ofDocument? f.toDocument = if f.value.isFinite then some f else none := by
  unfold ofDocument? toDocument
  rw [Document.pair?, Option.bind_eq_bind, Option.bind_some]
  simp only [Document.uint32?_ofUInt32, Value.ofDocument?_toDocument]
  cases f.value.isFinite <;> rfl

/-- No field is an infinity and none is not a number. -/
def areFinite (fields : List Field) : Bool :=
  fields.all fun f => f.value.isFinite

theorem listOf?_toDocument (fields : List Field) :
    Document.listOf? ofDocument? (.list (fields.map toDocument)) =
      if areFinite fields then some fields else none :=
  Document.listOf?_map ofDocument?_toDocument fields

end Field

namespace SliceKey

def isFinite (key : SliceKey) : Bool :=
  Field.areFinite key.fields

theorem ofDocument?_toDocument (key : SliceKey) :
    ofDocument? key.toDocument = if key.isFinite then some key else none := by
  unfold ofDocument? toDocument isFinite
  rw [Field.listOf?_toDocument]
  split
  · exact congrArg some key.ofList_fields
  · rfl

/-- A list of documents of fields is read as the key of these fields, in whatever order they stand.
-/
theorem ofDocument?_of_perm {items order : List Document} {fields : List Field}
    (h : List.Forall₂ (fun d f => Field.ofDocument? d = some f) items fields)
    (horder : order.Perm items) : ofDocument? (.list order) = some (ofList fields) := by
  obtain ⟨read, hread, hperm⟩ := List.perm_comp_forall₂ horder h
  have hall : Document.listOf? Field.ofDocument? (.list order) = some read :=
    Document.mapM_eq_some_iff.mpr hread
  unfold ofDocument?
  rw [hall]
  exact congrArg some (ext (Field.sort_eq_of_perm hperm))

end SliceKey

/-! ## Events and alerts -/

namespace Event

def isFinite (event : Event) : Bool :=
  Field.areFinite event.fields

theorem ofDocument?_toDocument (event : Event) :
    ofDocument? event.toDocument = if event.isFinite then some event else none := by
  unfold ofDocument? toDocument
  rw [Document.record?_object, Option.bind_eq_bind, Option.bind_some,
    Members.required?_of_named (m := ("time_ns", .natural event.time)) (by rfl),
    Members.required?_of_named (m := ("atom_id", .ofUInt32 event.atom)) (by rfl),
    Members.required?_of_named
      (m := ("fields", .list (event.fields.map Field.toDocument))) (by rfl)]
  simp only [Document.uint64?_natural, Document.uint32?_ofUInt32, Field.listOf?_toDocument]
  change _ = if Field.areFinite event.fields then some event else none
  by_cases h : Field.areFinite event.fields = true
  · rw [if_pos h, if_pos h]
    rfl
  · rw [if_neg h, if_neg h]
    rfl

end Event

namespace Alert

def isFinite (alert : Alert) : Bool :=
  alert.slice.isFinite

theorem ofDocument?_toDocument (alert : Alert) :
    ofDocument? alert.toDocument = if alert.isFinite then some alert else none := by
  unfold ofDocument? toDocument
  rw [Document.record?_object, Option.bind_eq_bind, Option.bind_some,
    Members.required?_of_named (m := ("alert_id", .natural alert.alertId)) (by rfl),
    Members.required?_of_named (m := ("metric_id", .natural alert.metricId)) (by rfl),
    Members.required?_of_named (m := ("slice_key", alert.slice.toDocument)) (by rfl),
    Members.required?_of_named (m := ("event_time_ns", .natural alert.time)) (by rfl),
    Members.required?_of_named (m := ("sliding_sum", .ofInt64 alert.sum)) (by rfl),
    Members.required?_of_named (m := ("threshold", .ofInt64 alert.threshold)) (by rfl),
    Members.required?_of_named (m := ("refractory_end_sec", .ofUInt32 alert.refractoryEnd))
      (by rfl)]
  simp only [Document.uint64?_natural, Document.uint32?_ofUInt32, Document.int64?_ofInt64,
    SliceKey.ofDocument?_toDocument]
  change _ = if alert.slice.isFinite then some alert else none
  by_cases h : alert.slice.isFinite = true
  · rw [if_pos h, if_pos h]
    rfl
  · rw [if_neg h, if_neg h]
    rfl

end Alert

end CountAlarm

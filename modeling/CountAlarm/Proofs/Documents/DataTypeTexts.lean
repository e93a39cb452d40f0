import CountAlarm.Proofs.Documents.DataTypes
import CountAlarm.Proofs.Json.RoundTrip
/-!
# Values, keys, events and alerts as text

The text of a value, a slice key, an event or an alert is read as the same data, if its doubles read
back from their own text and all of them are numbers of the real line; if one is not, then nothing
is read. Of the text layer nothing else is assumed.
-/

namespace CountAlarm

open Decimal (Double)
open Json (Printable nestingLimit)

/-! ## What is written of data -/

/-- The doubles of a value that a document can hold are read back from their text. -/
def Value.ReadsBack (v : Value) : Prop :=
  ∀ x, v = .float x → x.isFinite → Json.ReadsBack x

theorem Value.printable_toDocument {level : Nat} (hlevel : level + 2 ≤ nestingLimit) {v : Value}
    (h : v.ReadsBack) : Printable level v.toDocument := by
  have hobject (kind : String) (content : Document) (hcontent : Printable (level + 1) content) :
      Printable level (.object [("type", .text kind), ("value", content)]) := by
    refine .object (by omega) fun m hm => ?_
    rcases List.mem_pair.mp hm with rfl | rfl
    · exact .text kind
    · exact hcontent
  cases v with
  | int i => exact hobject _ _ (Json.printable_ofInt64 _ _)
  | long i => exact hobject _ _ (Json.printable_ofInt64 _ _)
  | float x =>
      refine hobject _ _ ?_
      unfold Document.ofDouble
      split
      · next hfinite => exact .float (h x rfl hfinite)
      · exact .null
  | bytes b =>
      refine hobject _ _ (.list (by omega) fun d hd => ?_)
      obtain ⟨n, -, rfl⟩ := List.mem_map.mp hd
      exact .natural _

namespace Field

def AllReadBack (fields : List Field) : Prop :=
  ∀ f ∈ fields, f.value.ReadsBack

theorem printable_toDocuments {level : Nat} (hlevel : level + 4 ≤ nestingLimit)
    {fields : List Field} (h : AllReadBack fields) :
    Printable level (.list (fields.map toDocument)) := by
  refine .list (by omega) fun d hd => ?_
  obtain ⟨f, hf, rfl⟩ := List.mem_map.mp hd
  refine .list (by omega) fun d hd => ?_
  rcases List.mem_pair.mp hd with rfl | rfl
  · exact .natural _
  · exact Value.printable_toDocument (by omega) (h f hf)

end Field

theorem SliceKey.printable_toDocument {level : Nat} (hlevel : level + 4 ≤ nestingLimit)
    {key : SliceKey} (h : Field.AllReadBack key.fields) : Printable level key.toDocument :=
  Field.printable_toDocuments hlevel h

theorem Event.printable_toDocument {event : Event} (h : Field.AllReadBack event.fields) :
    Printable 0 event.toDocument := by
  refine .object (by decide) fun m hm => ?_
  simp only [List.mem_cons, List.not_mem_nil, or_false] at hm
  rcases hm with rfl | rfl | rfl
  · exact .natural _
  · exact .natural _
  · exact Field.printable_toDocuments (by decide) h

theorem Alert.printable_toDocument {alert : Alert} (h : Field.AllReadBack alert.slice.fields) :
    Printable 0 alert.toDocument := by
  refine .object (by decide) fun m hm => ?_
  simp only [List.mem_cons, List.not_mem_nil, or_false] at hm
  rcases hm with rfl | rfl | rfl | rfl | rfl | rfl | rfl
  · exact .natural _
  · exact .natural _
  · exact SliceKey.printable_toDocument (by decide) h
  · exact .natural _
  · exact Json.printable_ofInt64 _ _
  · exact Json.printable_ofInt64 _ _
  · exact .natural _

/-- An event with a field of each kind. -/
def Event.ofEachKind : Event :=
  { time := 5
    atom := 7
    fields :=
      [⟨3, .int (-4)⟩, ⟨1, .long 9⟩, ⟨2, .float ⟨0x3FF8000000000000⟩⟩, ⟨1, .bytes [0, 255]⟩] }

theorem Event.allReadBack_ofEachKind : Field.AllReadBack Event.ofEachKind.fields := by
  intro f hf x hx _
  simp only [Event.ofEachKind, List.mem_cons, List.not_mem_nil, or_false] at hf
  rcases hf with rfl | rfl | rfl | rfl
  · cases hx
  · cases hx
  · cases hx
    exact Json.readsBack_one_and_a_half
  · cases hx

/-! ## Reading the texts -/

/-- Each kind of data is read back from its text if all of its doubles are numbers of the real line,
and never as other data. Of pairs in any order the key is read that lists them in ascending order.
-/
theorem dataTypes_readBack :
    (∀ v : Value, v.ReadsBack →
      Json.decode? Value.ofDocument? v.toDocument.compact = if v.isFinite then some v else none) ∧
    (∀ key : SliceKey, Field.AllReadBack key.fields →
      Json.decode? SliceKey.ofDocument? key.toDocument.compact =
        if key.isFinite then some key else none) ∧
    (∀ event : Event, Field.AllReadBack event.fields →
      Json.decode? Event.ofDocument? event.toDocument.compact =
        if event.isFinite then some event else none) ∧
    (∀ alert : Alert, Field.AllReadBack alert.slice.fields →
      Json.decode? Alert.ofDocument? alert.toDocument.compact =
        if alert.isFinite then some alert else none) ∧
    ∀ (text : String) (items order : List Document) (fields : List Field),
      List.Forall₂ (fun d f => Field.ofDocument? d = some f) items fields → order.Perm items →
      Json.read? text = some (.list order) →
      Json.decode? SliceKey.ofDocument? text = some (.ofList fields) ∧
      ∃ pairs : List Field,
        (SliceKey.ofList fields).toDocument = .list (pairs.map Field.toDocument) ∧
        pairs.Perm fields ∧ Field.Sorted pairs := by
  refine ⟨fun v h => ?_, fun key h => ?_, fun event h => ?_, fun alert h => ?_,
    fun text items order fields hitems horder htext => ⟨?_, ?_⟩⟩
  · rw [Json.decode?_compact (Value.printable_toDocument (by decide) h), v.ofDocument?_toDocument]
  · rw [Json.decode?_compact (SliceKey.printable_toDocument (by decide) h),
      key.ofDocument?_toDocument]
  · rw [Json.decode?_compact (Event.printable_toDocument h), event.ofDocument?_toDocument]
  · rw [Json.decode?_compact (Alert.printable_toDocument h), alert.ofDocument?_toDocument]
  · rw [Json.decode?, htext, Option.bind_some]
    exact SliceKey.ofDocument?_of_perm hitems horder
  · exact ⟨Field.sort fields, rfl, Field.sort_perm fields, Field.sorted_sort fields⟩

/-- An event with fields of all kinds is read back, a value that is not a number is not, and pairs
in descending order are read as their key. -/
theorem dataTypes_readBack_of_samples :
    (Field.AllReadBack Event.ofEachKind.fields ∧
      Json.decode? Event.ofDocument? Event.ofEachKind.toDocument.compact = some .ofEachKind) ∧
    ((Value.float .notANumber).ReadsBack ∧
      Json.decode? Value.ofDocument? (Value.float .notANumber).toDocument.compact = none) ∧
    Json.decode? SliceKey.ofDocument?
        (Document.list [Field.toDocument ⟨8, .int 1⟩, Field.toDocument ⟨2, .int 6⟩]).compact =
      some (.ofList [⟨2, .int 6⟩, ⟨8, .int 1⟩]) := by
  refine ⟨?_, ?_, ?_⟩
  · exact ⟨Event.allReadBack_ofEachKind,
      (dataTypes_readBack.2.2.1 _ Event.allReadBack_ofEachKind).trans (if_pos (by decide))⟩
  · have hreads : (Value.float .notANumber).ReadsBack := by
      rintro x ⟨rfl⟩ hfinite
      exact absurd hfinite (by decide)
    exact ⟨hreads, (dataTypes_readBack.1 _ hreads).trans (if_neg (by decide))⟩
  · have hpair (f : Field) (hf : f.value.isFinite = true) :
        Field.ofDocument? f.toDocument = some f := by
      rw [Field.ofDocument?_toDocument, if_pos hf]
    have hreads : Field.AllReadBack [⟨8, .int 1⟩, ⟨2, .int 6⟩] := by
      intro f hf x hx
      rcases List.mem_pair.mp hf with rfl | rfl <;> cases hx
    have htext := Json.read?_compact (Field.printable_toDocuments (by decide) hreads)
    exact (dataTypes_readBack.2.2.2.2 _ _ _ [⟨2, .int 6⟩, ⟨8, .int 1⟩]
      (.cons (hpair _ rfl) (.cons (hpair _ rfl) .nil)) (.swap _ _ _) htext).1

end CountAlarm

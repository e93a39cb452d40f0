import CountAlarm.Proofs.Json.Numbers
import CountAlarm.Proofs.Json.Texts
import Mathlib.Data.List.DropRight
/-!
# Documents read back from their text

The one-line text of a document of JSON is read as this document, up to the nesting limit of the
reader. Doubles are the exception: their text is scaled step by step when it is read, which does not
find every double again. Those of a document must read back by themselves, `ReadsBack`, and then the
document does.
-/

namespace CountAlarm.Json

open Decimal (Double)
open Decimal.Numeral (floatReading quotient scaled?)
open Document (compact compactItems compactMembers)
open Text.Quoted (escape quote)

/-- A double that is read from its own text. -/
def ReadsBack (x : Double) : Prop :=
  read? (compact (.float x)) = some (.float x)

/-- Documents of JSON that stand inside of `level` lists and objects, none of their parts deeper
than the nesting limit. -/
inductive Printable : Nat → Document → Prop where
  | null {level : Nat} : Printable level .null
  | bool {level : Nat} (value : Bool) : Printable level (.bool value)
  | natural {level : Nat} (value : UInt64) : Printable level (.natural value)
  | integer {level : Nat} {value : Int64} (h : value < 0) : Printable level (.integer value)
  | float {level : Nat} {value : Double} (h : ReadsBack value) : Printable level (.float value)
  | text {level : Nat} (value : String) : Printable level (.text value)
  | list {level : Nat} {items : List Document} (hlevel : level < nestingLimit)
      (h : ∀ d ∈ items, Printable (level + 1) d) : Printable level (.list items)
  | object {level : Nat} {members : Members} (hlevel : level < nestingLimit)
      (h : ∀ m ∈ members, Printable (level + 1) m.2) : Printable level (.object members)

theorem printable_object_iff {level : Nat} {members : Members} :
    Printable level (.object members) ↔
      level < nestingLimit ∧ ∀ m ∈ members, Printable (level + 1) m.2 := by
  constructor
  · intro h
    cases h with
    | object hlevel h => exact ⟨hlevel, h⟩
  · exact fun h => .object h.1 h.2

theorem printable_list_iff {level : Nat} {items : List Document} :
    Printable level (.list items) ↔
      level < nestingLimit ∧ ∀ d ∈ items, Printable (level + 1) d := by
  constructor
  · intro h
    cases h with
    | list hlevel h => exact ⟨hlevel, h⟩
  · exact fun h => .list h.1 h.2

theorem printable_ofInt64 (level : Nat) (i : Int64) : Printable level (.ofInt64 i) := by
  unfold Document.ofInt64
  split
  · exact .natural _
  · next h => exact .integer (Int64.not_le.mp h)

theorem Printable.list_map {α : Type} {level : Nat} {write : α → Document}
    (hlevel : level < nestingLimit) (h : ∀ a, Printable (level + 1) (write a)) (items : List α) :
    Printable level (.list (items.map write)) := by
  refine .list hlevel fun d hd => ?_
  obtain ⟨a, -, rfl⟩ := List.mem_map.mp hd
  exact h a

/-! ## How a value begins -/

section

variable (steps level : Nat) (rest : List Char)

theorem value?_minus : value? (steps + 1) level ('-' :: rest) = number? true rest := by
  simp [value?, skipBlanks, isBlank]

theorem value?_digit {c : Char} (hc : isDigit c = true) :
    value? (steps + 1) level (c :: rest) = number? false (c :: rest) := by
  have hne : c ≠ '"' ∧ c ≠ '[' ∧ c ≠ '\x7b' ∧ c ≠ '-' := by
    refine ⟨?_, ?_, ?_, ?_⟩ <;> (rintro rfl; cases hc)
  have hblank : isBlank c = false := by
    simp only [isBlank, Bool.or_eq_false_iff, beq_eq_false_iff_ne]
    refine ⟨⟨⟨?_, ?_⟩, ?_⟩, ?_⟩ <;> (rintro rfl; cases hc)
  simp [value?, skipBlanks, hne, hblank, hc]

end

theorem skipBlanks_skipBlanks (chars : List Char) :
    skipBlanks (skipBlanks chars) = skipBlanks chars :=
  List.dropWhile_idempotent ..

/-- Blanks before a value do not matter. -/
theorem value?_skipBlanks (steps level : Nat) (chars : List Char) :
    value? steps level (skipBlanks chars) = value? steps level chars := by
  cases steps with
  | zero => rfl
  | succ steps => simp only [value?, skipBlanks_skipBlanks]

theorem items?_skipBlanks (steps level : Nat) (chars : List Char) :
    items? steps level (skipBlanks chars) = items? steps level chars := by
  cases steps with
  | zero => rfl
  | succ steps => simp only [items?, value?_skipBlanks]

theorem members?_skipBlanks (steps level : Nat) (chars : List Char) :
    members? steps level (skipBlanks chars) = members? steps level chars := by
  cases steps with
  | zero => rfl
  | succ steps => simp only [members?, skipBlanks_skipBlanks]

/-- A closing bracket is no value. -/
theorem skipBlanks_ne_closing {steps level : Nat} {chars : List Char} {d : Document × List Char}
    (h : value? steps level chars = some d) (rest : List Char) :
    skipBlanks chars ≠ ']' :: rest := by
  intro hclosing
  cases steps with
  | zero => cases h
  | succ steps =>
      rw [value?, hclosing] at h
      cases h

theorem ofText_ne_float (content : Option String) (x : Double) : ofText content ≠ .float x := by
  cases content <;> exact Document.noConfusion

theorem ofList_ne_float (level : Nat) (items : List Document) (x : Double) :
    ofList level items ≠ .float x := by
  unfold ofList
  split <;> exact Document.noConfusion

theorem ofObject_ne_float (level : Nat) (members : List (Option String × Document)) (x : Double) :
    ofObject level members ≠ .float x := by
  unfold ofObject
  split
  · exact Document.noConfusion
  · split <;> exact Document.noConfusion

theorem word?_ne_float {word : String} {value : Document} {chars left : List Char} {x : Double}
    (hvalue : value ≠ .float x) : word? word value chars ≠ some (.float x, left) := by
  unfold word?
  split
  · simp [hvalue]
  · exact (Option.some_ne_none _).symm

/-- A double is read from a number. -/
theorem number?_of_value?_float {steps level : Nat} {chars left : List Char} {x : Double}
    (h : value? steps level chars = some (.float x, left)) :
    (∃ rest, skipBlanks chars = '-' :: rest ∧ number? true rest = some (.float x, left)) ∨
    ∃ c rest, skipBlanks chars = c :: rest ∧ isDigit c = true ∧
      number? false (c :: rest) = some (.float x, left) := by
  cases steps with
  | zero => cases h
  | succ steps =>
      unfold value? at h
      split at h
      · obtain ⟨_, _, heq⟩ := Option.map_eq_some_iff.mp h
        exact absurd (congrArg Prod.fst heq) (ofText_ne_float _ x)
      · split at h
        · exact absurd (congrArg Prod.fst (Option.some.inj h)) (ofList_ne_float (level + 1) [] x)
        · obtain ⟨_, _, heq⟩ := Option.map_eq_some_iff.mp h
          exact absurd (congrArg Prod.fst heq) (ofList_ne_float _ _ x)
      · split at h
        · exact absurd (congrArg Prod.fst (Option.some.inj h)) (ofObject_ne_float (level + 1) [] x)
        · obtain ⟨_, _, heq⟩ := Option.map_eq_some_iff.mp h
          exact absurd (congrArg Prod.fst heq) (ofObject_ne_float _ _ x)
      · next rest hchars => exact .inl ⟨rest, hchars, h⟩
      · next c rest _ _ _ _ hchars =>
        split at h
        · next hdigit => exact .inr ⟨c, rest, hchars, hdigit, h⟩
        split at h
        · exact absurd h (word?_ne_float Document.noConfusion)
        split at h
        · exact absurd h (word?_ne_float Document.noConfusion)
        · exact absurd h (word?_ne_float Document.noConfusion)
      · cases h

/-! ## Values without parts -/

/-- The characters are read as a document inside of `level` lists and objects, whatever delimits
them. Each step of the reader takes a character. -/
def ReadsAs (level : Nat) (chars : List Char) (d : Document) : Prop :=
  ∀ steps rest, chars.length ≤ steps → Delimited rest →
    ∃ left, value? steps level (chars ++ rest) = some (d, left) ∧ skipBlanks left = skipBlanks rest

section Leaves

variable (level : Nat)

/-- A value without parts is read in one step. -/
theorem ReadsAs.of_step {level : Nat} {chars : List Char} {d : Document} (hne : chars ≠ [])
    (h : ∀ steps rest, Delimited rest → ∃ left,
      value? (steps + 1) level (chars ++ rest) = some (d, left) ∧
        skipBlanks left = skipBlanks rest) :
    ReadsAs level chars d := by
  intro steps rest hsteps hrest
  have hpos := List.length_pos_iff.mpr hne
  obtain ⟨steps, rfl⟩ := Nat.exists_eq_add_one_of_ne_zero (n := steps) (by omega)
  exact h steps rest hrest

theorem readsAs_null : ReadsAs level (compact .null).toList .null :=
  .of_step (by simp [compact, Document.leafText]) fun _ rest _ => ⟨rest, rfl, rfl⟩

theorem readsAs_bool (value : Bool) :
    ReadsAs level (compact (.bool value)).toList (.bool value) := by
  cases value <;>
    exact .of_step (by simp [compact, Document.leafText]) fun _ rest _ => ⟨rest, rfl, rfl⟩

theorem toList_quote (text : String) :
    (quote text).toList = '"' :: text.toList.flatMap escape ++ ['"'] := by
  simp [quote]

theorem readsAs_text (value : String) :
    ReadsAs level (compact (.text value)).toList (.text value) := by
  have hchars : (compact (.text value)).toList = '"' :: value.toList.flatMap escape ++ ['"'] :=
    toList_quote value
  rw [hchars]
  refine .of_step (by simp) fun steps rest _ => ⟨rest, ?_, rfl⟩
  simp [value?, skipBlanks, isBlank, text?_quoted, ofText]

theorem readsAs_natural (value : UInt64) :
    ReadsAs level (compact (.natural value)).toList (.natural value) := by
  have hchars : (compact (.natural value)).toList = Nat.toDigits 10 value.toNat := Nat.toList_repr
  rw [hchars]
  refine .of_step Nat.toDigits_ne_nil fun steps rest hrest => ⟨rest, ?_, rfl⟩
  rcases hdigits : Nat.toDigits 10 value.toNat with _ | ⟨c, cs⟩
  · exact absurd hdigits Nat.toDigits_ne_nil
  · have hc : isDigit c = true := isDigit_of_mem_toDigits (hdigits ▸ List.mem_cons_self)
    rw [List.cons_append, value?_digit _ _ _ hc, ← List.cons_append, ← hdigits,
      number?_append hrest, number?_natural]
    rfl

theorem readsAs_integer {value : Int64} (h : value < 0) :
    ReadsAs level (compact (.integer value)).toList (.integer value) := by
  have hneg : value.toInt < 0 := by simpa [Int64.lt_iff_toInt_lt] using h
  have htext : compact (.integer value) = toString value.toInt := rfl
  have hchars : (compact (.integer value)).toList =
      '-' :: Nat.toDigits 10 (-value.toInt).toNat := by
    rw [htext, Int.toString_eq_repr, Int.repr_eq_if, if_neg (by omega), String.toList_append,
      Nat.toList_repr]
    rfl
  rw [hchars]
  refine .of_step (by simp) fun steps rest hrest => ⟨rest, ?_, rfl⟩
  rw [List.cons_append, value?_minus, number?_append hrest, number?_integer h]
  rfl

theorem skipBlanks_append {chars rest : List Char} (h : skipBlanks chars ≠ []) :
    skipBlanks (chars ++ rest) = skipBlanks chars ++ rest := by
  unfold skipBlanks at h ⊢
  rw [List.dropWhile_append, if_neg (by simpa using h)]

/-- A double that is read from its text alone is read from it before a delimiter as well. -/
theorem readsAs_float {value : Double} (h : ReadsBack value) :
    ReadsAs level (compact (.float value)).toList (.float value) := by
  unfold ReadsBack read? at h
  generalize (compact (.float value)).toList = chars at h ⊢
  simp only at h
  split at h
  · next d left hread =>
    obtain ⟨hblank, heq⟩ : skipBlanks left = [] ∧ d = .float value := by simpa using h
    subst heq
    -- the text may end with blanks; nothing that follows tells them from its own
    have hleft (rest : List Char) : skipBlanks (left ++ rest) = skipBlanks rest := by
      unfold skipBlanks at hblank ⊢
      rw [List.dropWhile_append, hblank]
      rfl
    have hne : skipBlanks chars ≠ [] := by
      intro hnil
      rw [← value?_skipBlanks, hnil] at hread
      cases hread
    refine .of_step (fun hnil => hne (by rw [hnil]; rfl)) fun steps rest hrest =>
      ⟨left ++ rest, ?_, hleft rest⟩
    rw [← value?_skipBlanks, skipBlanks_append hne]
    rcases number?_of_value?_float hread with
      ⟨tail, hchars, hnumber⟩ | ⟨c, tail, hchars, hc, hnumber⟩
    · rw [hchars, List.cons_append, value?_minus, number?_append hrest, hnumber]
      rfl
    · rw [hchars, List.cons_append, value?_digit _ _ _ hc, ← List.cons_append,
        number?_append hrest, hnumber]
      rfl
  · cases h

end Leaves

/-! ## Lists and objects -/

theorem delimited_cons {c : Char} (hc : c = ',' ∨ c = ']' ∨ c = '\x7d') (rest : List Char) :
    Delimited (c :: rest) := by
  simpa [Delimited] using hc

theorem toList_compactItems_cons (d d' : Document) (ds : List Document) :
    (compactItems (d :: d' :: ds)).toList =
      (compact d).toList ++ ',' :: (compactItems (d' :: ds)).toList := by
  simp [compactItems, String.toList_append]

section Items

variable {steps level : Nat} {chars left rest : List Char} {d : Document}

theorem items?_last (hread : value? steps level chars = some (d, left))
    (hleft : skipBlanks left = ']' :: rest) :
    items? (steps + 1) level chars = some ([d], rest) := by
  simp only [items?, hread, hleft]

theorem items?_more (hread : value? steps level chars = some (d, left))
    (hleft : skipBlanks left = ',' :: rest) :
    items? (steps + 1) level chars =
      (items? steps level rest).map fun (ds, rest) => (d :: ds, rest) := by
  simp only [items?, hread, hleft]

end Items

theorem items?_compactItems {level : Nat} {items : List Document} (hne : items ≠ [])
    (h : ∀ d ∈ items, ReadsAs level (compact d).toList d) (steps : Nat) (rest : List Char)
    (hsteps : (compactItems items).toList.length < steps) :
    items? steps level ((compactItems items).toList ++ ']' :: rest) = some (items, rest) := by
  induction items generalizing steps with
  | nil => exact absurd rfl hne
  | cons d ds ih =>
      obtain ⟨steps, rfl⟩ := Nat.exists_eq_add_one_of_ne_zero (n := steps) (by omega)
      cases ds with
      | nil =>
          rw [compactItems] at hsteps ⊢
          obtain ⟨left, hread, hleft⟩ := h d List.mem_cons_self steps (']' :: rest) (by omega)
            (delimited_cons (.inr (.inl rfl)) rest)
          exact items?_last hread hleft
      | cons d' ds =>
          rw [toList_compactItems_cons] at hsteps ⊢
          simp only [List.length_append, List.length_cons] at hsteps
          obtain ⟨left, hread, hleft⟩ := h d List.mem_cons_self steps
            (',' :: ((compactItems (d' :: ds)).toList ++ ']' :: rest)) (by omega)
            (delimited_cons (.inl rfl) _)
          have hrest := ih (List.cons_ne_nil _ _) (fun d hd => h d (List.mem_cons_of_mem _ hd))
            steps (by omega)
          rw [List.append_assoc, List.cons_append, items?_more hread hleft, hrest,
            Option.map_some]

theorem value?_list {steps level : Nat} {chars rest : List Char} {items : List Document}
    (h : items? steps (level + 1) chars = some (items, rest)) :
    value? (steps + 1) level ('[' :: chars) = some (ofList (level + 1) items, rest) := by
  have hopening : ∀ rest, skipBlanks chars ≠ ']' :: rest := by
    intro rest hclosing
    cases steps with
    | zero => cases h
    | succ steps =>
        rw [items?] at h
        split at h
        · cases h
        · next hread => exact skipBlanks_ne_closing hread rest hclosing
  have hstart : skipBlanks ('[' :: chars) = '[' :: chars := rfl
  -- `hopening` rules out the case of an empty list
  simp only [value?, hstart]
  rw [items?_skipBlanks, h, Option.map_some]

theorem readsAs_list {level : Nat} {items : List Document} (hlevel : level < nestingLimit)
    (h : ∀ d ∈ items, ReadsAs (level + 1) (compact d).toList d) :
    ReadsAs level (compact (.list items)).toList (.list items) := by
  have hchars : (compact (.list items)).toList = '[' :: (compactItems items).toList ++ [']'] := by
    simp [compact, String.toList_append]
  have hlist : ofList (level + 1) items = .list items := if_neg (by omega)
  rw [hchars]
  intro steps rest hsteps _
  simp only [List.length_append, List.length_cons, List.length_nil] at hsteps
  obtain ⟨steps, rfl⟩ := Nat.exists_eq_add_one_of_ne_zero (n := steps) (by omega)
  refine ⟨rest, ?_, rfl⟩
  rcases eq_or_ne items [] with rfl | hne
  · rw [← hlist]
    rfl
  · have hread := items?_compactItems hne h steps rest (by omega)
    rw [← hlist, ← value?_list hread]
    simp

/-! ### Members -/

theorem toList_compactMembers_cons (m m' : String × Document) (ms : Members) :
    (compactMembers (m :: m' :: ms)).toList =
      (quote m.1).toList ++ ':' :: ((compact m.2).toList ++
        ',' :: (compactMembers (m' :: ms)).toList) := by
  simp [compactMembers, String.toList_append]

/-- The members of an object with their names as they are read. -/
def withNames (members : Members) : List (Option String × Document) :=
  members.map fun m => (some m.1, m.2)

theorem skipBlanks_quote (name : String) (chars : List Char) :
    skipBlanks ((quote name).toList ++ chars) =
      '"' :: (name.toList.flatMap escape ++ '"' :: chars) := by
  simp [toList_quote, skipBlanks, isBlank]

section Members

variable {steps level : Nat} {chars left rest : List Char} {d : Document}

theorem members?_last (name : String) (hread : value? steps level chars = some (d, left))
    (hleft : skipBlanks left = '\x7d' :: rest) :
    members? (steps + 1) level ((quote name).toList ++ ':' :: chars) =
      some ([(some name, d)], rest) := by
  have hcolon : skipBlanks (':' :: chars) = ':' :: chars := rfl
  simp only [members?, skipBlanks_quote, text?_quoted, hcolon, hread, hleft]

theorem members?_more (name : String) (hread : value? steps level chars = some (d, left))
    (hleft : skipBlanks left = ',' :: rest) :
    members? (steps + 1) level ((quote name).toList ++ ':' :: chars) =
      (members? steps level rest).map fun (ms, rest) => ((some name, d) :: ms, rest) := by
  have hcolon : skipBlanks (':' :: chars) = ':' :: chars := rfl
  simp only [members?, skipBlanks_quote, text?_quoted, hcolon, hread, hleft]

end Members

theorem members?_compactMembers {level : Nat} {members : Members} (hne : members ≠ [])
    (h : ∀ m ∈ members, ReadsAs level (compact m.2).toList m.2) (steps : Nat) (rest : List Char)
    (hsteps : (compactMembers members).toList.length < steps) :
    members? steps level ((compactMembers members).toList ++ '\x7d' :: rest) =
      some (withNames members, rest) := by
  induction members generalizing steps with
  | nil => exact absurd rfl hne
  | cons m ms ih =>
      obtain ⟨steps, rfl⟩ := Nat.exists_eq_add_one_of_ne_zero (n := steps) (by omega)
      cases ms with
      | nil =>
          have hchars : (compactMembers [m]).toList =
              (quote m.1).toList ++ ':' :: (compact m.2).toList := by
            simp [compactMembers, String.toList_append]
          rw [hchars] at hsteps ⊢
          simp only [List.length_append, List.length_cons] at hsteps
          obtain ⟨left, hread, hleft⟩ := h m List.mem_cons_self steps ('\x7d' :: rest) (by omega)
            (delimited_cons (.inr (.inr rfl)) rest)
          rw [List.append_assoc, List.cons_append]
          exact members?_last m.1 hread hleft
      | cons m' ms =>
          rw [toList_compactMembers_cons] at hsteps ⊢
          simp only [List.length_append, List.length_cons] at hsteps
          obtain ⟨left, hread, hleft⟩ := h m List.mem_cons_self steps
            (',' :: ((compactMembers (m' :: ms)).toList ++ '\x7d' :: rest)) (by omega)
            (delimited_cons (.inl rfl) _)
          have hrest := ih (List.cons_ne_nil _ _) (fun m hm => h m (List.mem_cons_of_mem _ hm))
            steps (by omega)
          rw [List.append_assoc, List.cons_append, List.append_assoc, List.cons_append,
            members?_more m.1 hread hleft, hrest, Option.map_some]
          rfl

theorem value?_object {steps level : Nat} {chars rest : List Char}
    {members : List (Option String × Document)}
    (h : members? steps (level + 1) chars = some (members, rest)) :
    value? (steps + 1) level ('\x7b' :: chars) = some (ofObject (level + 1) members, rest) := by
  have hopening : ∀ rest, skipBlanks chars ≠ '\x7d' :: rest := by
    intro rest hclosing
    cases steps with
    | zero => cases h
    | succ steps =>
        rw [members?, hclosing] at h
        cases h
  have hstart : skipBlanks ('\x7b' :: chars) = '\x7b' :: chars := rfl
  simp only [value?, hstart]
  rw [members?_skipBlanks, h, Option.map_some]

theorem readsAs_object {level : Nat} {members : Members} (hlevel : level < nestingLimit)
    (h : ∀ m ∈ members, ReadsAs (level + 1) (compact m.2).toList m.2) :
    ReadsAs level (compact (.object members)).toList (.object members) := by
  have hchars : (compact (.object members)).toList =
      '\x7b' :: (compactMembers members).toList ++ ['\x7d'] := by
    simp [compact, String.toList_append]
  have hobject : ofObject (level + 1) (withNames members) = .object members := by
    have hnames : (withNames members).mapM (fun m => m.1.map fun name => (name, m.2)) =
        some members := by
      rw [withNames, List.mapM_map]
      exact List.mapM_pure.trans (congrArg some (List.map_id members))
    rw [ofObject, if_neg (by omega), hnames]
  rw [hchars]
  intro steps rest hsteps _
  simp only [List.length_append, List.length_cons, List.length_nil] at hsteps
  obtain ⟨steps, rfl⟩ := Nat.exists_eq_add_one_of_ne_zero (n := steps) (by omega)
  refine ⟨rest, ?_, rfl⟩
  rcases eq_or_ne members [] with rfl | hne
  · rw [← hobject]
    rfl
  · have hread := members?_compactMembers hne h steps rest (by omega)
    rw [← hobject, ← value?_object hread]
    simp

/-! ## Whole documents -/

theorem Printable.readsAs {level : Nat} {d : Document} (h : Printable level d) :
    ReadsAs level (compact d).toList d := by
  induction h with
  | null => exact readsAs_null _
  | bool value => exact readsAs_bool _ value
  | natural value => exact readsAs_natural _ value
  | integer h => exact readsAs_integer _ h
  | float h => exact readsAs_float _ h
  | text value => exact readsAs_text _ value
  | list hlevel _ ih => exact readsAs_list hlevel ih
  | object hlevel _ ih => exact readsAs_object hlevel ih

/-- The text of a document is read as the document. -/
theorem read?_compact {d : Document} (h : Printable 0 d) : read? (compact d) = some d := by
  obtain ⟨left, hread, hleft⟩ := h.readsAs (2 * (compact d).toList.length + 2) [] (by omega) .nil
  rw [List.append_nil] at hread
  simp only [read?, hread, hleft]
  rfl

/-! ## Doubles that read back, and others -/

theorem scaled?_of_neg {x : Double} {exponent : Int} (hleast : -308 ≤ exponent)
    (hneg : exponent < 0) :
    scaled? x exponent = some (.ofMagnitude false (quotient x exponent.natAbs)) := by
  rw [scaled?, if_neg (by omega), if_pos hneg]

/-- The double `1.5` is read by a division that is exact. -/
theorem readsBack_one_and_a_half : ReadsBack ⟨0x3FF8000000000000⟩ := by
  have htext : compact (.float ⟨0x3FF8000000000000⟩) = "1.5" := by decide +kernel
  have hscaled : floatReading false 15 (-1) = .float ⟨0x3FF8000000000000⟩ := by
    rw [floatReading, scaled?_of_neg (by omega) (by omega)]
    exact congrArg Decimal.Numeral.Reading.float (by decide +kernel)
  have hread : read? "1.5" = some (ofReading (floatReading false 15 (-1))) := rfl
  rw [ReadsBack, htext, hread, hscaled]
  rfl

/-- Not every finite double reads back: here the digits are more than a significand holds, so they
are rounded before the division rounds again. -/
theorem exists_not_readsBack : ∃ x : Double, x.isFinite = true ∧ ¬ReadsBack x := by
  refine ⟨⟨0x3FF0854A5FFB51D4⟩, by decide, ?_⟩
  have htext : compact (.float ⟨0x3FF0854A5FFB51D4⟩) = "1.0325416325841745" := by decide +kernel
  have hscaled : floatReading false 10325416325841745 (-16) = .float ⟨0x3FF0854A5FFB51D3⟩ := by
    rw [floatReading, scaled?_of_neg (by omega) (by omega)]
    exact congrArg Decimal.Numeral.Reading.float (by decide +kernel)
  have hread : read? "1.0325416325841745" =
      some (ofReading (floatReading false 10325416325841745 (-16))) := rfl
  rw [ReadsBack, htext, hread, hscaled]
  intro h
  cases h

/-! ## Data as text -/

/-- Reads a text as data of a kind. -/
def decode? {α : Type} (read : Document → Option α) (text : String) : Option α :=
  (read? text).bind read

theorem decode?_compact {α : Type} {read : Document → Option α} {d : Document}
    (h : Printable 0 d) : decode? read (compact d) = read d := by
  rw [decode?, read?_compact h, Option.bind_some]

end CountAlarm.Json

import CountAlarm.Proofs.Event.Order
/-!
# Keys stand for their fields

A key is one form for all orders of some fields. It keeps every field as often as it was given, and
nothing of the order, so keys are equal just when the lists they were made from are permutations
of each other. What is fed to a hash tells keys apart just as comparing does, since every part
of it says how long it is.
-/

namespace CountAlarm

open Decimal (Double)

/-! ## Data for a hash -/

namespace Value

/-- The length of a byte string is a word. -/
def Fits : Value → Prop
  | .bytes b => b.length < UInt64.size
  | _ => True

instance : DecidablePred Fits
  | .int _ => inferInstanceAs (Decidable True)
  | .long _ => inferInstanceAs (Decidable True)
  | .float _ => inferInstanceAs (Decidable True)
  | .bytes b => inferInstanceAs (Decidable (b.length < UInt64.size))

theorem toUInt64_injective {i j : Int64} (h : i.toUInt64 = j.toUInt64) : i = j := by
  have hback := congrArg UInt64.toInt64 h
  rwa [Int64.toInt64_toUInt64, Int64.toInt64_toUInt64] at hback

theorem toInt64_injective {i j : Int32} (h : i.toInt64 = j.toInt64) : i = j := by
  have hback := congrArg Int64.toInt32 h
  rwa [Int32.toInt32_toInt64, Int32.toInt32_toInt64] at hback

theorem ofNat_injective {m n : Nat} (hm : m < UInt64.size) (hn : n < UInt64.size)
    (h : UInt64.ofNat m = UInt64.ofNat n) : m = n := by
  have htoNat := congrArg UInt64.toNat h
  rwa [UInt64.toNat_ofNat_of_lt' hm, UInt64.toNat_ofNat_of_lt' hn] at htoNat

/-- The words of a value are its kind and its content. -/
theorem exists_hashWords_eq (v : Value) :
    ∃ content, v.hashWords = UInt64.ofNat v.rank :: content := by
  cases v <;> exact ⟨_, rfl⟩

theorem rank_lt (v : Value) : v.rank < UInt64.size := by
  cases v <;> simp [rank, UInt64.size]

/-- Whatever comes after the words of a value, they tell the value and where they end. -/
theorem hashWords_append_inj {v w : Value} (hv : v.Fits) (hw : w.Fits)
    {first second : List UInt64} (h : v.hashWords ++ first = w.hashWords ++ second) :
    v = w ∧ first = second := by
  have hrank : v.rank = w.rank := by
    obtain ⟨_, hvwords⟩ := exists_hashWords_eq v
    obtain ⟨_, hwwords⟩ := exists_hashWords_eq w
    rw [hvwords, hwwords, List.cons_append, List.cons_append] at h
    exact ofNat_injective v.rank_lt w.rank_lt (List.cons.inj h).1
  match v, w, hrank with
  | .int i, .int j, _ =>
      obtain ⟨-, hcontent⟩ := List.cons.inj h
      obtain ⟨hword, hrest⟩ := List.cons.inj hcontent
      exact ⟨congrArg Value.int (toInt64_injective (toUInt64_injective hword)), hrest⟩
  | .long i, .long j, _ =>
      obtain ⟨-, hcontent⟩ := List.cons.inj h
      obtain ⟨hword, hrest⟩ := List.cons.inj hcontent
      exact ⟨congrArg Value.long (toUInt64_injective hword), hrest⟩
  | .float x, .float y, _ =>
      obtain ⟨-, hcontent⟩ := List.cons.inj h
      obtain ⟨hword, hrest⟩ := List.cons.inj hcontent
      cases x
      cases y
      exact ⟨congrArg (fun bits => Value.float ⟨bits⟩) hword, hrest⟩
  | .bytes s, .bytes t, _ =>
      obtain ⟨-, hcontent⟩ := List.cons.inj h
      obtain ⟨hword, hrest⟩ := List.cons.inj hcontent
      have hlength : s.length = t.length := ofNat_injective hv hw hword
      have hwords : (s.map UInt8.toUInt64).length = (t.map UInt8.toUInt64).length := by
        rw [List.length_map, List.length_map, hlength]
      obtain ⟨hbytes, hrest⟩ := List.append_inj hrest hwords
      have hinj : Function.Injective (List.map UInt8.toUInt64) :=
        List.map_injective_iff.mpr fun _ _ => UInt8.toUInt64_inj.mp
      exact ⟨congrArg Value.bytes (hinj hbytes), hrest⟩

end Value

/-- The words of a field are its path and those of its value. -/
def Field.hashWords (f : Field) : List UInt64 :=
  f.path.toUInt64 :: f.value.hashWords

namespace SliceKey

/-- The number of fields and the lengths of all byte strings are words. -/
def Fits (key : SliceKey) : Prop :=
  key.fields.length < UInt64.size ∧ ∀ f ∈ key.fields, f.value.Fits

instance : DecidablePred Fits := fun key =>
  inferInstanceAs (Decidable (key.fields.length < UInt64.size ∧ ∀ f ∈ key.fields, f.value.Fits))

theorem flatMap_hashWords_inj {fs gs : List Field} (hlength : fs.length = gs.length)
    (hfs : ∀ f ∈ fs, f.value.Fits) (hgs : ∀ g ∈ gs, g.value.Fits)
    (h : fs.flatMap Field.hashWords = gs.flatMap Field.hashWords) : fs = gs := by
  induction fs generalizing gs with
  | nil => exact (List.eq_nil_of_length_eq_zero hlength.symm).symm
  | cons f fs ih =>
      cases gs with
      | nil => cases hlength
      | cons g gs =>
          obtain ⟨hf, hfs⟩ := List.forall_mem_cons.mp hfs
          obtain ⟨hg, hgs⟩ := List.forall_mem_cons.mp hgs
          rw [List.flatMap_cons, List.flatMap_cons] at h
          obtain ⟨hpath, hrest⟩ := List.cons.inj h
          obtain ⟨hvalue, hrest⟩ := Value.hashWords_append_inj hf hg hrest
          have hfield : f = g := by
            cases f
            cases g
            cases hvalue
            cases UInt32.toUInt64_inj.mp hpath
            rfl
          rw [hfield, ih (Nat.succ.inj hlength) hfs hgs hrest]

theorem hashWords_inj {a b : SliceKey} (ha : a.Fits) (hb : b.Fits)
    (h : a.hashWords = b.hashWords) : a = b := by
  obtain ⟨hword, hfields⟩ := List.cons.inj h
  have hlength : a.fields.length = b.fields.length := Value.ofNat_injective ha.1 hb.1 hword
  exact ext (flatMap_hashWords_inj hlength ha.2 hb.2 hfields)

/-! ## One form for all orders -/

theorem ofList_eq_iff_perm {first second : List Field} :
    ofList first = ofList second ↔ first.Perm second := by
  constructor
  · intro h
    have hsort : Field.sort first = Field.sort second := congrArg fields h
    have hfirst := (Field.sort_perm first).symm
    rw [hsort] at hfirst
    exact hfirst.trans (Field.sort_perm second)
  · exact fun h => ext (Field.sort_eq_of_perm h)

theorem pairwise_not_below (key : SliceKey) :
    key.fields.Pairwise fun f g => ¬g.Below f := by
  refine key.sorted.imp fun {f g} hle hbelow => ?_
  rw [← Field.orders_below.gt_iff] at hbelow
  rw [hbelow] at hle
  cases hle

/-- Comparing values is a total order by kind and content that finds only identical values equal,
and comparing keys is the lexicographic order on their fields. Keys are equal just when they were
made from permutations of one list; a key holds in ascending order just the fields it was given,
each as often, and is made again from what it holds. What compares equal feeds the same words to a
hash, and within the lengths that a word can hold no two keys feed the same. -/
theorem keys_canonical :
    Orders Value.Below ∧ Orders SliceKey.Below ∧
    (∀ first second : List Field, ofList first = ofList second ↔ first.Perm second) ∧
    (∀ fields : List Field,
      (∀ f, (ofList fields).fields.count f = fields.count f) ∧
      (ofList fields).fields.Pairwise fun f g => ¬g.Below f) ∧
    (∀ key : SliceKey, ofList key.fields = key) ∧
    (∀ v w : Value, compare v w = .eq → v.hashWords = w.hashWords) ∧
    ∀ a b : SliceKey, (compare a b = .eq → a.hashWords = b.hashWords) ∧
      (a.Fits → b.Fits → a.hashWords = b.hashWords → a = b) := by
  refine ⟨Value.orders_below, orders_below, fun _ _ => ofList_eq_iff_perm, fun fields => ⟨?_, ?_⟩,
    ofList_fields, fun v w h => ?_, fun a b => ⟨fun h => ?_, hashWords_inj⟩⟩
  · exact fun f => (Field.sort_perm fields).count_eq f
  · exact pairwise_not_below (ofList fields)
  · rw [(Value.orders_below.eq_iff v w).mp h]
  · rw [(orders_below.eq_iff a b).mp h]

/-- Fields with the two zeros and with two patterns that are no number, one field twice. -/
theorem keys_canonical_zeros_and_patterns :
    let zero := Value.float ⟨0⟩
    let negative := Value.float ⟨0x8000000000000000⟩
    let quiet := Value.float ⟨0x7FF8000000000000⟩
    let other := Value.float ⟨0x7FF8000000000001⟩
    let first : List Field := [⟨2, quiet⟩, ⟨1, zero⟩, ⟨2, quiet⟩, ⟨1, negative⟩]
    let second : List Field := [⟨1, negative⟩, ⟨1, zero⟩, ⟨2, quiet⟩, ⟨2, quiet⟩]
    let key := ofList first
    let near := ofList [⟨1, negative⟩, ⟨1, zero⟩, ⟨2, quiet⟩, ⟨2, other⟩]
    (negative.Below zero ∧ zero.Below quiet ∧ quiet.Below other ∧ negative.Below other) ∧
    (first.Perm second ∧ key = ofList second ∧ compare key (ofList second) = .eq ∧
      key.hashWords = (ofList second).hashWords) ∧
    (key.fields = second ∧ key.Below near ∧ key.Fits ∧ near.Fits ∧
      key.hashWords ≠ near.hashWords) := by
  intro zero negative quiet other first second key near
  obtain ⟨hvalues, hkeys, hperm, -, -, -, hwords⟩ := keys_canonical
  have hzeros : negative.Below zero := (hvalues.lt_iff _ _).mp (by decide)
  have hnumber : zero.Below quiet := (hvalues.lt_iff _ _).mp (by decide)
  have hpatterns : quiet.Below other := (hvalues.lt_iff _ _).mp (by decide)
  have hlast : negative.Below other :=
    hvalues.trans _ _ _ (hvalues.trans _ _ _ hzeros hnumber) hpatterns
  have hshuffled : first.Perm second := by decide
  have hsame : key = ofList second := (hperm first second).mpr hshuffled
  have hequal : compare key (ofList second) = .eq := (hkeys.eq_iff _ _).mpr hsame
  have hbelow : key.Below near := (hkeys.lt_iff _ _).mp (by decide)
  have hkey : key.Fits := by decide
  have hnear : near.Fits := by decide
  refine ⟨⟨hzeros, hnumber, hpatterns, hlast⟩,
    ⟨hshuffled, hsame, hequal, (hwords _ _).1 hequal⟩, by decide, hbelow, hkey, hnear, ?_⟩
  intro heq
  have hboth := (hwords key near).2 hkey hnear heq
  have hdiff : key ≠ near := by decide
  exact hdiff hboth

end SliceKey

end CountAlarm

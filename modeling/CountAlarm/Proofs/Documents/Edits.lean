import CountAlarm.Proofs.Documents.Configurations
import CountAlarm.Proofs.Documents.Lookups
import Mathlib.Logic.Relation
/-!
# Documents that read as the same configuration

A configuration may be written in many ways: the members of an object stand in any order, a
threshold has two names, and members that hold their usual value may be missing. `Edit` is one such
change anywhere in a document. No edit changes what the document is read as
(`Edit.read?_eq_some`), so every document that edits lead to from the one that a configuration is
written as is read as this configuration.
-/

namespace CountAlarm

/-! ## Members in another order -/

theorem Document.membersReadable_eq_all (members : Members) :
    membersReadable members = members.all fun m => m.2.isReadable := by
  induction members with
  | nil => rfl
  | cons m members ih => rw [membersReadable, ih, List.all_cons]

section Orders

variable {members members' : Members} (h : members.Perm members')
include h

theorem Condition.ofOperand?_of_perm (kind : String) :
    ofOperand? kind members' = ofOperand? kind members := by
  simp only [ofOperand?, Members.required?_eq_ask, Members.ask_of_perm h]

theorem Condition.ofMembers?_of_perm (kind? : Document → Option String) :
    ofMembers? kind? members' = ofMembers? kind? members := by
  have hreadable : Document.membersReadable members' = Document.membersReadable members := by
    rw [Document.membersReadable_eq_all, Document.membersReadable_eq_all]
    exact h.symm.all_eq
  unfold ofMembers?
  simp only [Members.required?_eq_ask, Members.ask_of_perm h, hreadable, ofOperand?_of_perm h]

theorem FieldCondition.ofDocument?_of_perm :
    ofDocument? (.object members') = ofDocument? (.object members) := by
  have hothers := h.filter fun m => m.1 != "field"
  apply Option.ext
  intro f
  rw [ofDocument?_object, ofDocument?_object,
    Members.required?_eq_ask, Members.required?_eq_ask, Members.ask_of_perm h,
    Condition.ofMembers?_of_perm hothers]

end Orders

namespace Config

/-! ## The objects of a document -/

/-- The kinds of objects that a configuration is written with. -/
inductive Part where
  | config
  | matcher
  | fieldCondition
  | metric
  | alert

namespace Part

/-- What an object of a kind stands for. -/
abbrev Meaning : Part → Type
  | .config => Config
  | .matcher => AtomMatcher
  | .fieldCondition => FieldCondition
  | .metric => MetricConfig
  | .alert => AlertConfig

def read? : (p : Part) → Document → Option p.Meaning
  | .config => Config.ofDocument?
  | .matcher => AtomMatcher.ofDocument?
  | .fieldCondition => FieldCondition.ofDocument?
  | .metric => MetricConfig.ofDocument?
  | .alert => AlertConfig.ofDocument?

/-- Names of members, each with another one that means the same. -/
def synonyms : Part → List (String × String)
  | .alert => [("trigger_if_sum_gt", "threshold")]
  | _ => []

/-- The members that say what their absence says. -/
def omittable : Part → Members
  | .config => [("start_time_ns", .natural 0), ("matchers", .list []), ("count_metrics", .list [])]
  | .matcher => [("fields", .list [])]
  | .fieldCondition => []
  | .metric =>
    [("dimensions", .list []), ("bucket", .null), ("bucket_size_ns", .null), ("alerts", .list [])]
  | .alert => [("refractory_period_sec", .ofUInt32 0)]

/-- The members that list objects, with the kind of these. -/
def lists : Part → List (String × Part)
  | .config => [("matchers", .matcher), ("count_metrics", .metric)]
  | .matcher => [("fields", .fieldCondition)]
  | .fieldCondition => []
  | .metric => [("alerts", .alert)]
  | .alert => []

end Part

/-- One change of a document that is an object of the kind `p`, or of an object inside of it. -/
inductive Edit : Part → Document → Document → Prop where
  | reorder {p : Part} {members members' : Members} (h : members.Perm members') :
      Edit p (.object members) (.object members')
  | rename {p : Part} {name name' : String} {before after : Members} {d : Document}
      (h : (name, name') ∈ p.synonyms) :
      Edit p (.object (before ++ (name, d) :: after)) (.object (before ++ (name', d) :: after))
  | leaveOut {p : Part} {before after : Members} {m : String × Document} (h : m ∈ p.omittable) :
      Edit p (.object (before ++ m :: after)) (.object (before ++ after))
  | within {p q : Part} {name : String} {before after : Members} {ahead behind : List Document}
      {d d' : Document} (h : (name, q) ∈ p.lists) (inner : Edit q d d') :
      Edit p (.object (before ++ (name, .list (ahead ++ d :: behind)) :: after))
        (.object (before ++ (name, .list (ahead ++ d' :: behind)) :: after))

/-! ## Lookups that edits keep -/

namespace Part

attribute [local simp] synonyms omittable lists

variable {α : Type} {p : Part} {names : List String} {absent : Option α}
  {read : Document → Option α}

/-- What a lookup has to do with the edits of a kind of objects: it knows both names or none, takes
what may be left out for what its absence stands for, and reads a list as before where an object in
it was replaced by one that is read alike. -/
structure Serves (p : Part) (names : List String) (absent : Option α)
    (read : Document → Option α) : Prop where
  synonyms : ∀ s ∈ p.synonyms, s.1 ∈ names ↔ s.2 ∈ names
  omittable : ∀ m ∈ p.omittable, m.1 ∈ names → read m.2 = absent
  lists : ∀ l ∈ p.lists, l.1 ∈ names → ∀ d d', (∀ x, l.2.read? d = some x → l.2.read? d' = some x) →
    ∀ ahead behind a, read (.list (ahead ++ d :: behind)) = some a →
      read (.list (ahead ++ d' :: behind)) = some a

/-- A lookup that asks for no list of objects. -/
theorem serves_leaf (hsynonyms : ∀ s ∈ p.synonyms, s.1 ∈ names ↔ s.2 ∈ names)
    (homittable : ∀ m ∈ p.omittable, m.1 ∈ names → read m.2 = absent)
    (hlists : ∀ l ∈ p.lists, l.1 ∉ names) : p.Serves names absent read where
  synonyms := hsynonyms
  omittable := homittable
  lists l hl hname := absurd hname (hlists l hl)

/-- A lookup of a list of objects, where a missing list is an empty one. -/
theorem serves_list {q : Part} {name : String}
    (hsynonyms : ∀ s ∈ p.synonyms, s.1 ≠ name ∧ s.2 ≠ name)
    (homittable : ∀ m ∈ p.omittable, m.1 = name → m.2 = .list [])
    (hlists : ∀ l ∈ p.lists, l.1 = name → l.2 = q) :
    p.Serves [name] (some []) (Document.listOf? q.read?) where
  synonyms s hs := by simp [hsynonyms s hs]
  omittable m hm hname := by
    rw [homittable m hm (List.mem_singleton.mp hname)]
    rfl
  lists l hl hname d d' h ahead behind items := by
    obtain rfl := hlists l hl (List.mem_singleton.mp hname)
    exact Document.listOf?_replace h

/-- Edits that keep the answers of all lookups that go with them keep what is read. -/
theorem read?_of_serves {p : Part} (hp : p ≠ .fieldCondition) {members members' : Members}
    {x : p.Meaning}
    (h : ∀ {α : Type} {names : List String} {absent : Option α} {read : Document → Option α}
      {a : α}, p.Serves names absent read → members.ask names absent read = some a →
        members'.ask names absent read = some a)
    (hread : p.read? (.object members) = some x) : p.read? (.object members') = some x := by
  -- each member of a part is asked for once; the side conditions only compare names
  cases p with
  | fieldCondition => exact absurd rfl hp
  | config =>
      simp only [read?, Config.ofDocument?_object, Members.optional?_eq_ask] at hread ⊢
      obtain ⟨hstart, hmatchers, hmetrics⟩ := hread
      have homittable : (Document.natural 0).uint64? = some 0 := Document.uint64?_natural 0
      exact ⟨h (serves_leaf (by simp) (by simp [homittable]) (by simp)) hstart,
        h (serves_list (q := .matcher) (by simp) (by simp) (by simp)) hmatchers,
        h (serves_list (q := .metric) (by simp) (by simp) (by simp)) hmetrics⟩
  | matcher =>
      simp only [read?, AtomMatcher.ofDocument?_object, Members.optional?_eq_ask,
        Members.required?_eq_ask] at hread ⊢
      obtain ⟨hid, hatom, hconditions⟩ := hread
      exact ⟨h (serves_leaf (by simp) (by simp) (by simp)) hid,
        h (serves_leaf (by simp) (by simp) (by simp)) hatom,
        h (serves_list (q := .fieldCondition) (by simp) (by simp) (by simp)) hconditions⟩
  | metric =>
      simp only [read?, MetricConfig.ofDocument?_object, Members.optional?_eq_ask,
        Members.required?_eq_ask] at hread ⊢
      obtain ⟨hid, hmatcher, hpaths, hunit, hwidth, halerts⟩ := hread
      have homittable : Document.listOf? Document.uint32? (.list []) = some [] := rfl
      exact ⟨h (serves_leaf (by simp) (by simp) (by simp)) hid,
        h (serves_leaf (by simp) (by simp) (by simp)) hmatcher,
        h (serves_leaf (by simp) (by simp [homittable]) (by simp)) hpaths,
        h (serves_leaf (by simp) (by simp [Document.orBlank?]) (by simp)) hunit,
        h (serves_leaf (by simp) (by simp [Document.orBlank?]) (by simp)) hwidth,
        h (serves_list (q := .alert) (by simp) (by simp) (by simp)) halerts⟩
  | alert =>
      simp only [read?, AlertConfig.ofDocument?_object, Members.optional?_eq_ask,
        Members.required?_eq_ask] at hread ⊢
      obtain ⟨hid, hbuckets, hthreshold, hseconds⟩ := hread
      have homittable : (Document.ofUInt32 0).uint32? = some 0 := Document.uint32?_ofUInt32 0
      exact ⟨h (serves_leaf (by simp) (by simp) (by simp)) hid,
        h (serves_leaf (by simp) (by simp) (by simp)) hbuckets,
        h (serves_leaf (by simp) (by simp) (by simp)) hthreshold,
        h (serves_leaf (by simp) (by simp [homittable]) (by simp)) hseconds⟩

end Part

/-- No edit changes what a document is read as. -/
theorem Edit.read?_eq_some {p : Part} {d d' : Document} (h : Edit p d d') :
    ∀ x, p.read? d = some x → p.read? d' = some x := by
  induction h with
  | @reorder p members members' hperm =>
      intro x hread
      by_cases hp : p = .fieldCondition
      · subst hp
        exact (FieldCondition.ofDocument?_of_perm hperm).trans hread
      · refine Part.read?_of_serves hp (fun _ hask => ?_) hread
        rw [Members.ask_of_perm hperm, hask]
  | @rename p name name' before after d hname =>
      intro x hread
      have hp : p ≠ .fieldCondition := by
        rintro rfl
        cases hname
      refine Part.read?_of_serves hp (fun hserves hask => ?_) hread
      exact Members.ask_replace (m := (name, d)) (hserves.synonyms _ hname) (fun _ _ hd => hd) hask
  | @leaveOut p before after m hm =>
      intro x hread
      have hp : p ≠ .fieldCondition := by
        rintro rfl
        cases hm
      refine Part.read?_of_serves hp (fun hserves hask => ?_) hread
      exact Members.ask_leaveOut (hserves.omittable m hm) hask
  | @within p q name before after ahead behind d d' hname inner ih =>
      intro x hread
      have hp : p ≠ .fieldCondition := by
        rintro rfl
        cases hname
      refine Part.read?_of_serves hp (fun hserves hask => ?_) hread
      exact Members.ask_replace (m := (name, .list (ahead ++ d :: behind))) Iff.rfl
        (fun hmem => hserves.lists _ hname hmem d d' ih ahead behind) hask

end Config

end CountAlarm

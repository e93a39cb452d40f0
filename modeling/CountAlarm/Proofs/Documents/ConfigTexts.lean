import CountAlarm.Proofs.Documents.Edits
import CountAlarm.Proofs.Json.RoundTrip
/-!
# Configurations as text

Neither writing a configuration nor an edit of its document leaves the documents that read back from
their text, so a configuration is read from the text of every document that edits lead to.
-/

namespace CountAlarm

open Json (Printable nestingLimit)

theorem Condition.printable_toMembers {level : Nat} (c : Condition) :
    ∀ m ∈ c.toMembers, Printable level m.2 := by
  intro m hm
  cases c with
  | equalsInt value | below value | above value =>
      rcases List.mem_pair.mp hm with rfl | rfl
      · exact .text _
      · exact Json.printable_ofInt64 _ _
  | equalsText text | fits text =>
      rcases List.mem_pair.mp hm with rfl | rfl
      · exact .text _
      · exact .text _

theorem FieldCondition.printable_toDocument {level : Nat} (hlevel : level < nestingLimit)
    (f : FieldCondition) : Printable level f.toDocument := by
  refine .object hlevel fun m hm => ?_
  rcases List.mem_cons.mp hm with rfl | hm
  · exact .natural _
  · exact f.condition.printable_toMembers m hm

/-! ## What is written of a configuration -/

theorem Json.Printable.ofOption {α : Type} {level : Nat} {write : α → Document}
    (h : ∀ a, Printable level (write a)) (o : Option α) :
    Printable level (.ofOption write o) := by
  cases o with
  | none => exact .null
  | some a => exact h a

theorem AtomMatcher.printable_toDocument {level : Nat} (hlevel : level + 2 < nestingLimit)
    (m : AtomMatcher) : Printable level m.toDocument := by
  refine .object (by omega) ?_
  simp only [List.forall_mem_cons, List.not_mem_nil, false_implies, implies_true, and_true]
  exact ⟨.natural _, .natural _,
    .list_map (by omega) (fun f => f.printable_toDocument (by omega)) _⟩

theorem AlertConfig.printable_toDocument {level : Nat} (hlevel : level < nestingLimit)
    (a : AlertConfig) : Printable level a.toDocument := by
  refine .object hlevel ?_
  simp only [List.forall_mem_cons, List.not_mem_nil, false_implies, implies_true, and_true]
  exact ⟨.natural _, .natural _, Json.printable_ofInt64 _ _, .natural _⟩

theorem MetricConfig.printable_toDocument {level : Nat} (hlevel : level + 2 < nestingLimit)
    (m : MetricConfig) : Printable level m.toDocument := by
  refine .object (by omega) ?_
  simp only [List.forall_mem_cons, List.not_mem_nil, false_implies, implies_true, and_true]
  exact ⟨.natural _, .natural _, .list_map (by omega) (fun _ => .natural _) _,
    .ofOption (fun u : TimeUnit => .text u.name) _, .ofOption (fun w => .natural w) _,
    .list_map (by omega) (fun a => a.printable_toDocument (by omega)) _⟩

namespace Config

theorem printable_toDocument (c : Config) : Printable 0 c.toDocument := by
  refine .object (by decide) ?_
  simp only [List.forall_mem_cons, List.not_mem_nil, false_implies, implies_true, and_true]
  exact ⟨.natural _,
    .list_map (by decide) (fun m => m.printable_toDocument (by decide)) _,
    .list_map (by decide) (fun m => m.printable_toDocument (by decide)) _⟩

/-! ## Edits -/

/-- No edit puts in what cannot be read back. -/
theorem Edit.printable {p : Part} {d d' : Document} (h : Edit p d d') :
    ∀ level, Printable level d → Printable level d' := by
  induction h with
  | @reorder p members members' hperm =>
      intro level
      rw [Json.printable_object_iff, Json.printable_object_iff]
      exact fun ⟨hlevel, h⟩ => ⟨hlevel, fun m hm => h m (hperm.mem_iff.mpr hm)⟩
  | @rename p name name' before after d hname =>
      intro level
      rw [Json.printable_object_iff, Json.printable_object_iff, List.forall_mem_append,
        List.forall_mem_append, List.forall_mem_cons, List.forall_mem_cons]
      exact id
  | @leaveOut p before after m hm =>
      intro level
      rw [Json.printable_object_iff, Json.printable_object_iff, List.forall_mem_append,
        List.forall_mem_append, List.forall_mem_cons]
      exact fun ⟨hlevel, hbefore, _, hafter⟩ => ⟨hlevel, hbefore, hafter⟩
  | @within p q name before after ahead behind d d' hname inner ih =>
      intro level
      simp only [Json.printable_object_iff, Json.printable_list_iff, List.forall_mem_append,
        List.forall_mem_cons]
      exact fun ⟨hlevel, hbefore, ⟨hlist, hahead, hd, hbehind⟩, hafter⟩ =>
        ⟨hlevel, hbefore, ⟨hlist, hahead, ih _ hd, hbehind⟩, hafter⟩

/-- A configuration is read from the text that is written of it, and from the text of every document
that reordering members, the other name of a threshold and the omission of usual values lead to. -/
theorem readBack_of_edits (c : Config) {d : Document}
    (h : Relation.ReflTransGen (Edit .config) c.toDocument d) :
    Json.decode? ofDocument? d.compact = some c := by
  have hinvariant : Printable 0 d ∧ ofDocument? d = some c := by
    induction h with
    | refl => exact ⟨c.printable_toDocument, c.ofDocument?_toDocument⟩
    | tail _ hedit ih => exact ⟨hedit.printable 0 ih.1, hedit.read?_eq_some c ih.2⟩
  rw [Json.decode?_compact hinvariant.1, hinvariant.2]

/-- A list is edited by edits of one of its objects. -/
theorem Edit.within_edits {p q : Part} {name : String} {d d' : Document} (h : (name, q) ∈ p.lists)
    (inner : Relation.ReflTransGen (Edit q) d d') (before after : Members)
    (ahead behind : List Document) :
    Relation.ReflTransGen (Edit p)
      (.object (before ++ (name, .list (ahead ++ d :: behind)) :: after))
      (.object (before ++ (name, .list (ahead ++ d' :: behind)) :: after)) := by
  induction inner with
  | refl => exact .refl
  | tail _ hedit ih => exact ih.tail (.within h hedit)

/-! ### All edits at once -/

/-- A configuration in which some members hold their usual value. -/
def sample : Config :=
  { start := 0
    matchers := [{ id := 1, atom := 10, conditions := [⟨3, .fits "net*"⟩] }]
    metrics :=
      [{ id := 2
         matcherId := 1
         paths := []
         unit := none
         width := some 1000
         alerts := [⟨5, 4, 100, 0⟩, ⟨6, 4, -7, 60⟩] }] }

/-- Another document of this configuration. -/
def sampleEdited : Document :=
  .object
    [("count_metrics", .list [.object
        [("id", .natural 2), ("what", .natural 1), ("dimensions", .list []),
          ("bucket_size_ns", .natural 1000),
          ("alerts", .list
            [.object
              [("id", .natural 5), ("num_buckets", .ofUInt32 4), ("threshold", .ofInt64 100)],
              AlertConfig.toDocument ⟨6, 4, -7, 60⟩])]]),
      ("matchers", .list [.object
        [("id", .natural 1), ("atom_id", .ofUInt32 10),
          ("fields", .list [.object
            [("op", .text "glob"), ("pattern", .text "net*"), ("field", .ofUInt32 3)]])]])]

theorem edits_sample : Relation.ReflTransGen (Edit .config) sample.toDocument sampleEdited := by
  have halert : Relation.ReflTransGen (Edit .alert) (AlertConfig.toDocument ⟨5, 4, 100, 0⟩)
      (.object [("id", .natural 5), ("num_buckets", .ofUInt32 4), ("threshold", .ofInt64 100)]) :=
    .head
      (@Edit.rename .alert "trigger_if_sum_gt" "threshold"
        [("id", .natural 5), ("num_buckets", .ofUInt32 4)]
        [("refractory_period_sec", .ofUInt32 0)] (.ofInt64 100) (.head _))
      (.single (@Edit.leaveOut .alert
        [("id", .natural 5), ("num_buckets", .ofUInt32 4), ("threshold", .ofInt64 100)] []
        ("refractory_period_sec", .ofUInt32 0) (.head _)))
  have hcondition : Relation.ReflTransGen (Edit .fieldCondition)
      (FieldCondition.toDocument ⟨3, .fits "net*"⟩)
      (.object [("op", .text "glob"), ("pattern", .text "net*"), ("field", .ofUInt32 3)]) :=
    .single (.reorder (@List.perm_append_comm _ [_] [_, _]))
  have hmetric := (Edit.within_edits (p := .metric) (.head _) halert
    [("id", .natural 2), ("what", .natural 1), ("dimensions", .list []), ("bucket", .null),
      ("bucket_size_ns", .natural 1000)] [] [] [AlertConfig.toDocument ⟨6, 4, -7, 60⟩]).tail
    (@Edit.leaveOut .metric
      [("id", .natural 2), ("what", .natural 1), ("dimensions", .list [])]
      [("bucket_size_ns", .natural 1000), _] ("bucket", .null) (.tail _ (.head _)))
  have hmatcher := Edit.within_edits (p := .matcher) (.head _) hcondition
    [("id", .natural 1), ("atom_id", .ofUInt32 10)] [] [] []
  have hmatchers := Edit.within_edits (p := .config) (.head _) hmatcher
    [("start_time_ns", .natural 0)]
    [("count_metrics", .list (sample.metrics.map MetricConfig.toDocument))] [] []
  have hmetrics := hmatchers.trans
    (Edit.within_edits (p := .config) (.tail _ (.head _)) hmetric [_, _] [] [] [])
  have hstart := hmetrics.tail (@Edit.leaveOut .config [] _ _ (.head _))
  exact hstart.tail (.reorder (@List.perm_append_comm _ [_] [_]))

theorem readBack_of_edits_sample :
    Relation.ReflTransGen (Edit .config) sample.toDocument sampleEdited ∧
      Json.decode? ofDocument? sampleEdited.compact = some sample :=
  ⟨edits_sample, readBack_of_edits sample edits_sample⟩

end Config

end CountAlarm

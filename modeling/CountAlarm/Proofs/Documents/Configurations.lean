import CountAlarm.Proofs.Documents.Reading
import CountAlarm.Setup.Config
/-!
# Configurations as documents

What the parts of a configuration are read from, member by member, and that each part reads back
what was written of it. Nothing in a configuration may fail to be written, so the round trip has no
exceptions: `Config.ofDocument?_toDocument`.
-/

namespace CountAlarm

open Document (record?_object)
open Members (required?_of_named optional?_of_named)

/-! ## Conditions -/

namespace Condition

def kind : Condition → String
  | .equalsInt _ => "eq_int"
  | .below _ => "lt_int"
  | .above _ => "gt_int"
  | .equalsText _ => "eq_string"
  | .fits _ => "glob"

theorem named_op_toMembers (c : Condition) :
    c.toMembers.named ["op"] = [("op", .text c.kind)] := by
  cases c <;> rfl

theorem membersReadable_toMembers (c : Condition) :
    Document.membersReadable c.toMembers = true := by
  have hinteger : ∀ i : Int64, (Document.ofInt64 i).isReadable = true := by
    intro i
    unfold Document.ofInt64
    split <;> rfl
  cases c with
  | equalsInt value | below value | above value =>
      simp [toMembers, Document.membersReadable, hinteger, Document.isReadable]
  | equalsText text | fits text => rfl

theorem ofOperand?_toMembers (c : Condition) : ofOperand? c.kind c.toMembers = some c := by
  cases c with
  | equalsInt value | below value | above value =>
      simp only [ofOperand?, kind, String.reduceEq, if_true, if_false]
      rw [required?_of_named (m := ("value", .ofInt64 value)) (by rfl), Document.int64?_ofInt64,
        Option.map_some]
  | equalsText text =>
      simp only [ofOperand?, kind, String.reduceEq, if_true, if_false]
      rw [required?_of_named (m := ("value", .text text)) (by rfl), Document.text?, Option.map_some]
  | fits glob =>
      simp only [ofOperand?, kind, String.reduceEq, if_true, if_false]
      rw [required?_of_named (m := ("pattern", .text glob)) (by rfl), Document.text?,
        Option.map_some]

/-- A condition reads back, by whatever else its kind might have been given. -/
theorem ofMembers?_toMembers (c : Condition) :
    ofMembers? kindOrPosition? c.toMembers = some c := by
  unfold ofMembers?
  rw [required?_of_named c.named_op_toMembers, kindOrPosition?, Option.bind_eq_bind,
    Option.bind_some, if_pos c.membersReadable_toMembers, c.ofOperand?_toMembers]

end Condition

namespace FieldCondition

theorem ofDocument?_object {members : Members} {f : FieldCondition} :
    ofDocument? (.object members) = some f ↔
      members.required? ["field"] Document.uint32? = some f.path ∧
      Condition.ofMembers? Condition.kindOrPosition? (members.filter fun m => m.1 != "field") =
        some f.condition := by
  obtain ⟨path, condition⟩ := f
  unfold ofDocument? Document.members?
  simp only [Option.bind_eq_bind, Option.bind_some, Option.bind_eq_some_iff, Option.some.injEq,
    FieldCondition.mk.injEq]
  constructor
  · rintro ⟨_, hpath, _, hcondition, rfl, rfl⟩
    exact ⟨hpath, hcondition⟩
  · rintro ⟨hpath, hcondition⟩
    exact ⟨_, hpath, _, hcondition, rfl, rfl⟩

theorem ofDocument?_toDocument (f : FieldCondition) : ofDocument? f.toDocument = some f := by
  have hfield : Members.named (("field", Document.ofUInt32 f.path) :: f.condition.toMembers)
      ["field"] = [("field", .ofUInt32 f.path)] := by
    cases f.condition <;> rfl
  have hothers : (("field", Document.ofUInt32 f.path) :: f.condition.toMembers).filter
      (fun m => m.1 != "field") = f.condition.toMembers := by
    cases f.condition <;> rfl
  rw [toDocument, ofDocument?_object, required?_of_named hfield, hothers]
  exact ⟨Document.uint32?_ofUInt32 f.path, f.condition.ofMembers?_toMembers⟩

end FieldCondition

/-! ## Matchers -/

namespace AtomMatcher

theorem ofDocument?_object {members : Members} {m : AtomMatcher} :
    ofDocument? (.object members) = some m ↔
      members.required? ["id"] Document.uint64? = some m.id ∧
      members.required? ["atom_id"] Document.uint32? = some m.atom ∧
      members.optional? ["fields"] [] (Document.listOf? FieldCondition.ofDocument?) =
        some m.conditions := by
  obtain ⟨id, atom, conditions⟩ := m
  unfold ofDocument?
  rw [record?_object]
  simp only [Option.bind_eq_bind, Option.bind_some, Option.bind_eq_some_iff, Option.some.injEq,
    AtomMatcher.mk.injEq]
  constructor
  · rintro ⟨_, hid, _, hatom, _, hconditions, rfl, rfl, rfl⟩
    exact ⟨hid, hatom, hconditions⟩
  · rintro ⟨hid, hatom, hconditions⟩
    exact ⟨_, hid, _, hatom, _, hconditions, rfl, rfl, rfl⟩

theorem ofDocument?_toDocument (m : AtomMatcher) : ofDocument? m.toDocument = some m := by
  rw [toDocument, ofDocument?_object,
    required?_of_named (m := ("id", .natural m.id)) (by rfl),
    required?_of_named (m := ("atom_id", .ofUInt32 m.atom)) (by rfl),
    optional?_of_named
      (m := ("fields", .list (m.conditions.map FieldCondition.toDocument))) (by rfl)]
  exact ⟨Document.uint64?_natural m.id, Document.uint32?_ofUInt32 m.atom,
    Document.listOf?_map_eq_some FieldCondition.ofDocument?_toDocument m.conditions⟩

end AtomMatcher

/-! ## Metrics -/

namespace AlertConfig

theorem ofDocument?_object {members : Members} {a : AlertConfig} :
    ofDocument? (.object members) = some a ↔
      members.required? ["id"] Document.uint64? = some a.id ∧
      members.required? ["num_buckets"] Document.uint32? = some a.buckets ∧
      members.required? ["trigger_if_sum_gt", "threshold"] Document.int64? = some a.threshold ∧
      members.optional? ["refractory_period_sec"] 0 Document.uint32? =
        some a.refractorySeconds := by
  obtain ⟨id, buckets, threshold, refractorySeconds⟩ := a
  unfold ofDocument?
  rw [record?_object]
  simp only [Option.bind_eq_bind, Option.bind_some, Option.bind_eq_some_iff, Option.some.injEq,
    AlertConfig.mk.injEq]
  constructor
  · rintro ⟨_, hid, _, hbuckets, _, hthreshold, _, hseconds, rfl, rfl, rfl, rfl⟩
    exact ⟨hid, hbuckets, hthreshold, hseconds⟩
  · rintro ⟨hid, hbuckets, hthreshold, hseconds⟩
    exact ⟨_, hid, _, hbuckets, _, hthreshold, _, hseconds, rfl, rfl, rfl, rfl⟩

theorem ofDocument?_toDocument (a : AlertConfig) : ofDocument? a.toDocument = some a := by
  rw [toDocument, ofDocument?_object,
    required?_of_named (m := ("id", .natural a.id)) (by rfl),
    required?_of_named (m := ("num_buckets", .ofUInt32 a.buckets)) (by rfl),
    required?_of_named (m := ("trigger_if_sum_gt", .ofInt64 a.threshold)) (by rfl),
    optional?_of_named (m := ("refractory_period_sec", .ofUInt32 a.refractorySeconds)) (by rfl)]
  exact ⟨Document.uint64?_natural a.id, Document.uint32?_ofUInt32 a.buckets,
    Document.int64?_ofInt64 a.threshold, Document.uint32?_ofUInt32 a.refractorySeconds⟩

end AlertConfig

theorem TimeUnit.ofDocument?_toDocument (u : TimeUnit) : ofDocument? u.toDocument = some u := by
  cases u <;> rfl

namespace MetricConfig

theorem ofDocument?_object {members : Members} {m : MetricConfig} :
    ofDocument? (.object members) = some m ↔
      members.required? ["id"] Document.uint64? = some m.id ∧
      members.required? ["what"] Document.uint64? = some m.matcherId ∧
      members.optional? ["dimensions"] [] (Document.listOf? Document.uint32?) = some m.paths ∧
      members.optional? ["bucket"] none (Document.orBlank? TimeUnit.ofDocument?) = some m.unit ∧
      members.optional? ["bucket_size_ns"] none (Document.orBlank? Document.uint64?) =
        some m.width ∧
      members.optional? ["alerts"] [] (Document.listOf? AlertConfig.ofDocument?) =
        some m.alerts := by
  obtain ⟨id, matcherId, paths, unit, width, alerts⟩ := m
  unfold ofDocument?
  rw [record?_object]
  simp only [Option.bind_eq_bind, Option.bind_some, Option.bind_eq_some_iff, Option.some.injEq,
    MetricConfig.mk.injEq]
  constructor
  · rintro ⟨_, hid, _, hmatcher, _, hpaths, _, hunit, _, hwidth, _, halerts, rfl, rfl, rfl, rfl,
      rfl, rfl⟩
    exact ⟨hid, hmatcher, hpaths, hunit, hwidth, halerts⟩
  · rintro ⟨hid, hmatcher, hpaths, hunit, hwidth, halerts⟩
    exact ⟨_, hid, _, hmatcher, _, hpaths, _, hunit, _, hwidth, _, halerts, rfl, rfl, rfl, rfl,
      rfl, rfl⟩

theorem ofDocument?_toDocument (m : MetricConfig) : ofDocument? m.toDocument = some m := by
  have hunit : Document.orBlank? TimeUnit.ofDocument? (.ofOption TimeUnit.toDocument m.unit) =
      some m.unit := by
    cases m.unit with
    | none => rfl
    | some u => exact congrArg (Option.map some) u.ofDocument?_toDocument
  have hwidth : Document.orBlank? Document.uint64? (.ofOption Document.natural m.width) =
      some m.width := by
    cases m.width with
    | none => rfl
    | some w =>
        rw [Document.ofOption, Document.orBlank?, Document.uint64?_natural, Option.map_some]
        exact fun h => Document.noConfusion h
  rw [toDocument, ofDocument?_object,
    required?_of_named (m := ("id", .natural m.id)) (by rfl),
    required?_of_named (m := ("what", .natural m.matcherId)) (by rfl),
    optional?_of_named (m := ("dimensions", .list (m.paths.map Document.ofUInt32))) (by rfl),
    optional?_of_named (m := ("bucket", .ofOption TimeUnit.toDocument m.unit)) (by rfl),
    optional?_of_named (m := ("bucket_size_ns", .ofOption Document.natural m.width)) (by rfl),
    optional?_of_named (m := ("alerts", .list (m.alerts.map AlertConfig.toDocument))) (by rfl)]
  exact ⟨Document.uint64?_natural m.id, Document.uint64?_natural m.matcherId,
    Document.listOf?_map_eq_some Document.uint32?_ofUInt32 m.paths, hunit, hwidth,
    Document.listOf?_map_eq_some AlertConfig.ofDocument?_toDocument m.alerts⟩

end MetricConfig

/-! ## Configurations -/

namespace Config

theorem ofDocument?_object {members : Members} {c : Config} :
    ofDocument? (.object members) = some c ↔
      members.optional? ["start_time_ns"] 0 Document.uint64? = some c.start ∧
      members.optional? ["matchers"] [] (Document.listOf? AtomMatcher.ofDocument?) =
        some c.matchers ∧
      members.optional? ["count_metrics"] [] (Document.listOf? MetricConfig.ofDocument?) =
        some c.metrics := by
  obtain ⟨start, matchers, metrics⟩ := c
  unfold ofDocument?
  rw [record?_object]
  simp only [Option.bind_eq_bind, Option.bind_some, Option.bind_eq_some_iff, Option.some.injEq,
    Config.mk.injEq]
  constructor
  · rintro ⟨_, hstart, _, hmatchers, _, hmetrics, rfl, rfl, rfl⟩
    exact ⟨hstart, hmatchers, hmetrics⟩
  · rintro ⟨hstart, hmatchers, hmetrics⟩
    exact ⟨_, hstart, _, hmatchers, _, hmetrics, rfl, rfl, rfl⟩

theorem ofDocument?_toDocument (c : Config) : ofDocument? c.toDocument = some c := by
  rw [toDocument, ofDocument?_object,
    optional?_of_named (m := ("start_time_ns", .natural c.start)) (by rfl),
    optional?_of_named (m := ("matchers", .list (c.matchers.map AtomMatcher.toDocument))) (by rfl),
    optional?_of_named
      (m := ("count_metrics", .list (c.metrics.map MetricConfig.toDocument))) (by rfl)]
  exact ⟨Document.uint64?_natural c.start,
    Document.listOf?_map_eq_some AtomMatcher.ofDocument?_toDocument c.matchers,
    Document.listOf?_map_eq_some MetricConfig.ofDocument?_toDocument c.metrics⟩

end Config

end CountAlarm

import CountAlarm.Proofs.Documents.Reading
/-!
# Lookups of members

Both lookups of members are one: `ask` finds the members of some names and gives up where there are
several of them. Its answer does not depend on the order of the members, and the lemmas of this file
tell when it survives that one member is put in, left out or replaced.
-/

namespace CountAlarm.Members

variable {α : Type} {names : List String} {absent : Option α} {read : Document → Option α}
  {members members' before after : Members} {m m' : String × Document}

/-- The answer that one of the named members gives, where `absent` answers for a missing one. -/
def ask (members : Members) (names : List String) (absent : Option α)
    (read : Document → Option α) : Option α :=
  match members.named names with
  | [] => absent
  | [m] => read m.2
  | _ => none

theorem required?_eq_ask (members : Members) (names : List String)
    (read : Document → Option α) : members.required? names read = members.ask names none read := by
  unfold required? ask
  rcases members.named names with _ | ⟨m, _ | _⟩ <;> rfl

theorem optional?_eq_ask (members : Members) (names : List String) (a : α)
    (read : Document → Option α) :
    members.optional? names a read = members.ask names (some a) read := by
  unfold optional? ask
  rcases members.named names with _ | ⟨m, _ | _⟩ <;> rfl

/-! ## One member among others -/

theorem named_middle (h : m.1 ∈ names) :
    Members.named (before ++ m :: after) names = before.named names ++ m :: after.named names := by
  simp [Members.named, h]

theorem named_middle_of_not_mem (h : m.1 ∉ names) :
    Members.named (before ++ m :: after) names = Members.named (before ++ after) names := by
  simp [Members.named, h]

/-- A question is only about the members of its names. -/
theorem ask_middle_of_not_mem (h : m.1 ∉ names) :
    Members.ask (before ++ m :: after) names absent read =
      Members.ask (before ++ after) names absent read := by
  rw [ask, named_middle_of_not_mem h, ask]

/-- A member of the right name that gets an answer is alone among the others, and gives it. -/
theorem ask_middle_eq_some {a : α} (h : m.1 ∈ names) :
    Members.ask (before ++ m :: after) names absent read = some a ↔
      Members.named (before ++ after) names = [] ∧ read m.2 = some a := by
  have hothers :
      Members.named (before ++ after) names = before.named names ++ after.named names := by
    simp [Members.named]
  rw [ask, named_middle h, hothers, List.append_eq_nil_iff]
  rcases before.named names with _ | ⟨b, _ | ⟨b', bs⟩⟩ <;>
    rcases after.named names with _ | ⟨c, cs⟩ <;> simp

/-! ## Edits that keep the answer -/

theorem ask_of_perm (h : members.Perm members') :
    members'.ask names absent read = members.ask names absent read := by
  have hnamed : (members'.named names).Perm (members.named names) := (h.filter _).symm
  unfold ask
  rcases hlist : members.named names with _ | ⟨m, _ | ⟨m', rest⟩⟩
  · rw [hlist, List.perm_nil] at hnamed
    rw [hnamed]
  · rw [hlist, List.perm_singleton] at hnamed
    rw [hnamed]
  · have hlength := hnamed.length_eq
    rw [hlist] at hlength
    rcases hlist' : members'.named names with _ | ⟨n, _ | ⟨n', rest'⟩⟩
    · simp [hlist'] at hlength
    · simp [hlist'] at hlength
    · rfl

/-- A member may be put in the place of another one that belongs to the same names and gives its
answers. -/
theorem ask_replace {a : α} (hnames : m.1 ∈ names ↔ m'.1 ∈ names)
    (hread : m.1 ∈ names → ∀ a, read m.2 = some a → read m'.2 = some a)
    (h : Members.ask (before ++ m :: after) names absent read = some a) :
    Members.ask (before ++ m' :: after) names absent read = some a := by
  by_cases hm : m.1 ∈ names
  · rw [ask_middle_eq_some hm] at h
    rw [ask_middle_eq_some (hnames.mp hm)]
    exact ⟨h.1, hread hm a h.2⟩
  · rwa [ask_middle_of_not_mem fun hm' => hm (hnames.mpr hm'), ← ask_middle_of_not_mem hm]

/-- A member may be left out that says what a missing one says. -/
theorem ask_leaveOut {a : α} (hread : m.1 ∈ names → read m.2 = absent)
    (h : Members.ask (before ++ m :: after) names absent read = some a) :
    Members.ask (before ++ after) names absent read = some a := by
  by_cases hm : m.1 ∈ names
  · obtain ⟨halone, hanswer⟩ := (ask_middle_eq_some hm).mp h
    rw [ask, halone, ← hread hm, hanswer]
  · rwa [← ask_middle_of_not_mem hm]

end CountAlarm.Members

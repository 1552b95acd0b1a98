import SchemaForm.Proofs.Pipeline.Leftover

/-!
# What dependents require

A schema asks for the names that it requires. Where the data are an object the pass over the
dependents adds the names that the triggered schemas require and those that its own lists give for
a trigger that is present. Main statement: these are all, so a list that a triggered schema brings
is not read; and where the schema has lists of its own it goes with them.
-/

namespace SchemaForm

open Json Schema

namespace Schema

theorem requires_obj_iff {fields : Fields} {name : String} :
    Requires (.obj fields) name ↔ .str name ∈ requiredItems fields := Iff.rfl

theorem not_requires_of_not_obj {schema : Json} (h : ∀ fields, schema ≠ .obj fields)
    (name : String) : ¬ Requires schema name := by
  cases schema with
  | obj fields => exact absurd rfl (h fields)
  | _ => rintro ⟨⟩

/-- A schema with the keywords of another one under `required` requires what that one does. -/
theorem requires_congr {a b : Fields}
    (h : Entries.get? "required" a = Entries.get? "required" b) {name : String} :
    Requires (.obj a) name ↔ Requires (.obj b) name := by
  rw [Requires, Requires, getItems?, getItems?, Json.get?, Json.get?, h]

theorem requires_absorb_iff {acc : Fields} {schema : Json} (h : schema.KeysUnique)
    {name : String} :
    Requires (.obj (absorb acc schema)) name ↔ Requires (.obj acc) name ∨ Requires schema name := by
  cases schema with
  | obj fields =>
    exact mem_requiredItems_mergeKeywords_iff (keysUnique_obj_iff.1 h).nodup
  | _ => exact (or_iff_left (not_requires_of_not_obj (by simp) name)).symm

end Schema

namespace Dependent

variable {fields members acc : Fields} {data : Option Json} {name : String}

/-- The lists of the schema give the name for a trigger that is a member of the data. -/
def Lists (fields : Fields) (data : Option Json) (name : String) : Prop :=
  ∃ members lists trigger names, data.bind fields? = some members ∧
    Entries.get? requiredKeyword fields = some (.obj lists) ∧ (trigger, .arr names) ∈ lists ∧
    Entries.contains trigger members = true ∧ .str name ∈ names

theorem requires_absorbTriggered_iff {schemas : Fields}
    (h : ∀ entry ∈ schemas, entry.2.KeysUnique) :
    Requires (.obj (absorbTriggered members acc schemas)) name ↔
      Requires (.obj acc) name ∨
        ∃ entry ∈ schemas, Entries.contains entry.1 members = true ∧ Requires entry.2 name := by
  induction schemas generalizing acc with
  | nil => simp [absorbTriggered]
  | cons entry rest ih =>
    obtain ⟨trigger, schema⟩ := entry
    have hrest := fun e he => h e (List.mem_cons_of_mem _ he)
    rw [absorbTriggered, ih hrest, List.exists_mem_cons_iff]
    by_cases htrigger : Entries.contains trigger members = true
    · rw [if_pos htrigger, requires_absorb_iff (h _ List.mem_cons_self), or_assoc]
      simp [htrigger]
    · simp [htrigger]

theorem requires_applySchemas_iff (h : MembersUnique fields)
    (hmembers : data.bind fields? = some members) :
    Requires (.obj (applySchemas members fields)) name ↔
      Requires (.obj fields) name ∨
        ∃ dependent, Triggers fields data dependent ∧ Requires dependent name := by
  unfold applySchemas
  split
  · next schemas hschemas =>
    have hunique := (keysUnique_obj_iff.1 (h.get? hschemas)).values
    have herased : Requires (.obj (Entries.eraseAll [schemasKeyword] fields)) name ↔
        Requires (.obj fields) name :=
      requires_congr (by rw [Entries.get?_eraseAll, if_neg (by decide)])
    rw [requires_absorbTriggered_iff hunique, herased]
    refine or_congr_right ⟨?_, ?_⟩
    · rintro ⟨entry, hentry, htrigger, hrequires⟩
      exact ⟨entry.2, ⟨members, schemas, entry.1, hmembers, hschemas, hentry, htrigger⟩, hrequires⟩
    · rintro ⟨dependent, ⟨members', schemas', trigger, hm, hs, hmem, htrigger⟩, hrequires⟩
      cases hmembers.symm.trans hm
      cases hschemas.symm.trans hs
      exact ⟨(trigger, dependent), hmem, htrigger, hrequires⟩
  · next hnone =>
    refine (or_iff_left ?_).symm
    rintro ⟨dependent, ⟨members', schemas, trigger, -, hs, -⟩, -⟩
    exact hnone schemas hs

theorem mem_triggeredNames_iff {lists : Fields} {v : Json} :
    v ∈ triggeredNames members lists ↔ ∃ trigger names, (trigger, Json.arr names) ∈ lists ∧
      Entries.contains trigger members = true ∧ v ∈ names := by
  induction lists with
  | nil => simp [triggeredNames]
  | cons entry rest ih =>
    obtain ⟨trigger, value⟩ := entry
    have hhead : v ∈ (if Entries.contains trigger members then value.items?.getD [] else []) ↔
        ∃ names, value = .arr names ∧ Entries.contains trigger members = true ∧ v ∈ names := by
      split
      · next htrigger => cases value <;> simp [items?, htrigger]
      · next htrigger => simp [htrigger]
    rw [triggeredNames, List.mem_append, hhead, ih]
    constructor
    · rintro (⟨names, rfl, htrigger, hv⟩ | ⟨other, names, hmem, htrigger, hv⟩)
      · exact ⟨trigger, names, List.mem_cons_self, htrigger, hv⟩
      · exact ⟨other, names, List.mem_cons_of_mem _ hmem, htrigger, hv⟩
    · rintro ⟨other, names, hmem, htrigger, hv⟩
      rcases List.mem_cons.1 hmem with heq | hmem
      · cases heq
        exact .inl ⟨names, rfl, htrigger, hv⟩
      · exact .inr ⟨other, names, hmem, htrigger, hv⟩

theorem requires_applyRequired_iff (hmembers : data.bind fields? = some members) :
    Requires (.obj (applyRequired members fields acc)) name ↔
      Requires (.obj acc) name ∨ Lists fields data name := by
  have herased : Requires (.obj (Entries.eraseAll [requiredKeyword] acc)) name ↔
      Requires (.obj acc) name :=
    requires_congr (by rw [Entries.get?_eraseAll, if_neg (by decide)])
  unfold applyRequired
  split
  · next lists hlists =>
    have hnames : Json.str name ∈ triggeredNames members lists ↔ Lists fields data name := by
      rw [mem_triggeredNames_iff]
      constructor
      · rintro ⟨trigger, names, hmem, htrigger, hname⟩
        exact ⟨members, lists, trigger, names, hmembers, hlists, hmem, htrigger, hname⟩
      · rintro ⟨members', lists', trigger, names, hm, hl, hmem, htrigger, hname⟩
        cases hmembers.symm.trans hm
        cases hlists.symm.trans hl
        exact ⟨trigger, names, hmem, htrigger, hname⟩
    rw [← hnames]
    dsimp only
    split
    · next hnil => simp [hnil, herased]
    · next hne =>
      rw [requires_obj_iff, mem_requiredItems_mergeKeywords_iff (by simp), ← requires_obj_iff,
        herased]
      rfl
  · next hnone =>
    refine (or_iff_left ?_).symm
    rintro ⟨members', lists, trigger, names, -, hl, -⟩
    exact hnone lists hl

/-- A resolved schema requires exactly what the schema requires, what a triggered schema requires, and
what the lists of the schema give for a trigger that is present. Lists that a triggered schema brings
are not read: where the schema has lists of its own, none are left. -/
theorem requires_resolve_iff {schema : Document} {fields : Fields}
    (hfields : (schema : Json) = .obj fields) (data : Option Json) :
    (∀ name, Requires (resolve schema data) name ↔
      Requires schema name ∨
        (∃ dependent, Triggers fields data dependent ∧ Requires dependent name) ∨
        Lists fields data name) ∧
    ∀ members own, data = some (.obj members) →
      Entries.get? requiredKeyword fields = some (.obj own) →
      (resolve schema data).get? requiredKeyword = none := by
  rw [hfields]
  have hread (ready : Fields) (name : String) :
      Requires (.obj (resolveBelow ready data)) name ↔ Requires (.obj ready) name :=
    requires_congr (get?_resolveBelow_of_ne data (by decide) ready)
  refine ⟨fun name => ?_, ?_⟩
  · rw [resolve_obj, hread, ready]
    cases hmembers : data.bind fields? with
    | none =>
      refine (or_iff_left ?_).symm
      rintro (⟨dependent, ⟨members, _, _, hm, -⟩, -⟩ | ⟨members, _, _, _, hm, -⟩)
      · cases hmembers.symm.trans hm
      · cases hmembers.symm.trans hm
    | some members =>
      rw [Option.elim_some, activate, requires_applyRequired_iff hmembers,
        requires_applySchemas_iff (Document.membersUnique hfields) hmembers, or_assoc]
  · rintro members own rfl hown
    rw [resolve_obj]
    show Entries.get? requiredKeyword (resolveBelow (activate members fields) _) = none
    rw [get?_resolveBelow_of_ne _ (by decide)]
    exact get?_required_applyRequired hown _

/-- A form in which naming an employer asks for its address by a list of its own, and a student has
a school, which asks for its town. -/
def studentForm : Fields :=
  [("required", .arr [.str "name"]),
    ("dependentRequired", .obj [("employer", .arr [.str "address"])]),
    ("dependentSchemas", .obj [("student", .obj [("required", .arr [.str "school"]),
      ("dependentRequired", .obj [("student", .arr [.str "town"])])])])]

/-- The data of a student with a job. -/
def workingStudent : Json := .obj [("student", .bool true), ("employer", .str "A")]

theorem keysUnique_studentForm : (Json.obj studentForm).KeysUnique := by
  simp [studentForm]

theorem requires_resolve_studentForm :
    (Json.obj studentForm).KeysUnique ∧
      (∀ name, Requires (resolve (.obj studentForm) (some workingStudent)) name ↔
        Requires (.obj studentForm) name ∨
          (∃ dependent, Triggers studentForm (some workingStudent) dependent ∧
            Requires dependent name) ∨
          Lists studentForm (some workingStudent) name) ∧
      Entries.get? requiredKeyword studentForm =
        some (.obj [("employer", .arr [.str "address"])]) ∧
      (resolve (.obj studentForm) (some workingStudent)).get? requiredKeyword = none := by
  obtain ⟨hrequires, hgone⟩ := @requires_resolve_iff ⟨.obj studentForm, keysUnique_studentForm⟩
    studentForm rfl (some workingStudent)
  exact ⟨keysUnique_studentForm, hrequires, rfl, hgone _ _ rfl rfl⟩

/-- A form whose member `a` brings a list of its own, beside a list for another member. -/
def nestedForm : Fields :=
  [("dependentRequired", .obj [("x", .arr [.str "y"])]),
    ("dependentSchemas", .obj [("a", .obj [("dependentRequired", .obj [("a", .arr [.str "b"])])])])]

theorem resolve_nestedForm :
    resolve (.obj nestedForm) (some (.obj [("a", .null)])) = .obj [] := by
  have hready : ready (some (.obj [("a", .null)])) nestedForm = [] := rfl
  rw [resolve_obj, hready, resolveBelow_of_values (fun _ h => by cases h)]

/-- The list that a triggered schema brings gives a name for a member that is there, and the resolved
schema does not require the name. -/
theorem list_of_dependent_dropped :
    ∃ brought, Triggers nestedForm (some (.obj [("a", .null)])) (.obj brought) ∧
      Lists brought (some (.obj [("a", .null)])) "b" ∧
      ¬ Requires (resolve (.obj nestedForm) (some (.obj [("a", .null)]))) "b" := by
  refine ⟨[("dependentRequired", .obj [("a", .arr [.str "b"])])], ?_, ?_, ?_⟩
  · exact ⟨_, _, "a", rfl, rfl, List.mem_cons_self, rfl⟩
  · exact ⟨_, _, "a", _, rfl, rfl, List.mem_cons_self, rfl, List.mem_cons_self⟩
  · rw [resolve_nestedForm]
    rintro ⟨⟩

end Dependent
end SchemaForm

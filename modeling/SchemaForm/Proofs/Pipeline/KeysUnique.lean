import SchemaForm.Proofs.Pipeline.Conditional
import SchemaForm.Proofs.Schema.KeysUnique

/-!
# Stages keep distinct keys

Resolving conditionals, dependents and selections makes no object with a key twice out of a schema
without one. The three passes walk a schema in the same way, and none renames a keyword or a
property.
-/

namespace SchemaForm

open Json Schema

/-! ### Conditionals -/

namespace Conditional

theorem keys_resolveBelow [Patterns] (fields : Fields) (data : Option Json) (path : String) :
    Entries.keys (resolveBelow fields data path).1 = Entries.keys fields := by
  induction fields with
  | nil => rw [resolveBelow_nil]
  | cons entry rest ih =>
    obtain ⟨keyword, v⟩ := entry
    cases v with
    | obj inner => rw [resolveBelow_cons_obj, Entries.keys_cons, Entries.keys_cons, ih]
    | _ =>
      rw [resolveBelow_cons_of_not_obj (by simp), Entries.keys_cons, Entries.keys_cons, ih]

theorem keys_resolveNamed [Patterns] (properties : Fields) (data : Option Json) (path : String) :
    Entries.keys (resolveNamed properties data path).1 = Entries.keys properties := by
  induction properties with
  | nil => rw [resolveNamed_nil]
  | cons entry rest ih => rw [resolveNamed_cons, Entries.keys_cons, Entries.keys_cons, ih]

theorem keysUnique_resolve [Patterns] :
    (∀ schema data path, schema.KeysUnique → (resolve schema data path).1.KeysUnique) ∧
    (∀ fields data path, MembersUnique fields → MembersUnique (resolveBelow fields data path).1) ∧
    (∀ properties data path, MembersUnique properties →
      MembersUnique (resolveNamed properties data path).1) := by
  apply resolve.mutual_induct
    (fun schema data path => schema.KeysUnique → (resolve schema data path).1.KeysUnique)
    (fun fields data path => MembersUnique fields → MembersUnique (resolveBelow fields data path).1)
    (fun properties data path => MembersUnique properties →
      MembersUnique (resolveNamed properties data path).1)
  case case1 =>
    intro data path fields hif below more _ ih h
    rw [resolve_of_if_none hif]
    exact keysUnique_obj_iff.2 (ih (keysUnique_obj_iff.1 h))
  case case2 =>
    intro data path fields condition hif rest hbranch below more _ ih h
    rw [resolve_of_branch_none hif hbranch]
    exact keysUnique_obj_iff.2 (ih ((keysUnique_obj_iff.1 h).eraseAll _))
  case case3 =>
    intro data path fields condition hif rest branch hbranch resolved more _ ih h
    rw [resolve_of_branch hif hbranch]
    have hfields := keysUnique_obj_iff.1 h
    exact ih (keysUnique_obj_iff.2
      (membersUnique_absorb (hfields.eraseAll _) (hfields.get? hbranch)))
  case case4 =>
    intro schema data path hschema h
    rw [resolve_of_not_obj hschema]
    exact h
  case case5 =>
    intro data path h
    rw [resolveBelow_nil]
    exact h
  case case6 =>
    intro data path keyword inner rest value more _ below others _ ihNamed ihItems ihRest h
    obtain ⟨hkey, hv, hrest⟩ := membersUnique_cons_iff.1 h
    rw [resolveBelow_cons_obj, membersUnique_cons_iff, keys_resolveBelow]
    refine ⟨hkey, ?_, ihRest hrest⟩
    unfold resolveValue
    split
    · exact keysUnique_obj_iff.2 (ihNamed (keysUnique_obj_iff.1 hv))
    · split
      · exact ihItems hv
      · exact hv
  case case7 =>
    intro data path keyword v rest hv below others _ ih h
    obtain ⟨hkey, hvalue, hrest⟩ := membersUnique_cons_iff.1 h
    rw [resolveBelow_cons_of_not_obj (fun inner heq => hv inner heq), membersUnique_cons_iff,
      keys_resolveBelow]
    exact ⟨hkey, hvalue, ih hrest⟩
  case case8 =>
    intro data path h
    rw [resolveNamed_nil]
    exact h
  case case9 =>
    intro data path name schema rest resolved more _ below others _ ih ihRest h
    obtain ⟨hkey, hv, hrest⟩ := membersUnique_cons_iff.1 h
    rw [resolveNamed_cons, membersUnique_cons_iff, keys_resolveNamed]
    exact ⟨hkey, ih hv, ihRest hrest⟩

end Conditional

/-! ### Dependents -/

namespace Dependent

theorem resolve_of_members {data : Option Json} {members : Fields}
    (h : data.bind fields? = some members) (fields : Fields) :
    resolve (.obj fields) data = .obj (resolveBelow (activate members fields) data) := by
  rw [resolve]
  rw [h]

theorem resolve_of_no_members {data : Option Json} (h : data.bind fields? = none)
    (fields : Fields) : resolve (.obj fields) data = .obj (resolveBelow fields data) := by
  rw [resolve]
  rw [h]

theorem resolve_of_not_obj {schema : Json} (h : ∀ fields, schema ≠ .obj fields)
    (data : Option Json) : resolve schema data = schema := by
  cases schema with
  | obj fields => exact absurd rfl (h fields)
  | _ => rw [resolve]; simp

theorem resolveBelow_nil (data : Option Json) : resolveBelow [] data = [] := by
  rw [resolveBelow]

theorem resolveBelow_cons_obj (keyword : String) (inner rest : Fields) (data : Option Json) :
    resolveBelow ((keyword, .obj inner) :: rest) data =
      (keyword, .obj (if keyword = "properties" then resolveNamed inner data else inner)) ::
        resolveBelow rest data := by
  rw [resolveBelow]

theorem resolveBelow_cons_of_not_obj {v : Json} (h : ∀ inner, v ≠ .obj inner) (keyword : String)
    (rest : Fields) (data : Option Json) :
    resolveBelow ((keyword, v) :: rest) data = (keyword, v) :: resolveBelow rest data := by
  cases v with
  | obj inner => exact absurd rfl (h inner)
  | _ => rw [resolveBelow]; simp

/-- Values that are no objects are kept. -/
theorem resolveBelow_of_values {fields : Fields}
    (h : ∀ entry ∈ fields, ∀ inner, entry.2 ≠ .obj inner) (data : Option Json) :
    resolveBelow fields data = fields := by
  induction fields with
  | nil => rw [resolveBelow_nil]
  | cons entry rest ih =>
    have hrest := ih fun other hother => h other (List.mem_cons_of_mem _ hother)
    rw [resolveBelow_cons_of_not_obj (h entry List.mem_cons_self), hrest]

theorem resolveNamed_nil (data : Option Json) : resolveNamed [] data = [] := by
  rw [resolveNamed]

theorem resolveNamed_cons (name : String) (schema : Json) (rest : Fields) (data : Option Json) :
    resolveNamed ((name, schema) :: rest) data =
      (name, resolve schema (data.bind (get? name))) :: resolveNamed rest data := by
  rw [resolveNamed]

theorem keys_resolveBelow (fields : Fields) (data : Option Json) :
    Entries.keys (resolveBelow fields data) = Entries.keys fields := by
  induction fields with
  | nil => rw [resolveBelow_nil]
  | cons entry rest ih =>
    obtain ⟨keyword, v⟩ := entry
    cases v with
    | obj inner => rw [resolveBelow_cons_obj, Entries.keys_cons, Entries.keys_cons, ih]
    | _ =>
      rw [resolveBelow_cons_of_not_obj (by simp), Entries.keys_cons, Entries.keys_cons, ih]

theorem keys_resolveNamed (properties : Fields) (data : Option Json) :
    Entries.keys (resolveNamed properties data) = Entries.keys properties := by
  induction properties with
  | nil => rw [resolveNamed_nil]
  | cons entry rest ih => rw [resolveNamed_cons, Entries.keys_cons, Entries.keys_cons, ih]

theorem membersUnique_absorbTriggered (members : Fields) {acc schemas : Fields}
    (hacc : MembersUnique acc) (hschemas : ∀ entry ∈ schemas, entry.2.KeysUnique) :
    MembersUnique (absorbTriggered members acc schemas) := by
  induction schemas generalizing acc with
  | nil => exact hacc
  | cons entry rest ih =>
    rw [absorbTriggered]
    refine ih ?_ fun entry hentry => hschemas entry (List.mem_cons_of_mem _ hentry)
    split
    · exact membersUnique_absorb hacc (hschemas entry List.mem_cons_self)
    · exact hacc

theorem membersUnique_applySchemas (members : Fields) {fields : Fields}
    (h : MembersUnique fields) : MembersUnique (applySchemas members fields) := by
  unfold applySchemas
  split
  · next schemas hschemas =>
    refine membersUnique_absorbTriggered members (h.eraseAll _) ?_
    exact (keysUnique_obj_iff.1 (h.get? hschemas)).values
  · exact h

theorem keysUnique_triggeredNames (members : Fields) {lists : Fields}
    (h : ∀ entry ∈ lists, entry.2.KeysUnique) :
    ∀ name ∈ triggeredNames members lists, name.KeysUnique := by
  induction lists with
  | nil =>
    intro name hname
    cases hname
  | cons entry rest ih =>
    intro name hname
    obtain ⟨trigger, names⟩ := entry
    rw [triggeredNames] at hname
    rcases List.mem_append.1 hname with hname | hname
    · split at hname
      · refine keysUnique_elements (v := some names) ?_ name hname
        intro x hx
        cases hx
        exact h (trigger, names) List.mem_cons_self
      · cases hname
    · exact ih (fun entry hentry => h entry (List.mem_cons_of_mem _ hentry)) name hname

theorem membersUnique_applyRequired (members : Fields) {fields acc : Fields}
    (hfields : MembersUnique fields) (hacc : MembersUnique acc) :
    MembersUnique (applyRequired members fields acc) := by
  unfold applyRequired
  split
  · next lists hlists =>
    have hnames := keysUnique_triggeredNames members
      (keysUnique_obj_iff.1 (hfields.get? hlists)).values
    dsimp only
    split
    · exact hacc.eraseAll _
    · refine keysUnique_merge.2.1 _ _ (hacc.eraseAll _) fun entry hentry => ?_
      rw [List.mem_singleton.1 hentry]
      exact .arr hnames
  · exact hacc

theorem membersUnique_activate (members : Fields) {fields : Fields} (h : MembersUnique fields) :
    MembersUnique (activate members fields) :=
  membersUnique_applyRequired members h (membersUnique_applySchemas members h)

theorem keysUnique_resolve :
    (∀ schema data, schema.KeysUnique → (resolve schema data).KeysUnique) ∧
    (∀ fields data, MembersUnique fields → MembersUnique (resolveBelow fields data)) ∧
    (∀ properties data, MembersUnique properties →
      MembersUnique (resolveNamed properties data)) := by
  apply resolve.mutual_induct
    (fun schema data => schema.KeysUnique → (resolve schema data).KeysUnique)
    (fun fields data => MembersUnique fields → MembersUnique (resolveBelow fields data))
    (fun properties data => MembersUnique properties → MembersUnique (resolveNamed properties data))
  case case1 =>
    intro data fields members hmembers ih h
    rw [resolve_of_members hmembers]
    exact keysUnique_obj_iff.2 (ih (membersUnique_activate members (keysUnique_obj_iff.1 h)))
  case case2 =>
    intro data fields hmembers ih h
    rw [resolve_of_no_members hmembers]
    exact keysUnique_obj_iff.2 (ih (keysUnique_obj_iff.1 h))
  case case3 =>
    intro schema data hschema h
    rw [resolve_of_not_obj hschema]
    exact h
  case case4 =>
    intro data h
    rw [resolveBelow_nil]
    exact h
  case case5 =>
    intro data keyword inner rest ihNamed ihRest h
    obtain ⟨hkey, hv, hrest⟩ := membersUnique_cons_iff.1 h
    rw [resolveBelow_cons_obj, membersUnique_cons_iff, keys_resolveBelow]
    refine ⟨hkey, keysUnique_obj_iff.2 ?_, ihRest hrest⟩
    split
    · exact ihNamed (keysUnique_obj_iff.1 hv)
    · exact keysUnique_obj_iff.1 hv
  case case6 =>
    intro data keyword v rest hv ih h
    obtain ⟨hkey, hvalue, hrest⟩ := membersUnique_cons_iff.1 h
    rw [resolveBelow_cons_of_not_obj (fun inner heq => hv inner heq), membersUnique_cons_iff,
      keys_resolveBelow]
    exact ⟨hkey, hvalue, ih hrest⟩
  case case7 =>
    intro data h
    rw [resolveNamed_nil]
    exact h
  case case8 =>
    intro data name schema rest ih ihRest h
    obtain ⟨hkey, hv, hrest⟩ := membersUnique_cons_iff.1 h
    rw [resolveNamed_cons, membersUnique_cons_iff, keys_resolveNamed]
    exact ⟨hkey, ih hv, ihRest hrest⟩

end Dependent

/-- A schema with its conditionals and dependents resolved. -/
def Document.situated [Patterns] (schema : Document) (data : Option Json) : Document where
  value := Pipeline.situated schema data
  keysUnique := Dependent.keysUnique_resolve.1 _ data
    (Conditional.keysUnique_resolve.1 schema data "" schema.keysUnique)

end SchemaForm

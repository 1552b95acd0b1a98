import SchemaForm.Proofs.Pipeline.Walk
import SchemaForm.Regex.Engine

/-!
# What a resolved schema still asks for

Conditionals are resolved before dependents, dependents before selections, and each pass goes over
the schema once. A pass that merges in a further schema may bring keywords that were the concern of
a pass before it. Main statement: where the data are an object, a schema of the model that still has
an `if`, a `dependentSchemas` or a `dependentRequired` has it from a triggered dependent schema or
from a chosen branch, never from the schema as it was prepared or from a branch of a conditional,
unless the keyword holds no object and so names no trigger.
-/

namespace SchemaForm

open Json Schema

open Selection (property?)

/-- The value that member names lead to. -/
def Json.memberAt? : List String → Option Json → Option Json
  | [], data => data
  | name :: rest, data => memberAt? rest (data.bind (get? name))

/-! ### Conditionals -/

namespace Conditional

theorem get?_if_eraseAll (fields : Fields) :
    Entries.get? "if" (Entries.eraseAll keywords fields) = none := by
  rw [Entries.get?_eraseAll, if_pos (by decide)]

theorem get?_if_resolveBelow [Patterns] {fields : Fields} (h : Entries.get? "if" fields = none)
    (data : Option Json) (path : String) :
    Entries.get? "if" (resolveBelow fields data path).1 = none := by
  rw [Entries.get?_eq_none_iff, keys_resolveBelow]
  exact Entries.get?_eq_none_iff.1 h

/-- No condition is left at any property, however deep. -/
theorem keywordAt?_if_resolve [Patterns] :
    (∀ schema data path, ∀ segments,
      keywordAt? "if" segments (resolve schema data path).1 = none) ∧
    (∀ fields data path, ∀ name rest,
      (property? name (resolveBelow fields data path).1).bind (keywordAt? "if" rest) = none) ∧
    (∀ properties data path, ∀ name rest,
      (Entries.get? name (resolveNamed properties data path).1).bind (keywordAt? "if" rest) =
        none) := by
  have hobj {fields : Fields} {data : Option Json} {path : String}
      (hif : Entries.get? "if" fields = none)
      (ih : ∀ name rest, (property? name (resolveBelow fields data path).1).bind
        (keywordAt? "if" rest) = none) (segments : List String) :
      keywordAt? "if" segments (.obj (resolveBelow fields data path).1) = none := by
    cases segments with
    | nil => exact get?_if_resolveBelow hif data path
    | cons name rest =>
      rw [keywordAt?_cons]
      exact ih name rest
  apply resolve.mutual_induct
    (fun schema data path => ∀ segments,
      keywordAt? "if" segments (resolve schema data path).1 = none)
    (fun fields data path => ∀ name rest,
      (property? name (resolveBelow fields data path).1).bind (keywordAt? "if" rest) = none)
    (fun properties data path => ∀ name rest,
      (Entries.get? name (resolveNamed properties data path).1).bind (keywordAt? "if" rest) =
        none)
  case case1 =>
    intro data path fields hif below more _ ih
    rw [resolve_of_if_none hif]
    exact hobj hif ih
  case case2 =>
    intro data path fields condition hif rest hbranch below more _ ih
    rw [resolve_of_branch_none hif hbranch]
    exact hobj (get?_if_eraseAll fields) ih
  case case3 =>
    intro data path fields condition hif rest branch hbranch resolved more _ ih
    rw [resolve_of_branch hif hbranch]
    exact ih
  case case4 =>
    intro schema data path hschema
    rw [resolve_of_not_obj hschema]
    exact keywordAt?_of_not_obj hschema "if"
  case case5 =>
    intro data path name rest
    rw [resolveBelow_nil]
    rfl
  case case6 =>
    intro data path keyword inner rest value more _ below others _ ihNamed ihItems ihRest name segs
    rw [resolveBelow_cons_obj, Selection.property?_cons]
    split
    · next hkeyword =>
      rw [resolveValue, if_pos hkeyword]
      exact ihNamed name segs
    · exact ihRest name segs
  case case7 =>
    intro data path keyword v rest hv below others _ ih name segs
    rw [resolveBelow_cons_of_not_obj (fun inner h => hv inner h), Selection.property?_cons]
    split
    · cases v with
      | obj inner => exact absurd rfl (hv inner)
      | _ => rfl
    · exact ih name segs
  case case8 =>
    intro data path name rest
    rw [resolveNamed_nil]
    rfl
  case case9 =>
    intro data path key schema rest resolved more _ below others _ ih ihRest name segs
    rw [resolveNamed_cons, Entries.get?_cons]
    split
    · exact ih segs
    · exact ihRest name segs

end Conditional

/-! ### Dependents -/

namespace Dependent

/-- The keywords that the pass goes on from: for an object those with the triggered schemas. -/
def ready (data : Option Json) (fields : Fields) : Fields :=
  (data.bind fields?).elim fields fun members => activate members fields

theorem resolve_obj (fields : Fields) (data : Option Json) :
    resolve (.obj fields) data = .obj (resolveBelow (ready data fields) data) := by
  unfold ready
  cases h : data.bind fields? with
  | none => exact resolve_of_no_members h fields
  | some members => exact resolve_of_members h fields

/-- The keywords that the pass meets at the end of member names, before anything is merged in. -/
def metAt? : List String → Json → Option Json → Option Fields
  | [], schema, _ => schema.fields?
  | name :: rest, schema, data =>
    (schema.fields?.bind fun fields => property? name (ready data fields)).bind fun schema =>
      metAt? rest schema (data.bind (get? name))

/-- The schema stands under `dependentSchemas`, and its trigger is a member of the data. -/
def Triggers (fields : Fields) (data : Option Json) (dependent : Json) : Prop :=
  ∃ members schemas trigger, data.bind fields? = some members ∧
    Entries.get? schemasKeyword fields = some (.obj schemas) ∧ (trigger, dependent) ∈ schemas ∧
    Entries.contains trigger members = true

/-- A triggered schema, met by the pass on the way, has the keyword at the end of the way. A keyword
for dependents comes from a schema triggered just there. -/
def Brings (keyword : String) (schema : Json) (data : Option Json) (segments : List String) :
    Prop :=
  ∃ above below fields dependent, segments = above ++ below ∧
    metAt? above schema data = some fields ∧ Triggers fields (memberAt? above data) dependent ∧
    (keywordAt? keyword below dependent).isSome = true ∧ (keyword ≠ "if" → below = [])

theorem Brings.here {keyword : String} {fields : Fields} {data : Option Json} {dependent : Json}
    {segments : List String} (htriggers : Triggers fields data dependent)
    (hfound : (keywordAt? keyword segments dependent).isSome = true)
    (hbelow : keyword ≠ "if" → segments = []) : Brings keyword (.obj fields) data segments :=
  ⟨[], segments, fields, dependent, rfl, rfl, htriggers, hfound, hbelow⟩

theorem Brings.cons {keyword name : String} {fields : Fields} {schema : Json} {data : Option Json}
    {rest : List String} (hproperty : property? name (ready data fields) = some schema)
    (h : Brings keyword schema (data.bind (get? name)) rest) :
    Brings keyword (.obj fields) data (name :: rest) := by
  obtain ⟨above, below, found, dependent, rfl, hmet, htriggers, hkeyword, hbelow⟩ := h
  refine ⟨name :: above, below, found, dependent, rfl, ?_, htriggers, hkeyword, hbelow⟩
  show (property? name (ready data fields)).bind _ = _
  rw [hproperty]
  exact hmet

/-- A keyword of the gathered schemas is that of the keywords, or one of the schemas has it. -/
theorem keywordAt?_absorbTriggered {keyword : String} {segments : List String} {value : Json}
    {members acc schemas : Fields} (hschemas : ∀ entry ∈ schemas, entry.2.KeysUnique)
    (h : keywordAt? keyword segments (.obj (absorbTriggered members acc schemas)) = some value) :
    keywordAt? keyword segments (.obj acc) = some value ∨
      ∃ entry ∈ schemas, Entries.contains entry.1 members = true ∧
        (keywordAt? keyword segments entry.2).isSome = true := by
  induction schemas generalizing acc with
  | nil => exact .inl h
  | cons entry rest ih =>
    obtain ⟨trigger, schema⟩ := entry
    rw [absorbTriggered] at h
    rcases ih (fun entry hentry => hschemas entry (List.mem_cons_of_mem _ hentry)) h with
      h | ⟨entry, hentry, hfound⟩
    · by_cases htrigger : Entries.contains trigger members = true
      · rw [if_pos htrigger] at h
        cases hkeyword : keywordAt? keyword segments schema with
        | some other =>
          refine .inr ⟨_, List.mem_cons_self, htrigger, ?_⟩
          rw [hkeyword]
          rfl
        | none =>
          rw [← merge_obj] at h
          exact .inl (keywordAt?_merge (hschemas _ List.mem_cons_self) hkeyword h)
      · rw [if_neg htrigger] at h
        exact .inl h
    · exact .inr ⟨entry, List.mem_cons_of_mem _ hentry, hfound⟩

/-- Requiring names adds no keyword but `required`. -/
theorem get?_of_applyRequired {keyword : String} (hne : keyword ≠ "required")
    {members fields acc : Fields} {value : Json}
    (h : Entries.get? keyword (applyRequired members fields acc) = some value) :
    Entries.get? keyword acc = some value := by
  have herased (h : Entries.get? keyword (Entries.eraseAll [requiredKeyword] acc) = some value) :
      Entries.get? keyword acc = some value := by
    rw [Entries.get?_eraseAll] at h
    split at h
    · cases h
    · exact h
  unfold applyRequired at h
  split at h
  · dsimp only at h
    split at h
    · exact herased h
    · rw [get?_mergeKeywords (by simp), Entries.get?_cons, if_neg (Ne.symm hne)] at h
      exact herased h
  · exact h

theorem get?_required_applyRequired {members fields : Fields} {lists : Fields}
    (h : Entries.get? requiredKeyword fields = some (.obj lists)) (acc : Fields) :
    Entries.get? requiredKeyword (applyRequired members fields acc) = none := by
  have herased : Entries.get? requiredKeyword (Entries.eraseAll [requiredKeyword] acc) = none := by
    rw [Entries.get?_eraseAll, if_pos (List.mem_singleton_self _)]
  unfold applyRequired
  rw [h]
  dsimp only
  split
  · exact herased
  · rw [get?_mergeKeywords (by simp), Entries.get?_cons, if_neg (by decide)]
    exact herased

/-- A keyword at the end of a way is that of the schemas on the way, or a schema triggered here has
it. -/
theorem keywordAt?_ready {keyword : String} (hne : keyword ≠ "required") {segments : List String}
    {value : Json} {fields : Fields} (hfields : MembersUnique fields) {data : Option Json}
    (h : keywordAt? keyword segments (.obj (ready data fields)) = some value) :
    keywordAt? keyword segments (.obj fields) = some value ∨
      ∃ dependent, Triggers fields data dependent ∧
        (keywordAt? keyword segments dependent).isSome = true := by
  unfold ready at h
  cases hmembers : data.bind fields? with
  | none =>
    rw [hmembers] at h
    exact .inl h
  | some members =>
    rw [hmembers, Option.elim_some, activate] at h
    have h : keywordAt? keyword segments (.obj (applySchemas members fields)) = some value := by
      refine keywordAt?_mono (fun key hkey v hv => get?_of_applyRequired ?_ hv) h
      rcases List.mem_cons.1 hkey with rfl | hkey
      · exact hne
      · rw [List.mem_singleton.1 hkey]
        decide
    unfold applySchemas at h
    split at h
    · next schemas hschemas =>
      have hunique := (keysUnique_obj_iff.1 (hfields.get? hschemas)).values
      rcases keywordAt?_absorbTriggered hunique h with h | ⟨entry, hentry, htrigger, hfound⟩
      · exact .inl (keywordAt?_of_eraseAll h)
      · exact .inr ⟨entry.2, ⟨members, schemas, entry.1, hmembers, hschemas, hentry, htrigger⟩,
          hfound⟩
    · exact .inl h

/-- The keywords for dependents. -/
def keywords : List String := [schemasKeyword, requiredKeyword]

/-- For an object a keyword for dependents that names triggers goes, unless a schema triggered here
has it too. -/
theorem get?_ready {keyword : String} (hkeyword : keyword ∈ keywords) {value : Json}
    {fields : Fields} (hfields : MembersUnique fields) {data : Option Json}
    {members : Fields} (hmembers : data.bind fields? = some members)
    (h : Entries.get? keyword (ready data fields) = some value) :
    value.isObj = false ∨
      ∃ dependent, Triggers fields data dependent ∧
        (keywordAt? keyword [] dependent).isSome = true := by
  have hne : keyword ≠ "required" := by
    rintro rfl
    revert hkeyword
    decide
  have hready : keywordAt? keyword [] (.obj (ready data fields)) = some value := h
  rcases keywordAt?_ready hne hfields hready with hkept | htriggers
  · cases value with
    | obj inner =>
      rw [keywordAt?_nil] at hkept
      unfold ready at h
      rw [hmembers, Option.elim_some, activate] at h
      rcases List.mem_cons.1 hkeyword with rfl | hkeyword
      · -- the schemas are gone, and what is left comes from one of them
        have h := get?_of_applyRequired hne h
        unfold applySchemas at h
        rw [hkept] at h
        have hunique := (keysUnique_obj_iff.1 (hfields.get? hkept)).values
        have habsorbed : keywordAt? "dependentSchemas" [] (.obj (absorbTriggered members
            (Entries.eraseAll ["dependentSchemas"] fields) inner)) = some (.obj inner) := h
        rcases keywordAt?_absorbTriggered hunique habsorbed with
          herased | ⟨entry, hentry, htrigger, hfound⟩
        · rw [keywordAt?_nil, Entries.get?_eraseAll, if_pos (List.mem_singleton_self _)] at herased
          cases herased
        · exact .inr ⟨entry.2, ⟨members, inner, entry.1, hmembers, hkept, hentry, htrigger⟩,
            hfound⟩
      · obtain rfl := List.mem_singleton.1 hkeyword
        rw [get?_required_applyRequired hkept] at h
        cases h
    | _ => exact .inl rfl
  · exact .inr htriggers

theorem membersUnique_ready (data : Option Json) {fields : Fields} (h : MembersUnique fields) :
    MembersUnique (ready data fields) := by
  unfold ready
  cases data.bind fields? with
  | none => exact h
  | some members => exact membersUnique_activate members h

theorem keywordAt?_resolve_cons (keyword name : String) (rest : List String) (fields : Fields)
    (data : Option Json) :
    keywordAt? keyword (name :: rest) (resolve (.obj fields) data) =
      (property? name (ready data fields)).bind fun schema =>
        keywordAt? keyword rest (resolve schema (data.bind (get? name))) := by
  rw [resolve_obj, keywordAt?_cons, property?_resolveBelow, Option.bind_map]
  rfl

/-- A condition after the pass was there before, or a triggered schema brings it. -/
theorem brings_of_condition {segments : List String} {schema : Json} {data : Option Json}
    {value : Json} (hunique : schema.KeysUnique)
    (h : keywordAt? "if" segments (resolve schema data) = some value) :
    keywordAt? "if" segments schema = some value ∨ Brings "if" schema data segments := by
  induction segments generalizing schema data with
  | nil =>
    cases schema with
    | obj fields =>
      rw [resolve_obj, keywordAt?_nil, get?_resolveBelow_of_ne data (by decide)] at h
      have hready : keywordAt? "if" [] (.obj (ready data fields)) = some value := h
      rcases keywordAt?_ready (by decide) (keysUnique_obj_iff.1 hunique) hready with
        h | ⟨dependent, htriggers, hfound⟩
      · exact .inl h
      · exact .inr (.here htriggers hfound fun _ => rfl)
    | _ =>
      rw [resolve_of_not_obj (by simp)] at h
      exact .inl h
  | cons name rest ih =>
    cases schema with
    | obj fields =>
      have hfields := keysUnique_obj_iff.1 hunique
      rw [keywordAt?_resolve_cons] at h
      obtain ⟨property, hproperty, hbelow⟩ := Option.bind_eq_some_iff.1 h
      have hunique := keysUnique_property (membersUnique_ready data hfields) hproperty
      rcases ih hunique hbelow with hkept | hbrings
      · have hready : keywordAt? "if" (name :: rest) (.obj (ready data fields)) = some value := by
          rw [keywordAt?_cons, hproperty]
          exact hkept
        rcases keywordAt?_ready (by decide) hfields hready with h | ⟨dependent, htriggers, hfound⟩
        · exact .inl h
        · exact .inr (.here htriggers hfound fun hne => absurd rfl hne)
      · exact .inr (hbrings.cons hproperty)
    | _ =>
      rw [resolve_of_not_obj (by simp)] at h
      exact .inl h

/-- For an object a keyword for dependents after the pass names no trigger, or a triggered schema
brings it. -/
theorem brings_of_dependents {keyword : String} (hkeyword : keyword ∈ keywords)
    {segments : List String} {schema : Json} {data : Option Json} {value : Json} {members : Fields}
    (hunique : schema.KeysUnique) (hdata : memberAt? segments data = some (.obj members))
    (h : keywordAt? keyword segments (resolve schema data) = some value) :
    value.isObj = false ∨ Brings keyword schema data segments := by
  induction segments generalizing schema data with
  | nil =>
    have hmembers : data.bind fields? = some members := by
      rw [show data = some (.obj members) from hdata]
      rfl
    cases schema with
    | obj fields =>
      have hne : keyword ≠ "properties" := by
        rintro rfl
        revert hkeyword
        decide
      rw [resolve_obj, keywordAt?_nil, get?_resolveBelow_of_ne data hne] at h
      rcases get?_ready hkeyword (keysUnique_obj_iff.1 hunique) hmembers h with
        h | ⟨dependent, htriggers, hfound⟩
      · exact .inl h
      · exact .inr (.here htriggers hfound fun _ => rfl)
    | _ =>
      rw [resolve_of_not_obj (by simp), keywordAt?_of_not_obj (by simp)] at h
      cases h
  | cons name rest ih =>
    cases schema with
    | obj fields =>
      rw [keywordAt?_resolve_cons] at h
      obtain ⟨property, hproperty, hbelow⟩ := Option.bind_eq_some_iff.1 h
      have hunique := keysUnique_property
        (membersUnique_ready data (keysUnique_obj_iff.1 hunique)) hproperty
      rcases ih hunique hdata hbelow with hvalue | hbrings
      · exact .inl hvalue
      · exact .inr (hbrings.cons hproperty)
    | _ =>
      rw [resolve_of_not_obj (by simp), keywordAt?_of_not_obj (by simp)] at h
      cases h

end Dependent

/-! ### Selections -/

namespace Selection

/-- A chosen branch, met by the pass on the way from a path, has the keyword at the end of the
way. -/
def Brings (keyword : String) (selections : Selections) (schema : Json) (path : String)
    (segments : List String) : Prop :=
  ∃ above below fields option combinator, segments = above ++ below ∧
    keywordsAt selections above schema path = some fields ∧
    chosen? selections (Pointer.join path above) fields = some (option, combinator) ∧
    (keywordAt? keyword below option).isSome = true

variable {selections : Selections} {keyword name path : String} {fields : Fields} {value : Json}

theorem Brings.here {segments : List String} {option : Json} {combinator : Combinator}
    (hchosen : chosen? selections path fields = some (option, combinator))
    (hfound : (keywordAt? keyword segments option).isSome = true) :
    Brings keyword selections (.obj fields) path segments := by
  refine ⟨[], segments, fields, option, combinator, rfl, rfl, ?_, hfound⟩
  rw [Pointer.join_nil]
  exact hchosen

theorem Brings.cons {schema : Json} {rest : List String}
    (hproperty : property? name (choose selections path fields).1 = some schema)
    (h : Brings keyword selections schema (Pointer.append path name) rest) :
    Brings keyword selections (.obj fields) path (name :: rest) := by
  obtain ⟨above, below, found, option, combinator, rfl, hmet, hchosen, hfound⟩ := h
  refine ⟨name :: above, below, found, option, combinator, rfl, ?_, ?_, hfound⟩
  · show (property? name (choose selections path fields).1).bind _ = _
    rw [hproperty]
    exact hmet
  · rw [Pointer.join_cons]
    exact hchosen

/-- A keyword at the end of a way is that of the schemas on the way, or the branch chosen here has
it. -/
theorem keywordAt?_choose {segments : List String} (hfields : MembersUnique fields)
    (h : keywordAt? keyword segments (.obj (choose selections path fields).1) = some value) :
    keywordAt? keyword segments (.obj fields) = some value ∨
      Brings keyword selections (.obj fields) path segments := by
  unfold choose at h
  split at h
  · next option combinator hchosen =>
    obtain ⟨kind, options, index, hbranches, -, hoption, -⟩ := mem_of_chosen? hchosen
    obtain ⟨key, -, hoptions⟩ := mem_of_branches? hbranches
    have hunique : option.KeysUnique :=
      keysUnique_arr_iff.1 (hfields.get? hoptions) option (List.mem_of_getElem? hoption)
    cases hkeyword : keywordAt? keyword segments option with
    | some other =>
      refine .inr (Brings.here hchosen ?_)
      rw [hkeyword]
      rfl
    | none =>
      rw [← merge_obj] at h
      exact .inl (keywordAt?_of_eraseAll (keywordAt?_merge hunique hkeyword h))
  · exact .inl h

/-- A keyword after the pass was there before, or a chosen branch has it. -/
theorem brings_of_resolve (hne : keyword ≠ "properties") {segments : List String} {schema : Json}
    (hunique : schema.KeysUnique)
    (h : keywordAt? keyword segments (resolve selections schema path).1 = some value) :
    keywordAt? keyword segments schema = some value ∨
      Brings keyword selections schema path segments := by
  induction segments generalizing schema path with
  | nil =>
    cases schema with
    | obj fields =>
      rw [resolve_obj, keywordAt?_nil, get?_resolveBelow_of_ne selections path hne] at h
      exact keywordAt?_choose (keysUnique_obj_iff.1 hunique) h
    | _ =>
      rw [resolve_of_not_obj (by simp)] at h
      exact .inl h
  | cons name rest ih =>
    cases schema with
    | obj fields =>
      have hfields := keysUnique_obj_iff.1 hunique
      rw [resolve_obj, keywordAt?_cons, property?_resolveBelow, Option.bind_map] at h
      obtain ⟨property, hproperty, hbelow⟩ := Option.bind_eq_some_iff.1 h
      have hunique := keysUnique_property (membersUnique_choose selections path hfields) hproperty
      rcases ih hunique hbelow with hkept | hbrings
      · refine keywordAt?_choose hfields ?_
        rw [keywordAt?_cons, hproperty]
        exact hkept
      · exact .inr (hbrings.cons hproperty)
    | _ =>
      rw [resolve_of_not_obj (by simp)] at h
      exact .inl h

end Selection

/-! ### The model -/

namespace Pipeline

/-- The keywords that the passes before the last one are there to resolve. -/
def askingKeywords : List String := "if" :: Dependent.keywords

theorem brings_of_chosenSchema {keyword : String} (hne : keyword ≠ "properties")
    {segments : List String} {selections : Selections} {schema : Json} {value : Json}
    (hunique : schema.KeysUnique)
    (h : keywordAt? keyword segments (chosenSchema selections schema) = some value) :
    keywordAt? keyword segments schema = some value ∨
      Selection.Brings keyword selections schema "" segments := by
  unfold chosenSchema at h
  split at h
  · exact .inl h
  · exact Selection.brings_of_resolve hne hunique h

/-- Where the data are an object, a schema of the model that still has a keyword which the passes
resolve has it from a triggered dependent schema or a chosen branch, unless it is a keyword for
dependents that names no trigger. -/
theorem leftover_brought [Patterns] (schema : Document) (data : Option Json)
    (selections : Selections) :
    ∃ m, run .default schema data selections = .ok m ∧
      ∀ segments members keyword value, memberAt? segments data = some (.obj members) →
        keyword ∈ askingKeywords → keywordAt? keyword segments m.schema = some value →
        Dependent.Brings keyword (Conditional.resolve (Schema.prepare schema) data "").1 data
            segments ∨
          Selection.Brings keyword selections (situated (Schema.prepare schema) data) "" segments ∨
          keyword ∈ Dependent.keywords ∧ value.isObj = false := by
  refine ⟨_, run_default schema data selections, ?_⟩
  intro segments members keyword value hdata hkeyword hleft
  have hresolved := Conditional.keysUnique_resolve.1 _ data "" schema.prepare.keysUnique
  have hsituated : (situated (Schema.prepare schema) data).KeysUnique :=
    (schema.prepare.situated data).keysUnique
  have hne : keyword ≠ "properties" := by
    rintro rfl
    revert hkeyword
    decide
  rcases brings_of_chosenSchema hne hsituated hleft with hleft | hbrings
  · rcases List.mem_cons.1 hkeyword with rfl | hkeyword
    · rcases Dependent.brings_of_condition hresolved hleft with hleft | hbrings
      · rw [Conditional.keywordAt?_if_resolve.1] at hleft
        cases hleft
      · exact .inl hbrings
    · rcases Dependent.brings_of_dependents hkeyword hresolved hdata hleft with hvalue | hbrings
      · exact .inr (.inr ⟨hkeyword, hvalue⟩)
      · exact .inl hbrings
  · exact .inr (.inl hbrings)

/-! ### A condition that comes too late -/

/-- A dependent schema with a condition. -/
def lateCondition : Json :=
  .obj [("dependentSchemas", .obj [("a", .obj [("if", .empty)])])]

/-- Data that trigger it. -/
def triggering : Json := .obj [("a", .null)]

theorem keysUnique_lateCondition : lateCondition.KeysUnique := by
  simp [lateCondition]

theorem prepare_lateCondition : Schema.prepare lateCondition = lateCondition :=
  prepare_eq_self rfl rfl rfl rfl

theorem situated_lateCondition :
    situated lateCondition (some triggering) = .obj [("if", .empty)] := by
  have hconditional : Conditional.resolve lateCondition (some triggering) "" =
      (lateCondition, []) := by
    rw [lateCondition, Conditional.resolve_of_if_none rfl, Conditional.resolveBelow_cons_obj,
      Conditional.resolveBelow_nil]
    rfl
  have hactivate : Dependent.activate [("a", .null)]
      [("dependentSchemas", .obj [("a", .obj [("if", .empty)])])] = [("if", .empty)] := rfl
  have hmembers : (some triggering).bind fields? = some [("a", .null)] := rfl
  rw [situated, hconditional, lateCondition, Dependent.resolve_of_members hmembers, hactivate,
    Json.empty, Dependent.resolveBelow_cons_obj, Dependent.resolveBelow_nil]
  rfl

theorem schema_lateCondition :
    (plainModel (Schema.prepare lateCondition) (some triggering) SortedMap.empty).schema =
      .obj [("if", .empty)] := by
  rw [prepare_lateCondition]
  exact situated_lateCondition

theorem leftover_brought_lateCondition :
    ∃ m, run .default lateCondition (some triggering) SortedMap.empty = .ok m ∧
      (Dependent.Brings "if" (Conditional.resolve (Schema.prepare lateCondition)
          (some triggering) "").1 (some triggering) [] ∨
        Selection.Brings "if" SortedMap.empty
          (situated (Schema.prepare lateCondition) (some triggering)) "" [] ∨
        "if" ∈ Dependent.keywords ∧ Json.empty.isObj = false) := by
  obtain ⟨m, hrun, hbrought⟩ :=
    leftover_brought ⟨lateCondition, keysUnique_lateCondition⟩ (some triggering) SortedMap.empty
  refine ⟨m, hrun, hbrought [] [("a", .null)] "if" .empty rfl (by decide) ?_⟩
  obtain rfl := eq_plainModel_of_run rfl hrun
  rw [schema_lateCondition]
  rfl

/-- The condition of a triggered dependent schema stands in the schema of the model. -/
theorem condition_of_dependent_stays :
    ∃ m, run .default lateCondition (some triggering) SortedMap.empty = .ok m ∧
      memberAt? [] (some triggering) = some (.obj [("a", .null)]) ∧
      keywordAt? "if" [] m.schema = some .empty := by
  refine ⟨_, run_default _ _ _, rfl, ?_⟩
  rw [schema_lateCondition]
  rfl

end Pipeline
end SchemaForm

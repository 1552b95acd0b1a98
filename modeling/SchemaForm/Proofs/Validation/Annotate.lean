import SchemaForm.Proofs.Pipeline.Chain
import SchemaForm.Proofs.Pipeline.Closed
import SchemaForm.Proofs.Pipeline.Enrichment
import SchemaForm.Proofs.Validation.Cache
import SchemaForm.Validation.Annotate

/-!
# Issues as an enrichment and as an interceptor

The enrichment is asked for the fields one after the other, and its entries are put on them by path
when all were asked. The interceptor changes each field in place as it goes along, and writes down
what it found. Both check a field with the cache that the checks before left. Main statement: for
one schema, data and selections both give the same fields, and the interceptor writes down the
issues of exactly the fields that carry them.
-/

namespace SchemaForm.Validation

open Pipeline
open CompiledCache (Coherent checkAll coherent_checkAll)

variable {validator : Validator} {cache : CompiledCache} {c : Context}

/-- A field with its issues. -/
def withIssues (validator : Validator) (n : FieldNode) : FieldNode :=
  (fieldIssues? validator n).elim n fun issues => extend (issuesEntry issues) n

/-- Puts on each field what its own schema gives, without a cache. -/
def directly (validator : Validator) : Enrichment := fun n _ =>
  (fieldIssues? validator n).map issuesEntry

/-! ### By path, after all fields were asked -/

/-- What the enrichment answers for some fields in turn, by their paths. -/
def updatesWith (validator : Validator) (c : Context) :
    List FieldNode → CompiledCache → List (String × Fields)
  | [], _ => []
  | n :: rest, cache =>
    ((enrichmentWith validator cache n c).map fun entries => (n.path, entries)).toList ++
      updatesWith validator c rest (cache.check validator n).2

/-- The context behind the enrichment, whose cache grows from field to field. -/
def enrichWith (validator : Validator) (cache : CompiledCache) (c : Context) : Context :=
  { c with
    index := (updatesWith validator c c.index.values cache).foldl
      (fun index update => index.modify update.1 (extend update.2)) c.index }

theorem enrichmentWith_eq (h : Coherent validator cache) :
    enrichmentWith validator cache = directly validator := by
  funext n c
  rw [enrichmentWith, (h.check n).1, directly]

theorem updatesWith_eq (h : Coherent validator cache) (c : Context) (fields : List FieldNode) :
    updatesWith validator c fields cache = updatesFor fields (directly validator) c := by
  induction fields generalizing cache with
  | nil => rfl
  | cons n rest ih =>
    rw [updatesWith, ih (h.check n).2, enrichmentWith_eq h, updatesFor, updatesFor,
      List.filterMap_cons]
    cases directly validator n c <;> rfl

/-- The growing cache is not seen. -/
theorem enrichWith_eq (h : Coherent validator cache) (c : Context) :
    enrichWith validator cache c = enrich (directly validator) c := by
  rw [enrichWith, updatesWith_eq h]
  rfl

theorem index_enrich_directly (h : OwnPaths c.index) :
    (enrich (directly validator) c).index = c.index.map fun _ => withIssues validator := by
  apply SortedMap.eq_of_get?_eq
  intro path
  rw [get?_enrich h, SortedMap.get?_map]
  apply congrArg (Option.map · (c.index.get? path))
  funext n
  rw [← elim_extend, directly, withIssues]
  cases fieldIssues? validator n <;> rfl

/-! ### In place -/

/-- The issues of some fields, by path. -/
def collected (validator : Validator) (entries : List (String × FieldNode)) : Fields :=
  entries.filterMap fun entry =>
    ((fieldIssues? validator entry.2).map issuesJson).map fun issues => (entry.1, issues)

theorem annotateField_eq (h : Coherent validator cache) (path : String) (n : FieldNode)
    (found : Fields) :
    annotateField validator path n (found, cache) =
      (withIssues validator n,
        (collected validator [(path, n)]).foldl (fun acc e => Entries.insert e.1 e.2 acc) found,
        (cache.check validator n).2) := by
  rw [annotateField, withIssues, collected, List.filterMap_cons]
  dsimp only
  rw [(h.check n).1]
  cases fieldIssues? validator n <;> rfl

/-- One field after the other gets its own issues, and these are added to those found before. -/
theorem mapAccumEntries_annotateField (h : Coherent validator cache)
    (entries : List (String × FieldNode)) (found : Fields) :
    SortedMap.mapAccumEntries (annotateField validator) entries (found, cache) =
      (entries.map fun entry => (entry.1, withIssues validator entry.2),
        (collected validator entries).foldl (fun acc e => Entries.insert e.1 e.2 acc) found,
        checkAll validator (entries.map Prod.snd) cache) := by
  induction entries generalizing found cache with
  | nil => rfl
  | cons entry rest ih =>
    obtain ⟨path, n⟩ := entry
    have hcollected : collected validator ((path, n) :: rest) =
        collected validator [(path, n)] ++ collected validator rest :=
      List.filterMap_append (l := [(path, n)])
    rw [SortedMap.mapAccumEntries, annotateField_eq h]
    dsimp only
    rw [ih (h.check n).2, hcollected, List.foldl_append]
    rfl

theorem nodup_keys_collected (index : FieldIndex) :
    (Entries.keys (collected validator index.entries)).Nodup :=
  SortedMap.nodup_fst_filterMap (fun n => (fieldIssues? validator n).map issuesJson)
    index.nodup_keys

theorem get?_collected (index : FieldIndex) (path : String) :
    Entries.get? path (collected validator index.entries) =
      (index.get? path).bind fun n => (fieldIssues? validator n).map issuesJson := by
  apply Option.ext
  intro issues
  rw [Entries.get?_eq_some_iff (nodup_keys_collected index), Option.bind_eq_some_iff]
  constructor
  · intro h
    obtain ⟨entry, hentry, heq⟩ := List.mem_filterMap.1 h
    obtain ⟨found, hfound, heq⟩ := Option.map_eq_some_iff.1 heq
    cases heq
    exact ⟨entry.2, SortedMap.mem_entries_iff.1 hentry, hfound⟩
  · rintro ⟨n, hn, hissues⟩
    refine List.mem_filterMap.2 ⟨(path, n), SortedMap.mem_entries_iff.2 hn, ?_⟩
    rw [hissues]
    rfl

/-- The interceptor puts on the fields what the enrichment does, and collects it. -/
theorem annotate_eq (h : Coherent validator cache) (c : Context) :
    annotate validator cache c =
      ({ c with
          index := c.index.map fun _ => withIssues validator
          annotations :=
            Entries.insert issuesKey (.obj (collected validator c.index.entries)) c.annotations },
        checkAll validator c.index.values cache) := by
  have hpass := mapAccumEntries_annotateField h c.index.entries []
  rw [Entries.foldl_insert_of_nodup (nodup_keys_collected c.index), List.nil_append] at hpass
  unfold annotate SortedMap.mapAccum
  simp only [hpass]
  rfl

theorem run_interceptorWith (cache : CompiledCache) (stage : Stage) (c : Context) :
    (interceptorWith validator cache stage c).run stage (fun c => .ok c) false =
      .ok (annotate validator cache c).1 := rfl

/-- A field that had no issues before carries what was found for it. -/
theorem get?_issuesKey_withIssues {n : FieldNode} (h : n.extensions = []) :
    Entries.get? issuesKey (withIssues validator n).extensions =
      (fieldIssues? validator n).map issuesJson := by
  unfold withIssues
  cases fieldIssues? validator n with
  | none => exact congrArg (Entries.get? issuesKey) h
  | some issues =>
    show Entries.get? issuesKey (Entries.insert issuesKey (issuesJson issues) n.extensions) = _
    rw [Entries.get?_insert, if_pos rfl, Option.map_some]

/-! ### Runs -/

/-- The fields of a finished context stand under their own paths, and nothing was put on them. -/
theorem plain_of_ofContext [Patterns] {prepared : Json} {data : Option Json}
    {selections : Selections}
    {c : Context} (h : FormModel.ofContext c = plainModel prepared data selections) :
    c.annotations = [] ∧ OwnPaths c.index ∧
      ∀ path n, c.index.get? path = some n → n.extensions = [] := by
  have hannotations : c.annotations = [] := congrArg FormModel.annotations h
  have hindex : c.index = (plainModel prepared data selections).index :=
    congrArg FormModel.index h
  refine ⟨hannotations, ?_, ?_⟩
  · rw [hindex]
    exact ((sameForm_plainModel _ _ _).closed (FieldTree.closed_build _ _)).path
  · intro path n hn
    rw [hindex, index_plainModel] at hn
    obtain ⟨built, hbuilt, heq⟩ := Defaults.get?_seededIndex hn
    obtain ⟨-, origin, required, hnode⟩ := FieldTree.isNode_of_get?_build hbuilt
    rw [heq]
    exact congrArg FieldNode.extensions hnode

/-- The enrichment and the interceptor agree. Whatever a validator is, whatever fields were checked
before with the cache of either, and for every schema, data and selections: both runs end with a
model. The first one is what the enrichment makes of the context behind the stages while its cache
grows from field to field, and each field in it has the issues that its own schema gives if it is
compiled for this field alone. The second one differs in the annotations alone. There it has the
issues by path: under exactly the paths of the fields that carry issues, those that they carry. -/
theorem enrichment_and_interceptor_agree [Patterns] (validator : Validator) (schema : Json)
    (data : Option Json) (selections : Selections) (seen other : List FieldNode) :
    ∃ c m found,
      runStages .default Stage.all { Context.start schema data with selections } = .ok c ∧
      m = .ofContext (enrichWith validator (checkAll validator seen .empty) c) ∧
      (m.index = c.index.map fun _ => withIssues validator) ∧
      run { Config.default with
          enrichments := [enrichmentWith validator (checkAll validator seen .empty)] }
        schema data selections = .ok m ∧
      run { Config.default with
          interceptors :=
            [(.finalize, interceptorWith validator (checkAll validator other .empty))] }
        schema data selections = .ok { m with annotations := [(issuesKey, .obj found)] } ∧
      OwnPaths m.index ∧ (Entries.keys found).Nodup ∧
      ∀ path, Entries.get? path found =
        (m.index.get? path).bind fun n => Entries.get? issuesKey n.extensions := by
  obtain ⟨c, hstages, hplain⟩ := exists_runStages_default schema data selections
  obtain ⟨hannotations, hpaths, hextensions⟩ := plain_of_ofContext hplain
  have hseen := coherent_checkAll validator seen
  have hother := coherent_checkAll validator other
  have hindex : (enrich (directly validator) c).index = c.index.map fun _ => withIssues validator :=
    index_enrich_directly hpaths
  have hmodel : FormModel.ofContext (annotate validator (checkAll validator other .empty) c).1 =
      { FormModel.ofContext (enrich (directly validator) c) with
        annotations := [(issuesKey, .obj (collected validator c.index.entries))] } := by
    rw [annotate_eq hother, hannotations]
    simp only [FormModel.ofContext, hindex]
    rfl
  refine ⟨c, .ofContext (enrich (directly validator) c), collected validator c.index.entries,
    hstages, ?_, hindex, ?_, ?_, hpaths.enrich _, nodup_keys_collected c.index, ?_⟩
  · rw [enrichWith_eq hseen]
  · rw [run_enriching hstages, enrichmentWith_eq hseen]
    rfl
  · rw [run_finalizing hstages, run_interceptorWith, ← hmodel]
    rfl
  · intro path
    show _ = ((enrich (directly validator) c).index.get? path).bind _
    rw [get?_collected, hindex, SortedMap.get?_map]
    cases hn : c.index.get? path with
    | none => rfl
    | some n => exact (get?_issuesKey_withIssues (hextensions path n hn)).symm

end SchemaForm.Validation

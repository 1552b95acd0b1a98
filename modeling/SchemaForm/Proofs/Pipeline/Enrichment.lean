import Mathlib.Data.List.Basic
import Mathlib.Data.List.Induction
import SchemaForm.Proofs.Pipeline.Chain
import SchemaForm.Proofs.SortedMap

/-!
# What enrichments do

An enrichment is asked for every field before any of its entries is put on a field, so it sees the
context as the enrichments before it left it, and nothing of itself. What it finds for a field goes
to this field alone. Main statement: running enrichments leaves everything but the extensions as it
is, these are a left fold of shallow merges, and the order in which the fields are visited does not
count.
-/

namespace SchemaForm

namespace Pipeline

variable {c : Context}

/-- Every field stands under its own path. -/
def OwnPaths (index : FieldIndex) : Prop :=
  ∀ path n, index.get? path = some n → n.path = path

/-- The context behind some enrichments, one after the other. -/
def enriched (enrichments : List Enrichment) (c : Context) : Context :=
  enrichments.foldl (fun c enrichment => enrich enrichment c) c

theorem finish_eq_enriched (config : Config) (c : Context) :
    finish config c = .ofContext (enriched config.enrichments c) := rfl

theorem enriched_concat (enrichments : List Enrichment) (enrichment : Enrichment) (c : Context) :
    enriched (enrichments ++ [enrichment]) c = enrich enrichment (enriched enrichments c) := by
  simp [enriched]

/-- With enrichments alone a run enriches what the stages make. -/
theorem run_enriching [Patterns] {schema : Json} {data : Option Json} {selections : Selections}
    (h : runStages .default Stage.all { Context.start schema data with selections } = .ok c)
    (enrichments : List Enrichment) :
    run { Config.default with enrichments } schema data selections =
      .ok (.ofContext (enriched enrichments c)) := by
  have hstages : runStages { Config.default with enrichments } Stage.all
      { Context.start schema data with selections } = .ok c := by
    rw [← h, runStages_default]
    exact runStages_of_chain_nil (fun _ _ => rfl) _
  rw [run_eq_runStages, hstages]
  exact congrArg Traced.ok (finish_eq_enriched _ c)

/-! ### One enrichment -/

/-- What an enrichment finds for some fields, by their paths. -/
def updatesFor (visited : List FieldNode) (enrichment : Enrichment) (c : Context) :
    List (String × Fields) :=
  visited.filterMap fun n => (enrichment n c).map fun entries => (n.path, entries)

/-- One enrichment that visits the fields in some order. -/
def enrichVisiting (visited : List FieldNode) (enrichment : Enrichment) (c : Context) : Context :=
  { c with
    index := (updatesFor visited enrichment c).foldl
      (fun index update => index.modify update.1 (extend update.2)) c.index }

theorem enrich_eq_enrichVisiting (enrichment : Enrichment) (c : Context) :
    enrich enrichment c = enrichVisiting c.index.values enrichment c := rfl

/-- Extensions with the entries that were found merged in, if any were. -/
def shallowMerge (extensions : Fields) (found : Option Fields) : Fields :=
  (found.getD []).foldl (fun acc entry => Entries.insert entry.1 entry.2 acc) extensions

/-- The field with what an enrichment finds for it in a context. -/
def enrichedField (enrichment : Enrichment) (c : Context) (n : FieldNode) : FieldNode :=
  { n with extensions := shallowMerge n.extensions (enrichment n c) }

theorem elim_extend (enrichment : Enrichment) (c : Context) (n : FieldNode) :
    ((enrichment n c).elim n fun entries => extend entries n) = enrichedField enrichment c n := by
  unfold enrichedField
  cases enrichment n c <;> rfl

theorem map_values_eq_entries {index : FieldIndex} (h : OwnPaths index) :
    (index.values.map fun n => (n.path, n)) = index.entries := by
  have hentry : ∀ entry ∈ index.entries, (entry.2.path, entry.2) = entry := by
    rintro ⟨path, n⟩ hmem
    rw [h path n (SortedMap.mem_entries_iff.1 hmem)]
  rw [SortedMap.values, List.map_map]
  exact (List.map_congr_left hentry).trans (List.map_id' _)

/-- In whatever order the fields are visited, each gets what is found for itself. -/
theorem get?_enrichVisiting (h : OwnPaths c.index) {visited : List FieldNode}
    (hvisited : visited.Perm c.index.values) (enrichment : Enrichment) (path : String) :
    (enrichVisiting visited enrichment c).index.get? path =
      (c.index.get? path).map (enrichedField enrichment c) := by
  have hperm : (visited.map fun n => (n.path, n)).Perm c.index.entries := by
    rw [← map_values_eq_entries h]
    exact hvisited.map _
  have hnodup : ((visited.map fun n => (n.path, n)).map Prod.fst).Nodup :=
    (hperm.map Prod.fst).nodup_iff.2 c.index.nodup_keys
  have hupdates : updatesFor visited enrichment c =
      (visited.map fun n => (n.path, n)).filterMap fun entry =>
        (enrichment entry.2 c).map fun entries => (entry.1, entries) := by
    rw [List.filterMap_map]
    rfl
  have hfield : SortedMap.lookup path (visited.map fun n => (n.path, n)) = c.index.get? path :=
    SortedMap.lookup_of_perm hperm hnodup path
  show ((updatesFor visited enrichment c).foldl _ c.index).get? path = _
  rw [hupdates, SortedMap.get?_foldl_modify extend
    (SortedMap.nodup_fst_filterMap (fun n => enrichment n c) hnodup),
    SortedMap.lookup_filterMap (fun n => enrichment n c) hnodup, hfield]
  cases c.index.get? path with
  | none => rfl
  | some n => simp [elim_extend]

theorem get?_enrich (h : OwnPaths c.index) (enrichment : Enrichment) (path : String) :
    (enrich enrichment c).index.get? path =
      (c.index.get? path).map (enrichedField enrichment c) := by
  rw [enrich_eq_enrichVisiting]
  exact get?_enrichVisiting h (List.Perm.refl _) enrichment path

theorem enrichVisiting_eq_enrich (h : OwnPaths c.index) {visited : List FieldNode}
    (hvisited : visited.Perm c.index.values) (enrichment : Enrichment) :
    enrichVisiting visited enrichment c = enrich enrichment c := by
  have hindex : (enrichVisiting visited enrichment c).index = (enrich enrichment c).index := by
    apply SortedMap.eq_of_get?_eq
    intro path
    rw [get?_enrichVisiting h hvisited, get?_enrich h]
  calc enrichVisiting visited enrichment c
    _ = { c with index := (enrichVisiting visited enrichment c).index } := rfl
    _ = { c with index := (enrich enrichment c).index } := by rw [hindex]
    _ = enrich enrichment c := rfl

theorem OwnPaths.enrich (h : OwnPaths c.index) (enrichment : Enrichment) :
    OwnPaths (enrich enrichment c).index := by
  intro path n hn
  rw [get?_enrich h] at hn
  obtain ⟨m, hm, rfl⟩ := Option.map_eq_some_iff.1 hn
  exact h path m hm

/-! ### Several enrichments -/

/-- The extensions of a field of a context behind some enrichments: each is asked for the field with
what was merged so far, on the context behind the enrichments before it. -/
def foldedExtensions (enrichments : List Enrichment) (c : Context) (n : FieldNode) : Fields :=
  enrichments.zipIdx.foldl
    (fun extensions entry =>
      shallowMerge extensions
        (entry.1 { n with extensions } (enriched (enrichments.take entry.2) c)))
    n.extensions

theorem foldedExtensions_concat (enrichments : List Enrichment) (enrichment : Enrichment)
    (c : Context) (n : FieldNode) :
    foldedExtensions (enrichments ++ [enrichment]) c n =
      shallowMerge (foldedExtensions enrichments c n)
        (enrichment { n with extensions := foldedExtensions enrichments c n }
          (enriched enrichments c)) := by
  have hbefore : ∀ entry ∈ enrichments.zipIdx,
      (enrichments ++ [enrichment]).take entry.2 = enrichments.take entry.2 := by
    intro entry hentry
    have hlt := List.snd_lt_of_mem_zipIdx hentry
    exact List.take_append_of_le_length (by omega)
  have hfold : enrichments.zipIdx.foldl
      (fun extensions entry => shallowMerge extensions
        (entry.1 { n with extensions }
          (enriched ((enrichments ++ [enrichment]).take entry.2) c))) n.extensions =
      foldedExtensions enrichments c n := by
    apply List.foldl_ext
    intro extensions entry hentry
    rw [hbefore entry hentry]
  rw [foldedExtensions, List.zipIdx_append, List.foldl_append, hfold]
  simp

theorem OwnPaths.enriched (h : OwnPaths c.index) (enrichments : List Enrichment) :
    OwnPaths (enriched enrichments c).index := by
  induction enrichments generalizing c with
  | nil => exact h
  | cons enrichment rest ih => exact ih (h.enrich enrichment)

theorem exists_enriched_eq (enrichments : List Enrichment) (c : Context) :
    ∃ index, enriched enrichments c = { c with index } := by
  induction enrichments generalizing c with
  | nil => exact ⟨c.index, rfl⟩
  | cons enrichment rest ih =>
    obtain ⟨index, hindex⟩ := ih (enrich enrichment c)
    exact ⟨index, hindex⟩

/-- Behind some enrichments every field has its folded extensions, and is else as it was. -/
theorem get?_enriched (h : OwnPaths c.index) (enrichments : List Enrichment) (path : String) :
    (enriched enrichments c).index.get? path =
      (c.index.get? path).map fun n =>
        { n with extensions := foldedExtensions enrichments c n } := by
  induction enrichments using List.reverseRecOn with
  | nil => exact Option.map_id'.symm
  | append_singleton enrichments enrichment ih =>
    rw [enriched_concat, get?_enrich (h.enriched enrichments), ih, Option.map_map]
    apply congrArg (Option.map · (c.index.get? path))
    funext n
    simp [enrichedField, foldedExtensions_concat]

/-- Enrichments only annotate. Of the context they change the index alone, which keeps its fields,
and of a field the extensions alone. These are a left fold of shallow merges: each enrichment is
asked for the field as the context behind the enrichments before it holds it, on this context. And
the outcome is the same in whatever order an enrichment visits the fields. -/
theorem enrichments_only_annotate (h : OwnPaths c.index) (enrichments : List Enrichment) :
    (∃ index, enriched enrichments c = { c with index }) ∧
      (∀ path, (enriched enrichments c).index.get? path =
        (c.index.get? path).map fun n =>
          { n with extensions := foldedExtensions enrichments c n }) ∧
      ∀ before enrichment (visited : List FieldNode),
        visited.Perm (enriched before c).index.values →
          enrichVisiting visited enrichment (enriched before c) =
            enriched (before ++ [enrichment]) c := by
  refine ⟨exists_enriched_eq enrichments c, get?_enriched h enrichments, ?_⟩
  intro before enrichment visited hvisited
  rw [enriched_concat]
  exact enrichVisiting_eq_enrich (h.enriched before) hvisited enrichment

/-- A field without schema keywords and data. -/
def bareField [Patterns] (path : String) : FieldNode :=
  FieldTree.node .empty .empty none path .property false []

/-- A context with two fields. -/
def twoFields : Context :=
  { Context.start .empty none with
    index := SortedMap.ofList [("", bareField ""), ("/a", bareField "/a")] }

/-- Notes on every field how many fields have extensions. -/
def counting (key : String) : Enrichment := fun _ c =>
  some [(key, .int (c.index.values.filter fun n => !n.extensions.isEmpty).length)]

/-- Of two enrichments that count the fields with extensions neither sees its own. -/
theorem enrichments_only_annotate_counting :
    OwnPaths twoFields.index ∧
      ∀ path ∈ ["", "/a"],
        ((enriched [counting "first", counting "second"] twoFields).index.get? path).map
            FieldNode.extensions = some [("first", .int 0), ("second", .int 2)] := by
  have hown : OwnPaths twoFields.index := by
    intro path n hn
    have hmem := SortedMap.mem_entries_iff.2 hn
    have hentries : twoFields.index.entries = [("", bareField ""), ("/a", bareField "/a")] := rfl
    simp only [hentries, List.mem_cons, Prod.mk.injEq, List.not_mem_nil, or_false] at hmem
    rcases hmem with ⟨rfl, rfl⟩ | ⟨rfl, rfl⟩ <;> rfl
  refine ⟨hown, ?_⟩
  intro path hpath
  obtain ⟨-, hfields, -⟩ :=
    enrichments_only_annotate hown [counting "first", counting "second"]
  rw [hfields]
  simp only [List.mem_cons, List.not_mem_nil, or_false] at hpath
  rcases hpath with rfl | rfl <;> rfl

end Pipeline
end SchemaForm

import SchemaForm.Proofs.Schema.KeysUnique

/-!
# Preparing branches

Nothing in the preparation of a schema without references looks beyond the schema at hand: the
normal form of a schema is reached within its own levels, and there is nothing to inline. So the
branches of a combinator are prepared as each of them is on its own.
-/

namespace SchemaForm.Schema

open Json

/-! ### Current spelling -/

/-- The keywords under which the current spelling puts what stood under another one. -/
def currentPlaces : List String :=
  ["$defs", "prefixItems", "items", "exclusiveMinimum", "exclusiveMaximum", "dependentRequired",
    "dependentSchemas"]

/-- A property of keywords with their values that new spellings cannot lose: it goes to the current
places, to the schema that allows all, to parts of an object and to objects with one more part. -/
structure Spelled (P : String → Json → Prop) : Prop where
  move : ∀ keyword place v, place ∈ currentPlaces → P keyword v → P place v
  allow : ∀ keyword, P keyword (.bool true) → P "items" .empty
  part : ∀ keyword entries entry, P keyword (.obj entries) → entry ∈ entries →
    P keyword (.obj [entry])
  extend : ∀ keyword entries name v, P keyword (.obj entries) → P keyword (.obj [(name, v)]) →
    P keyword (.obj (Entries.insert name v entries))

namespace Spelled

variable {P : String → Json → Prop}

/-- Every keyword has the property with its value. -/
def All (P : String → Json → Prop) (keywords : Fields) : Prop := ∀ e ∈ keywords, P e.1 e.2

theorem All.get? {keywords : Fields} (h : All P keywords) {keyword : String} {v : Json}
    (hv : Entries.get? keyword keywords = some v) : P keyword v :=
  h _ (Entries.mem_of_get? hv)

theorem All.swapErase {keywords : Fields} (h : All P keywords) (keyword : String) :
    All P (Entries.swapErase keyword keywords) :=
  fun e he => h e (Entries.mem_of_mem_swapErase he)

theorem All.insert {keywords : Fields} (h : All P keywords) {keyword : String} {v : Json}
    (hv : P keyword v) : All P (Entries.insert keyword v keywords) := by
  intro e he
  rcases Entries.mem_insert he with rfl | he
  · exact hv
  · exact h e he

theorem renameDefinitions (hP : Spelled P) {keywords : Fields} (h : All P keywords) :
    All P (renameDefinitions keywords) := by
  unfold Schema.renameDefinitions
  split
  · exact h
  · split
    · next definitions hfound =>
      exact (h.swapErase _).insert (hP.move _ _ _ (by decide) (h.get? hfound))
    · exact h

theorem splitTuple (hP : Spelled P) {keywords : Fields} (h : All P keywords) :
    All P (splitTuple keywords) := by
  unfold Schema.splitTuple
  split
  · next items hitems =>
    have hrenamed := (h.swapErase "items").insert
      (hP.move _ "prefixItems" _ (by decide) (h.get? hitems))
    have hrest := hrenamed.swapErase "additionalItems"
    dsimp only
    split
    · next hflag => exact hrest.insert (hP.allow _ (hrenamed.get? hflag))
    · next schema hschema =>
      exact hrest.insert (hP.move _ _ _ (by decide) (hrenamed.get? hschema))
    · exact hrest
  · exact h

theorem numberBound (hP : Spelled P) {exclusive : String} (hplace : exclusive ∈ currentPlaces)
    (bound : String) {keywords : Fields} (h : All P keywords) :
    All P (numberBound exclusive bound keywords) := by
  unfold Schema.numberBound
  split
  · split
    · next limit hlimit _ =>
      exact (h.swapErase _).insert (hP.move _ _ _ hplace (h.get? hlimit))
    · exact h.swapErase _
  · exact h

theorem moveDependency (hP : Spelled P) {keywords : Fields} (h : All P keywords)
    {keyword trigger : String} {dependency : Json}
    (hdependency : P keyword (.obj [(trigger, dependency)])) :
    All P (moveDependency keywords trigger dependency) := by
  have hplace : ∀ flag : Bool,
      (if flag then "dependentRequired" else "dependentSchemas") ∈ currentPlaces := by decide
  have hmoved := hP.move _ _ _ (hplace dependency.isArr) hdependency
  unfold Schema.moveDependency
  dsimp only
  split
  · exact h.insert hmoved
  · next entries hentries => exact h.insert (hP.extend _ _ _ _ (h.get? hentries) hmoved)
  · exact h

theorem splitDependencies (hP : Spelled P) {keywords : Fields} (h : All P keywords) :
    All P (splitDependencies keywords) := by
  have hrest := h.swapErase "dependencies"
  unfold Schema.splitDependencies
  dsimp only
  split
  · next dependencies hdependencies =>
    have hparts : ∀ e ∈ dependencies, P "dependencies" (.obj [e]) :=
      fun e he => hP.part _ _ e (h.get? hdependencies) he
    clear hdependencies
    generalize Entries.swapErase "dependencies" keywords = acc at hrest ⊢
    induction dependencies generalizing acc with
    | nil => exact hrest
    | cons e rest ih =>
      rw [List.foldl_cons]
      refine ih (fun e he => hparts e (List.mem_cons_of_mem _ he)) _ ?_
      exact hP.moveDependency hrest (hparts e List.mem_cons_self)
  · exact hrest

theorem currentKeywords (hP : Spelled P) {keywords : Fields} (h : All P keywords) :
    All P (currentKeywords keywords) :=
  hP.splitDependencies <| hP.numberBound (by decide) _ <| hP.numberBound (by decide) _ <|
    hP.splitTuple <| hP.renameDefinitions h

end Spelled

/-! ### Levels -/

theorem levels_pos (v : Json) : 0 < levels v := by
  cases v <;> simp only [levels] <;> omega

theorem levelsEntries_le_iff {entries : Fields} {n : Nat} :
    levelsEntries entries ≤ n ↔ ∀ e ∈ entries, levels e.2 ≤ n := by
  induction entries with
  | nil => simp [levelsEntries]
  | cons e rest ih =>
    simp only [levelsEntries, List.mem_cons, forall_eq_or_imp, ← ih]
    omega

theorem levelsItems_le_iff {items : List Json} {n : Nat} :
    levelsItems items ≤ n ↔ ∀ v ∈ items, levels v ≤ n := by
  induction items with
  | nil => simp [levelsItems]
  | cons v rest ih =>
    simp only [levelsItems, List.mem_cons, forall_eq_or_imp, ← ih]
    omega

theorem levels_le_levelsEntries {entries : Fields} {e : String × Json} (he : e ∈ entries) :
    levels e.2 ≤ levelsEntries entries :=
  levelsEntries_le_iff.1 (Nat.le_refl _) e he

theorem levels_le_levelsItems {items : List Json} {v : Json} (hv : v ∈ items) :
    levels v ≤ levelsItems items :=
  levelsItems_le_iff.1 (Nat.le_refl _) v hv

/-- A new spelling is no deeper than the one it replaces. -/
theorem spelled_levels (n : Nat) : Spelled fun _ v => levels v ≤ n where
  move _ _ _ _ h := h
  allow _ h := h
  part _ entries e h he := by
    have hentries := levels_le_levelsEntries he
    simp only [levels, levelsEntries] at h ⊢
    omega
  extend _ entries name v h hv := by
    have hinsert : levelsEntries (Entries.insert name v entries) ≤
        max (levels v) (levelsEntries entries) := by
      refine levelsEntries_le_iff.2 fun e he => ?_
      rcases Entries.mem_insert he with rfl | he
      · exact Nat.le_max_left _ _
      · exact Nat.le_trans (levels_le_levelsEntries he) (Nat.le_max_right _ _)
    simp only [levels, levelsEntries] at h hv ⊢
    omega

/-- The schemas below the current spelling have fewer levels. -/
theorem levels_lt_of_mem_below {keywords : Fields} {e : String × Json}
    (he : e ∈ below (currentKeywords keywords)) : levels e.2 < levels (.obj keywords) := by
  have hcurrent := (spelled_levels (levelsEntries keywords)).currentKeywords
    fun _ h => levels_le_levelsEntries h
  have hle : levels e.2 ≤ levelsEntries keywords := by
    refine of_mem_below (P := fun v => levels v ≤ levelsEntries keywords) ?_ ?_ hcurrent he
    · intro entries h entry hentry
      have := levels_le_levelsEntries hentry
      simp only [levels] at h
      omega
    · intro items h v hv
      have := levels_le_levelsItems hv
      simp only [levels] at h
      omega
  simp only [levels]
  omega

/-- Deeper than the levels of a schema there is nothing to normalize. -/
theorem normalizeLevels_eq_normalize {depth : Nat} {schema : Json} (h : levels schema ≤ depth) :
    normalizeLevels depth schema = normalize schema := by
  suffices hdepths : ∀ (depth other : Nat) (schema : Json), levels schema ≤ depth →
      levels schema ≤ other → normalizeLevels depth schema = normalizeLevels other schema from
    hdepths _ _ schema h (Nat.le_refl _)
  clear h
  intro depth
  induction depth with
  | zero =>
    intro other schema h
    have := levels_pos schema
    omega
  | succ depth ih =>
    intro other schema h hother
    cases other with
    | zero =>
      have := levels_pos schema
      omega
    | succ other =>
      cases schema with
      | obj keywords =>
        rw [normalizeLevels, normalizeLevels]
        congr 1
        refine mapSchemas_congr fun e he => ?_
        have := levels_lt_of_mem_below he
        exact ih other e.2 (by omega) (by omega)
      | _ => rfl

/-- The normal form of an object comes from those of the schemas below its current spelling. -/
theorem normalize_obj (keywords : Fields) :
    normalize (.obj keywords) = .obj (mapSchemas normalize (currentKeywords keywords)) := by
  rw [normalize, levels, Nat.add_comm, normalizeLevels]
  congr 1
  refine mapSchemas_congr fun e he => normalizeLevels_eq_normalize ?_
  have := levels_lt_of_mem_below he
  simp only [levels] at this
  omega

theorem normalize_of_not_obj {v : Json} (h : v.isObj = false) : normalize v = v := by
  unfold normalize
  cases v with
  | obj keywords => cases h
  | _ => cases levels _ <;> rfl

/-! ### No references -/

/-- The value holds no reference and is none under its key. -/
def Free (key : String) (v : Json) : Prop :=
  references v = [] ∧ (key = "$ref" → ∀ text, v ≠ .str text)

theorem referencesEntries_eq_nil_iff {entries : Fields} :
    referencesEntries entries = [] ↔ ∀ e ∈ entries, Free e.1 e.2 := by
  induction entries with
  | nil => simp [referencesEntries]
  | cons e rest ih =>
    obtain ⟨key, v⟩ := e
    rw [List.forall_mem_cons, ← ih]
    cases v with
    | str text =>
      rw [referencesEntries]
      by_cases hkey : key = "$ref"
      · simp [hkey, Free]
      · simp [hkey, Free, references]
    | _ => simp [referencesEntries, Free]

theorem referencesItems_eq_nil_iff {items : List Json} :
    referencesItems items = [] ↔ ∀ v ∈ items, references v = [] := by
  induction items with
  | nil => simp [referencesItems]
  | cons v rest ih => simp [referencesItems, ih]

theorem free_obj_iff {key : String} {entries : Fields} :
    Free key (.obj entries) ↔ ∀ e ∈ entries, Free e.1 e.2 := by
  rw [← referencesEntries_eq_nil_iff]
  simp [Free, references]

/-- A new spelling has no reference that the old one has not. -/
theorem spelled_free : Spelled Free where
  move _ place _ hplace h := by
    have hne : place ≠ "$ref" := by
      rintro rfl
      exact absurd hplace (by decide)
    exact ⟨h.1, fun heq => absurd heq hne⟩
  allow _ _ := free_obj_iff.2 (by simp)
  part _ entries e h he := free_obj_iff.2 (by simpa using free_obj_iff.1 h e he)
  extend _ entries name v h hv := by
    refine free_obj_iff.2 fun e he => ?_
    rcases Entries.mem_insert he with rfl | he
    · exact free_obj_iff.1 hv _ List.mem_cons_self
    · exact free_obj_iff.1 h e he

theorem free_mapHeld {f : Json → Json} (hf : ∀ w, references w = [] → references (f w) = [])
    (hstr : ∀ w text, f w = .str text → w = .str text) {keyword : String} {v : Json}
    (h : Free keyword v) : Free keyword (mapHeld f (holder? keyword) v) := by
  by_cases hkeyword : keyword = "$ref"
  · subst hkeyword
    exact h
  · refine ⟨?_, fun heq => absurd heq hkeyword⟩
    unfold mapHeld
    split
    · next entries _ =>
      have hmapped : Free keyword (.obj (entries.map fun e => (e.1, f e.2))) := by
        refine free_obj_iff.2 fun e he => ?_
        obtain ⟨entry, hentry, rfl⟩ := List.mem_map.1 he
        obtain ⟨hnone, hnot⟩ := free_obj_iff.1 h entry hentry
        exact ⟨hf _ hnone, fun heq text hfound => hnot heq text (hstr _ _ hfound)⟩
      exact hmapped.1
    · exact hf _ h.1
    · next items _ =>
      refine referencesItems_eq_nil_iff.2 fun w hw => ?_
      obtain ⟨item, hitem, rfl⟩ := List.mem_map.1 hw
      exact hf _ (referencesItems_eq_nil_iff.1 h.1 item hitem)
    · exact h.1

theorem eq_str_of_normalizeLevels {depth : Nat} {schema : Json} {text : String}
    (h : normalizeLevels depth schema = .str text) : schema = .str text := by
  cases depth with
  | zero => exact h
  | succ depth =>
    cases schema with
    | obj keywords => cases h
    | _ => exact h

theorem references_normalizeLevels (depth : Nat) {schema : Json} (h : references schema = []) :
    references (normalizeLevels depth schema) = [] := by
  induction depth generalizing schema with
  | zero => exact h
  | succ depth ih =>
    cases schema with
    | obj keywords =>
      have hcurrent := spelled_free.currentKeywords (referencesEntries_eq_nil_iff.1 h)
      refine referencesEntries_eq_nil_iff.2 fun e he => ?_
      obtain ⟨entry, hentry, rfl⟩ := List.mem_map.1 he
      exact free_mapHeld (fun w hw => ih hw) (fun _ _ => eq_str_of_normalizeLevels)
        (hcurrent entry hentry)
    | _ => exact h

/-- Where no reference has a target, nothing is inlined. -/
theorem inlineWith_none (v : Json) : inlineWith (fun _ => none) v = v := by
  refine eq_self_of_mapSchemas (fun _ hv => inlineWith_of_not_obj hv _) ?_ v
  intro keywords hbelow
  rw [inlineWith, inlineKeywords_eq_mapSchemas, hbelow]
  cases reference? keywords <;> rfl

theorem resolveReferences_of_free {schema : Json} (h : references schema = []) :
    resolveReferences schema = schema := by
  rw [resolveReferences, h, expand]
  simpa using inlineWith_none schema

/-- The preparation of a schema without references. -/
theorem prepare_of_free {schema : Json} (h : references schema = []) :
    prepare schema = flatten (normalize schema) := by
  have hnormal : references (normalize schema) = [] := references_normalizeLevels _ h
  rw [prepare, resolveReferences_of_free hnormal]

/-- Without references the preparation of an object is one. -/
theorem isObj_prepare {schema : Json} (hobj : schema.isObj = true)
    (hfree : references schema = []) : (prepare schema).isObj = true := by
  cases schema with
  | obj fields =>
    rw [prepare_of_free hfree, normalize_obj, flatten, bottomUp, absorbParts]
    split
    · rfl
    · rfl
  | _ => cases hobj

/-! ### Branches -/

/-- The schema that offers branches and says nothing else. -/
def branchesOf (options : List Json) : Json := .obj [("oneOf", .arr options)]

theorem normalize_branchesOf (options : List Json) :
    normalize (branchesOf options) = branchesOf (options.map normalize) := by
  have hcurrent : currentKeywords [("oneOf", .arr options)] = [("oneOf", .arr options)] := rfl
  rw [branchesOf, normalize_obj, hcurrent]
  rfl

theorem flatten_branchesOf (options : List Json) :
    flatten (branchesOf options) = branchesOf (options.map flatten) := by
  show branchesOf (bottomUpItems absorbParts options) = _
  rw [bottomUpItems_eq_map]
  rfl

/-- Branches without references are prepared one by one. -/
theorem prepare_branchesOf {options : List Json} (h : ∀ option ∈ options, references option = []) :
    prepare (branchesOf options) = branchesOf (options.map prepare) := by
  have hfree : references (branchesOf options) = [] := by
    refine referencesEntries_eq_nil_iff.2 fun e he => ?_
    rw [List.mem_singleton.1 he]
    exact ⟨referencesItems_eq_nil_iff.2 h, fun _ _ heq => by cases heq⟩
  rw [prepare_of_free hfree, normalize_branchesOf, flatten_branchesOf, List.map_map]
  congr 1
  exact List.map_congr_left fun option hoption => (prepare_of_free (h option hoption)).symm

end SchemaForm.Schema

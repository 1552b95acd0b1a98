import SchemaForm.Proofs.Pipeline.Situated
import SchemaForm.Proofs.Store.Dirty
import SchemaForm.Proofs.Store.Plain
import SchemaForm.Regex.Engine

/-!
# Who is told

A write that makes a new model tells the listeners of the affected paths whose fields are there and
differ, then those of the model, then those of the form state. Every listener is told at most once.
-/

namespace SchemaForm

namespace Store

open List

variable {before : FormModel} {dirty : SortedSet} {s : Store}

theorem mem_pathNotifications_iff {after : FormModel} {path : String} {ids : List Nat}
    {notification : Notification} :
    notification ∈ pathNotifications before after dirty path ids ↔
      ∃ id ∈ ids, ∃ node, notification = .path id node ∧ Dirty.affects path dirty = true ∧
        after.get? path = some node ∧ Dirty.differs (before.get? path) node = true := by
  unfold pathNotifications
  constructor
  · intro h
    split at h
    · next haffects =>
      split at h
      · next node hnode =>
        split at h
        · next hdiffers =>
          obtain ⟨id, hid, rfl⟩ := List.mem_map.1 h
          exact ⟨id, hid, node, rfl, haffects, hnode, hdiffers⟩
        · cases h
      · cases h
    · cases h
  · rintro ⟨id, hid, node, rfl, haffects, hnode, hdiffers⟩
    rw [if_pos haffects, hnode]
    dsimp only
    rw [if_pos hdiffers]
    exact List.mem_map.2 ⟨id, hid, rfl⟩

/-- The listeners of a path are told together or not at all. -/
theorem map_id_pathNotifications (before after : FormModel) (dirty : SortedSet) (path : String)
    (ids : List Nat) :
    (pathNotifications before after dirty path ids).map Notification.id = ids ∨
      (pathNotifications before after dirty path ids).map Notification.id = [] := by
  unfold pathNotifications
  split
  · split
    · split
      · left
        rw [List.map_map]
        exact List.map_id ids
      · exact Or.inr rfl
    · exact Or.inr rfl
  · exact Or.inr rfl

/-- What the path listeners of a store are told when its model replaces another. -/
def heard (before : FormModel) (dirty : SortedSet) (s : Store) : List Notification :=
  s.listeners.paths.entries.flatMap fun entry =>
    pathNotifications before s.model dirty entry.1 entry.2

theorem notifications_eq (before : FormModel) (dirty : SortedSet) (s : Store) :
    notifications before dirty s =
      heard before dirty s ++ s.listeners.models.map (.model · s.model) ++
        s.listeners.formStates.map (.formState · s.formState) := rfl

theorem mem_heard_iff {notification : Notification} :
    notification ∈ heard before dirty s ↔
      ∃ path id node, notification = .path id node ∧ id ∈ s.listeners.listenersAt path ∧
        Dirty.affects path dirty = true ∧ s.model.get? path = some node ∧
        Dirty.differs (before.get? path) node = true := by
  unfold heard
  rw [List.mem_flatMap]
  constructor
  · rintro ⟨⟨path, ids⟩, hentry, h⟩
    obtain ⟨id, hid, node, heq, hrest⟩ := mem_pathNotifications_iff.1 h
    exact ⟨path, id, node, heq, Registry.mem_listenersAt_iff.2 ⟨ids, hentry, hid⟩, hrest⟩
  · rintro ⟨path, id, node, heq, hid, hrest⟩
    obtain ⟨ids, hentry, hid⟩ := Registry.mem_listenersAt_iff.1 hid
    exact ⟨(path, ids), hentry, mem_pathNotifications_iff.2 ⟨id, hid, node, heq, hrest⟩⟩

/-- Only path listeners are told about a field. -/
theorem mem_heard_of_path {id : Nat} {node : FieldNode}
    (h : .path id node ∈ notifications before dirty s) : .path id node ∈ heard before dirty s := by
  rw [notifications_eq, List.mem_append, List.mem_append] at h
  rcases h with (h | h) | h
  · exact h
  · obtain ⟨other, -, ⟨⟩⟩ := List.mem_map.1 h
  · obtain ⟨other, -, ⟨⟩⟩ := List.mem_map.1 h

/-- What is told to the number of a path listener is heard at its path. -/
theorem exists_of_id_mem {notification : Notification} {path : String}
    (hs : s.listeners.Sound) (hid : notification.id ∈ s.listeners.listenersAt path)
    (h : notification ∈ notifications before dirty s) :
    ∃ node, notification = .path notification.id node ∧ Dirty.affects path dirty = true ∧
      s.model.get? path = some node := by
  obtain ⟨hmodels, hstates⟩ := hs.path_alone hid
  rw [notifications_eq, List.mem_append, List.mem_append] at h
  rcases h with (h | h) | h
  · obtain ⟨other, id, node, rfl, hother, haffects, hnode, -⟩ := mem_heard_iff.1 h
    have hpath : other = path := hs.path_unique hother hid
    exact ⟨node, rfl, hpath ▸ haffects, hpath ▸ hnode⟩
  · obtain ⟨id, hmem, rfl⟩ := List.mem_map.1 h
    exact absurd hmem hmodels
  · obtain ⟨id, hmem, rfl⟩ := List.mem_map.1 h
    exact absurd hmem hstates

theorem map_id_heard_sublist (before : FormModel) (dirty : SortedSet) (s : Store) :
    (heard before dirty s).map Notification.id <+ s.listeners.paths.entries.flatMap Prod.snd := by
  unfold heard
  induction s.listeners.paths.entries with
  | nil => exact List.Sublist.refl _
  | cons entry rest ih =>
    rw [List.flatMap_cons, List.map_append, List.flatMap_cons]
    refine List.Sublist.append ?_ ih
    rcases map_id_pathNotifications before s.model dirty entry.1 entry.2 with h | h
    · rw [h]
    · rw [h]
      exact List.nil_sublist _

/-- Nobody is told twice. -/
theorem nodup_map_id_notifications (hs : s.listeners.Sound) :
    ((notifications before dirty s).map Notification.id).Nodup := by
  refine hs.nodup.sublist ?_
  rw [notifications_eq, List.map_append, List.map_append, List.map_map, List.map_map]
  have hmodels : s.listeners.models.map (Notification.id ∘ (.model · s.model)) =
      s.listeners.models := List.map_id _
  have hstates : s.listeners.formStates.map (Notification.id ∘ (.formState · s.formState)) =
      s.listeners.formStates := List.map_id _
  rw [hmodels, hstates]
  exact ((map_id_heard_sublist before dirty s).append_right _).append_right _

/-! ### Accepted writes -/

/-- An accepted write of a new value renews the model, and tells whom the touched paths affect. -/
theorem setData_accepted [Patterns] {s after : Store} {path : String} {value : Json}
    {told : List Notification} {notes : List String} (hs : Plain s)
    (h : s.setData path value = ⟨after, ⟨.ok told, notes⟩⟩) (hnew : s.Changes path value) :
    ∃ dirty, Dirty.paths path s.model.conditionalDeps = .ok dirty ∧
      told = notifications s.model dirty after ∧ after.listeners = s.listeners := by
  rcases setData_cases s path value with ⟨e, heq⟩ | ⟨hsame, -⟩ | ⟨data, dirty, -, hdirty, heq⟩
  · rw [heq] at h
    cases h
  · exact absurd hnew hsame
  · obtain ⟨cache, -, hcommit⟩ := commit_default hs.config hs.cache (some data) dirty
    rw [heq, hcommit] at h
    cases h
    exact ⟨dirty, hdirty, rfl, rfl⟩

theorem Plain.upward [Patterns] {s : Store} (hs : Plain s) : s.model.conditionalDeps.Upward := by
  obtain ⟨data, hmodel⟩ := hs.model
  rw [hmodel]
  exact Pipeline.upward_dependencies _ _

/-- In a list without repeated numbers, the number of an element leaves that element alone. -/
theorem filter_id_eq_singleton {told : List Notification} (notification : Notification)
    (hnodup : (told.map Notification.id).Nodup) (hmem : notification ∈ told) :
    told.filter (fun n => n.id = notification.id) = [notification] := by
  induction told with
  | nil => cases hmem
  | cons head rest ih =>
    rw [List.map_cons, List.nodup_cons] at hnodup
    obtain ⟨hhead, hrest⟩ := hnodup
    rcases List.mem_cons.1 hmem with rfl | hmem
    · rw [List.filter_cons_of_pos (by simp), List.cons.injEq]
      refine ⟨rfl, ?_⟩
      rw [List.filter_eq_nil_iff]
      intro n hn heq
      exact hhead (List.mem_map.2 ⟨n, hn, of_decide_eq_true heq⟩)
    · rw [List.filter_cons_of_neg, ih hrest hmem]
      intro heq
      exact hhead (List.mem_map.2 ⟨notification, hmem, (of_decide_eq_true heq).symm⟩)

/-! ### An array with one number

The runs below start from the store of an empty schema and an array with one number, whose element
has one listener. -/

section Watching

open Json Pipeline

/-- The field of the element. -/
def elementNode [Patterns] (k : Int) : FieldNode :=
  FieldTree.node .empty .empty (some (int k)) "/0" .arrayItem false []

/-- The field of the array. -/
def arrayNode [Patterns] (k : Int) : FieldNode :=
  FieldTree.node .empty .empty (some (.arr [int k])) "" .root false ["/0"]

/-- The fields of the array. -/
def arrayIndex [Patterns] (k : Int) : FieldIndex :=
  ⟨[("", arrayNode k), ("/0", elementNode k)],
    List.pairwise_pair.2 (show "" < "/0" by decide)⟩

theorem conditional_empty [Patterns] (data : Option Json) :
    Conditional.resolve .empty data "" = (.empty, []) := by
  rw [Json.empty, Conditional.resolve_of_if_none rfl, Conditional.resolveBelow_nil]

theorem plainIndex_array [Patterns] (k : Int) :
    plainIndex .empty (some (.arr [int k])) .empty = arrayIndex k := by
  have helement : FieldTree.below .empty .empty (some (int k)) "/0" = ([], []) := by
    rw [FieldTree.below]
    rfl
  have hbelow : FieldTree.below .empty .empty (some (.arr [int k])) "" =
      (["/0"], [elementNode k]) := by
    rw [FieldTree.below]
    show FieldTree.join ([], []) (FieldTree.belowItems .empty [] .empty [int k] "" 0) = _
    rw [FieldTree.belowItems, show Pointer.appendIndex "" 0 = "/0" from rfl]
    dsimp only
    rw [helement, FieldTree.belowItems]
    rfl
  show FieldTree.build .empty (situated .empty _) _ = _
  rw [situated_empty, FieldTree.build, FieldTree.fields, hbelow]
  apply SortedMap.ext
  have hlt : "" < "/0" := by decide
  show (SortedMap.ofList [("/0", elementNode k), ("", arrayNode k)]).entries =
    [("", arrayNode k), ("/0", elementNode k)]
  simp only [SortedMap.ofList, SortedMap.insert, SortedMap.insertEntry, SortedMap.empty,
    List.foldl_cons, List.foldl_nil, if_pos hlt]

theorem plainModel_array [Patterns] (k : Int) :
    plainModel (Schema.prepare .empty) (some (.arr [int k])) .empty =
      ⟨.empty, some (.arr [int k]), arrayIndex k, SortedMap.empty, []⟩ := by
  have happly : Defaults.apply (arrayIndex k) (some (.arr [int k])) =
      (some (.arr [int k]), arrayIndex k) := rfl
  rw [prepare_empty]
  unfold plainModel
  rw [plainIndex_array, happly, situated_empty, dependencies, conditional_empty]
  rfl

/-- The store of an array with a one, and one listener of the element. -/
def watching [Patterns] (cache : Option StaticCache) : Store :=
  ((first .empty cache (some (.arr [int 1]))).subscribePath "/0").1

theorem exists_reachable_watching :
    ∃ cache, CacheCoherent .empty cache ∧ Reachable .default (watching cache) := by
  obtain ⟨cache, hcoherent, hcreate⟩ := create_default .empty (some (.arr [int 1]))
  refine ⟨cache, hcoherent, ?_⟩
  have hfirst : Reachable .default (first .empty cache (some (.arr [int 1]))) :=
    .created (congrArg Traced.result hcreate)
  exact hfirst.next (.subscribePath "/0")

theorem watching_model [Patterns] (cache : Option StaticCache) :
    (watching cache).model = ⟨.empty, some (.arr [int 1]), arrayIndex 1, SortedMap.empty, []⟩ :=
  plainModel_array 1

/-- The field of the element differs when the one has become a two. -/
theorem differs_element [Patterns] (cache : Option StaticCache) {after : Store}
    (hmodel : after.model = ⟨.empty, some (.arr [int 2]), arrayIndex 2, SortedMap.empty, []⟩) :
    after.node? "/0" = some (elementNode 2) ∧
      Dirty.differs ((watching cache).node? "/0") (elementNode 2) = true := by
  constructor
  · rw [node?, hmodel]
    rfl
  · rw [node?, watching_model]
    rfl

/-- A write that makes the one a two is accepted. -/
theorem setData_watching [Patterns] {cache : Option StaticCache}
    (hcache : CacheCoherent .empty cache)
    {path : String} {value : Json} {found : Option Json} {dirty : SortedSet}
    (hfound : getAt (some (.arr [int 1])) path = .ok found)
    (hnew : ¬ (found.any fun v => v.identical value) = true)
    (hset : setAt (some (.arr [int 1])) path value = .ok (.arr [int 2]))
    (hdirty : Dirty.paths path SortedMap.empty = .ok dirty) :
    ∃ after, after.model = ⟨.empty, some (.arr [int 2]), arrayIndex 2, SortedMap.empty, []⟩ ∧
      after.listeners = (watching cache).listeners ∧
      (watching cache).setData path value =
        ⟨after, .ok (notifications (watching cache).model dirty after)⟩ ∧
      (watching cache).Changes path value := by
  have hdata : (watching cache).data = some (.arr [int 1]) :=
    congrArg FormModel.data (watching_model cache)
  have hdeps : (watching cache).model.conditionalDeps = SortedMap.empty :=
    congrArg FormModel.conditionalDeps (watching_model cache)
  obtain ⟨after, -, hcommit⟩ :=
    commit_default (s := watching cache) rfl hcache (some (.arr [int 2])) dirty
  refine ⟨(watching cache).renewed after (some (.arr [int 2])), plainModel_array 2, rfl, ?_, ?_⟩
  · rw [setData_eq_commit (hdata ▸ hfound) hnew (hdata ▸ hset) (hdeps ▸ hdirty), hcommit]
  · intro v hv
    rw [hdata, hfound] at hv
    cases hv
    exact Bool.eq_false_iff.2 hnew

/-- So is one at the root. -/
theorem setData_watching_root [Patterns] {cache : Option StaticCache}
    (hcache : CacheCoherent .empty cache) :
    ∃ dirty, Dirty.paths "" SortedMap.empty = .ok dirty ∧
      ∃ after, after.model = ⟨.empty, some (.arr [int 2]), arrayIndex 2, SortedMap.empty, []⟩ ∧
        after.listeners = (watching cache).listeners ∧
        (watching cache).setData "" (.arr [int 2]) =
          ⟨after, .ok (notifications (watching cache).model dirty after)⟩ ∧
        (watching cache).Changes "" (.arr [int 2]) := by
  have hparse : Pointer.parse "" = .ok [] := rfl
  have hfound : getAt (some (.arr [int 1])) "" = .ok (some (.arr [int 1])) := rfl
  obtain ⟨dirty, hdirty⟩ := Dirty.exists_paths_iff.2 ⟨[], hparse⟩
  exact ⟨dirty, hdirty, setData_watching hcache hfound
    (show ¬ (Option.any _ _) = true by decide) rfl hdirty⟩

end Watching

/-! ### Accepted writes and their listeners -/

/-- A write at a written-out pointer tells exactly the listeners of the path and of what lies above
it whose field is there and differs, then those of the model, then those of the form state, and
nobody twice. No field shapes another one beside it. -/
theorem accepted_write_tells_exactly [Patterns] {s after : Store} {segments : List String}
    {value : Json} {told : List Notification} {notes : List String} (hs : Reachable .default s)
    (h : s.setData (Pointer.build segments) value = ⟨after, ⟨.ok told, notes⟩⟩)
    (hnew : s.Changes (Pointer.build segments) value) :
    (∃ heard, told = heard ++ s.listeners.models.map (.model · after.model) ++
        s.listeners.formStates.map (.formState · after.formState) ∧
      ∀ notification, notification ∈ heard ↔ ∃ path id node,
        notification = .path id node ∧ id ∈ s.listeners.listenersAt path ∧
        (path = Pointer.build segments ∨
          Pointer.isDescendant path (Pointer.build segments) = true) ∧
        after.node? path = some node ∧ Dirty.differs (s.node? path) node = true) ∧
      (told.map Notification.id).Nodup ∧ s.model.conditionalDeps.Upward := by
  obtain ⟨dirty, hdirty, rfl, hlisteners⟩ := setData_accepted hs.plain h hnew
  have hupward := hs.plain.upward
  refine ⟨⟨Store.heard s.model dirty after, ?_, ?_⟩, ?_, hupward⟩
  · rw [notifications_eq, hlisteners]
  · intro notification
    rw [mem_heard_iff, hlisteners]
    simp only [Dirty.affects_paths_build_iff hupward hdirty]
    rfl
  · exact nodup_map_id_notifications (hlisteners ▸ hs.plain.listeners)

theorem accepted_write_tells_exactly_element :
    ∃ s after told, Reachable .default s ∧
      s.setData (Pointer.build ["0"]) (Json.int 2) = ⟨after, ⟨.ok told, []⟩⟩ ∧
      s.Changes (Pointer.build ["0"]) (Json.int 2) ∧
      .path 1 (elementNode 2) ∈ told ∧ (told.map Notification.id).Nodup := by
  obtain ⟨cache, hcache, hs⟩ := exists_reachable_watching
  have hfound : Json.getAt (some (.arr [Json.int 1])) (Pointer.build ["0"]) =
      .ok (some (Json.int 1)) := rfl
  have hset : Json.setAt (some (.arr [Json.int 1])) (Pointer.build ["0"]) (Json.int 2) =
      .ok (.arr [Json.int 2]) := rfl
  obtain ⟨after, hmodel, -, h, hnew⟩ := setData_watching hcache hfound (by decide) hset rfl
  obtain ⟨hnode, hdiffers⟩ := differs_element cache hmodel
  obtain ⟨⟨heard, htold, hheard⟩, hnodup, -⟩ := accepted_write_tells_exactly hs h hnew
  refine ⟨watching cache, after, _, hs, h, hnew, ?_, hnodup⟩
  rw [htold]
  refine List.mem_append_left _ (List.mem_append_left _ ((hheard _).2 ?_))
  exact ⟨"/0", 1, elementNode 2, rfl, List.mem_cons_self, Or.inl rfl, hnode, hdiffers⟩

/-- A path is the one given, or lies above it, or is the pointer of a proper prefix of the segments
that it is read as. -/
def AtOrAbove (above path : String) (segments : List String) : Prop :=
  above = path ∨ Pointer.isDescendant above path = true ∨ above = "" ∨
    ∃ n < segments.length, above = Pointer.build (segments.take n)

theorem affects_iff_atOrAbove {path above : String} {segments : List String}
    {deps : ConditionalDeps} (hparse : Pointer.parse path = .ok segments) (hdeps : deps.Upward)
    (hdirty : Dirty.paths path deps = .ok dirty) :
    Dirty.affects above dirty = true ↔ AtOrAbove above path segments := by
  rw [Dirty.affects_paths_iff hparse hdeps hdirty, Pointer.mem_ofPrefixes_dropLast_iff]
  rfl

/-- Whoever listens at a path whose field is there and differs is told once about the new field, if
the path is the one of the write or above it. Nobody else is, except that nothing is said of who
listens at the written-out pointer when the write spells it otherwise. -/
theorem accepted_write_reaches [Patterns] {s after : Store} {path : String} {segments : List String}
    {value : Json} {told : List Notification} {notes : List String} (hs : Reachable .default s)
    (hparse : Pointer.parse path = .ok segments)
    (h : s.setData path value = ⟨after, ⟨.ok told, notes⟩⟩) (hnew : s.Changes path value)
    {above : String} {id : Nat} {node : FieldNode} (hid : id ∈ s.listeners.listenersAt above)
    (hnode : after.node? above = some node)
    (hdiffers : Dirty.differs (s.node? above) node = true) :
    (AtOrAbove above path segments → told.filter (fun n => n.id = id) = [.path id node]) ∧
      (path = Pointer.build segments ∨ above ≠ Pointer.build segments →
        ¬ AtOrAbove above path segments → told.filter (fun n => n.id = id) = []) := by
  obtain ⟨dirty, hdirty, rfl, hlisteners⟩ := setData_accepted hs.plain h hnew
  have hsound := hs.plain.listeners
  rw [← affects_iff_atOrAbove hparse hs.plain.upward hdirty]
  constructor
  · intro haffects
    have hheard : .path id node ∈ Store.heard s.model dirty after := by
      rw [mem_heard_iff, hlisteners]
      exact ⟨above, id, node, rfl, hid, haffects, hnode, hdiffers⟩
    refine filter_id_eq_singleton (.path id node)
      (nodup_map_id_notifications (hlisteners ▸ hsound)) ?_
    rw [notifications_eq]
    exact List.mem_append_left _ (List.mem_append_left _ hheard)
  · intro _ hunaffected
    rw [List.filter_eq_nil_iff]
    intro notification hmem heq
    have hid' : notification.id ∈ after.listeners.listenersAt above := by
      rw [hlisteners, of_decide_eq_true heq]
      exact hid
    obtain ⟨-, -, haffects, -⟩ := exists_of_id_mem (hlisteners ▸ hsound) hid' hmem
    exact hunaffected haffects

/-- The element lies below the root. -/
theorem not_atOrAbove_element : ¬ AtOrAbove "/0" "" [] := by
  rintro (heq | hbelow | heq | ⟨n, hn, -⟩)
  · exact absurd heq (by decide)
  · exact absurd hbelow (by decide)
  · exact absurd heq (by decide)
  · exact absurd hn (Nat.not_lt_zero n)

/-- A write at the element tells its listener, and one at the root, which changes the element as
well, does not. -/
theorem accepted_write_reaches_element :
    ∃ s, Reachable .default s ∧
      (∃ after told, s.setData "/0" (Json.int 2) = ⟨after, ⟨.ok told, []⟩⟩ ∧
        s.Changes "/0" (Json.int 2) ∧
        told.filter (fun n => n.id = 1) = [.path 1 (elementNode 2)]) ∧
      ∃ after told, s.setData "" (.arr [Json.int 2]) = ⟨after, ⟨.ok told, []⟩⟩ ∧
        s.Changes "" (.arr [Json.int 2]) ∧ told.filter (fun n => n.id = 1) = [] := by
  obtain ⟨cache, hcache, hs⟩ := exists_reachable_watching
  refine ⟨watching cache, hs, ?_, ?_⟩
  · have hparse : Pointer.parse "/0" = .ok ["0"] := rfl
    have hfound : Json.getAt (some (.arr [Json.int 1])) "/0" = .ok (some (Json.int 1)) := rfl
    have hset : Json.setAt (some (.arr [Json.int 1])) "/0" (Json.int 2) =
        .ok (.arr [Json.int 2]) := rfl
    obtain ⟨after, hmodel, -, h, hnew⟩ := setData_watching hcache hfound (by decide) hset rfl
    obtain ⟨hnode, hdiffers⟩ := differs_element cache hmodel
    obtain ⟨htold, -⟩ := accepted_write_reaches hs hparse h hnew List.mem_cons_self hnode hdiffers
    exact ⟨after, _, h, hnew, htold (Or.inl rfl)⟩
  · have hparse : Pointer.parse "" = .ok [] := rfl
    obtain ⟨dirty, -, after, hmodel, -, h, hnew⟩ := setData_watching_root hcache
    obtain ⟨hnode, hdiffers⟩ := differs_element cache hmodel
    obtain ⟨-, huntold⟩ := accepted_write_reaches hs hparse h hnew List.mem_cons_self hnode hdiffers
    exact ⟨after, _, h, hnew, huntold (Or.inl rfl) not_atOrAbove_element⟩

/-- A write at the root changes the field of the element, and its listener is not told. -/
theorem write_above_misses_listener :
    ∃ s after told node, Reachable .default s ∧
      s.setData "" (.arr [Json.int 2]) = ⟨after, ⟨.ok told, []⟩⟩ ∧
      s.Changes "" (.arr [Json.int 2]) ∧ 1 ∈ s.listeners.listenersAt "/0" ∧
      after.node? "/0" = some node ∧ Dirty.differs (s.node? "/0") node = true ∧ told = [] := by
  obtain ⟨cache, hcache, hs⟩ := exists_reachable_watching
  have hparse : Pointer.parse "" = .ok [] := rfl
  obtain ⟨dirty, hdirty, after, hmodel, hlisteners, h, hnew⟩ := setData_watching_root hcache
  have hupward : ConditionalDeps.Upward SortedMap.empty := by
    rintro source dependent ⟨dependents, hnone, -⟩
    cases hnone
  have haffects : ¬ Dirty.affects "/0" dirty = true := by
    rw [affects_iff_atOrAbove hparse hupward hdirty]
    exact not_atOrAbove_element
  obtain ⟨hnode, hdiffers⟩ := differs_element cache hmodel
  refine ⟨watching cache, after, _, elementNode 2, hs, h, hnew, List.mem_cons_self, hnode,
    hdiffers, ?_⟩
  rw [notifications_eq, heard, hlisteners]
  show pathNotifications _ _ dirty "/0" [1] ++ [] ++ [] ++ [] = []
  rw [pathNotifications, if_neg haffects]
  rfl

end Store
end SchemaForm

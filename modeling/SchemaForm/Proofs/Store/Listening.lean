import SchemaForm.Proofs.Store.Plain
import SchemaForm.Regex.Engine

/-!
# Who listens after a run

A store answers any number of requests; some of them subscribe a listener and give out a handle, and
some give a handle back. The registry of the store is told from the handles alone: on each channel
the listeners are those whose handles are out, in the order in which they subscribed, and every
accepted edit goes through them in this order.
-/

namespace SchemaForm

/-- What a listener listens to. -/
inductive Channel where
  | model
  | path (path : String)
  | formState
deriving DecidableEq

/-- The channel of a subscription. -/
def Subscription.channel : Subscription → Channel
  | .model _ => .model
  | .path p _ => .path p
  | .formState _ => .formState

theorem Subscription.ext_iff {h other : Subscription} :
    h = other ↔ h.channel = other.channel ∧ h.id = other.id := by
  constructor
  · rintro rfl
    exact ⟨rfl, rfl⟩
  · rintro ⟨hchannel, hid⟩
    cases h <;> cases other <;> simp_all [channel, id]

/-- The numbers of the subscriptions of a channel, in their order. -/
def Channel.numbers (channel : Channel) (handles : List Subscription) : List Nat :=
  (handles.filter fun h => h.channel = channel).map Subscription.id

namespace Channel

variable {channel : Channel} {handles : List Subscription}

theorem mem_numbers_iff {h : Subscription} :
    h.id ∈ h.channel.numbers handles ↔ h ∈ handles := by
  simp only [numbers, List.mem_map, List.mem_filter, decide_eq_true_eq]
  constructor
  · rintro ⟨other, ⟨hmem, hchannel⟩, hid⟩
    rwa [← Subscription.ext_iff.2 ⟨hchannel, hid⟩]
  · intro hmem
    exact ⟨h, ⟨hmem, rfl⟩, rfl⟩

theorem numbers_concat (h : Subscription) :
    channel.numbers (handles ++ [h]) =
      if h.channel = channel then channel.numbers handles ++ [h.id]
      else channel.numbers handles := by
  unfold numbers
  rw [List.filter_append, List.map_append]
  by_cases hchannel : h.channel = channel <;> simp [hchannel]

/-- A handle that is given back takes its own number away, on its own channel. -/
theorem numbers_erase (h : Subscription) :
    channel.numbers (handles.erase h) =
      if h.channel = channel then (channel.numbers handles).erase h.id
      else channel.numbers handles := by
  induction handles with
  | nil => simp [numbers]
  | cons head rest ih =>
    unfold numbers at ih ⊢
    by_cases hhead : head = h
    · subst hhead
      rw [List.erase_cons_head]
      by_cases hchannel : head.channel = channel <;> simp [hchannel]
    · rw [List.erase_cons_tail (by simpa using hhead), List.filter_cons, List.filter_cons]
      by_cases hchannel : h.channel = channel
      · rw [if_pos hchannel] at ih ⊢
        by_cases hsame : head.channel = channel
        · -- Both are on this channel, so their numbers differ.
          have hid : head.id ≠ h.id := fun hid =>
            hhead (Subscription.ext_iff.2 ⟨hsame.trans hchannel.symm, hid⟩)
          simp [hsame, ih, List.erase_cons_tail, hid]
        · simp [hsame, ih]
      · rw [if_neg hchannel] at ih ⊢
        by_cases hsame : head.channel = channel <;> simp [hsame, ih]

end Channel

/-! ### One request -/

namespace Registry

variable {r : Registry}

/-- The listeners of a channel. -/
def on (r : Registry) : Channel → List Nat
  | .model => r.models
  | .path path => r.listenersAt path
  | .formState => r.formStates

/-- Adds a listener of a channel. -/
def listen (r : Registry) : Channel → Registry × Subscription
  | .model => r.subscribe
  | .path path => r.subscribePath path
  | .formState => r.subscribeFormState

theorem lastId_listen (r : Registry) (channel : Channel) :
    (r.listen channel).1.lastId = r.lastId + 1 := by
  cases channel <;> rfl

theorem channel_listen (r : Registry) (channel : Channel) :
    (r.listen channel).2.channel = channel := by
  cases channel <;> rfl

theorem id_listen (r : Registry) (channel : Channel) :
    (r.listen channel).2.id = r.lastId + 1 := by
  cases channel <;> rfl

theorem listenersAt_subscribePath (r : Registry) (path other : String) :
    (r.subscribePath path).1.listenersAt other =
      if path = other then r.listenersAt other ++ [r.lastId + 1] else r.listenersAt other := by
  show ((r.paths.insert path (r.listenersAt path ++ [r.lastId + 1])).get? other).getD [] = _
  rw [SortedMap.get?_insert]
  by_cases hpath : path = other
  · subst hpath
    simp
  · rw [if_neg hpath, if_neg hpath]
    rfl

theorem on_listen (r : Registry) (channel other : Channel) :
    (r.listen channel).1.on other =
      if channel = other then r.on other ++ [r.lastId + 1] else r.on other := by
  cases channel with
  | path path =>
    cases other with
    | path other =>
      simp only [Channel.path.injEq]
      exact listenersAt_subscribePath r path other
    | _ => rfl
  | _ => cases other <;> rfl

theorem listenersAt_unsubscribe (r : Registry) (path : String) (id : Nat) (other : String) :
    (r.unsubscribe (.path path id)).listenersAt other =
      if path = other then (r.listenersAt other).erase id else r.listenersAt other := by
  have hat : ∀ paths : SortedMap (List Nat), Registry.listenersAt other { r with paths } =
      (paths.get? other).getD [] := fun _ => rfl
  simp only [unsubscribe]
  cases hfound : r.paths.get? path with
  | none =>
    by_cases hpath : path = other
    · subst hpath
      simp [listenersAt, hfound]
    · rw [if_neg hpath]
  | some ids =>
    dsimp only
    split
    · next hnil =>
      rw [hat, SortedMap.get?_erase]
      by_cases hpath : path = other
      · subst hpath
        simp [listenersAt, hfound, hnil]
      · rw [if_neg hpath, if_neg hpath]
        rfl
    · next hrest =>
      rw [hat, SortedMap.get?_insert]
      by_cases hpath : path = other
      · subst hpath
        simp [listenersAt, hfound]
      · rw [if_neg hpath, if_neg hpath]
        rfl

theorem exists_unsubscribe_path (r : Registry) (path : String) (id : Nat) :
    ∃ paths, r.unsubscribe (.path path id) = { r with paths } := by
  simp only [unsubscribe]
  split
  · exact ⟨r.paths, rfl⟩
  · split
    · exact ⟨_, rfl⟩
    · exact ⟨_, rfl⟩

theorem on_unsubscribe (r : Registry) (h : Subscription) (other : Channel) :
    (r.unsubscribe h).on other =
      if h.channel = other then (r.on other).erase h.id else r.on other := by
  cases h with
  | path path id =>
    cases other with
    | path other =>
      simp only [Subscription.channel, Channel.path.injEq]
      exact listenersAt_unsubscribe r path id other
    | _ =>
      obtain ⟨paths, heq⟩ := r.exists_unsubscribe_path path id
      rw [heq, if_neg (by simp [Subscription.channel])]
      rfl
  | _ => cases other <;> rfl

theorem lastId_unsubscribe (r : Registry) (h : Subscription) :
    (r.unsubscribe h).lastId = r.lastId := by
  cases h with
  | path path id =>
    obtain ⟨paths, heq⟩ := r.exists_unsubscribe_path path id
    rw [heq]
  | _ => rfl

/-- No path is kept without a listener. -/
def Occupied (r : Registry) : Prop := ∀ path ids, r.paths.get? path = some ids → ids ≠ []

theorem Occupied.listen (h : r.Occupied) (channel : Channel) : (r.listen channel).1.Occupied := by
  cases channel with
  | path path =>
    intro other ids hids
    change (r.paths.insert path _).get? other = some ids at hids
    rw [SortedMap.get?_insert] at hids
    split at hids
    · cases hids
      simp
    · exact h other ids hids
  | _ => exact h

theorem Occupied.unsubscribe (h : r.Occupied) (handle : Subscription) :
    (r.unsubscribe handle).Occupied := by
  cases handle with
  | path path id =>
    simp only [Registry.unsubscribe]
    split
    · exact h
    · split
      · intro other ids hids
        change (r.paths.erase path).get? other = some ids at hids
        rw [SortedMap.get?_erase] at hids
        split at hids
        · cases hids
        · exact h other ids hids
      · next rest hrest =>
        intro other ids hids
        change (r.paths.insert path _).get? other = some ids at hids
        rw [SortedMap.get?_insert] at hids
        split at hids
        · cases hids
          exact hrest
        · exact h other ids hids
  | _ => exact h

/-- The registry is told from the handles that are out. -/
structure Records (r : Registry) (handles : List Subscription) : Prop where
  channels : ∀ channel, r.on channel = channel.numbers handles
  occupied : r.Occupied
  sound : r.Sound
  increasing : (handles.map Subscription.id).Pairwise (· < ·)
  issued : ∀ h ∈ handles, h.id ≤ r.lastId

theorem records_empty : Records empty [] where
  channels channel := by cases channel <;> rfl
  occupied _ _ h := by cases h
  sound := sound_empty
  increasing := .nil
  issued := by simp

theorem Sound.listen (h : r.Sound) (channel : Channel) : (r.listen channel).1.Sound := by
  cases channel with
  | model => exact h.subscribe
  | path path => exact h.subscribePath path
  | formState => exact h.subscribeFormState

namespace Records

variable {handles : List Subscription}

/-- A new listener comes last, on its channel and among all. -/
theorem listen (h : r.Records handles) (channel : Channel) :
    (r.listen channel).1.Records (handles ++ [(r.listen channel).2]) where
  channels other := by
    rw [on_listen, Channel.numbers_concat, channel_listen, id_listen, h.channels]
  occupied := h.occupied.listen channel
  sound := h.sound.listen channel
  increasing := by
    rw [List.map_append, List.map_singleton, id_listen, List.pairwise_append]
    refine ⟨h.increasing, List.pairwise_singleton _ _, ?_⟩
    intro id hid last hlast
    obtain ⟨handle, hhandle, rfl⟩ := List.mem_map.1 hid
    rw [List.mem_singleton.1 hlast]
    exact Nat.lt_succ_of_le (h.issued handle hhandle)
  issued := by
    intro handle hhandle
    rw [lastId_listen]
    rcases List.mem_append.1 hhandle with hhandle | hhandle
    · exact Nat.le_succ_of_le (h.issued handle hhandle)
    · have hid : handle.id = r.lastId + 1 := List.mem_singleton.1 hhandle ▸ id_listen r channel
      exact Nat.le_of_eq hid

/-- A handle that is given back takes its own listener away, and no other. -/
theorem unsubscribe (h : r.Records handles) (handle : Subscription) :
    (r.unsubscribe handle).Records (handles.erase handle) where
  channels other := by
    rw [on_unsubscribe, Channel.numbers_erase, h.channels]
  occupied := h.occupied.unsubscribe handle
  sound := h.sound.unsubscribe handle
  increasing := h.increasing.sublist (List.erase_sublist.map _)
  issued other hother := by
    rw [lastId_unsubscribe]
    exact h.issued other (List.mem_of_mem_erase hother)

theorem mem_on_iff (h : r.Records handles) {handle : Subscription} :
    handle.id ∈ r.on handle.channel ↔ handle ∈ handles := by
  rw [h.channels, Channel.mem_numbers_iff]

theorem mem_subscribedPaths_iff (h : r.Records handles) {path : String} :
    path ∈ r.subscribedPaths ↔ ∃ id, .path path id ∈ handles := by
  unfold subscribedPaths SortedMap.keys
  rw [List.mem_map]
  constructor
  · rintro ⟨⟨path, ids⟩, hentry, rfl⟩
    obtain ⟨id, hid⟩ := List.exists_mem_of_ne_nil _
      (h.occupied path ids (SortedMap.mem_entries_iff.1 hentry))
    have hat : id ∈ r.listenersAt path := mem_listenersAt_iff.2 ⟨ids, hentry, hid⟩
    exact ⟨id, h.mem_on_iff.1 hat⟩
  · rintro ⟨id, hid⟩
    have hat : id ∈ r.listenersAt path := h.mem_on_iff.2 hid
    obtain ⟨ids, hentry, -⟩ := mem_listenersAt_iff.1 hat
    exact ⟨(path, ids), hentry, rfl⟩

end Records

/-- The paths in their order, each with its listeners. -/
theorem entries_paths (r : Registry) :
    r.paths.entries = r.subscribedPaths.map fun path => (path, r.listenersAt path) := by
  unfold subscribedPaths SortedMap.keys
  rw [List.map_map]
  refine ((List.map_congr_left fun entry hentry => ?_).trans (List.map_id _)).symm
  have hfound := SortedMap.mem_entries_iff.1 hentry
  simp [listenersAt, hfound]

end Registry

/-! ### A run of requests -/

/-- The channel that a request subscribes to. -/
def Request.channel? : Request → Option Channel
  | .subscribe => some .model
  | .subscribePath path => some (.path path)
  | .subscribeFormState => some .formState
  | _ => none

namespace Store

/-- The handles that are out after a request: one more where the request gives one out, one less
where it gives one back. -/
def handlesAfter (s : Store) (handles : List Subscription) : Request → List Subscription
  | .edit _ => handles
  | .subscribe => handles ++ [s.subscribe.2]
  | .subscribePath path => handles ++ [(s.subscribePath path).2]
  | .subscribeFormState => handles ++ [s.subscribeFormState.2]
  | .unsubscribe h => handles.erase h

/-- A store after requests. -/
def run [Patterns] (s : Store) (requests : List Request) : Store := requests.foldl next s

/-- The handles that are out after requests, the oldest first. -/
def handlesFrom [Patterns] (s : Store) (handles : List Subscription) :
    List Request → List Subscription
  | [] => handles
  | request :: rest => handlesFrom (s.next request) (s.handlesAfter handles request) rest

/-- The handles that a store has given out in a run and not got back, the oldest first. -/
def handles [Patterns] (s : Store) (requests : List Request) :
    List Subscription := s.handlesFrom [] requests

/-- An edit leaves the listeners as they are. -/
theorem listeners_edit [Patterns] (s : Store) (edit : Edit) :
    (s.edit edit).store.listeners = s.listeners := by
  rcases edit_commits s edit with ⟨e, heq⟩ | heq | ⟨selections, data, dirty, -, heq⟩
  · rw [heq]
    rfl
  · rw [heq]
    rfl
  · obtain ⟨-, -, -, -, hlisteners⟩ := commit_keeps { s with selections } data dirty
    rw [heq, hlisteners]

/-- One request keeps the registry in step with the handles. -/
theorem records_next [Patterns] {s : Store} {handles : List Subscription}
    (h : s.listeners.Records handles) (request : Request) :
    (s.next request).listeners.Records (s.handlesAfter handles request) := by
  cases request with
  | edit edit =>
    show (s.edit edit).store.listeners.Records handles
    rw [listeners_edit]
    exact h
  | subscribe => exact h.listen .model
  | subscribePath path => exact h.listen (.path path)
  | subscribeFormState => exact h.listen .formState
  | unsubscribe handle => exact h.unsubscribe handle

theorem records_run [Patterns] {s : Store} {handles : List Subscription}
    (h : s.listeners.Records handles) (requests : List Request) :
    (s.run requests).listeners.Records (s.handlesFrom handles requests) := by
  induction requests generalizing s handles with
  | nil => exact h
  | cons request rest ih => exact ih (records_next h request)

/-- As many numbers are given out as listeners subscribed. -/
theorem lastId_run [Patterns] (s : Store) (requests : List Request) :
    (s.run requests).listeners.lastId =
      s.listeners.lastId + (requests.filterMap Request.channel?).length := by
  induction requests generalizing s with
  | nil => rfl
  | cons request rest ih =>
    have hnext : (s.next request).listeners.lastId =
        s.listeners.lastId + request.channel?.toList.length := by
      cases request with
      | edit edit => exact congrArg Registry.lastId (listeners_edit s edit)
      | unsubscribe handle => exact s.listeners.lastId_unsubscribe handle
      | _ => rfl
    show ((s.next request).run rest).listeners.lastId = _
    rw [ih, hnext, List.filterMap_cons]
    cases request.channel? with
    | none => rfl
    | some channel =>
      simp only [Option.toList_some, List.length_cons, List.length_nil]
      omega

/-- An accepted edit does nothing, or renews the model and goes through the listeners. -/
theorem edit_accepted [Patterns] {s : Store} {edit : Edit} {told : List Notification}
    (h : (s.edit edit).outcome.result = .ok told) :
    s.edit edit = s.unchanged ∨
      ∃ dirty, Dirty.paths edit.target s.model.conditionalDeps = .ok dirty ∧
        (s.edit edit).store.revision = s.revision + 1 ∧
        told = notifications s.model dirty (s.edit edit).store := by
  rcases edit_commits s edit with ⟨e, heq⟩ | heq | ⟨selections, data, dirty, hdirty, heq⟩
  · rw [heq] at h
    cases h
  · exact .inl heq
  · refine .inr ⟨dirty, hdirty, ?_⟩
    rw [heq] at h ⊢
    cases hbuild : buildModel s.config s.schema s.cache data selections with
    | mk built cache =>
      cases hresult : built.result with
      | error e =>
        rw [commit_of_error (s := { s with selections }) hbuild hresult] at h
        cases h
      | ok model =>
        have hcommit : ({ s with selections } : Store).commit data dirty = _ :=
          commit_of_ok (s := { s with selections }) hbuild hresult
        rw [hcommit] at h ⊢
        cases h
        exact ⟨rfl, rfl⟩

/-- What the listeners are told, path by path in the order of the paths. -/
theorem notifications_eq_subscribed (before : FormModel) (dirty : SortedSet) (s : Store) :
    notifications before dirty s =
      (s.subscribedPaths.flatMap fun path =>
          pathNotifications before s.model dirty path (s.listeners.on (.path path))) ++
        (s.listeners.on .model).map (.model · s.model) ++
        (s.listeners.on .formState).map (.formState · s.formState) := by
  unfold notifications
  rw [Registry.entries_paths, List.flatMap_map]
  rfl

/-- A new store has no listeners. -/
theorem listeners_create [Patterns] {config : Config} {schema : Json} {data : Option Json}
    {s : Store}
    (h : (create config schema data).result = .ok s) : s.listeners = Registry.empty := by
  unfold create at h
  dsimp only at h
  generalize buildModel config schema _ data SortedMap.empty = built at h
  obtain ⟨t, cache⟩ := built
  change t.result.map _ = .ok s at h
  cases hresult : t.result with
  | error e =>
    rw [hresult] at h
    cases h
  | ok model =>
    rw [hresult] at h
    cases h
    rfl

/-- The registry is exact after any run of a store. On each channel listen those whose handles are
out, each once and in the order in which they subscribed; the numbers of handles grow by one, so
they stay within the number of subscriptions. Giving a handle back takes no other listener away. The
subscribed paths are those with a listener, in their order. An accepted edit that is not idle goes
through the listeners of each path, then those of the model, then those of the form state. -/
theorem listeners_exact [Patterns] {config : Config} {schema : Json} {data : Option Json}
    {first : Store}
    (hfirst : (create config schema data).result = .ok first) (requests : List Request) :
    let s := first.run requests
    let handles := first.handles requests
    (∀ channel, s.listeners.on channel = channel.numbers handles) ∧ s.listeners.ids.Nodup ∧
      (handles.map Subscription.id).Pairwise (· < ·) ∧
      (∀ h ∈ handles, h.id ≤ (requests.filterMap Request.channel?).length) ∧
      (∀ h other : Subscription, other ≠ h →
        (other.id ∈ (s.unsubscribe h).listeners.on other.channel ↔
          other.id ∈ s.listeners.on other.channel)) ∧
      s.subscribedPaths.Pairwise (· < ·) ∧
      (∀ path, path ∈ s.subscribedPaths ↔ ∃ id, .path path id ∈ handles) ∧
      ∀ edit told, (s.edit edit).outcome.result = .ok told →
        s.edit edit = s.unchanged ∨
          ∃ dirty, Dirty.paths edit.target s.model.conditionalDeps = .ok dirty ∧
            (s.edit edit).store.revision = s.revision + 1 ∧
            told = (s.subscribedPaths.flatMap fun path =>
                pathNotifications s.model (s.edit edit).store.model dirty path
                  ((Channel.path path).numbers handles)) ++
              (Channel.model.numbers handles).map (.model · (s.edit edit).store.model) ++
              (Channel.formState.numbers handles).map
                (.formState · (s.edit edit).store.formState) := by
  intro s handles
  have hempty : first.listeners.Records [] := by
    rw [listeners_create hfirst]
    exact Registry.records_empty
  have hrecords : s.listeners.Records handles := records_run hempty requests
  have hlast : s.listeners.lastId = (requests.filterMap Request.channel?).length := by
    rw [lastId_run, listeners_create hfirst]
    exact Nat.zero_add _
  refine ⟨hrecords.channels, hrecords.sound.nodup, hrecords.increasing, ?_, ?_, ?_, ?_, ?_⟩
  · intro h hh
    rw [← hlast]
    exact hrecords.issued h hh
  · intro h other hne
    have hafter : (s.unsubscribe h).listeners.Records (handles.erase h) := hrecords.unsubscribe h
    rw [hafter.mem_on_iff, hrecords.mem_on_iff]
    exact List.mem_erase_of_ne hne
  · exact List.pairwise_map.2 s.listeners.paths.sorted
  · exact fun path => hrecords.mem_subscribedPaths_iff
  · intro edit told htold
    rcases edit_accepted htold with h | ⟨dirty, hdirty, hrevision, rfl⟩
    · exact .inl h
    · refine .inr ⟨dirty, hdirty, hrevision, ?_⟩
      rw [notifications_eq_subscribed, subscribedPaths, listeners_edit]
      simp only [hrecords.channels]
      rfl

/-- Two listeners at one path and one of the model; the first goes. -/
def pathTwice : List Request :=
  [.subscribePath "/a", .subscribePath "/a", .subscribe, .unsubscribe (.path "/a" 1)]

/-- The second listener of the path stays when the first goes, and again when that of the model
goes. -/
theorem listeners_exact_pathTwice :
    ∃ s, (create .default .empty none).result = .ok s ∧
      s.handles pathTwice = [.path "/a" 2, .model 3] ∧
      (s.run pathTwice).listeners.listenersAt "/a" = [2] ∧
      (s.run pathTwice).listeners.models = [3] ∧ (s.run pathTwice).subscribedPaths = ["/a"] ∧
      2 ∈ ((s.run pathTwice).unsubscribe (.model 3)).listeners.listenersAt "/a" := by
  obtain ⟨cache, -, hcreate⟩ := create_default .empty none
  have hfirst : (create .default .empty none).result = .ok (first .empty cache none) := by
    rw [hcreate]
    rfl
  have hhandles : (first .empty cache none).handles pathTwice = [.path "/a" 2, .model 3] := rfl
  obtain ⟨hon, -, -, -, hother, -, -, -⟩ := listeners_exact hfirst pathTwice
  have hpath : (Channel.path "/a").numbers [.path "/a" 2, .model 3] = [2] := by decide
  have hmodel : Channel.model.numbers [.path "/a" 2, .model 3] = [3] := by decide
  rw [hhandles] at hon
  have hat : ((first .empty cache none).run pathTwice).listeners.listenersAt "/a" = [2] :=
    (hon (.path "/a")).trans hpath
  refine ⟨_, hfirst, hhandles, hat, (hon .model).trans hmodel, rfl, ?_⟩
  have hlive : 2 ∈ ((first .empty cache none).run pathTwice).listeners.listenersAt "/a" := by
    rw [hat]
    exact List.mem_singleton_self 2
  exact (hother (.model 3) (.path "/a" 2) (by decide)).2 hlive

end Store
end SchemaForm

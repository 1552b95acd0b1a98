import Mathlib.Data.List.Dedup
import Mathlib.Data.List.Induction
import SchemaForm.Pipeline.Cache
import SchemaForm.Regex.Engine

/-!
# Runs of a cache of preparations

A cache answers any number of calls, each of which asks for the preparation of a schema or clears
the cache. What it keeps after a run is told from the calls alone: the schemas asked for since the
last clear that could be prepared, each once. So every answer is what the static stages give, and
two answers are the same object exactly if they are for one identity and nothing was cleared in
between.
-/

namespace SchemaForm.StaticCache

/-- A call of a cache. -/
inductive Call where
  /-- Asks for the preparation of the schema with an identity. -/
  | get (identity : Nat)
  | clear
deriving DecidableEq

section Runs

variable (config : Config) (schemas : Nat → Json)

/-- What is returned for an identity. Each identity stands for one schema. -/
def answer [Patterns] (cache : StaticCache) (identity : Nat) : Except PipelineError Preparation :=
  (cache.getOrPrepare config identity (schemas identity)).1.result

/-- The cache after a call. -/
def after [Patterns] (cache : StaticCache) : Call → StaticCache
  | .get identity => (cache.getOrPrepare config identity (schemas identity)).2
  | .clear => cache.clear

/-- A cache after more calls. -/
def runFrom [Patterns] (cache : StaticCache) (calls : List Call) : StaticCache :=
  calls.foldl (after config schemas) cache

/-- A new cache after calls. -/
def run [Patterns] (calls : List Call) : StaticCache := runFrom config schemas empty calls

/-- The static stages accept the schema with the identity. -/
def Prepares [Patterns] (identity : Nat) : Prop :=
  (Pipeline.prepare config (schemas identity)).result.isOk = true

end Runs

/-- The identities that were asked for since the last clear. -/
def askedSinceClear (calls : List Call) : List Nat :=
  calls.foldl (fun asked call => match call with
    | .get identity => asked ++ [identity]
    | .clear => []) []

variable {config : Config} {schemas : Nat → Json} {cache : StaticCache} {identity : Nat}

/-! ### One call -/

theorem find?_eq_none_iff :
    cache.find? identity = none ↔ identity ∉ cache.entries.map Prod.fst := by
  rw [find?, Option.map_eq_none_iff, List.find?_eq_none, List.mem_map, not_exists]
  simp

theorem mem_of_find? {p : Preparation} (h : cache.find? identity = some p) :
    (identity, p) ∈ cache.entries := by
  obtain ⟨entry, hentry, rfl⟩ := Option.map_eq_some_iff.1 h
  have hkey : entry.1 = identity := by simpa using List.find?_some hentry
  exact hkey ▸ List.mem_of_find?_eq_some hentry

/-- What asking for a preparation does: the one kept is returned, or a new one is returned and kept,
or the static stages refuse the schema and nothing changes. -/
theorem get_cases [Patterns] (config : Config) (schemas : Nat → Json) (cache : StaticCache)
    (identity : Nat) :
    (∃ p, cache.find? identity = some p ∧ answer config schemas cache identity = .ok p ∧
      after config schemas cache (.get identity) = cache) ∨
    (∃ prepared, cache.find? identity = none ∧
      (Pipeline.prepare config (schemas identity)).result = .ok prepared ∧
      answer config schemas cache identity = .ok ⟨cache.made, prepared⟩ ∧
      after config schemas cache (.get identity) =
        ⟨cache.entries ++ [(identity, ⟨cache.made, prepared⟩)], cache.made + 1⟩) ∨
    ∃ e, cache.find? identity = none ∧
      (Pipeline.prepare config (schemas identity)).result = .error e ∧
      answer config schemas cache identity = .error e ∧
      after config schemas cache (.get identity) = cache := by
  simp only [answer, after, getOrPrepare]
  cases hfound : cache.find? identity with
  | some p => exact Or.inl ⟨p, rfl, rfl, rfl⟩
  | none =>
    cases hprepared : (Pipeline.prepare config (schemas identity)).result with
    | ok prepared => exact Or.inr (Or.inl ⟨prepared, rfl, rfl, rfl, rfl⟩)
    | error e => exact Or.inr (Or.inr ⟨e, rfl, rfl, rfl, rfl⟩)

theorem runFrom_cons [Patterns] (cache : StaticCache) (call : Call) (calls : List Call) :
    runFrom config schemas cache (call :: calls) =
      runFrom config schemas (after config schemas cache call) calls := rfl

theorem run_append [Patterns] (calls more : List Call) :
    run config schemas (calls ++ more) = runFrom config schemas (run config schemas calls) more :=
  List.foldl_append

/-- No number is given twice. -/
theorem made_le_after [Patterns] (cache : StaticCache) (call : Call) :
    cache.made ≤ (after config schemas cache call).made := by
  cases call with
  | clear => exact Nat.le_refl _
  | get identity =>
    rcases get_cases config schemas cache identity with
      ⟨p, -, -, hafter⟩ | ⟨prepared, -, -, -, hafter⟩ | ⟨e, -, -, -, hafter⟩ <;>
      simp [hafter]

/-! ### What is kept -/

/-- What a cache keeps, told from the calls it answered: for each schema that was asked for since
the last clear and could be prepared one preparation, with a number of its own. -/
structure Coherent [Patterns] (config : Config) (schemas : Nat → Json) (calls : List Call)
    (cache : StaticCache) : Prop where
  prepared : ∀ entry ∈ cache.entries,
    (Pipeline.prepare config (schemas entry.1)).result = .ok entry.2.prepared
  identities : (cache.entries.map Prod.fst).Nodup
  kept : ∀ identity, identity ∈ cache.entries.map Prod.fst ↔
    identity ∈ askedSinceClear calls ∧ Prepares config schemas identity
  numbers : (cache.entries.map (·.2.number)).Nodup
  numbered : ∀ entry ∈ cache.entries, entry.2.number < cache.made

theorem coherent_empty [Patterns] : Coherent config schemas [] empty where
  prepared := by simp [empty]
  identities := List.nodup_nil
  kept := by simp [empty, askedSinceClear]
  numbers := List.nodup_nil
  numbered := by simp [empty]

@[simp] theorem askedSinceClear_get (calls : List Call) (identity : Nat) :
    askedSinceClear (calls ++ [.get identity]) = askedSinceClear calls ++ [identity] :=
  List.foldl_append

@[simp] theorem askedSinceClear_clear (calls : List Call) :
    askedSinceClear (calls ++ [.clear]) = [] :=
  List.foldl_append

/-- A cache that does not change has kept what was asked for already, or what it asks for is
refused. -/
theorem Coherent.unchanged [Patterns] {calls : List Call} (h : Coherent config schemas calls cache)
    (hkept : identity ∈ cache.entries.map Prod.fst ↔ Prepares config schemas identity) :
    Coherent config schemas (calls ++ [.get identity]) cache := by
  refine ⟨h.prepared, h.identities, fun other => ?_, h.numbers, h.numbered⟩
  by_cases hother : other = identity
  · subst hother
    simp [hkept]
  · simp [h.kept, hother]

/-- A new preparation keeps a cache coherent. -/
theorem Coherent.made [Patterns] {calls : List Call} (h : Coherent config schemas calls cache)
    (hfound : cache.find? identity = none) {prepared : Prepared}
    (hprepared : (Pipeline.prepare config (schemas identity)).result = .ok prepared) :
    Coherent config schemas (calls ++ [.get identity])
      ⟨cache.entries ++ [(identity, ⟨cache.made, prepared⟩)], cache.made + 1⟩ := by
  have hnew := find?_eq_none_iff.1 hfound
  have hprepares : Prepares config schemas identity := by
    simp [Prepares, hprepared, Except.isOk, Except.toBool]
  refine ⟨?_, ?_, ?_, ?_, ?_⟩
  · intro entry hentry
    rcases List.mem_append.1 hentry with hentry | hentry
    · exact h.prepared entry hentry
    · rw [List.mem_singleton.1 hentry]
      exact hprepared
  · rw [List.map_append, List.map_singleton]
    exact List.nodup_append.2 ⟨h.identities, List.nodup_singleton _, by
      intro other hother new hsame
      rw [List.mem_singleton.1 hsame]
      rintro rfl
      exact hnew hother⟩
  · intro other
    rw [List.map_append, List.mem_append, h.kept]
    by_cases hother : other = identity
    · subst hother
      simp [hprepares]
    · simp [hother]
  · rw [List.map_append, List.map_singleton]
    refine List.nodup_append.2 ⟨h.numbers, List.nodup_singleton _, ?_⟩
    intro number hnumber new hsame
    obtain ⟨entry, hentry, rfl⟩ := List.mem_map.1 hnumber
    rw [List.mem_singleton.1 hsame]
    exact Nat.ne_of_lt (h.numbered entry hentry)
  · intro entry hentry
    rcases List.mem_append.1 hentry with hentry | hentry
    · exact Nat.lt_succ_of_lt (h.numbered entry hentry)
    · rw [List.mem_singleton.1 hentry]
      exact Nat.lt_succ_self _

/-- A call keeps a cache coherent. -/
theorem Coherent.after [Patterns] {calls : List Call} (h : Coherent config schemas calls cache)
    (call : Call) :
    Coherent config schemas (calls ++ [call]) (after config schemas cache call) := by
  cases call with
  | clear =>
    rw [StaticCache.after, clear]
    refine ⟨?_, List.nodup_nil, ?_, List.nodup_nil, ?_⟩ <;> simp
  | get identity =>
    rcases get_cases config schemas cache identity with
      ⟨p, hfound, -, hafter⟩ | ⟨prepared, hfound, hprepared, -, hafter⟩ |
        ⟨e, hfound, hprepared, -, hafter⟩
    · rw [hafter]
      have hmem := List.mem_map_of_mem (f := Prod.fst) (mem_of_find? hfound)
      exact h.unchanged (iff_of_true hmem ((h.kept identity).1 hmem).2)
    · rw [hafter]
      exact h.made hfound hprepared
    · rw [hafter]
      refine h.unchanged (iff_of_false (find?_eq_none_iff.1 hfound) ?_)
      simp [Prepares, hprepared, Except.isOk, Except.toBool]

/-- A new cache is coherent after any calls. -/
theorem coherent_run [Patterns] (config : Config) (schemas : Nat → Json) (calls : List Call) :
    Coherent config schemas calls (run config schemas calls) := by
  induction calls using List.reverseRecOn with
  | nil => exact coherent_empty
  | append_singleton calls call ih =>
    rw [run_append]
    exact ih.after call

/-- What a coherent cache returns is what the static stages give. -/
theorem Coherent.answer_eq [Patterns] {calls : List Call} (h : Coherent config schemas calls cache)
    (identity : Nat) :
    (answer config schemas cache identity).map Preparation.prepared =
      (Pipeline.prepare config (schemas identity)).result := by
  rcases get_cases config schemas cache identity with
    ⟨p, hfound, hanswer, -⟩ | ⟨prepared, -, hprepared, hanswer, -⟩ | ⟨e, -, hprepared, hanswer, -⟩
  · rw [hanswer, h.prepared _ (mem_of_find? hfound)]
    rfl
  · rw [hanswer, hprepared]
    rfl
  · rw [hanswer, hprepared]
    rfl

/-- As many preparations are kept as different schemas could be prepared since the last clear. -/
theorem Coherent.size_eq [Patterns] {calls : List Call} (h : Coherent config schemas calls cache) :
    cache.size = ((askedSinceClear calls).filter fun identity =>
      (Pipeline.prepare config (schemas identity)).result.isOk).dedup.length := by
  rw [size, ← List.length_map (f := Prod.fst)]
  apply List.Perm.length_eq
  rw [List.perm_ext_iff_of_nodup h.identities (List.nodup_dedup _)]
  intro identity
  rw [h.kept, List.mem_dedup, List.mem_filter, Prepares]

/-! ### Which answers are the same object -/

/-- What was returned is kept. -/
theorem mem_after_of_answer [Patterns] {p : Preparation}
    (hanswer : answer config schemas cache identity = .ok p) :
    (identity, p) ∈ (after config schemas cache (.get identity)).entries := by
  rcases get_cases config schemas cache identity with
    ⟨q, hfound, hq, hafter⟩ | ⟨prepared, -, -, hq, hafter⟩ | ⟨e, -, -, hq, -⟩
  · cases hanswer.symm.trans hq
    rw [hafter]
    exact mem_of_find? hfound
  · cases hanswer.symm.trans hq
    simp [hafter]
  · cases hanswer.symm.trans hq

/-- What is kept is returned. -/
theorem Coherent.answer_of_mem [Patterns] {calls : List Call}
    (h : Coherent config schemas calls cache)
    {p : Preparation} (hmem : (identity, p) ∈ cache.entries) :
    answer config schemas cache identity = .ok p := by
  have hkey := List.mem_map_of_mem (f := Prod.fst) hmem
  rcases get_cases config schemas cache identity with
    ⟨q, hfound, hq, -⟩ | ⟨prepared, hfound, -⟩ | ⟨e, hfound, -⟩
  · have hsame := List.inj_on_of_nodup_map h.identities hmem (mem_of_find? hfound) rfl
    rw [hq, (Prod.mk.inj hsame).2]
  · exact absurd hkey (find?_eq_none_iff.1 hfound)
  · exact absurd hkey (find?_eq_none_iff.1 hfound)

/-- Nothing but a clear takes a preparation away. -/
theorem entries_subset_runFrom [Patterns] {calls : List Call} (hclear : .clear ∉ calls)
    (cache : StaticCache) :
    cache.entries ⊆ (runFrom config schemas cache calls).entries := by
  induction calls generalizing cache with
  | nil => exact List.Subset.refl _
  | cons call calls ih =>
    rw [List.mem_cons, not_or] at hclear
    have hstep : cache.entries ⊆ (after config schemas cache call).entries := by
      cases call with
      | clear => exact absurd rfl hclear.1
      | get identity =>
        rcases get_cases config schemas cache identity with
          ⟨p, -, -, hafter⟩ | ⟨prepared, -, -, -, hafter⟩ | ⟨e, -, -, -, hafter⟩ <;>
          simp [hafter]
    exact List.Subset.trans hstep (ih hclear.2 _)

/-- A preparation with an old number was kept all the time. -/
theorem old_of_mem_runFrom [Patterns] {calls : List Call} {bound : Nat}
    (hbound : bound ≤ cache.made)
    {entry : Nat × Preparation} (hentry : entry ∈ (runFrom config schemas cache calls).entries)
    (hold : entry.2.number < bound) : entry ∈ cache.entries ∧ .clear ∉ calls := by
  induction calls generalizing cache with
  | nil => exact ⟨hentry, List.not_mem_nil⟩
  | cons call calls ih =>
    rw [runFrom_cons] at hentry
    obtain ⟨hmem, hcalls⟩ := ih (Nat.le_trans hbound (made_le_after cache call)) hentry
    cases call with
    | clear => cases hmem
    | get identity =>
      refine ⟨?_, by simp [hcalls]⟩
      rcases get_cases config schemas cache identity with
        ⟨p, -, -, hafter⟩ | ⟨prepared, -, -, -, hafter⟩ | ⟨e, -, -, -, hafter⟩
      · rwa [hafter] at hmem
      · rw [hafter] at hmem
        rcases List.mem_append.1 hmem with hmem | hmem
        · exact hmem
        · -- The new preparation has the next number.
          rw [List.mem_singleton.1 hmem] at hold
          exact absurd hbound (Nat.not_le_of_lt hold)
      · rwa [hafter] at hmem

/-- Two answers of one run are the same object exactly if they are for one identity and nothing was
cleared in between; then they are equal. -/
theorem same_object_iff [Patterns] {calls between : List Call} {i j : Nat} {p q : Preparation}
    (hp : answer config schemas (run config schemas calls) i = .ok p)
    (hq : answer config schemas (run config schemas (calls ++ .get i :: between)) j = .ok q) :
    (p.number = q.number ↔ i = j ∧ .clear ∉ between) ∧ (p.number = q.number → p = q) := by
  have hsplit : calls ++ .get i :: between = (calls ++ [.get i]) ++ between := by simp
  have hfirst := coherent_run config schemas (calls ++ [.get i])
  have hlater := coherent_run config schemas (calls ++ .get i :: between)
  have hmemP : (i, p) ∈ (run config schemas (calls ++ [.get i])).entries := by
    rw [run_append]
    exact mem_after_of_answer hp
  have hforward : i = j ∧ .clear ∉ between → p = q := by
    rintro ⟨rfl, hclear⟩
    have hkept : (i, p) ∈ (run config schemas (calls ++ .get i :: between)).entries := by
      rw [hsplit, run_append]
      exact entries_subset_runFrom hclear _ hmemP
    exact Except.ok.inj ((hlater.answer_of_mem hkept).symm.trans hq)
  have hback : p.number = q.number → (i = j ∧ .clear ∉ between) := by
    intro hnumber
    -- The later answer has an old number, so it is an entry that was kept at the first one.
    have hmemQ := mem_after_of_answer hq
    have hruns : after config schemas
        (run config schemas (calls ++ .get i :: between)) (.get j) =
          runFrom config schemas (run config schemas (calls ++ [.get i]))
            (between ++ [.get j]) := by
      rw [hsplit, run_append, runFrom, runFrom, List.foldl_append]
      rfl
    rw [hruns] at hmemQ
    have hold : q.number < (run config schemas (calls ++ [.get i])).made :=
      hnumber ▸ hfirst.numbered _ hmemP
    obtain ⟨hmem, hclear⟩ := old_of_mem_runFrom (Nat.le_refl _) hmemQ hold
    have hsame := List.inj_on_of_nodup_map hfirst.numbers hmemP hmem hnumber
    exact ⟨congrArg Prod.fst hsame, fun h => hclear (List.mem_append_left _ h)⟩
  exact ⟨⟨hback, fun h => congrArg Preparation.number (hforward h)⟩, fun h => hforward (hback h)⟩

/-- A cache is coherent over any run: every answer is what the static stages give for the schema,
answers for one identity are the same object until the cache is cleared and all others are different
objects, a schema that is refused leaves no trace, and the size counts the different schemas that
could be prepared since the last clear. -/
theorem run_coherent [Patterns] (config : Config) (schemas : Nat → Json) (calls : List Call) :
    (∀ i, (answer config schemas (run config schemas calls) i).map Preparation.prepared =
        (Pipeline.prepare config (schemas i)).result) ∧
      (∀ i j between p q, answer config schemas (run config schemas calls) i = .ok p →
        answer config schemas (run config schemas (calls ++ .get i :: between)) j = .ok q →
        (p.number = q.number ↔ i = j ∧ .clear ∉ between) ∧ (p.number = q.number → p = q)) ∧
      (∀ i e, answer config schemas (run config schemas calls) i = .error e →
        run config schemas (calls ++ [.get i]) = run config schemas calls) ∧
      (run config schemas calls).size = ((askedSinceClear calls).filter fun i =>
        (Pipeline.prepare config (schemas i)).result.isOk).dedup.length := by
  have hcoherent := coherent_run config schemas calls
  refine ⟨hcoherent.answer_eq, fun _ _ _ _ _ => same_object_iff, ?_, hcoherent.size_eq⟩
  intro i e hanswer
  rw [run_append]
  rcases get_cases config schemas (run config schemas calls) i with
    ⟨p, -, hok, -⟩ | ⟨prepared, -, -, hok, -⟩ | ⟨e, -, -, -, hafter⟩
  · cases hanswer.symm.trans hok
  · cases hanswer.symm.trans hok
  · exact hafter

/-- Refuses the schemas that are truth values: around them the rest of the chain is asked twice. -/
def refusingFlags : Config :=
  ⟨[(.normalize, fun _ c =>
    if c.schema.bool?.isSome then .proceedThen c .pass else .pass c)], [], true⟩

/-- Two schemas with the same content, and one that is refused. -/
def twoAlike (identity : Nat) : Json := if identity = 2 then .bool true else .empty

/-- The first of two schemas with the same content is kept, the third one is refused, and then the
second one is prepared apart. -/
theorem run_coherent_twoAlike :
    ∃ p q, answer refusingFlags twoAlike (run refusingFlags twoAlike [.get 0]) 0 = .ok p ∧
      answer refusingFlags twoAlike (run refusingFlags twoAlike [.get 0, .get 0, .get 2]) 1 =
        .ok q ∧
      answer refusingFlags twoAlike (run refusingFlags twoAlike [.get 0]) 2 =
        .error (.nextCalledMultipleTimes .normalize) ∧
      p.prepared = q.prepared ∧ p.number ≠ q.number ∧
      run refusingFlags twoAlike [.get 0, .get 2] = run refusingFlags twoAlike [.get 0] ∧
      (run refusingFlags twoAlike [.get 0]).size = 1 := by
  obtain ⟨-, hsame, hrefused, -⟩ := run_coherent refusingFlags twoAlike [.get 0]
  have hp : answer refusingFlags twoAlike (run refusingFlags twoAlike [.get 0]) 0 =
      .ok ⟨0, Schema.prepare .empty, []⟩ := rfl
  have hq : answer refusingFlags twoAlike
      (run refusingFlags twoAlike ([.get 0] ++ .get 0 :: [.get 2])) 1 =
        .ok ⟨1, Schema.prepare .empty, []⟩ := rfl
  have herror : answer refusingFlags twoAlike (run refusingFlags twoAlike [.get 0]) 2 =
      .error (.nextCalledMultipleTimes .normalize) := rfl
  refine ⟨_, _, hp, hq, herror, rfl, fun hnumber => ?_, hrefused 2 _ herror, rfl⟩
  obtain ⟨hidentity, -⟩ := (hsame 0 1 [.get 2] _ _ hp hq).1.1 hnumber
  cases hidentity

end SchemaForm.StaticCache

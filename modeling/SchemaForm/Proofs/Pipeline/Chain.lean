import SchemaForm.Proofs.Pipeline.Plain
import SchemaForm.Regex.Engine

/-!
# The law of a chain

Interceptors that only rewrite nest like functions: a chain of them is their rewritings on the way
in, the work of the stage, and their rewritings on the way out. The first interceptor that does
something else with the rest of its chain decides what stands in the middle. Main statements:
`Interceptor.runChain_links` says what that is, for every chain of interceptors that pass, skip or
ask twice, how often the work is done, and that a run ends with the stage at which a chain asks
twice.
-/

namespace SchemaForm

namespace Traced

variable {α β γ : Type}

/-- A failure without notes. -/
def fail (e : PipelineError) : Traced α := ⟨.error e, []⟩

@[simp] theorem fail_bind (e : PipelineError) (f : α → Traced β) :
    (fail e : Traced α).bind f = fail e := rfl

@[simp] theorem bind_ok (t : Traced α) : t.bind .ok = t := by
  obtain ⟨result, notes⟩ := t
  cases result with
  | ok a =>
    show (⟨.ok a, notes ++ []⟩ : Traced α) = ⟨.ok a, notes⟩
    rw [List.append_nil]
  | error e => rfl

theorem bind_assoc (t : Traced α) (f : α → Traced β) (g : β → Traced γ) :
    (t.bind f).bind g = t.bind fun a => (f a).bind g := by
  obtain ⟨result, notes⟩ := t
  cases result with
  | error e => rfl
  | ok a =>
    cases h : (f a).result <;> simp [bind, h, List.append_assoc]

theorem map_eq_bind (f : α → β) (t : Traced α) : t.map f = t.bind fun a => .ok (f a) := by
  obtain ⟨result, notes⟩ := t
  cases result with
  | ok a =>
    show (⟨.ok (f a), notes⟩ : Traced β) = ⟨.ok (f a), notes ++ []⟩
    rw [List.append_nil]
  | error e => rfl

end Traced

/-! ### Three kinds of interceptors -/

/-- A change of the context at a stage, which may fail and may leave notes. -/
abbrev Rewriting := Stage → Context → Traced Context

/-- Rewrites the context on the way in and on the way out. -/
structure Passing where
  before : Rewriting
  after : Rewriting

/-- An interceptor by what it does with the rest of its chain. -/
inductive Link where
  /-- Asks the rest once, between two rewritings, and hands on its failure. -/
  | passing (rewritings : Passing)
  /-- Ends with the context it was given. -/
  | skipping
  /-- Asks the rest, hands on its failure, and asks again with the result. -/
  | doubling

/-- Leaves the notes and goes on after a success. -/
def Intercept.onceDone (t : Traced Context) (rest : Context → Intercept) : Intercept :=
  t.notes.foldr .note <|
    match t.result with
    | .ok c => rest c
    | .error e => .finish (.error e)

namespace Link

/-- The interceptor of a link. -/
def interceptor : Link → Interceptor
  | .passing rewritings => fun stage c =>
    .onceDone (rewritings.before stage c) fun c =>
      .proceedThen c fun c => .onceDone (rewritings.after stage c) fun c => .finish (.ok c)
  | .skipping => fun _ c => .finish (.ok c)
  | .doubling => fun _ c => .proceedThen c .pass

end Link

namespace Intercept

variable (stage : Stage) (next : Context → Traced Context) (asked : Bool)

theorem run_notes (notes : List String) (rest : Intercept) :
    (notes.foldr note rest).run stage next asked =
      ⟨(rest.run stage next asked).result, notes ++ (rest.run stage next asked).notes⟩ := by
  induction notes with
  | nil => rfl
  | cons text notes ih => rw [List.foldr_cons, run, ih, List.cons_append]

theorem run_onceDone (t : Traced Context) (rest : Context → Intercept) :
    (onceDone t rest).run stage next asked =
      t.bind fun c => (rest c).run stage next asked := by
  obtain ⟨result, notes⟩ := t
  rw [onceDone, run_notes]
  cases result with
  | ok c => rfl
  | error e =>
    show (⟨.error e, notes ++ []⟩ : Traced Context) = ⟨.error e, notes⟩
    rw [List.append_nil]

/-- The first request is answered by the rest of the chain. -/
theorem run_proceedThen (c : Context) (resume : Context → Intercept) :
    (proceedThen c resume).run stage next false =
      (next c).bind fun c => (resume c).run stage next true := by
  rw [proceedThen, run, if_neg Bool.false_ne_true]
  generalize next c = t
  obtain ⟨result, notes⟩ := t
  cases result with
  | ok d => rfl
  | error e =>
    show (⟨.error e, notes ++ []⟩ : Traced Context) = ⟨.error e, notes⟩
    rw [List.append_nil]

/-- The second request is refused. -/
theorem run_pass_asked (c : Context) :
    (pass c).run stage next true = .fail (.nextCalledMultipleTimes stage) := rfl

end Intercept

namespace Link

variable (stage : Stage) (next : Context → Traced Context)

theorem run_passing (rewritings : Passing) (c : Context) :
    ((passing rewritings).interceptor stage c).run stage next false =
      (rewritings.before stage c).bind fun c => (next c).bind (rewritings.after stage) := by
  have hafter (c : Context) : (Intercept.onceDone (rewritings.after stage c) fun c =>
      .finish (.ok c)).run stage next true = rewritings.after stage c := by
    rw [Intercept.run_onceDone]
    exact Traced.bind_ok _
  rw [interceptor, Intercept.run_onceDone]
  simp only [Intercept.run_proceedThen, hafter]

theorem run_doubling (c : Context) :
    (doubling.interceptor stage c).run stage next false =
      (next c).bind fun _ => .fail (.nextCalledMultipleTimes stage) := by
  rw [interceptor, Intercept.run_proceedThen]
  simp only [Intercept.run_pass_asked]

end Link

/-! ### Nesting -/

namespace Passing

/-- The way in: the rewritings of the outermost come first. -/
def enter (stage : Stage) : List Passing → Context → Traced Context
  | [], c => .ok c
  | first :: rest, c => (first.before stage c).bind (enter stage rest)

/-- The way out: the rewritings of the innermost come first. -/
def leave (stage : Stage) : List Passing → Context → Traced Context
  | [], c => .ok c
  | first :: rest, c => (leave stage rest c).bind (first.after stage)

/-- In, the work, and out. -/
def around (stage : Stage) (front : List Passing) (work : Context → Traced Context) (c : Context) :
    Traced Context :=
  (enter stage front c).bind fun c => (work c).bind (leave stage front)

theorem around_nil (stage : Stage) (work : Context → Traced Context) (c : Context) :
    around stage [] work c = work c :=
  Traced.bind_ok (work c)

theorem around_cons (stage : Stage) (first : Passing) (rest : List Passing)
    (work : Context → Traced Context) (c : Context) :
    around stage (first :: rest) work c =
      (first.before stage c).bind fun c =>
        (around stage rest work c).bind (first.after stage) := by
  rw [around, enter, Traced.bind_assoc]
  congr 1
  funext c
  rw [around, Traced.bind_assoc]
  congr 1
  funext c
  rw [Traced.bind_assoc]
  rfl

end Passing

/-! ### Running a chain -/

namespace Interceptor

variable (stage : Stage) (work : Context → Traced Context)

/-- Runs a chain around any work. -/
def runAround : List Interceptor → Context → Traced Context
  | [], c => work c
  | interceptor :: rest, c => (interceptor stage c).run stage (runAround rest) false

theorem runChain_eq_runAround [Patterns] (chain : List Interceptor) :
    runChain stage chain = runAround stage (fun c => .ok (c.perform stage)) chain := by
  induction chain with
  | nil => rfl
  | cons interceptor rest ih =>
    funext c
    rw [runChain, runAround, ih]

/-- The work is done once on the way through the chain, or not at all: the outcome is that of doing
it once between two parts that do not know it, or does not depend on it. -/
def WorkOnce (stage : Stage) (chain : List Interceptor) : Prop :=
  ∀ c, (∃ t, ∀ work, runAround stage work chain c = t) ∨
    ∃ (entered : Traced Context) (left : Context → Traced Context),
      ∀ work, runAround stage work chain c = (entered.bind work).bind left

end Interceptor

namespace Link

/-- The rewritings of the links before the first one that does not pass. -/
def front : List Link → List Passing
  | .passing rewritings :: rest => rewritings :: front rest
  | _ => []

/-- What stands in the middle of that front: the work if all links pass, nothing if the next link
skips, and one run of what follows and then the failure if the next link asks twice. -/
def middle (stage : Stage) (work : Context → Traced Context) : List Link → Context → Traced Context
  | [], c => work c
  | .passing _ :: rest, c => middle stage work rest c
  | .skipping :: _, c => .ok c
  | .doubling :: rest, c =>
    (Interceptor.runAround stage work (rest.map interceptor) c).bind fun _ =>
      .fail (.nextCalledMultipleTimes stage)

theorem front_append_doubling (passings : List Passing) (rest : List Link) :
    front (passings.map .passing ++ .doubling :: rest) = passings := by
  induction passings with
  | nil => rfl
  | cons first passings ih => rw [List.map_cons, List.cons_append, front, ih]

theorem middle_append_doubling (stage : Stage) (work : Context → Traced Context)
    (passings : List Passing) (rest : List Link) :
    middle stage work (passings.map .passing ++ .doubling :: rest) =
      middle stage work (.doubling :: rest) := by
  induction passings with
  | nil => rfl
  | cons first passings ih =>
    funext c
    rw [List.map_cons, List.cons_append, middle, ih]

end Link

namespace Interceptor

/-- The front of a chain nests around its middle. -/
theorem runAround_links (stage : Stage) (work : Context → Traced Context) (links : List Link)
    (c : Context) :
    runAround stage work (links.map Link.interceptor) c =
      Passing.around stage (Link.front links) (Link.middle stage work links) c := by
  induction links generalizing c with
  | nil => exact (Passing.around_nil stage work c).symm
  | cons link rest ih =>
    rw [List.map_cons, runAround]
    cases link with
    | passing rewritings =>
      rw [Link.run_passing, Link.front, Passing.around_cons]
      simp only [ih]
      rfl
    | skipping =>
      exact (Passing.around_nil stage (Link.middle stage work (.skipping :: rest)) c).symm
    | doubling =>
      rw [Link.run_doubling]
      exact (Passing.around_nil stage (Link.middle stage work (.doubling :: rest)) c).symm

theorem workOnce_links (stage : Stage) (links : List Link) :
    WorkOnce stage (links.map Link.interceptor) := by
  induction links with
  | nil => exact fun c => .inr ⟨.ok c, .ok, fun work => (Traced.bind_ok (work c)).symm⟩
  | cons link rest ih =>
    intro c
    simp only [List.map_cons, runAround]
    cases link with
    | skipping => exact .inl ⟨.ok c, fun _ => rfl⟩
    | doubling =>
      simp only [Link.run_doubling]
      rcases ih c with ⟨t, ht⟩ | ⟨entered, left, hwork⟩
      · exact .inl ⟨_, fun work => by rw [ht work]⟩
      · exact .inr ⟨entered, _, fun work => by rw [hwork work, Traced.bind_assoc]⟩
    | passing rewritings =>
      simp only [Link.run_passing]
      obtain ⟨result, notes⟩ := rewritings.before stage c
      cases result with
      | error e => exact .inl ⟨⟨.error e, notes⟩, fun _ => rfl⟩
      | ok d =>
        rcases ih d with ⟨t, ht⟩ | ⟨entered, left, hwork⟩
        · refine .inl ⟨(⟨.ok d, notes⟩ : Traced Context).bind fun _ =>
            t.bind (rewritings.after stage), fun work => ?_⟩
          rw [← ht work]
          rfl
        · refine .inr ⟨(⟨.ok d, notes⟩ : Traced Context).bind fun _ => entered,
            fun c => (left c).bind (rewritings.after stage), fun work => ?_⟩
          rw [Traced.bind_assoc, Traced.bind_assoc]
          simp only [← Traced.bind_assoc, ← hwork work]
          rfl

end Interceptor

/-! ### Running the stages -/

namespace Pipeline

theorem runStages_append [Patterns] (config : Config) (earlier later : List Stage) (c : Context) :
    runStages config (earlier ++ later) c =
      (runStages config earlier c).bind (runStages config later) := by
  induction earlier generalizing c with
  | nil => rfl
  | cons stage earlier ih =>
    rw [List.cons_append, runStages, runStages, Traced.bind_assoc]
    exact congrArg (Traced.bind _) (funext ih)

theorem run_eq_runStages [Patterns] (config : Config) (schema : Json) (data : Option Json)
    (selections : Selections) :
    run config schema data selections =
      (runStages config Stage.all { Context.start schema data with selections }).map
        (finish config) := by
  rw [run, Stage.all, runStages_append]

/-- The stages before the last one. -/
def beforeFinalize : List Stage := Stage.all.dropLast

theorem runStages_singleton [Patterns] (config : Config) (stage : Stage) (c : Context) :
    runStages config [stage] c =
      Interceptor.runChain stage (config.chain stage) { c with stage } :=
  Traced.bind_ok _

/-- The context that the stages make of a schema and data, without interceptors. -/
theorem exists_runStages_default [Patterns] (schema : Json) (data : Option Json)
    (selections : Selections) :
    ∃ c, runStages .default Stage.all { Context.start schema data with selections } = .ok c ∧
      FormModel.ofContext c = plainModel (Schema.prepare schema) data selections := by
  refine ⟨_, runStages_default _ _, ?_⟩
  have hrun := run_default schema data selections
  rw [run_eq_runStages, runStages_default] at hrun
  have hresult := congrArg Traced.result hrun
  exact Except.ok.inj hresult

/-- With one interceptor around the last stage, which does nothing itself, a run is what this
interceptor makes of the context that the stages make. -/
theorem run_finalizing [Patterns] {schema : Json} {data : Option Json} {selections : Selections}
    {c : Context}
    (h : runStages .default Stage.all { Context.start schema data with selections } = .ok c)
    (interceptor : Interceptor) :
    run { Config.default with interceptors := [(.finalize, interceptor)] } schema data selections =
      ((interceptor .finalize c).run .finalize (fun c => .ok c) false).map .ofContext := by
  have hall : Stage.all = beforeFinalize ++ [.finalize] := rfl
  have hbare : ∀ stage ∈ beforeFinalize,
      { Config.default with interceptors := [(.finalize, interceptor)] }.chain stage = [] := by
    have hother : ∀ stage ∈ beforeFinalize, (Stage.finalize == stage) = false := by decide
    intro stage hstage
    simp [Config.chain, hother stage hstage]
  rw [hall, runStages_append, runStages_default, Traced.ok_bind, runStages_singleton] at h
  rw [run_eq_runStages, hall, runStages_append, runStages_of_chain_nil hbare, Traced.ok_bind,
    runStages_singleton]
  have hlast := Except.ok.inj (congrArg Traced.result h)
  rw [← hlast]
  rfl

end Pipeline

namespace Interceptor

/-- What comes of a chain that asks twice behind its front: one run of what follows, and then the
failure. -/
def askedTwice [Patterns] {α : Type} (stage : Stage) (passings : List Passing) (rest : List Link)
    (c : Context) : Traced α :=
  (Passing.enter stage passings c).bind fun c =>
    (runChain stage (rest.map Link.interceptor) c).bind fun _ =>
      .fail (.nextCalledMultipleTimes stage)

theorem runChain_of_doubling [Patterns] (stage : Stage) (passings : List Passing) (rest : List Link)
    (c : Context) :
    runChain stage ((passings.map Link.passing ++ .doubling :: rest).map Link.interceptor) c =
      askedTwice stage passings rest c := by
  rw [runChain_eq_runAround, runAround_links, Link.front_append_doubling,
    Link.middle_append_doubling, Passing.around, askedTwice, runChain_eq_runAround]
  congr 1
  funext c
  rw [Link.middle, Traced.bind_assoc]
  simp only [Traced.fail_bind]

/-- A failed chain ends the run: the stages before it are all that was done. -/
theorem run_of_doubling [Patterns] {config : Config} {stage : Stage} {earlier later : List Stage}
    (hall : Stage.all = earlier ++ stage :: later) {passings : List Passing} {rest : List Link}
    (hchain : config.chain stage =
      (passings.map Link.passing ++ .doubling :: rest).map Link.interceptor)
    (schema : Json) (data : Option Json) (selections : Selections) :
    Pipeline.run config schema data selections =
      (Pipeline.runStages config earlier { Context.start schema data with selections }).bind
        fun c => askedTwice stage passings rest { c with stage } := by
  rw [Pipeline.run_eq_runStages, hall, Pipeline.runStages_append, Traced.map_eq_bind,
    Traced.bind_assoc]
  congr 1
  funext c
  rw [Pipeline.runStages, hchain, runChain_of_doubling]
  simp only [askedTwice, Traced.bind_assoc, Traced.fail_bind]

/-- The law of a chain whose links pass, skip or ask twice, in any number and order. The links
before the first that does not pass nest around the work, around nothing, or around one run of what
follows and a failure; the work is done at most once; and where a stage of a run is asked for twice,
the run is the stages before it, that one run of what follows, and the failure with the stage. -/
theorem runChain_links [Patterns] (stage : Stage) (links : List Link) :
    (∀ c, runChain stage (links.map Link.interceptor) c =
      Passing.around stage (Link.front links)
        (Link.middle stage (fun c => .ok (c.perform stage)) links) c) ∧
    WorkOnce stage (links.map Link.interceptor) ∧
    ∀ passings rest, links = passings.map Link.passing ++ .doubling :: rest →
      ∀ (config : Config) (earlier later : List Stage), Stage.all = earlier ++ stage :: later →
        config.chain stage = links.map Link.interceptor →
        ∀ schema data selections, Pipeline.run config schema data selections =
          (Pipeline.runStages config earlier { Context.start schema data with selections }).bind
            fun c => askedTwice stage passings rest { c with stage } := by
  refine ⟨fun c => ?_, workOnce_links stage links, ?_⟩
  · rw [runChain_eq_runAround, runAround_links]
  · rintro passings rest rfl config earlier later hall hchain schema data selections
    exact run_of_doubling hall hchain schema data selections

/-- Rewritings that leave a note and nothing else. -/
def noting (text : String) : Passing where
  before _ c := ⟨.ok c, ["before " ++ text]⟩
  after _ c := ⟨.ok c, ["after " ++ text]⟩

/-- A chain that asks twice between two that leave notes. -/
def askingTwice : List Link :=
  [.passing (noting "outer"), .doubling, .passing (noting "inner")]

/-- The interceptors of `askingTwice` around the stage that builds the fields. -/
def buildingTwice : Config :=
  ⟨askingTwice.map fun link => (.buildTree, link.interceptor), [], true⟩

/-- The inner notes are left once, and the outer interceptor does not come to its second note. -/
theorem runChain_links_buildingTwice :
    Pipeline.run buildingTwice .empty none SortedMap.empty =
      ⟨.error (.nextCalledMultipleTimes .buildTree),
        ["before outer", "before inner", "after inner"]⟩ :=
  ((runChain_links .buildTree askingTwice).2.2 [noting "outer"] [.passing (noting "inner")] rfl
    buildingTwice
    [.normalize, .resolveRefs, .mergeAllOf, .evaluateConditionals, .evaluateDependents,
      .resolveCombinators] [.applyDefaults, .finalize] rfl rfl .empty none SortedMap.empty).trans
    rfl

end Interceptor

end SchemaForm

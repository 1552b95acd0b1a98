import SchemaForm.Pipeline.Context

/-!
# Interceptors

An interceptor stands around a stage. It is a function from the context to what it does next: end
with a result, let the rest of the chain run and go on with its outcome, or leave a note. The rest
of a chain runs at most once; an interceptor that asks again is answered by an error.
-/

namespace SchemaForm

/-- Why a run fails. -/
inductive PipelineError where
  /-- An interceptor let the rest of its chain run twice. -/
  | nextCalledMultipleTimes (stage : Stage)
  | path (error : PathError)
deriving DecidableEq

/-- The wording of the error. -/
def PipelineError.message : PipelineError → String
  | .nextCalledMultipleTimes stage =>
    "middleware for stage " ++ stage.name ++ " called next() more than once"
  | .path error => error.message

/-- The exit code that reports the error. -/
def PipelineError.exitCode : PipelineError → Nat
  | .nextCalledMultipleTimes _ => 2
  | .path error => error.exitCode

/-- A result with the notes left on the way, whether it is an error or not. -/
structure Traced (α : Type) where
  result : Except PipelineError α
  notes : List String

namespace Traced

variable {α β : Type}

/-- A result without notes. -/
def ok (a : α) : Traced α := ⟨.ok a, []⟩

/-- Goes on after a success, and keeps the notes. -/
def bind (t : Traced α) (f : α → Traced β) : Traced β :=
  match t.result with
  | .ok a =>
    let next := f a
    ⟨next.result, t.notes ++ next.notes⟩
  | .error e => ⟨.error e, t.notes⟩

/-- Changes a success. -/
def map (f : α → β) (t : Traced α) : Traced β := ⟨t.result.map f, t.notes⟩

end Traced

/-- What an interceptor does next. -/
inductive Intercept where
  /-- Ends with a result. -/
  | finish (result : Except PipelineError Context)
  /-- Lets the rest of the chain run on a context, and goes on with its outcome. -/
  | proceed (context : Context) (resume : Except PipelineError Context → Intercept)
  /-- Leaves a note. -/
  | note (text : String) (rest : Intercept)

/-- An interceptor of a stage: it sees the stage and the context. -/
abbrev Interceptor := Stage → Context → Intercept

namespace Intercept

/-- Runs an interceptor whose chain goes on with `next`. Once the chain was `asked`, asking again
is answered by an error. -/
def run (stage : Stage) (next : Context → Traced Context) (asked : Bool) :
    Intercept → Traced Context
  | .finish result => ⟨result, []⟩
  | .note text rest =>
    let t := run stage next asked rest
    ⟨t.result, text :: t.notes⟩
  | .proceed context resume =>
    if asked then
      run stage next true (resume (.error (.nextCalledMultipleTimes stage)))
    else
      let inner := next context
      let outer := run stage next true (resume inner.result)
      ⟨outer.result, inner.notes ++ outer.notes⟩

/-- Lets the chain run and goes on only after a success. -/
def proceedThen (context : Context) (resume : Context → Intercept) : Intercept :=
  .proceed context fun
    | .ok c => resume c
    | .error e => .finish (.error e)

/-- Lets the chain run and ends with its outcome. -/
def pass (context : Context) : Intercept := .proceed context .finish

end Intercept

namespace Interceptor

/-- Runs a chain of interceptors around the work of a stage; the first one stands outermost. -/
def runChain [Patterns] (stage : Stage) : List Interceptor → Context → Traced Context
  | [], c => .ok (c.perform stage)
  | interceptor :: rest, c => (interceptor stage c).run stage (runChain stage rest) false

end Interceptor
end SchemaForm

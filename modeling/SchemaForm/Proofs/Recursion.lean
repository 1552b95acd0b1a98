import Mathlib.Logic.Function.Iterate

/-!
# Recursions that end

A recursion is given by one round of its work, in which a function stands for the recursive calls.
It ends if a round calls this function only at arguments below its own in an order without infinite
descent: then so many rounds as the measure of an argument says need no answer from outside.
-/

namespace SchemaForm.Recursion

variable {α β : Type}

/-- A round hangs on the recursive calls at lower arguments alone. -/
def Consults (lower : α → α → Prop) (round : (α → β) → α → β) : Prop :=
  ∀ f g x, (∀ y, lower y x → f y = g y) → round f x = round g x

/-- The function is what a round makes of itself, every recursive call is at a lower argument, where
the measure is smaller, and nested rounds, one more than the measure of the argument, give its result
whatever the innermost calls would answer. -/
structure EndsBy (lower : α → α → Prop) (measure : α → Nat) (round : (α → β) → α → β)
    (f : α → β) : Prop where
  round_eq : round f = f
  consults : Consults lower round
  decreases : ∀ y x, lower y x → measure y < measure x
  iterate_eq : ∀ n g x, measure x < n → round^[n] g x = f x

/-- Calls at lower arguments end if the measure decreases. -/
theorem EndsBy.of_consults {lower : α → α → Prop} {measure : α → Nat}
    {round : (α → β) → α → β} {f : α → β} (hround : round f = f)
    (hmeasure : ∀ y x, lower y x → measure y < measure x) (h : Consults lower round) :
    EndsBy lower measure round f where
  round_eq := hround
  consults := h
  decreases := hmeasure
  iterate_eq n := by
    induction n with
    | zero =>
      intro g x hx
      exact absurd hx (Nat.not_lt_zero _)
    | succ n ih =>
      intro g x hx
      rw [Function.iterate_succ_apply']
      calc round (round^[n] g) x
        _ = round f x := by
          refine h _ _ x fun y hy => ih g y ?_
          have := hmeasure y x hy
          omega
        _ = f x := congrFun hround x

end SchemaForm.Recursion

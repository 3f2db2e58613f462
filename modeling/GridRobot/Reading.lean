/-!
# Reading with progress

Grammars are read by functions that take a list of tokens and return a tree with the tokens that
follow it. What is returned holds the proof that tokens were used up, so a reader that calls itself
on the rest comes to an end.

## Main definitions

* `Step` is a tree and a rest that is shorter than the tokens it was read from.
* `Pause` is a tree and a rest that is not longer.
-/

namespace GridRobot

/-- A tree that was read from some tokens, and the tokens that follow it. -/
structure Step {τ : Type} (α : Type) (tokens : List τ) where
  value : α
  rest : List τ
  rest_lt : rest.length < tokens.length

/-- A tree that may have been read without using up a token, and the tokens that follow it. -/
structure Pause {τ : Type} (α : Type) (tokens : List τ) where
  value : α
  rest : List τ
  rest_le : rest.length ≤ tokens.length

/-- A step is a pause. -/
def Step.toPause {τ α : Type} {tokens : List τ} (s : Step α tokens) : Pause α tokens :=
  ⟨s.value, s.rest, Nat.le_of_lt s.rest_lt⟩

end GridRobot

/-!
# Splitting texts

## Main definitions

* `splitAt mark cs` are the texts between the occurrences of a character.
-/

namespace GridRobot.Text

/-- The texts between the occurrences of a character; there is always one more than of these. -/
def splitAt {α : Type} [DecidableEq α] (mark : α) : List α → List (List α)
  | [] => [[]]
  | c :: rest =>
    match splitAt mark rest with
    | [] => [[c]]
    | first :: others => if c = mark then [] :: first :: others else (c :: first) :: others

/-- A text is split into at least one part. -/
theorem splitAt_ne_nil {α : Type} [DecidableEq α] (mark : α) (cs : List α) :
    splitAt mark cs ≠ [] := by
  cases cs with
  | nil => simp [splitAt]
  | cons c rest =>
    simp only [splitAt]
    split
    · simp
    · split <;> simp

end GridRobot.Text

import GridRobot.Source.Parser
import GridRobot.Source.Binding

/-!
# Compiling

From program text to a program: cut into tokens, read as a tree, names bound.

## Main definitions

* `compile limit source` is the program of a text that may nest `limit` levels deep.
* `Refusal` is the reason why there is none.
* `CompileOutcome.ofParts?` puts an outcome together from a program and an error, of which exactly
  one must be given.
-/

namespace GridRobot.Source

/-- Default for the number of levels that a text may nest. -/
def defaultNesting : Int := 100

/-- Why a text is not compiled. -/
inductive Refusal where
  /-- The text is wrong. -/
  | error (e : CompileError)
  /-- The nesting limit is not a positive number. -/
  | limitNotPositive
  /-- A repeat count has too many digits. -/
  | numberTooLong
  deriving Repr, DecidableEq

/-- What is said about a nesting limit that is not positive. -/
def limitNotPositiveMessage : String :=
  "max_nesting_depth must be positive"

/-- The tree of a text that was cut into tokens. -/
def parseWithin (limit : Int) (text : TokenList) : Except Refusal Listing :=
  if limit ≤ 0 then .error .limitNotPositive
  else match parse limit.toNat text with
    | .ok listing => .ok listing
    | .error (.error e) => .error (.error e)
    | .error .numberTooLong => .error .numberTooLong

/-- The program of a text. -/
def compile (limit : Int) (source : String) : Except Refusal Program := do
  let tokens ← (tokenize source).mapError .error
  let listing ← parseWithin limit tokens
  (bind listing).mapError .error

/-- Once the tree of a text is known, what is left of its compilation is to bind the names. -/
theorem compile_of_listing {limit : Int} {source : String} {listing : Listing}
    (h : ((tokenize source).mapError Refusal.error >>= parseWithin limit) = .ok listing) :
    compile limit source = (bind listing).mapError .error := by
  have hstages : compile limit source =
      ((tokenize source).mapError Refusal.error >>= parseWithin limit) >>=
        fun listing => (bind listing).mapError .error := by
    unfold compile
    cases (tokenize source).mapError Refusal.error <;> rfl
  rw [hstages, h]
  rfl

/-- Outcome of a compilation as it is handed on: a program, or the error in the text. -/
abbrev CompileOutcome : Type :=
  Except CompileError Program

namespace CompileOutcome

/-- An outcome of which two parts are given, when exactly one of them is there. -/
def ofParts? : Option Program → Option CompileError → Option CompileOutcome
  | some p, none => some (.ok p)
  | none, some e => some (.error e)
  | _, _ => none

/-- What is said when not exactly one part is given. -/
def partsMessage : String :=
  "CompileResult needs exactly one of program or error"

end CompileOutcome

end GridRobot.Source

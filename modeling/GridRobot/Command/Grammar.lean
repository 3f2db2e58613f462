import GridRobot.Text.Digit

/-!
# Grammars of command lines

The words of a command line are switches, the arguments that switches take, and arguments that
stand for themselves. A grammar says which switches there are and what becomes of the arguments.

## Main definitions

* `Grammar` is a grammar, of `Switch`es and at most one `Place` for arguments.
* `Mark` is what a word is taken for, and `Grammar.marks` marks the words of a command line.

## Design notes

A switch with a long name may be cut short where only one name begins so, and may hold its argument
after `=`. Short switches may be put together in one word. After a word of two dashes all words are
arguments.
-/

namespace GridRobot.Command

/-- How the reading of a command line ends before it is done. -/
inductive Ending where
  /-- Help was asked for. -/
  | help
  | wrong
  deriving Repr, DecidableEq

/-- The arguments that a switch takes. -/
inductive Takes where
  | nothing
  | one
  /-- One or more. -/
  | several
  deriving Repr, DecidableEq

/-- A switch, by its names; `act` is what it does to the settings, given its arguments. -/
structure Switch (σ : Type) where
  names : List String
  takes : Takes
  act : List String → σ → Except Ending σ

/-- A place for arguments that stand for themselves. -/
structure Place (σ : Type) where
  /-- Does it take everything from its first argument on? -/
  takesRest : Bool
  act : List String → σ → Except Ending σ

/-- The switches and the place of a command line; a place has to be filled. -/
structure Grammar (σ : Type) where
  switches : List (Switch σ)
  place : Option (Place σ)

/-- What a word is taken for. -/
inductive Mark (σ : Type) where
  | argument
  /-- Two dashes, the first time that they occur. -/
  | dashes
  /-- A switch, the name it goes by, and the text that follows it in the same word. -/
  | switch (s : Switch σ) (name : String) (value : Option String)
  /-- A switch that there is not. -/
  | unknown

namespace Grammar

variable {σ : Type}

/-- The switches by their names. -/
def named (g : Grammar σ) : List (String × Switch σ) :=
  g.switches.flatMap fun s => s.names.map fun name => (name, s)

/-- A word in two at its first equals sign. -/
def splitValue? (word : String) : Option (String × String) :=
  let cs := word.toList
  match cs.dropWhile (· ≠ '=') with
  | [] => none
  | _ :: value => some (String.ofList (cs.takeWhile (· ≠ '=')), String.ofList value)

/-- Does a text begin like another one? -/
def beginsWith (text start : String) : Bool :=
  start.toList.isPrefixOf text.toList

/-- The switches of which a word with two dashes may be the beginning. -/
def longCandidates (g : Grammar σ) (word : String) : List (Mark σ) :=
  let (start, value) := match splitValue? word with
    | some (start, value) => (start, some value)
    | none => (word, none)
  (g.named.filter fun e => beginsWith e.1 start).map fun (name, s) => .switch s name value

/-- The switches that a word with one dash may be, or that it may be the beginning of. -/
def shortCandidates (g : Grammar σ) (word : String) : List (Mark σ) :=
  let cs := word.toList
  g.named.filterMap fun (name, s) =>
    if name.toList = cs.take 2 then some (.switch s name (some (String.ofList (cs.drop 2))))
    else if beginsWith name word then some (.switch s name none)
    else none

/-- Is a word a negative number? A line feed at its end does not count. -/
def isNegativeNumber (word : String) : Bool :=
  let cs := word.toList
  let cs := if cs.getLast? = some '\n' then cs.dropLast else cs
  match cs with
  | '-' :: rest =>
    match rest.dropWhile Text.isDigit with
    | [] => !rest.isEmpty
    | '.' :: decimals => !decimals.isEmpty && decimals.all Text.isDigit
    | _ => false
  | _ => false

/-- What a word that begins with a dash, and is no name, is taken for. -/
def markDashed (g : Grammar σ) (word : String) : Except Ending (Mark σ) :=
  let inTwo := do
    let (name, value) ← splitValue? word
    let s ← g.named.lookup name
    some (Mark.switch s name (some value))
  match inTwo with
  | some m => .ok m
  | none =>
    let candidates :=
      if beginsWith word "--" then g.longCandidates word else g.shortCandidates word
    match candidates with
    | [m] => .ok m
    | _ :: _ :: _ => .error .wrong
    | [] =>
      if isNegativeNumber word || word.toList.contains ' ' then .ok .argument else .ok .unknown

/-- What a word is taken for. -/
def mark (g : Grammar σ) (word : String) : Except Ending (Mark σ) :=
  if !beginsWith word "-" then .ok .argument
  else match g.named.lookup word with
    | some s => .ok (.switch s word none)
    | none => if word = "-" then .ok .argument else g.markDashed word

/-- The words of a command line with what they are taken for. -/
def marks (g : Grammar σ) : List String → Except Ending (List (String × Mark σ))
  | [] => .ok []
  | word :: rest =>
    if word = "--" then .ok ((word, .dashes) :: rest.map fun w => (w, .argument))
    else do
      let m ← g.mark word
      let more ← g.marks rest
      .ok ((word, m) :: more)

end Grammar

end GridRobot.Command

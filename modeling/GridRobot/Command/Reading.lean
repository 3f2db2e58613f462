import GridRobot.Command.Grammar

/-!
# Reading command lines

A command line is read word by word. A switch acts on the settings as soon as its arguments are
complete; so an error in one word and a plea for help in another are met in the order of the words.

## Main definitions

* `Progress` is how far a command line has been read.
* `Grammar.read` is what a command line makes of some settings.
-/

namespace GridRobot.Command

/-- What the next word may still belong to. -/
inductive Awaiting (σ : Type) where
  | nothing
  /-- Two dashes right after the argument in the place, which say nothing. -/
  | separator
  /-- The argument of a switch. -/
  | one (s : Switch σ)
  /-- A further argument of a switch that has taken some already. -/
  | several (s : Switch σ) (taken : List String)

/-- How far a command line has been read. -/
structure Progress (σ : Type) where
  settings : σ
  /-- The place, as long as it is not filled. -/
  place : Option (Place σ)
  awaiting : Awaiting σ
  /-- Has there been a word that fits nowhere? -/
  surplus : Bool

/-- What a word with switches says: the switches before the last one, which take nothing, and the
last one with the argument that follows it in the word. -/
structure Unbundled (σ : Type) where
  before : List (Switch σ)
  last : Switch σ
  argument : Option String

namespace Grammar

variable {σ : Type}

/-- The switches in a word that holds text after its first switch: an argument, or else the letters
of further short switches. -/
def unbundle (g : Grammar σ) (short : Bool) (s : Switch σ) : List Char → Except Ending (Unbundled σ)
  | [] => if s.takes = .nothing then .error .wrong else .ok ⟨[], s, some ""⟩
  | c :: rest =>
    if s.takes ≠ .nothing then .ok ⟨[], s, some (String.ofList (c :: rest))⟩
    else if !short then .error .wrong
    else match g.named.lookup (String.ofList ['-', c]) with
      | none => .error .wrong
      | some t =>
        if rest.isEmpty then .ok ⟨[s], t, none⟩
        else do
          let u ← g.unbundle short t rest
          .ok { u with before := s :: u.before }

/-- What a word with switches says. -/
def inWord (g : Grammar σ) (s : Switch σ) (name : String) (value : Option String) :
    Except Ending (Unbundled σ) :=
  match value with
  | none => .ok ⟨[], s, none⟩
  | some v => g.unbundle (!beginsWith name "--") s v.toList

end Grammar

namespace Progress

variable {σ : Type}

/-- A switch acts on the settings. -/
def act (p : Progress σ) (s : Switch σ) (arguments : List String) :
    Except Ending (Progress σ) := do
  .ok { p with settings := ← s.act arguments p.settings, awaiting := .nothing }

/-- No further argument comes for the switch that was read last. -/
def close (p : Progress σ) : Except Ending (Progress σ) :=
  match p.awaiting with
  | .one _ => .error .wrong
  | .several _ [] => .error .wrong
  | .several s taken => p.act s taken
  | _ => .ok { p with awaiting := .nothing }

/-- A switch that was read acts, or waits for its arguments. Two dashes in its word stand for no
argument at all. -/
def take (p : Progress σ) (s : Switch σ) (value : Option String) : Except Ending (Progress σ) :=
  match value, s.takes with
  | some v, _ => p.act s (if v = "--" then [] else [v])
  | none, .nothing => p.act s []
  | none, .one => .ok { p with awaiting := .one s }
  | none, .several => .ok { p with awaiting := .several s [] }

/-- A word with switches is read. -/
def switch (p : Progress σ) (g : Grammar σ) (s : Switch σ) (name : String)
    (value : Option String) : Except Ending (Progress σ) := do
  let closed ← p.close
  let u ← g.inWord s name value
  let acted ← u.before.foldlM (fun p s => p.act s []) closed
  acted.take u.last u.argument

/-- The word of two dashes is read. -/
def dashes (p : Progress σ) : Except Ending (Progress σ) :=
  match p.awaiting with
  | .separator => .ok { p with awaiting := .nothing }
  | _ => do
    let closed ← p.close
    match closed.place with
    | none => .ok { closed with surplus := true }
    | some place => if place.takesRest then .error .wrong else .ok closed

/-- The rest of the words, from an argument on, goes into the place. -/
def fill (p : Progress σ) (place : Place σ) (words : List String) :
    Except Ending (Progress σ) := do
  .ok { p with settings := ← place.act words p.settings, place := none, awaiting := .separator }

/-- The place that takes an argument and everything after it, if that is next. -/
def restPlace? (p : Progress σ) : Option (Place σ) :=
  match p.awaiting with
  | .one _ => none
  | .several _ _ => none
  | _ => p.place.filter Place.takesRest

/-- An argument is read. -/
def argument (p : Progress σ) (word : String) : Except Ending (Progress σ) :=
  match p.awaiting with
  | .one s => p.act s [word]
  | .several s taken => .ok { p with awaiting := .several s (taken ++ [word]) }
  | _ =>
    match p.place with
    | some place => p.fill place [word]
    | none => .ok { p with surplus := true, awaiting := .nothing }

/-- Words are read one by one. -/
def words (g : Grammar σ) (p : Progress σ) : List (String × Mark σ) → Except Ending (Progress σ)
  | [] => p.close
  | (word, .argument) :: rest =>
    match p.restPlace? with
    | some place => p.fill place (word :: rest.map (·.1))
    | none => do words g (← p.argument word) rest
  | (_, .dashes) :: rest => do words g (← p.dashes) rest
  | (_, .switch s name value) :: rest => do words g (← p.switch g s name value) rest
  | (_, .unknown) :: rest => do words g { ← p.close with surplus := true } rest

end Progress

namespace Grammar

variable {σ : Type}

/-- What a command line makes of some settings. -/
def read (g : Grammar σ) (settings : σ) (line : List String) : Except Ending σ := do
  let marked ← g.marks line
  let last ← Progress.words g ⟨settings, g.place, .nothing, false⟩ marked
  if last.place.isSome || last.surplus then .error .wrong else .ok last.settings

/-- The switch that asks for help. -/
def help : Switch σ :=
  ⟨["-h", "--help"], .nothing, fun _ _ => .error .help⟩

/-- A switch that takes nothing and changes the settings. -/
def flag (names : List String) (change : σ → σ) : Switch σ :=
  ⟨names, .nothing, fun _ s => .ok (change s)⟩

/-- A switch that takes one text. -/
def textSwitch (name : String) (set : Option String → σ → σ) : Switch σ :=
  ⟨[name], .one, fun arguments s => .ok (set arguments.head? s)⟩

end Grammar

end GridRobot.Command

import GridRobot.Source.Tree
import GridRobot.Program.Basic

/-!
# Binding names

A tree of program text becomes a program when every name in it is bound. A name in statement
position means the procedure of that name, wherever in the text it is defined, and otherwise the
primitive action. A name in a condition means a predicate. Statements outside of procedures are the
body of an implicit procedure `main`.

## Main definitions

* `checkDefinitions` says which definition, if any, has a name that it may not have.
* `chooseEntry` finds the procedure with which a run begins.
* `bindStatement` and `bindCondition` bind the names of one tree.
* `bind` makes a program of a whole text.

## Design notes

Names are bound by recursion on the tree, which is as deep as the reading of the text has let it become.
The stack of the interpreter is taken to suffice for that, as it is for the reading.
-/

namespace GridRobot.Source

/-- Names under which the entry procedure is looked for, the preferred one first. -/
def entryNames : List String :=
  ["main", "run"]

/-- Name of the procedure made of the statements outside of procedures. -/
def implicitEntry : String :=
  "main"

/-- An error at a call. -/
def Call.error (c : Call) (cause : Cause) : CompileError :=
  .located c.position cause

/-- Checks the names of definitions, given the names defined before them. -/
def checkDefinitions (seen : List String) : List Definition → Except CompileError PUnit
  | [] => .ok ⟨⟩
  | d :: rest =>
    if (Predicate.ofName? d.name).isSome then
      .error (.located d.position (.predicateRedefined d.name))
    else if seen.contains d.name then
      .error (.located d.position (.procedureRedefined d.name))
    else checkDefinitions (d.name :: seen) rest

/-- Name of the procedure with which a run begins. -/
def chooseEntry (names : List String) : List Statement → Except CompileError String
  | first :: _ =>
    if names.contains implicitEntry then .error ⟨.statementsBesideMain, first.place⟩
    else .ok implicitEntry
  | [] =>
    match entryNames.find? names.contains with
    | some name => .ok name
    | none => .error ⟨.missingEntry, .nowhere⟩

/-- Refuses a call with arguments. -/
def checkArguments (c : Call) : Except CompileError PUnit :=
  if c.arguments = 0 then .ok ⟨⟩ else .error (c.error (.argumentsGiven c.name c.arguments))

/-- Binds the name of a call in statement position, where `names` are the defined procedures. -/
def bindCall (names : List String) (c : Call) : Except CompileError GridRobot.Statement := do
  if names.contains c.name then
    checkArguments c
    .ok (.call c.name c.position.line)
  else match Action.ofName? c.name with
    | some a =>
      checkArguments c
      .ok (.action a c.position.line)
    | none =>
      if (Predicate.ofName? c.name).isSome then .error (c.error (.conditionAsStatement c.name))
      else .error (c.error (.unknownProcedure c.name))

/-- Binds the name of a call in a condition. -/
def bindPredicate (names : List String) (c : Call) : Except CompileError GridRobot.Condition :=
  match Predicate.ofName? c.name with
  | some p => do
    checkArguments c
    .ok (.predicate p c.position.line)
  | none =>
    if (Action.ofName? c.name).isSome || names.contains c.name then
      .error (c.error (.notACondition c.name))
    else .error (c.error (.unknownCondition c.name))

/-- Binds the names of a condition, from left to right. -/
def bindCondition (names : List String) : Condition → Except CompileError GridRobot.Condition
  | .call c => bindPredicate names c
  | .not operand line => do
    .ok (.not (← bindCondition names operand) line)
  | .binary op left right line => do
    let l ← bindCondition names left
    let r ← bindCondition names right
    match op with
    | .both => .ok (.and l r line)
    | .either => .ok (.or l r line)

mutual

/-- Binds the names of a statement, in the order in which they are written; those of a `while`
below a `do` come after its body. -/
def bindStatement (names : List String) : Statement → Except CompileError GridRobot.Statement
  | .call c => bindCall names c
  | .ifElse condition thenBody elseBody line => do
    let c ← bindCondition names condition
    let t ← bindBody names thenBody
    let e ← bindBody names elseBody
    .ok (.ifElse c t e line)
  | .whileLoop condition body line => do
    let c ← bindCondition names condition
    let b ← bindBody names body
    .ok (.whileLoop c b line)
  | .doWhile body condition line => do
    let b ← bindBody names body
    let c ← bindCondition names condition
    .ok (.doWhile b c line)
  | .repeatLoop count body line => do
    let b ← bindBody names body
    .ok (.repeatLoop count b line)

/-- Binds the names of a row of statements. -/
def bindBody (names : List String) :
    List Statement → Except CompileError (List GridRobot.Statement)
  | [] => .ok []
  | s :: rest => do
    let first ← bindStatement names s
    let others ← bindBody names rest
    .ok (first :: others)

end

/-- Binds the names of definitions in turn. -/
def bindDefinitions (names : List String) :
    List Definition → Except CompileError (List Procedure)
  | [] => .ok []
  | d :: rest => do
    let body ← bindBody names d.body
    let others ← bindDefinitions names rest
    .ok (⟨d.name, body, d.position.line⟩ :: others)

/-- The implicit entry procedure, when there are statements outside of procedures. -/
def bindLoose (names : List String) :
    List Statement → Except CompileError (List Procedure)
  | [] => .ok []
  | first :: rest => do
    let body ← bindBody names (first :: rest)
    .ok [⟨implicitEntry, body, first.line⟩]

/-- The program of a text: its procedures in order of definition, then the implicit entry. -/
def bind (text : Listing) : Except CompileError Program := do
  checkDefinitions [] text.definitions
  let names := text.definitions.map (·.name)
  let entry ← chooseEntry names text.loose
  let defined ← bindDefinitions names text.definitions
  let implicit ← bindLoose names text.loose
  .ok ⟨defined ++ implicit, entry⟩

end GridRobot.Source

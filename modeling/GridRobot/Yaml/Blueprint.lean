import GridRobot.Yaml.Node
import GridRobot.Yaml.Scalar

/-!
# Blueprints of YAML values

A blueprint is a tree of YAML text with its scalars made out and its merge keys carried out. It
tells what the value is, or what stands in the way of it.

## Main definitions

* `Yaml.Blueprint` is a blueprint, `Yaml.Blueprint.ofNode` that of a tree.
* `Yaml.Blueprint.problem?` is the first problem of a blueprint, if there is one.
* `Yaml.Blueprint.value` is the value of a blueprint without problems.

## Design notes

A merge key stands for the entries of the mapping, or of each mapping of the sequence, that it is
given; entries that are written out take precedence over merged ones, and earlier mappings over
later ones. Of two entries with equal keys the later one counts, in the place of the first.

Values are made in rounds: first that of the whole text, then those of its items, keys and values,
then those of theirs. So a problem nearer to the root is met before one farther from it, wherever
the two stand in the text.
-/

namespace GridRobot.Yaml

/-- A value before it is made. -/
inductive Blueprint where
  | scalar (v : Value)
  /-- A scalar without a value. -/
  | broken (e : LoadError)
  | sequence (items : List Blueprint)
  | mapping (entries : List (Blueprint × Blueprint))
  /-- A mapping with a merge key for something that has no entries. -/
  | badMerge

namespace Blueprint

/-- The blueprint of a plain scalar that is not a key. -/
def ofScalar : Scalar → Blueprint
  | .value v => scalar v
  | .broken b => broken (.broken b)
  | .merge => broken .malformed
  | .default => broken .malformed

/-- The blueprint of a plain scalar that is a key. -/
def ofKey (text : List Char) : Blueprint :=
  match ofPlain text with
  | .default => scalar (.text (String.ofList text))
  | s => ofScalar s

/-- Is a tree the key that stands for the entries of other mappings? -/
def isMergeKey : Node → Bool
  | .plain text =>
    match ofPlain text with
    | .merge => true
    | _ => false
  | _ => false

/-- The entries that a mapping gives to another one. -/
def given? : Blueprint → Option (List (Blueprint × Blueprint))
  | mapping entries => some entries
  | _ => none

/-- The entries that a merge key stands for. -/
def merged? : Blueprint → Option (List (Blueprint × Blueprint))
  | sequence items => (items.reverse.mapM given?).map List.flatten
  | b => b.given?

/-- A mapping of merged entries and written ones, of which one kind may be unknown. -/
def ofEntries : Option (List (Blueprint × Blueprint)) → List (Blueprint × Blueprint) → Blueprint
  | some merged, written => mapping (merged ++ written)
  | none, _ => badMerge

mutual

/-- The blueprint of a tree. -/
def ofNode : Node → Blueprint
  | .plain text => ofScalar (ofPlain text)
  | .quoted text => scalar (.text text)
  | .sequence items => sequence (ofNodes items)
  | .mapping entries => ofEntries (mergedOf entries) (writtenOf entries)

/-- The blueprints of some trees. -/
def ofNodes : List Node → List Blueprint
  | [] => []
  | n :: rest => ofNode n :: ofNodes rest

/-- The entries that the merge keys of a mapping stand for. -/
def mergedOf : List (Node × Node) → Option (List (Blueprint × Blueprint))
  | [] => some []
  | (k, v) :: rest => do
    let own ← if isMergeKey k then (ofNode v).merged? else some []
    some (own ++ (← mergedOf rest))

/-- The entries of a mapping that are written out. -/
def writtenOf : List (Node × Node) → List (Blueprint × Blueprint)
  | [] => []
  | (k, v) :: rest =>
    let key := match k with
      | .plain text => ofKey text
      | _ => ofNode k
    if isMergeKey k then writtenOf rest else (key, ofNode v) :: writtenOf rest

end

/-- The problem of a scalar that is met where the scalar stands. -/
def own : Blueprint → List LoadError
  | broken e => [e]
  | _ => []

/-- The problem of a key, which cannot be a collection. -/
def ownKey : Blueprint → List LoadError
  | scalar _ => []
  | broken e => [e]
  | _ => [.malformed]

/-- Problems of two trees round by round, those of the first tree first. -/
def together : List (List LoadError) → List (List LoadError) → List (List LoadError)
  | [], ys => ys
  | xs, [] => xs
  | x :: xs, y :: ys => (x ++ y) :: together xs ys

mutual

/-- The problems inside a collection, round by round. -/
def rounds : Blueprint → List (List LoadError)
  | scalar _ => []
  | broken _ => []
  | badMerge => [[.malformed]]
  | sequence items => items.flatMap own :: roundsOfItems items
  | mapping entries => (entries.flatMap fun e => ownKey e.1 ++ own e.2) :: roundsOfEntries entries

/-- The problems inside the items of a sequence. -/
def roundsOfItems : List Blueprint → List (List LoadError)
  | [] => []
  | b :: rest => together (rounds b) (roundsOfItems rest)

/-- The problems inside the values of a mapping; keys have no inside. -/
def roundsOfEntries : List (Blueprint × Blueprint) → List (List LoadError)
  | [] => []
  | (_, v) :: rest => together (rounds v) (roundsOfEntries rest)

end

/-- The first problem of a blueprint, if there is one. -/
def problem? (b : Blueprint) : Option LoadError :=
  (b.own ++ b.rounds.flatten).head?

mutual

/-- The value of a blueprint; what has a problem counts as nothing. -/
def value : Blueprint → Value
  | scalar v => v
  | broken _ => .null
  | badMerge => .null
  | sequence items => .list (valuesOf items)
  | mapping entries => .map ((entryValues entries).foldl (fun m (k, v) => Value.setEntry k v m) [])

/-- The values of some blueprints. -/
def valuesOf : List Blueprint → List Value
  | [] => []
  | b :: rest => value b :: valuesOf rest

/-- The keys and values of the entries of a mapping. -/
def entryValues : List (Blueprint × Blueprint) → List (Value × Value)
  | [] => []
  | (k, v) :: rest => (value k, value v) :: entryValues rest

end

end Blueprint

end GridRobot.Yaml

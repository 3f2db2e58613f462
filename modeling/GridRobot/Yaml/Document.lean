import GridRobot.Yaml.Blueprint
import GridRobot.Yaml.Reader

/-!
# A reader of plain YAML

## Main definitions

* `Yaml.load` is the value of a text, which is a single document.
* `Yaml.Plain.reader` reads texts and files in this way.

## Design notes

YAML is read as far as configurations and worlds are commonly written in it. Anchors and aliases, tags
and block scalars are not read: a text that has them counts as not well-formed. Collections that are
nested deeper than `Yaml.greatestDepth` break the reading off. So this reader is one that runs, and what
is shown of files is shown for every other one as well.
-/

namespace GridRobot.Yaml

/-- The tree of a text, if the text is a single document; an empty text has none. A text is scanned
while its tree is read, and no farther than it takes to tell what the next token is; so an obstacle
among the tokens that are settled is met before scanning fails. -/
def treeOf (supply : Supply) : Except LoadError (Option Node) :=
  let scan := Scan.ofSupply supply
  match readDocument scan.tokens, scan.failure with
  | .ok tree, none => .ok tree
  | .ok _, some e => .error e
  | .error o, none => .error o.cause
  | .error o, some e =>
    if scan.tokens.length - o.left < scan.settled then .error o.cause else .error e

/-- The value of a text; an empty text has the value of nothing. -/
def load (supply : Supply) : Except LoadError Value := do
  match ← treeOf supply with
  | none => .ok .null
  | some node =>
    let b := Blueprint.ofNode node
    match b.problem? with
    | some e => .error e
    | none => .ok b.value

namespace Plain

/-- The reader of plain YAML. -/
scoped instance reader : Reader where
  ofText text := load (.ofText text)
  ofFile data := load (.ofPortions (portions data))

end Plain

end GridRobot.Yaml

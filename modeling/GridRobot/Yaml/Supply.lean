import GridRobot.Files.Portion
import GridRobot.Yaml.LoadError

/-!
# What scanning can see of a text

YAML text is scanned from its beginning, while the text itself is still being read. Something that
is wrong with the text as such, and not with what it says, is met only when scanning needs a
character beyond it.

## Main definitions

* `Yaml.isAllowed` is the class of characters that may occur at all.
* `Yaml.Supply` is what scanning can see.
* `Yaml.Supply.ofText` is all of a text, `Yaml.Supply.ofPortions` is a text that comes in portions.

## Design notes

Two portions are read ahead before anything is looked at; after that, one portion at a time is read
when a character of it is needed. The characters of each are checked at once.
-/

namespace GridRobot.Yaml

/-- Characters that may occur in YAML text at all. -/
def isAllowed (c : Char) : Bool :=
  let n := c.toNat
  n == 0x9 || n == 0xA || n == 0xD || (0x20 ≤ n && n ≤ 0x7E) || n == 0x85 ||
    (0xA0 ≤ n && n ≤ 0xD7FF) || (0xE000 ≤ n && n ≤ 0xFFFD) || 0x10000 ≤ n

/-- A text as far as scanning can see it. -/
structure Supply where
  text : List Char
  /-- What is met beyond the text where it breaks off; nothing where it ends. -/
  beyond : Option LoadError

namespace Supply

/-- Portions one by one, up to the first one that breaks off or has a character that is not
allowed. -/
def gathered : List Portion → Supply
  | [] => ⟨[], none⟩
  | .error b :: _ => ⟨[], some (.broken b)⟩
  | .ok cs :: rest =>
    if cs.all isAllowed then
      let more := gathered rest
      ⟨cs ++ more.text, more.beyond⟩
    else ⟨[], some .malformed⟩

/-- Two portions as one. -/
def joined (first second : Portion) : Portion := do
  .ok ((← first) ++ (← second))

/-- A text that comes in portions. -/
def ofPortions : List Portion → Supply
  | first :: second :: rest => gathered (joined first second :: rest)
  | few => gathered few

/-- A text that is there from the beginning. -/
def ofText (text : String) : Supply :=
  gathered [.ok text.toList]

end Supply

end GridRobot.Yaml

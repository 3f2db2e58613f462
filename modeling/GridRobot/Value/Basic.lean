import GridRobot.Breakdown
import GridRobot.Number.Shortest
import GridRobot.Text.Quoted
import GridRobot.Value.Calendar

/-!
# Values of files

Configuration files and some world files hold values: numbers, texts, dates, and lists and mappings
of values. What a value is worth as a number or a text is decided where it is used.

## Main definitions

* `Value` is a value.
* `Value.shown` is a value as it appears in a message, `Value.asText` a value used as text, and
  `Value.isWritable` says whether all numbers in it are short enough for that.
* `Value.find?` looks a key up in the entries of a mapping.
* `Value.toInteger` is the integer that a value is worth.
-/

namespace GridRobot

/-- A value of a file; a mapping has its entries in order. -/
inductive Value where
  | null
  | bool (b : Bool)
  | int (n : Int)
  | float (x : Float)
  | text (t : LooseText)
  | date (d : Date)
  | moment (m : Moment)
  | list (items : List Value)
  | map (entries : List (Value × Value))
  deriving Inhabited

namespace Value

mutual

/-- A value as it appears in a message. -/
def shown : Value → String
  | null => "None"
  | bool true => "True"
  | bool false => "False"
  | int n => toString n
  | float x => Shortest.shown Shortest.standard x
  | text t => t.quote
  | date d => d.shown
  | moment m => m.shown
  | list items => "[" ++ ", ".intercalate (shownItems items) ++ "]"
  | map entries => "\x7b" ++ ", ".intercalate (shownEntries entries) ++ "\x7d"

/-- The items of a list as they appear in a message. -/
def shownItems : List Value → List String
  | [] => []
  | v :: rest => shown v :: shownItems rest

/-- The entries of a mapping as they appear in a message. -/
def shownEntries : List (Value × Value) → List String
  | [] => []
  | (k, v) :: rest => (shown k ++ ": " ++ shown v) :: shownEntries rest

end

/-- A value used as text: texts and dates in their own form, anything else as it appears in a
message. -/
def asText : Value → LooseText
  | text t => t
  | date d => d.text
  | moment m => m.text
  | v => v.shown

mutual

/-- Are all numbers in a value short enough to be written? -/
def isWritable : Value → Bool
  | int n => Text.isWritable n
  | list items => areWritable items
  | map entries => entriesAreWritable entries
  | _ => true

/-- Are all numbers in some values short enough to be written? -/
def areWritable : List Value → Bool
  | [] => true
  | v :: rest => v.isWritable && areWritable rest

/-- Are all numbers in the entries of a mapping short enough to be written? -/
def entriesAreWritable : List (Value × Value) → Bool
  | [] => true
  | (k, v) :: rest => k.isWritable && v.isWritable && entriesAreWritable rest

end

/-- The exact number that a value is equal to, for the values that are numbers. -/
def number? : Value → Option Double
  | bool b => some (.finite false b.toNat 0)
  | int n => some (.finite (n < 0) n.natAbs 0)
  | float x => some (Double.ofFloat x)
  | _ => none

/-- Equality of the numbers that doubles stand for; what is not a number equals only itself. -/
def sameNumber : Double → Double → Bool
  | .finite s m e, .finite t n f =>
    let low := min e f
    let a := m * Nat.pow 2 (e - low).toNat
    let b := n * Nat.pow 2 (f - low).toNat
    a == b && (a == 0 || s == t)
  | .infinite s, .infinite t => s == t
  | .nan, .nan => true
  | _, _ => false

/-- Do two values count as the same key of a mapping? -/
def sameKey : Value → Value → Bool
  | null, null => true
  | text s, text t => s == t
  | date d, date e => d == e
  | moment m, moment n => m.same n
  | a, b =>
    match a.number?, b.number? with
    | some x, some y => sameNumber x y
    | _, _ => false

/-- Entries with a key set: a key that is there keeps its place, a new one comes last. -/
def setEntry (k v : Value) : List (Value × Value) → List (Value × Value)
  | [] => [(k, v)]
  | (l, w) :: rest => if l.sameKey k then (l, v) :: rest else (l, w) :: setEntry k v rest

/-- The value of a key, given as text, in some entries. -/
def find? (key : String) (entries : List (Value × Value)) : Option Value :=
  (entries.find? fun e => e.1.sameKey (.text key)).map (·.2)

/-- Does a value count as true? Nothing, zero and whatever is empty do not. -/
def isTruthy : Value → Bool
  | null => false
  | bool b => b
  | int n => n ≠ 0
  | float x => !(sameNumber (Double.ofFloat x) (.finite false 0 0))
  | text t => !t.isEmpty
  | date _ => true
  | moment _ => true
  | list items => !items.isEmpty
  | map entries => !entries.isEmpty

/-- Why a value is not used as it was meant to be. -/
inductive Misuse where
  /-- A mapping lacks a key that must be there. -/
  | missingKey (key : String)
  /-- A value is of a kind, or has a content, that cannot be used. -/
  | unusable (problem : String)
  /-- The value breaks off whatever it is used for. -/
  | broken (b : Breakdown)
  deriving Repr, DecidableEq

/-- The integer that a value is worth: a number is cut to its whole part, a text is read. -/
def toInteger : Value → Except Misuse Int
  | bool b => .ok b.toNat
  | int n => .ok n
  | float x =>
    match Double.ofFloat x with
    | .nan => .error (.unusable "not a number")
    | .infinite _ => .error (.broken .tooGreat)
    | d => .ok (d.truncate?.getD 0)
  | text t =>
    match t.toString?.map fun s => Text.readInteger s.toList with
    | some (.ok n) => .ok n
    | _ => .error (.unusable "not an integer")
  | v => .error (.unusable ("not an integer: " ++ v.shown))

/-- The entries of a value that must be a mapping. -/
def entries : Value → Except Misuse (List (Value × Value))
  | map entries => .ok entries
  | v => .error (.unusable ("not a mapping: " ++ v.shown))

/-- The value of a key in entries that must have it. -/
def require (key : String) (entries : List (Value × Value)) : Except Misuse Value :=
  match find? key entries with
  | some v => .ok v
  | none => .error (.missingKey key)

/-- The values that a value consists of: items of a list, keys of a mapping, characters. -/
def parts : Value → Except Misuse (List Value)
  | list items => .ok items
  | map entries => .ok (entries.map (·.1))
  | text t => .ok (t.points.map fun p => .text ⟨[p]⟩)
  | v => .error (.unusable ("not a list: " ++ v.shown))

end Value

end GridRobot

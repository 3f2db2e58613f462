import GridRobot.Breakdown
import GridRobot.Text.Blank

/-!
# Portions of a text

A long text need not be read whole before work on it begins: it comes in portions of a fixed number
of characters. What is wrong with the bytes of a file is then met only when the portion that needs
them is read.

## Main definitions

* `Portion` is what comes of reading a portion.
* `Decoder` is the state of turning bytes into characters.
* `portions` are all the portions of a file.

## Design notes

Bytes are read in blocks, which are larger than portions as a rule, so a portion can break off
because of bytes behind its last character. A block may end within a character or within a line end;
what is begun is completed by the next block. How many bytes are read at once for some characters is
estimated from the block before.
-/

namespace GridRobot

/-- What comes of reading one portion of a text. -/
abbrev Portion : Type := Except Breakdown (List Char)

/-- Number of characters of a portion that is not the last one. -/
def portionSize : Nat := 4096

/-- Least number of bytes that are read at once, unless the file ends before. -/
def blockSize : Nat := 8192

/-- State of turning the bytes of a file into characters. -/
structure Decoder where
  /-- Bytes of a character that is not complete. -/
  begun : List UInt8
  /-- Has a carriage return been read that may belong to a line feed after it? -/
  returned : Bool
  /-- Number of bytes for each character in the last block. -/
  density : Float
  /-- Characters that were read and belong to no portion yet. -/
  ready : List Char

namespace Decoder

/-- The beginning of a file. -/
def start : Decoder :=
  ⟨[], false, 0, []⟩

/-- The characters that some bytes are. -/
def characters? (bytes : List UInt8) : Option (List Char) :=
  (String.fromUTF8? ⟨bytes.toArray⟩).map String.toList

/-- What can complete a character of which only a beginning is there, if anything can. -/
def completions : List (List UInt8) :=
  [[0x80], [0x80, 0x80], [0xA0, 0x80], [0x80, 0x80, 0x80], [0x90, 0x80, 0x80]]

/-- Can some bytes be the beginning of one character? -/
def mayGoOn (bytes : List UInt8) : Bool :=
  completions.any fun more => (characters? (bytes ++ more)).any fun cs => cs.length == 1

/-- The characters that some bytes are, and the bytes at the end that begin one more. -/
def split? (bytes : List UInt8) : Option (List Char × List UInt8) :=
  [0, 1, 2, 3].findSome? fun n =>
    let tail := bytes.drop (bytes.length - n)
    if tail.isEmpty || mayGoOn tail then
      (characters? (bytes.take (bytes.length - n))).map fun cs => (cs, tail)
    else none

/-- Number of bytes that are read for some characters. -/
def blockLength (d : Decoder) (wanted : Nat) : Nat :=
  let density := if d.density < 1 then 1 else d.density
  max blockSize (density * Float.ofNat wanted).toUInt64.toNat

/-- A block is never empty. -/
theorem blockLength_pos (d : Decoder) (wanted : Nat) : 0 < d.blockLength wanted := by
  simp only [blockLength, blockSize]
  omega

/-- Takes in one block. -/
def absorb (d : Decoder) (block : List UInt8) : Except Breakdown Decoder :=
  match split? (d.begun ++ block) with
  | none => .error .undecodable
  | some (cs, begun) =>
    let cs := if d.returned then '\r' :: cs else cs
    let returned := cs.getLast? == some '\r'
    let text := Text.unifyNewlines (if returned then cs.dropLast else cs)
    .ok {
      begun
      returned
      density :=
        if text.isEmpty then 0 else Float.ofNat block.length / Float.ofNat text.length
      ready := d.ready ++ text }

/-- Takes in that the file ends. -/
def finish (d : Decoder) : Except Breakdown Decoder :=
  if d.begun.isEmpty then
    .ok { d with
      returned := false
      ready := if d.returned then d.ready ++ ['\n'] else d.ready }
  else .error .undecodable

/-- Takes in blocks of the bytes ahead until there is a whole portion or the file ends; what is left
of the bytes is given as well. -/
def fill (d : Decoder) (ahead : List UInt8) : Except Breakdown (Decoder × List UInt8) :=
  if portionSize ≤ d.ready.length then .ok (d, ahead)
  else if h : ahead = [] then d.finish.map fun d => (d, [])
  else
    let n := d.blockLength (portionSize - d.ready.length)
    have : 0 < n := d.blockLength_pos _
    have : 0 < ahead.length := List.length_pos_iff.mpr h
    do (← d.absorb (ahead.take n)).fill (ahead.drop n)
termination_by ahead.length
decreasing_by simp; omega

/-- At most so many portions of the bytes ahead; one that breaks off is the last one. -/
def portionsFrom (d : Decoder) (ahead : List UInt8) : Nat → List Portion
  | 0 => []
  | n + 1 =>
    match d.fill ahead with
    | .error b => [.error b]
    | .ok (d, ahead) =>
      if d.ready.isEmpty then []
      else
        .ok (d.ready.take portionSize) ::
          portionsFrom { d with ready := d.ready.drop portionSize } ahead n

end Decoder

/-- The portions of a file. A portion takes at least one byte, and there may be one more that breaks
off at the end. -/
def portions (data : ByteArray) : List Portion :=
  Decoder.start.portionsFrom data.toList (data.size + 1)

end GridRobot

/-!
# Loose texts

Escapes in files can name one half of a surrogate pair alone, which is not a character. A loose text
is a text in which such halves may stand among the characters.

## Main definitions

* `CodePoint` is a character or half of a surrogate pair, `CodePoint.code` its code.
* `LooseText` is a text of code points; every string is one.
* `LooseText.toString?` is the string that a loose text is, if it has no halves.
* `LooseText.bytes?` are the bytes of a loose text that is the name of a file.

## Design notes

Two halves next to each other remain two code points, even where they would make a pair.
-/

namespace GridRobot

/-- A character, or one half of a surrogate pair. -/
inductive CodePoint where
  | char (c : Char)
  /-- A half, by the distance of its code from that of the first half. -/
  | half (n : Fin 0x800)
  deriving Repr, DecidableEq

namespace CodePoint

/-- The least code of a half. -/
def leastHalf : Nat := 0xD800

/-- The code of a code point. -/
def code : CodePoint → Nat
  | char c => c.toNat
  | half n => leastHalf + n

/-- The code point of a code, if there is one. -/
def ofCode? (n : Nat) : Option CodePoint :=
  if h : leastHalf ≤ n ∧ n < leastHalf + 0x800 then some (half ⟨n - leastHalf, by omega⟩)
  else if h : n.isValidChar then some (char (Char.ofNatAux n h))
  else none

/-- The character that a code point is, if it is one. -/
def char? : CodePoint → Option Char
  | char c => some c
  | half _ => none

/-- The bytes of a code point in the name of a file: those of a character are its UTF-8, and some of
the halves stand for single bytes that are not part of any character. -/
def bytes? : CodePoint → Option (List UInt8)
  | char c => some (String.utf8EncodeChar c)
  | half n => if 0x480 ≤ n.val ∧ n.val < 0x500 then some [UInt8.ofNat (n - 0x400)] else none

/-- The code point of a code has that code. -/
theorem code_of_ofCode? {n : Nat} {p : CodePoint} (h : ofCode? n = some p) : p.code = n := by
  unfold ofCode? at h
  by_cases hhalf : leastHalf ≤ n ∧ n < leastHalf + 0x800
  · rw [dif_pos hhalf] at h
    obtain rfl := Option.some.inj h
    simp only [code]
    omega
  · rw [dif_neg hhalf] at h
    by_cases hvalid : n.isValidChar
    · rw [dif_pos hvalid] at h
      obtain rfl := Option.some.inj h
      rfl
    · rw [dif_neg hvalid] at h
      cases h

end CodePoint

/-- A text of characters and halves of surrogate pairs. -/
structure LooseText where
  points : List CodePoint
  deriving Repr, DecidableEq

namespace LooseText

/-- A string as a loose text. -/
def ofString (s : String) : LooseText :=
  ⟨s.toList.map .char⟩

instance : Coe String LooseText := ⟨ofString⟩

instance : Append LooseText := ⟨fun s t => ⟨s.points ++ t.points⟩⟩

/-- The string that a loose text is, if it has no halves. -/
def toString? (t : LooseText) : Option String :=
  (t.points.mapM CodePoint.char?).map String.ofList

/-- Is a text empty? -/
def isEmpty (t : LooseText) : Bool :=
  t.points.isEmpty

/-- The codes of a text. -/
def codes (t : LooseText) : List Nat :=
  t.points.map CodePoint.code

/-- Texts are listed in the order of their codes. -/
def before (s t : LooseText) : Bool :=
  decide (s.codes < t.codes)

/-- Some texts with another one between each two. -/
def join (between : LooseText) (texts : List LooseText) : LooseText :=
  ⟨between.points.intercalate (texts.map points)⟩

/-- The bytes of a text that is the name of a file, if every code point has bytes. -/
def bytes? (t : LooseText) : Option (List UInt8) :=
  (t.points.mapM CodePoint.bytes?).map List.flatten

/-- A string remains the same string as a loose text. -/
@[simp] theorem toString?_ofString (s : String) : (ofString s).toString? = some s := by
  have h (cs : List Char) : (cs.map CodePoint.char).mapM CodePoint.char? = some cs := by
    induction cs with
    | nil => rfl
    | cons c rest ih => simp [ih, CodePoint.char?]
  simp [toString?, ofString, h]

end LooseText

end GridRobot

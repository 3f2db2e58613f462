import GridRobot.Files.Tree
import Mathlib.Data.List.Basic
import Mathlib.Data.List.Monad

/-!
# Following paths

A path is followed name by name, and `..` leads back to where the last name came from. So if a path
names anything, then it names what the path without `..` names that it means. It may name nothing all the
same: every name on the way has to be there, also one that is left again.

## Main definitions

* `FileNode.below?` is what is found on a way down.
* `FileNode.Descent` says how some nested directories have been entered.
* `Path.IsName` says that a text can be the name of a file.

## Main statements

* `Path.defect?_isSome_iff`: a path that no file can have has a name that no file can have.
* `Files.find_below?`: what a path names is what it means.
* `Files.find_join`: what is in a directory that a path names.
-/

namespace GridRobot

/-! ### Ways -/

namespace FileNode

variable {root here child n : FileNode} {stack above : List FileNode} {way names : List LooseText}
  {name : LooseText} {entries : List (LooseText × FileNode)}

/-- What is found at the end of a way down. -/
def below? (n : FileNode) (way : List LooseText) : Option FileNode :=
  way.foldlM entry? n

theorem below?_concat : n.below? (way ++ [name]) = (n.below? way).bind fun m => m.entry? name := by
  simp [below?, List.foldlM_append]

/-- Nested directories, the innermost first, and the names under which they have been entered below the
root, the last one first. -/
inductive Descent (root : FileNode) : List FileNode → List LooseText → Prop where
  | root : Descent root [root] []
  | enter {here child : FileNode} {above : List FileNode} {names : List LooseText} {name : LooseText}
      (h : Descent root (here :: above) names) (hchild : here.entry? name = some child) :
      Descent root (child :: here :: above) (name :: names)

namespace Descent

/-- The innermost one is found under the names. -/
theorem found (h : Descent root stack names) : root.below? names.reverse = stack.head? := by
  induction h with
  | root => rfl
  | enter _ hchild ih =>
    rw [List.reverse_cons, below?_concat, ih]
    exact hchild

/-- Going up ends at the root. -/
theorem leave (h : Descent root (here :: above) names) :
    Descent root (if above.isEmpty then [here] else above) (names.drop 1) := by
  cases h with
  | root => exact .root
  | enter h _ => exact h

/-- What is found by following a way is found on the way down that it means. -/
theorem follow (h : Descent root stack names) (hfollow : FileNode.follow stack way = .ok n) :
    root.below? (way.foldl (fun names (p : LooseText) =>
      if p = ".." then names.drop 1 else p :: names) names).reverse = some n := by
  -- along the way; the names that are left stand for the directories that have been entered
  induction way generalizing stack names with
  | nil =>
    cases stack with
    | nil => cases hfollow
    | cons here above =>
      cases hfollow
      exact h.found
  | cons name rest ih =>
    cases stack with
    | nil => cases hfollow
    | cons here above =>
      rw [FileNode.follow] at hfollow
      rw [List.foldl_cons]
      split at hfollow
      · cases hfollow
      · split at hfollow
        · next hup =>
          rw [if_pos hup]
          exact ih h.leave hfollow
        · next hup =>
          rw [if_neg hup]
          split at hfollow
          · cases hfollow
          · split at hfollow
            · next hchild => exact ih (h.enter hchild) hfollow
            · cases hfollow

end Descent

/-- What is in a directory at the end of a way is found by one name more. -/
theorem follow_concat (h : follow stack way = .ok (.directory entries)) (hname : name ≠ "..")
    (hshort : Path.byteSize name ≤ Path.greatestNameLength)
    (hentry : FileNode.entry? (directory entries) name = some child) :
    follow stack (way ++ [name]) = .ok child := by
  induction way generalizing stack with
  | nil =>
    cases stack with
    | nil => cases h
    | cons here above =>
      cases h
      simp [follow, isDirectory, hname, Nat.not_lt.2 hshort, hentry]
  | cons first rest ih =>
    cases stack with
    | nil => cases h
    | cons here above =>
      rw [follow] at h
      rw [List.cons_append, follow]
      split at h
      · cases h
      · next hdir =>
        rw [if_neg hdir]
        split at h
        · next hup =>
          rw [if_pos hup]
          exact ih h
        · next hup =>
          rw [if_neg hup]
          split at h
          · cases h
          · next hlong =>
            rw [if_neg hlong]
            split at h
            · exact ih h
            · cases h

end FileNode

/-! ### Names that no file can have -/

/-- A code point that names of files do not have. -/
def CodePoint.IsForeign (p : CodePoint) : Prop :=
  p.bytes? = none ∨ p = .char (Char.ofNat 0)

theorem LooseText.bytes?_eq_none_iff {t : LooseText} :
    t.bytes? = none ↔ ∃ p ∈ t.points, p.bytes? = none := by
  have h (ps : List CodePoint) : ps.mapM CodePoint.bytes? = none ↔ ∃ p ∈ ps, p.bytes? = none := by
    induction ps with
    | nil => simp
    | cons p rest ih =>
      rw [List.mapM_cons]
      cases hp : p.bytes? with
      | none => simp [hp]
      | some bytes =>
        cases hrest : rest.mapM CodePoint.bytes? with
        | none => simpa [hp] using ih.1 hrest
        | some more =>
          have hnone := mt ih.2 (by rw [hrest]; exact nofun)
          simpa [hp] using hnone
  -- the bytes are put together at the end, so only the code points matter
  rw [bytes?, Option.map_eq_none_iff, h]

namespace Path

variable {p q d : Path} {t name : LooseText}

theorem textDefect?_isSome_iff : (textDefect? t).isSome ↔ ∃ p ∈ t.points, p.IsForeign := by
  unfold textDefect?
  split
  · next h =>
    rw [Option.isNone_iff_eq_none, LooseText.bytes?_eq_none_iff] at h
    obtain ⟨p, hp, hnone⟩ := h
    exact iff_of_true rfl ⟨p, hp, .inl hnone⟩
  · next h =>
    rw [Option.isNone_iff_eq_none, LooseText.bytes?_eq_none_iff] at h
    have hforeign : (∃ p ∈ t.points, p.IsForeign) ↔ .char (Char.ofNat 0) ∈ t.points := by
      constructor
      · rintro ⟨p, hp, hnone | rfl⟩
        · exact absurd ⟨p, hp, hnone⟩ h
        · exact hp
      · intro hmem
        exact ⟨_, hmem, .inr rfl⟩
    rw [hforeign]
    split
    · next hmem => exact iff_of_true rfl (List.contains_iff_mem.1 hmem)
    · next hmem => exact iff_of_false nofun fun h => hmem (List.contains_iff_mem.2 h)

/-- The text of a path has the code points of the names on the way, and points and slashes between
them. -/
theorem exists_mem_text {P : CodePoint → Prop} (hpoint : ¬ P (.char '.')) (hslash : ¬ P (.char '/')) :
    (∃ c ∈ p.text.points, P c) ↔ ∃ part ∈ p.parts, ∃ c ∈ part.points, P c := by
  have hjoin (parts : List LooseText) : (∃ c ∈ (LooseText.join "/" parts).points, P c) ↔
      ∃ part ∈ parts, ∃ c ∈ part.points, P c := by
    have hbetween : (LooseText.ofString "/").points = [.char '/'] := rfl
    unfold LooseText.join
    rw [hbetween]
    induction parts with
    | nil => simp
    | cons part rest ih =>
      cases rest with
      | nil => simp
      | cons next rest =>
        rw [List.map_cons, List.map_cons, List.intercalate_cons_cons, ← List.map_cons]
        simp only [List.mem_append, or_and_right, exists_or, ih]
        simp [hslash]
  have hanchor : ∀ c ∈ (LooseText.ofString (anchorText p.anchor)).points, ¬ P c := by
    cases p.anchor <;> simp [anchorText, LooseText.ofString, hslash]
  unfold text
  split
  · next h =>
    simp [LooseText.ofString, hpoint, h.2]
  · show (∃ c ∈ (LooseText.ofString (anchorText p.anchor)).points ++
      (LooseText.join "/" p.parts).points, P c) ↔ _
    rw [← hjoin]
    simp only [List.mem_append, or_and_right, exists_or]
    exact or_iff_right fun ⟨c, hc, h⟩ => hanchor c hc h

/-- A path that no file can have has a name that no file can have. -/
theorem defect?_isSome_iff : p.defect?.isSome ↔ ∃ part ∈ p.parts, (textDefect? part).isSome := by
  have hforeign : ∀ c ∈ ['.', '/'], ¬ CodePoint.IsForeign (.char c) := by
    simp [CodePoint.IsForeign, CodePoint.bytes?]
  rw [defect?, textDefect?_isSome_iff, exists_mem_text (hforeign '.' (by simp)) (hforeign '/' (by simp))]
  simp only [textDefect?_isSome_iff]

/-- So it is found by looking at the names one by one, though perhaps another defect is met first. -/
theorem firstDefect?_isSome_iff : p.firstDefect?.isSome ↔ p.defect?.isSome := by
  rw [firstDefect?, List.findSome?_isSome_iff, defect?_isSome_iff]

/-! ### Names -/

/-- A text can be the name of a file in a directory. -/
structure IsName (t : LooseText) : Prop where
  ne_empty : t ≠ ""
  ne_here : t ≠ "."
  ne_above : t ≠ ".."
  slash : .char '/' ∉ t.points
  noDefect : textDefect? t = none
  short : byteSize t ≤ greatestNameLength

instance (t : LooseText) : Decidable (IsName t) :=
  decidable_of_iff (t ≠ "" ∧ t ≠ "." ∧ t ≠ ".." ∧ .char '/' ∉ t.points ∧ textDefect? t = none ∧
      byteSize t ≤ greatestNameLength)
    ⟨fun ⟨h₁, h₂, h₃, h₄, h₅, h₆⟩ => ⟨h₁, h₂, h₃, h₄, h₅, h₆⟩,
      fun ⟨h₁, h₂, h₃, h₄, h₅, h₆⟩ => ⟨h₁, h₂, h₃, h₄, h₅, h₆⟩⟩

theorem splitAt_of_not_mem {α : Type} [DecidableEq α] {mark : α} {cs : List α} (h : mark ∉ cs) :
    Text.splitAt mark cs = [cs] := by
  induction cs with
  | nil => rfl
  | cons c rest ih =>
    rw [List.mem_cons, not_or] at h
    rw [Text.splitAt, ih h.2]
    simp [Ne.symm h.1]

/-- The path of a name has that name on its way. -/
theorem IsName.ofText (h : IsName t) : Path.ofText t = ⟨.here, [t]⟩ := by
  have hanchor : anchorOf t = .here := by
    unfold anchorOf
    cases hpoints : t.points with
    | nil => rfl
    | cons c rest =>
      have hc : c ≠ .char '/' := fun hc => h.slash (by simp [hpoints, hc])
      simp [hc]
  unfold Path.ofText
  rw [hanchor, splitAt_of_not_mem h.slash]
  simp [h.ne_empty, h.ne_here]

theorem join_name (h : IsName name) : d.join (.ofText name) = ⟨d.anchor, d.parts ++ [name]⟩ := by
  simp [h.ofText, join, isAbsolute]

/-- The ending of a file in a directory is that of its name. -/
theorem suffix_of_name (h : IsName name) : (Path.ofText name).suffix = suffixOf name ∧
    (d.join (.ofText name)).suffix = suffixOf name := by
  rw [join_name h, h.ofText]
  simp [suffix, Path.name]

theorem defect?_join_eq_none (hd : d.defect? = none) (h : IsName name) :
    (d.join (.ofText name)).defect? = none := by
  rw [← Option.not_isSome_iff_eq_none, defect?_isSome_iff] at hd ⊢
  rw [join_name h]
  rintro ⟨part, hpart, hdefect⟩
  rcases List.mem_append.1 hpart with hpart | hpart
  · exact hd ⟨part, hpart, hdefect⟩
  · obtain rfl := List.mem_singleton.1 hpart
    rw [h.noDefect] at hdefect
    cases hdefect

end Path

/-! ### Files -/

namespace Files

variable {f : Files} {p q d : Path} {m n : FileNode} {entries : List (LooseText × FileNode)}
  {name : LooseText}

theorem way_eq (f : Files) (p : Path) : (Path.absolute f.directory p).parts =
    Path.resolveParts (if p.isAbsolute then p.parts else f.current ++ p.parts) := by
  unfold Path.absolute Path.join directory
  split <;> rfl

/-- What a path names is what it means. -/
theorem find_below? (h : f.find p = .ok n) :
    f.root.below? (Path.absolute f.directory p).parts = some n := by
  unfold find at h
  split at h
  · cases h
  · rw [way_eq]
    exact FileNode.Descent.root.follow h

/-- Two paths that mean the same name the same, if they name anything. -/
theorem find_unique (hp : f.find p = .ok m) (hq : f.find q = .ok n)
    (h : Path.absolute f.directory p = Path.absolute f.directory q) : m = n := by
  have hm := find_below? hp
  rw [h, find_below? hq] at hm
  exact (Option.some.inj hm).symm

/-- What is in a directory that a path names, if the longer path is not too long. -/
theorem find_join (h : f.find d = .ok (.directory entries)) (hname : Path.IsName name)
    (hentry : FileNode.entry? (.directory entries) name = some n) :
    f.find (d.join (.ofText name)) =
      if Path.greatestLength < Path.byteSize (d.join (.ofText name)).text then .error .nameTooLong
      else .ok n := by
  unfold find at h
  split at h
  · cases h
  · have hfollow := FileNode.follow_concat h hname.ne_above hname.short hentry
    unfold find
    split
    · rfl
    · rw [← hfollow, Path.join_name hname]
      by_cases habs : d.isAbsolute = true
      · have habs' : Path.isAbsolute ⟨d.anchor, d.parts ++ [name]⟩ = true := habs
        rw [if_pos habs, if_pos habs']
      · have habs' : ¬ Path.isAbsolute ⟨d.anchor, d.parts ++ [name]⟩ = true := habs
        rw [if_neg habs, if_neg habs', List.append_assoc]

end Files

end GridRobot

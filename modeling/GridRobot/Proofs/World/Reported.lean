import GridRobot.Proofs.World.Flawed
import GridRobot.Proofs.World.Library
import GridRobot.Proofs.World.Unreadable
import GridRobot.Workbench.Loading
import GridRobot.Yaml.Document

/-!
# Every look-up of a world is answered

Whoever asks for a world by its name gets a description of a world, or an error that says why there
is none, unless the look-up breaks off. Here are all the ways in which it can.

## Main definitions

* `Library.BreaksOff` says why the look-up of a name breaks off.
* `Arrival.Sound` says that an arrival answers a name, with a world or an error.

## Main statements

* `Library.load_broken_iff`: a look-up breaks off in these ways only.
* `Workbench.reported_iff`: in all other cases, and in no others, it is answered, exactly once.
* `Workbench.not_reported_undecodable`: a file that is not a text is one that is not answered.
-/

namespace GridRobot

/-! ### Files -/

namespace Files

variable {files : Files} {p : Path} {b : Breakdown}

theorem readText_broken_iff (hp : p.defect? = none) : files.readText p = .error (.broken b) ↔
    b = .undecodable ∧ ∃ data, files.readBytes p = .ok data ∧ decode? data = none := by
  unfold readText readWith
  rw [hp]
  cases files.readBytes p with
  | error problem => simp
  | ok data =>
    cases h : decode? data with
    | none => simp [h, mapError_error, eq_comm]
    | some text => simp [h, mapError_ok]

theorem isFile_defect (h : files.isFile p = .ok true) : p.defect? = none := by
  unfold isFile lookUp at h
  split at h
  · cases h
  · next hdefect => simpa using hdefect

end Files

namespace Library

variable {l : Library} {files : Files} {name : LooseText} {path : Path} {b : Breakdown}

theorem firstFile?_defect {paths : List Path} (h : firstFile? files paths = .ok (some path)) :
    path.defect? = none := by
  induction paths with
  | nil => cases h
  | cons p rest ih =>
    obtain ⟨found, hfound, h⟩ := bind_eq_ok.1 h
    cases found with
    | true =>
      cases h
      exact Files.isFile_defect hfound
    | false => exact ih h

/-- The path of a file that was found is one that a file can have. -/
theorem resolve_defect (h : l.resolve files name = .ok (some path)) : path.defect? = none :=
  firstFile?_defect h

/-! ### Blank worlds -/

/-- The digits in the name of a blank world. -/
theorem blankSize?_numeral {s : String} {width height : List Char}
    (h : blankSize? s = some (width, height)) :
    Lines.IsNumeral (false, width) ∧ Lines.IsNumeral (false, height) := by
  unfold blankSize? at h
  simp only at h
  split at h
  · next rest _ =>
    split at h
    · cases h
    · next hne =>
      split at h
      · obtain ⟨rfl, rfl⟩ : s.toList.takeWhile Text.isDigit = width ∧
            rest.takeWhile Text.isDigit = height := by simpa using h
        simp only [Bool.or_eq_true, List.isEmpty_iff, not_or] at hne
        exact ⟨⟨fun _ hc => List.mem_takeWhile_imp hc, hne.1⟩,
          ⟨fun _ hc => List.mem_takeWhile_imp hc, hne.2⟩⟩
      · cases h
  · cases h

/-- What is wrong with a blank world can be told. -/
theorem not_untold_blank {bag : Option Int} {width height : Int} (hwidth : 0 < width)
    (hheight : 0 < height) : ¬ Untold bag [.dimension width height] := by
  rintro ⟨e, he, hnot⟩
  have hsize : ¬ (width ≤ 0 ∨ height ≤ 0) := by omega
  have hinside : Description.inside width height Robot.home.cell = true := by
    simp [Description.inside, Robot.home, hwidth, hheight]
  have hproblem : Description.problem? ⟨width, height, .home, [], [], bag⟩ =
      Description.bagProblem? bag := by
    simp [Description.problem?, hsize, hinside]
  have hchecked : Description.checked ⟨width, height, .home, [], [], bag⟩ = .error e := he
  unfold Description.checked at hchecked
  rw [hproblem] at hchecked
  split at hchecked
  · cases hchecked
  · next cause hbag =>
    cases hchecked
    exact absurd (Description.bagProblem?_writable hbag) (by simpa using hnot)

/-- The only line of a blank world. -/
def blankLine (width height : List Char) : List Char :=
  "Dimension".toList ++ ':' :: ' ' :: Lines.pointOf (false, width) (false, height)

theorem lines_blank {width height : List Char} (hw : Lines.IsNumeral (false, width))
    (hh : Lines.IsNumeral (false, height)) :
    Text.lines ("Dimension: (" ++ String.ofList width ++ ", " ++ String.ofList height ++ ")").toList =
      [blankLine width height] := by
  have hopen : "Dimension: (".toList = "Dimension".toList ++ [':', ' ', '('] := by decide
  have hcomma : ", ".toList = [',', ' '] := by decide
  have hclose : ")".toList = [')'] := by decide
  have htext : ("Dimension: (" ++ String.ofList width ++ ", " ++ String.ofList height ++ ")").toList =
      blankLine width height := by
    unfold blankLine Lines.pointOf Lines.numeral
    simp only [String.toList_append, String.toList_ofList, hopen, hcomma, hclose, List.append_assoc,
      List.cons_append, List.nil_append, Bool.false_eq_true, if_false]
  have hword : Lines.Unbroken "Dimension: (" := Lines.unbroken_of_any (by decide)
  have hbetween : Lines.Unbroken ", " := Lines.unbroken_of_any (by decide)
  have hend : Lines.Unbroken ")" := Lines.unbroken_of_any (by decide)
  have hunbroken := (((hword.append (Lines.unbroken_digits hw.digits)).append hbetween).append
    (Lines.unbroken_digits hh.digits)).append hend
  have hne : blankLine width height ≠ [] :=
    List.append_ne_nil_of_right_ne_nil _ (List.cons_ne_nil _ _)
  rw [← htext] at hne ⊢
  exact Text.lines_single hunbroken hne

theorem readEntry_blank {width height : List Char} (hw : Lines.IsNumeral (false, width))
    (hh : Lines.IsNumeral (false, height)) :
    Lines.readEntry (Lines.content (blankLine width height)) =
      Lines.entryOf "Dimension".toList (Lines.pointOf (false, width) (false, height)) := by
  have hslash : '/' ∉ "Dimension: ".toList := by decide
  have happend := Lines.not_comment_append hslash
    (Lines.not_comment (Lines.slash_not_mem_pointOf hw hh))
  have hcomment : ¬ ['/', '/'] <:+: "Dimension".toList ++ ':' :: ' ' ::
      Lines.pointOf (false, width) (false, height) := happend
  have htrim : Text.trim (Lines.pointOf (false, width) (false, height)) =
      Lines.pointOf (false, width) (false, height) := by
    have htrim' : Text.trim (Lines.pointOf (false, width) (false, height) ++ []) =
        Lines.pointOf (false, width) (false, height) ++ Text.trimEnd [] := Lines.trim_pointOf
    rw [List.append_nil] at htrim'
    rw [htrim']
    exact List.append_nil _
  unfold blankLine
  rw [Lines.readEntry_word (by decide) (by decide) hcomment, htrim]

/-- The entry of a blank world, where its size can be read. -/
theorem readEntry_blank_ok {width height : List Char} {entry : Option Entry}
    (hw : Lines.IsNumeral (false, width)) (hh : Lines.IsNumeral (false, height))
    (h : Lines.readEntry (Lines.content (blankLine width height)) = .ok entry) :
    ∃ w h, entry = some (.dimension w h) ∧ 0 < w ∧ 0 < h := by
  rw [readEntry_blank hw hh, Lines.entryOf_dimension] at h
  obtain ⟨p, -, h⟩ := bind_eq_ok.1 h
  unfold Entry.dimension? at h
  split at h
  · cases h
  · next hpos =>
    cases h
    exact ⟨p.1, p.2.1, rfl, by omega⟩

theorem overlong_blank {width height : List Char} (hw : Lines.IsNumeral (false, width))
    (hh : Lines.IsNumeral (false, height)) : Lines.Overlong [blankLine width height] ↔
      Text.maxDigits < width.length ∨ Text.maxDigits < height.length := by
  have hword : String.ofList (Text.lowerCase "Dimension".toList) ∈ Lines.pointWords := by decide
  have hpoint : Lines.splitPoint (Lines.pointOf (false, width) (false, height) ++ []) =
      some ((false, width), (false, height), Text.trim []) := Lines.splitPoint_numeral hw hh
  rw [List.append_nil] at hpoint
  have hnone : ¬ Lines.Overlong [] := by
    rintro ⟨before, line, after, hnil, -⟩
    simp at hnil
  rw [Lines.overlong_cons, ← Lines.readEntry_tooLong_iff, readEntry_blank hw hh,
    Lines.entryOf_tooLong_iff, and_iff_right hword, Lines.LongPoint, hpoint]
  simp [hnone]

theorem not_untold_entries {bag : Option Int} {width height : List Char} {entries : List Entry}
    (hw : Lines.IsNumeral (false, width)) (hh : Lines.IsNumeral (false, height))
    (h : Lines.readEntries 1 [blankLine width height] = .ok entries) : ¬ Untold bag entries := by
  unfold Lines.readEntries at h
  split at h
  · cases h
  · cases h
  · next entry hentry =>
    obtain ⟨w, v, rfl, hwpos, hvpos⟩ := readEntry_blank_ok hw hh hentry
    cases h
    exact not_untold_blank hwpos hvpos

theorem ofLayoutError_eq_broken {e : LayoutError} : ofLayoutError e = .broken b ↔ e = .broken b := by
  cases e <;> simp [ofLayoutError]

/-- A blank world breaks off where its size has too many digits. -/
theorem blank_broken_iff {width height : List Char} (hw : Lines.IsNumeral (false, width))
    (hh : Lines.IsNumeral (false, height)) : l.blank width height = .error (.broken b) ↔
      b = .badNumber ∧ (Text.maxDigits < width.length ∨ Text.maxDigits < height.length) := by
  rw [blank, mapError_eq_error]
  simp only [ofLayoutError_eq_broken, exists_eq_right, Lines.read_broken_iff]
  rw [← overlong_blank hw hh, ← lines_blank hw hh]
  refine and_congr_right fun _ => or_iff_left ?_
  rintro ⟨entries, hentries, huntold⟩
  rw [lines_blank hw hh] at hentries
  exact not_untold_entries hw hh hentries huntold

/-! ### Look-ups -/

/-- Why the look-up of a name breaks off. -/
inductive BreaksOff [Yaml.Reader] (l : Library) (files : Files) (name : LooseText) :
    Breakdown → Prop where
  /-- The look-up of a file breaks off. -/
  | resolve {b : Breakdown} (h : l.resolve files name = .error b) : BreaksOff l files name b
  /-- The bytes of the file are no text. -/
  | bytes {path : Path} {data : ByteArray} (hpath : l.resolve files name = .ok (some path))
      (hdata : files.readBytes path = .ok data) (h : Files.decode? data = none) :
      BreaksOff l files name .undecodable
  /-- The reading of the text breaks off. -/
  | text {path : Path} {text : String} {format : WorldFormat} {b : Breakdown}
      (hpath : l.resolve files name = .ok (some path)) (htext : files.readText path = .ok text)
      (hformat : format? path.suffix = some format)
      (h : GridRobot.BreaksOff l.defaultBag format text b) : BreaksOff l files name b
  /-- The size that was read has too many digits to be noted. -/
  | size {path : Path} {text : String} {format : WorldFormat} {d : Description}
      (hpath : l.resolve files name = .ok (some path)) (htext : files.readText path = .ok text)
      (hformat : format? path.suffix = some format)
      (hread : readWorldAs format l.defaultBag text = .ok d)
      (h : ¬ (Text.isWritable d.width = true ∧ Text.isWritable d.height = true)) :
      BreaksOff l files name .badNumber
  /-- The size of a blank world has too many digits to be read. -/
  | blank {s : String} {width height : List Char} (hpath : l.resolve files name = .ok none)
      (hname : name.toString? = some s) (hsize : blankSize? s = some (width, height))
      (h : Text.maxDigits < width.length ∨ Text.maxDigits < height.length) :
      BreaksOff l files name .badNumber

theorem noted_broken_iff {d : Description} : noted d = .error (.broken b) ↔
    b = .badNumber ∧ ¬ (Text.isWritable d.width = true ∧ Text.isWritable d.height = true) := by
  rw [← Bool.and_eq_true]
  unfold noted
  split
  · next h => exact ⟨nofun, fun hnot => absurd h hnot.2⟩
  · next h => exact ⟨fun hb => ⟨by cases hb; rfl, h⟩, fun hb => by rw [hb.1]⟩

variable [Yaml.Reader]

/-- The reading of a file that was found, and what is made of its text. -/
theorem breaksOff_of_resolve (hpath : l.resolve files name = .ok (some path)) :
    l.BreaksOff files name b ↔ files.readText path = .error (.broken b) ∨
      ∃ text format, files.readText path = .ok text ∧ format? path.suffix = some format ∧
        (GridRobot.BreaksOff l.defaultBag format text b ∨
          ∃ d, readWorldAs format l.defaultBag text = .ok d ∧ noted d = .error (.broken b)) := by
  rw [Files.readText_broken_iff (resolve_defect hpath)]
  simp only [noted_broken_iff]
  have hsame {path' : Path} (h : l.resolve files name = .ok (some path')) : path' = path := by
    rw [hpath] at h
    exact (Option.some.inj (Except.ok.inj h)).symm
  constructor
  · intro h
    cases h with
    | resolve h =>
      rw [hpath] at h
      cases h
    | bytes hpath' hdata h =>
      obtain rfl := hsame hpath'
      exact .inl ⟨rfl, _, hdata, h⟩
    | text hpath' htext hformat h =>
      obtain rfl := hsame hpath'
      exact .inr ⟨_, _, htext, hformat, .inl h⟩
    | size hpath' htext hformat hread h =>
      obtain rfl := hsame hpath'
      exact .inr ⟨_, _, htext, hformat, .inr ⟨_, hread, rfl, h⟩⟩
    | blank hpath' =>
      rw [hpath] at hpath'
      cases hpath'
  · rintro (⟨rfl, data, hdata, h⟩ | ⟨text, format, htext, hformat, h | ⟨d, hread, rfl, h⟩⟩)
    · exact .bytes hpath hdata h
    · exact .text hpath htext hformat h
    · exact .size hpath htext hformat hread h

theorem loadFile_broken_iff (hpath : l.resolve files name = .ok (some path)) :
    l.loadFile files name path = .error (.broken b) ↔ l.BreaksOff files name b := by
  rw [breaksOff_of_resolve hpath]
  unfold loadFile
  cases htext : files.readText path with
  | error e => cases e <;> simp
  | ok text =>
    cases hformat : format? path.suffix with
    | none => simp
    | some format =>
      simp only [bind_eq_error, mapError_eq_error, ofLayoutError_eq_broken, exists_eq_right,
        mapError_eq_ok, readWorldAs_broken_iff]
      simp

/-- A look-up breaks off in these ways only. -/
theorem load_broken_iff : l.load files name = .error (.broken b) ↔ l.BreaksOff files name b := by
  unfold load
  split
  · next b' hpath =>
    constructor
    · intro h
      cases h
      exact .resolve hpath
    · intro h
      cases h <;> simp_all
  · next path hpath => exact loadFile_broken_iff hpath
  · next hpath =>
    split
    · next width height hsize =>
      obtain ⟨s, hname, hsize⟩ := Option.bind_eq_some_iff.1 hsize
      obtain ⟨hw, hh⟩ := blankSize?_numeral hsize
      rw [blank_broken_iff hw hh]
      constructor
      · rintro ⟨rfl, h⟩
        exact .blank hpath hname hsize h
      · intro h
        cases h <;> simp_all
    · next hnone =>
      constructor
      · intro h
        cases h
      · intro h
        cases h <;> simp_all

end Library

/-! ### Answers -/

/-- An error of a look-up is one of the two that are told. -/
def LoadError.Told (e : LoadError) : Prop :=
  e.errorClass = .worldLoad ∨ e.errorClass = .worldFormat

theorem LoadError.told (e : LoadError) : e.Told := by
  cases e with
  | format e => exact .inr rfl
  | _ => exact .inl rfl

/-- An arrival answers a name: with a description of a world, or with an error that says why there
is none. -/
structure Arrival.Sound (a : Arrival) (name : LooseText) : Prop where
  name : a.name = name
  outcome : (∃ d, a.outcome = .ok d ∧ d.problem? = none) ∨ ∃ e, a.outcome = .error e ∧ e.Told

namespace Workbench

variable {l : Library} {files : Files} {name : LooseText} {a : Arrival}

section

variable [Yaml.Reader]

theorem problem?_of_load {d : Description} (h : l.load files name = .ok d) : d.problem? = none := by
  obtain ⟨w, hw⟩ := Library.load_world h
  exact (World.ofDescription_eq_ok.1 hw).1

/-- What is delivered answers the name. -/
theorem arrival?_sound (h : arrival? name (l.load files name) = some a) : a.Sound name := by
  cases hload : l.load files name with
  | ok d =>
    rw [hload] at h
    cases h
    exact ⟨rfl, .inl ⟨d, rfl, problem?_of_load hload⟩⟩
  | error failure =>
    rw [hload] at h
    cases failure with
    | error e =>
      cases h
      exact ⟨rfl, .inr ⟨e, rfl, e.told⟩⟩
    | broken b => cases h

theorem arrival?_isSome_iff : (∃ a, arrival? name (l.load files name) = some a) ↔
    ¬ ∃ b, l.BreaksOff files name b := by
  simp only [← Library.load_broken_iff]
  rcases l.load files name with (e | b) | d <;> simp [arrival?]

/-- A workbench that puts arrivals in a queue gets one of them, or none. -/
theorem load_arrivals {w : Workbench} (h : w.loading = .queued) : (w.load files).2.arrivals =
    w.arrivals ++ (arrival? w.worldName (w.library.load files w.worldName)).toList := by
  cases harrival : arrival? w.worldName (w.library.load files w.worldName) with
  | none => simp [load, h, harrival]
  | some a => simp [load, h, harrival]

/-- Every look-up of a name is answered, exactly once and by a world or an error, unless it breaks
off. -/
theorem reported_iff (l : Library) (files : Files) (name : LooseText) :
    (((∃ d, l.load files name = .ok d ∧ d.problem? = none) ∨
        ∃ e, l.load files name = .error (.error e) ∧ e.Told) ↔ ¬ ∃ b, l.BreaksOff files name b) ∧
      ((∃ a, arrival? name (l.load files name) = some a ∧ a.Sound name) ↔
        ¬ ∃ b, l.BreaksOff files name b) ∧
      ∀ w : Workbench, (∃ a, (({ w with library := l, worldName := name, loading := .queued } :
          Workbench).load files).2.arrivals = w.arrivals ++ [a] ∧ a.Sound name) ↔
        ¬ ∃ b, l.BreaksOff files name b := by
  have hsome : (∃ a, arrival? name (l.load files name) = some a ∧ a.Sound name) ↔
      ¬ ∃ b, l.BreaksOff files name b := by
    rw [← arrival?_isSome_iff]
    exact exists_congr fun a => and_iff_left_of_imp arrival?_sound
  refine ⟨?_, hsome, fun w => ?_⟩
  · rw [← arrival?_isSome_iff]
    cases hload : l.load files name with
    | ok d => simp [arrival?, problem?_of_load hload]
    | error failure => cases failure <;> simp [arrival?, LoadError.told]
  · rw [← hsome, load_arrivals rfl]
    refine exists_congr fun a => and_congr_left fun _ => ?_
    rw [List.append_cancel_left_eq]
    cases arrival? name (l.load files name) <;> simp

end

/-- A directory with a file of one byte that begins no character. -/
def undecodable : Files :=
  ⟨.directory [("w", .directory [("bad.w", .file (.bytes ⟨#[0xFF]⟩))])], []⟩

open scoped Yaml.Plain

/-- Whoever asks for a file that is not a text hears nothing. -/
theorem not_reported_undecodable :
    (⟨some (.ofText "w"), none⟩ : Library).load undecodable "bad.w" = .error (.broken .undecodable) ∧
      arrival? "bad.w" ((⟨some (.ofText "w"), none⟩ : Library).load undecodable "bad.w") = none := by
  have hload : (⟨some (.ofText "w"), none⟩ : Library).load undecodable "bad.w" =
      .error (.broken .undecodable) := by decide +kernel
  exact ⟨hload, by rw [hload]; rfl⟩

end Workbench

end GridRobot

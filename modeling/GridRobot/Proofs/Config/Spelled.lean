import GridRobot.Config.Read
import GridRobot.Proofs.Files.Follow
import GridRobot.Proofs.Reading

/-!
# Configuration files and how their paths are spelled

A configuration depends on the path of its file in one point: a relative directory of worlds is taken
from the directory that the path spells. So two paths of one file give the same configuration if they
spell the same directory, or if the directory of worlds is absolute.

## Main definitions

* `Config.Writes` says which configuration is written in a file, wherever the file is.
* `Config.placed` is a configuration in a file at a path.
* `Config.Agrees` says that two paths of a file give the same configuration.

## Main statements

* `Config.load_eq_ok_iff`: what is read is what is written, at the path.
* `Config.load_respelled_iff`: what another path of a file gives.
-/

namespace GridRobot

theorem Path.join_left_inj {p q r : Path} :
    p.join r = q.join r ↔ r.isAbsolute = true ∨ p = q := by
  unfold join
  by_cases h : r.isAbsolute = true
  · simp [h]
  · obtain ⟨pa, ps⟩ := p
    obtain ⟨qa, qs⟩ := q
    simp [h]

namespace Files

variable {f : Files} {p q : Path} {data : ByteArray}

theorem defect?_of_readData (h : f.readData p = .ok data) : p.defect? = none := by
  unfold readData readWith at h
  split at h
  · cases h
  · cases h
  · next hdefect _ => exact hdefect

theorem find_of_readData (h : f.readData p = .ok data) : ∃ n, f.find p = .ok n := by
  cases hfind : f.find p with
  | ok n => exact ⟨n, rfl⟩
  | error problem =>
    rw [readData, readWith, defect?_of_readData h, readBytes, hfind] at h
    cases h

/-- What is read at a path depends only on what is there. -/
theorem readData_congr (hfind : f.find p = f.find q) (hdefect : p.defect? = q.defect?) :
    f.readData p = f.readData q := by
  unfold readData readWith readBytes
  rw [hfind, hdefect]

end Files

namespace Config

variable {c w : Config} {files : Files} {file p q : Path} {raw : List (Value × Value)}

/-- A path that adds no directory. -/
def nowhere : Path :=
  ⟨.here, []⟩

theorem nowhere_join (p : Path) : nowhere.parent.join p = p := by
  obtain ⟨anchor, parts⟩ := p
  cases anchor <;> rfl

/-- A configuration with its directory of worlds taken from the directory of a file. -/
def placed (file : Path) (c : Config) : Config :=
  { c with world := { c.world with worldsDir := file.parent.join c.world.worldsDir } }

theorem settings_placed (file : Path) (raw : List (Value × Value)) :
    settings file raw = (settings nowhere raw).map (placed file) := by
  unfold settings
  simp only [map_bind, nowhere_join]
  rfl

/-- The range of settings has nothing to do with where the worlds are. -/
theorem checked_placed : (placed file c).checked = c.checked.map (placed file) := by
  have hproblem : (placed file c).problem? = c.problem? := rfl
  unfold checked
  rw [hproblem]
  cases c.problem? <;> rfl

theorem ofValue_placed (file : Path) (v : Value) :
    ofValue file v = (ofValue nowhere v).map (placed file) := by
  cases v with
  | map raw =>
    show ofEntries file raw = (ofEntries nowhere raw).map (placed file)
    unfold ofEntries
    rw [settings_placed]
    cases settings nowhere raw with
    | error e => rfl
    | ok c =>
      show (placed file c).checked.mapError ConfigFailure.error =
        (c.checked.mapError ConfigFailure.error).map (placed file)
      rw [checked_placed]
      cases c.checked <;> rfl
  | _ => rfl

/-- A file can be read, and a configuration is written in it. -/
def Writes [Yaml.Reader] (files : Files) (file : Path) (w : Config) : Prop :=
  ∃ data v, files.readData file = .ok data ∧ Yaml.Reader.ofFile data = .ok v ∧
    ofValue nowhere v = .ok w

/-- What is read from a file is what is written in it, at the path of the file. -/
theorem load_eq_ok_iff [Yaml.Reader] :
    load files file = .ok c ↔ ∃ w, Writes files file w ∧ w.placed file = c := by
  have hvalue (v : Value) : ofValue file v = .ok c ↔
      ∃ w, ofValue nowhere v = .ok w ∧ w.placed file = c := by
    rw [ofValue_placed, map_eq_ok]
  unfold load Writes
  cases files.readData file with
  | error e => cases e <;> simp
  | ok data =>
    simp only [Except.ok.injEq, exists_and_left, exists_eq_left']
    cases Yaml.Reader.ofFile data with
    | error e => cases e <;> simp
    | ok v => simp [hvalue]

theorem load_of_defect [Yaml.Reader] {b : Breakdown} (h : file.defect? = some b) :
    load files file = .error (.broken b) := by
  unfold load Files.readData Files.readWith
  rw [h]

/-- Two paths place a configuration alike if they spell the same directory. -/
theorem placed_eq_iff :
    w.placed p = w.placed q ↔ w.world.worldsDir.isAbsolute = true ∨ p.parent = q.parent := by
  rw [← Path.join_left_inj]
  simp only [placed, mk.injEq, WorldSettings.mk.injEq, true_and, and_true]

variable [Yaml.Reader]

theorem Writes.unique {w' : Config} (h : Writes files file w) (h' : Writes files file w') :
    w = w' := by
  obtain ⟨data, v, hdata, hv, hw⟩ := h
  obtain ⟨data', v', hdata', hv', hw'⟩ := h'
  cases hdata.symm.trans hdata'
  cases hv.symm.trans hv'
  exact Except.ok.inj (hw.symm.trans hw')

/-- A file whose text can be read is there, and it is the same one at all paths that mean the same. -/
theorem Writes.respell {n : FileNode} (h : Writes files q w) (hdefect : p.defect? = none)
    (hfind : files.find p = .ok n)
    (hsame : Path.absolute files.directory p = Path.absolute files.directory q) : Writes files p w := by
  obtain ⟨data, v, hdata, hv, hw⟩ := h
  refine ⟨data, v, ?_, hv, hw⟩
  obtain ⟨m, hm⟩ := Files.find_of_readData hdata
  obtain rfl := Files.find_unique hfind hm hsame
  rw [← hdata]
  refine Files.readData_congr (hfind.trans hm.symm) ?_
  rw [hdefect, Files.defect?_of_readData hdata]

theorem Writes.exists_node (h : Writes files file w) : ∃ n, files.find file = .ok n := by
  obtain ⟨data, v, hdata, -, -⟩ := h
  exact Files.find_of_readData hdata

/-- A path gives the same as another one at which the same file can be read: it can be followed, and it
spells the same directory, or the directory of worlds is absolute. -/
structure Agrees (files : Files) (p q : Path) : Prop where
  found : ∃ n, files.find p = .ok n
  directory : ∀ w, Writes files q w → w.world.worldsDir.isAbsolute = true ∨ p.parent = q.parent

/-- Another path of a file gives what the file has given if the two agree. -/
theorem load_respelled_iff (hload : load files q = .ok c) (hdefect : p.defect? = none)
    (hsame : Path.absolute files.directory p = Path.absolute files.directory q) :
    load files p = .ok c ↔ Agrees files p q := by
  -- what is written does not depend on the path, only where it is placed
  obtain ⟨w, hw, rfl⟩ := load_eq_ok_iff.1 hload
  rw [load_eq_ok_iff]
  constructor
  · rintro ⟨w', hw', heq⟩
    obtain ⟨n, hn⟩ := hw'.exists_node
    obtain rfl := hw'.unique (hw.respell hdefect hn hsame)
    exact ⟨⟨n, hn⟩, fun w'' hw'' => hw.unique hw'' ▸ placed_eq_iff.1 heq⟩
  · rintro ⟨⟨n, hn⟩, h⟩
    exact ⟨w, hw.respell hdefect hn hsame, placed_eq_iff.2 (h w hw)⟩

end Config

end GridRobot

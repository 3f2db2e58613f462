import GridRobot.Proofs.Files.Follow
import GridRobot.Proofs.World.Reported
import GridRobot.Yaml.Document

/-!
# Worlds that are listed

A library lists the names in its directory that end like those of world files, in order and each once.
A listed name stands for a file in a format that is known, and asking for it comes to a world or to an
error of its format, unless reading breaks off. But a directory can have a name with such an ending
too. It is listed and cannot be loaded, unless there is a file of that name elsewhere or a blank world
is called so.

## Main definitions

* `FileNode.Named` says that the entries of a directory have names that files can have.
* `Library.Supported` says that a name stands for a file that can be read, in a format that is known.
* `Library.Withheld` says that nothing can be read under a name.
* `Library.Refuses` and `Library.Answers` are what asking for a name can come to.

## Main statements

* `Library.names_sorted`: names are listed in order.
* `Library.refuses_iff`, `Library.answers_iff`: what asking for a listed name comes to.
* `Library.names_load_iff`: a listed name can be loaded unless it is withheld.
* `Library.directory_listed`: a directory that is listed.
-/

namespace GridRobot

/-! ### Order of names -/

namespace CodePoint

/-- Different code points have different codes. -/
theorem code_injective {p q : CodePoint} (h : p.code = q.code) : p = q := by
  cases p with
  | char c =>
    cases q with
    | char d => exact congrArg char (Char.toNat_inj.1 h)
    | half n =>
      have hvalid := c.valid
      simp only [code, leastHalf, Char.toNat] at h
      simp only [UInt32.isValidChar, Nat.isValidChar] at hvalid
      omega
  | half m =>
    cases q with
    | char d =>
      have hvalid := d.valid
      simp only [code, leastHalf, Char.toNat] at h
      simp only [UInt32.isValidChar, Nat.isValidChar] at hvalid
      omega
    | half n =>
      simp only [code] at h
      exact congrArg half (Fin.ext (by omega))

end CodePoint

namespace LooseText

variable {s t u : LooseText}

theorem codes_injective (h : s.codes = t.codes) : s = t := by
  obtain ⟨ps⟩ := s
  obtain ⟨qs⟩ := t
  exact congrArg mk (List.map_injective_iff.2 (fun _ _ => CodePoint.code_injective) h)

theorem before_iff : s.before t = true ↔ s.codes < t.codes :=
  decide_eq_true_iff

theorem not_before_iff : (!t.before s) = true ↔ ¬ t.codes < s.codes := by
  rw [Bool.not_eq_true', ← Bool.not_eq_true, before_iff]

theorem not_before_trans (hst : (!t.before s) = true) (htu : (!u.before t) = true) :
    (!u.before s) = true := by
  rw [not_before_iff] at hst htu ⊢
  exact List.not_lt.2 (List.le_trans (List.not_lt.1 hst) (List.not_lt.1 htu))

theorem not_before_total (s t : LooseText) : (!t.before s || !s.before t) = true := by
  rw [Bool.or_eq_true, not_before_iff, not_before_iff]
  exact (List.le_total s.codes t.codes).imp List.not_lt.2 List.not_lt.2

/-- Of two different texts, one is before the other. -/
theorem before_of_ne (h : (!t.before s) = true) (hne : s ≠ t) : s.before t = true := by
  rw [not_before_iff] at h
  rw [before_iff]
  by_contra hnot
  exact hne (codes_injective (List.le_antisymm (List.not_lt.1 h) (List.not_lt.1 hnot)))

end LooseText

/-! ### Directories -/

/-- The entries of a directory have names that files can have, each name once. -/
structure FileNode.Named (entries : List (LooseText × FileNode)) : Prop where
  names : ∀ e ∈ entries, Path.IsName e.1
  once : entries.Pairwise fun e f => FileNode.sameName e.1 f.1 = false

instance (entries : List (LooseText × FileNode)) : Decidable (FileNode.Named entries) :=
  decidable_of_iff ((∀ e ∈ entries, Path.IsName e.1) ∧
      entries.Pairwise fun e f => FileNode.sameName e.1 f.1 = false)
    ⟨fun ⟨hnames, honce⟩ => ⟨hnames, honce⟩, fun ⟨hnames, honce⟩ => ⟨hnames, honce⟩⟩

namespace FileNode

variable {entries : List (LooseText × FileNode)} {name : LooseText} {n : FileNode}

@[simp] theorem sameName_self (t : LooseText) : sameName t t = true :=
  beq_self_eq_true _

theorem Named.nodup (h : Named entries) : (entries.map Prod.fst).Nodup := by
  rw [List.nodup_iff_pairwise_ne, List.pairwise_map]
  refine h.once.imp fun {e f} hdifferent heq => ?_
  rw [heq, sameName_self] at hdifferent
  cases hdifferent

/-- Every entry is found under its name. -/
theorem Named.found (h : Named entries) (hmem : (name, n) ∈ entries) :
    FileNode.entry? (directory entries) name = some n := by
  obtain ⟨before, after, rfl⟩ := List.append_of_mem hmem
  have hbefore : ∀ e ∈ before, sameName e.1 name = false := fun e he =>
    (List.pairwise_append.1 h.once).2.2 e he (name, n) (by simp)
  have hnone : before.find? (fun e => sameName e.1 name) = none := by
    simpa using hbefore
  simp [ FileNode.entry?, List.find?_append, hnone]

end FileNode

namespace Files

variable {files : Files} {p d : Path} {n : FileNode} {entries : List (LooseText × FileNode)}
  {name : LooseText}

theorem lookUp_eq_some_iff :
    files.lookUp p = .ok (some n) ↔ p.defect? = none ∧ files.find p = .ok n := by
  unfold lookUp
  split
  · next h => simp [Option.isSome_iff_ne_none.1 h]
  · next h =>
    rw [Option.not_isSome_iff_eq_none] at h
    rw [and_iff_right h]
    split <;> simp_all

/-- An entry of a directory is found at its path, if the path is not too long. -/
theorem lookUp_entry (hd : files.lookUp d = .ok (some (.directory entries)))
    (hnamed : FileNode.Named entries) (hmem : (name, n) ∈ entries) :
    files.lookUp (d.join (.ofText name)) =
      if Path.greatestLength < Path.byteSize (d.join (.ofText name)).text then .error .nameTooLong
      else .ok (some n) := by
  obtain ⟨hdefect, hfind⟩ := lookUp_eq_some_iff.1 hd
  have hname := hnamed.names _ hmem
  have hjoin := find_join hfind hname (hnamed.found hmem)
  rw [lookUp, Path.defect?_join_eq_none hdefect hname, if_neg (by simp), hjoin]
  by_cases hlong : Path.greatestLength < Path.byteSize (d.join (.ofText name)).text
  · rw [if_pos hlong, if_pos hlong]
  · rw [if_neg hlong, if_neg hlong]

end Files

namespace Library

variable {l : Library} {files : Files} {listed : List LooseText} {name : LooseText} {d path : Path}
  {entries : List (LooseText × FileNode)} {node : FileNode} {b : Breakdown}

/-! ### Lists of names -/

/-- Names of the entries of the library's directory; there are none if it is not a directory. -/
def entryNames (l : Library) (files : Files) : Except Breakdown (List LooseText) :=
  match l.directory with
  | none => .ok []
  | some d => (files.entryNames? d).map fun found => found.getD []

theorem names_eq (l : Library) (files : Files) : l.names files = (l.entryNames files).map fun given =>
    (given.filter isWorldName).mergeSort fun s t => !t.before s := by
  unfold names entryNames
  cases l.directory with
  | none => rfl
  | some d =>
    dsimp only
    cases files.entryNames? d <;> rfl

/-- Names are those of the entries of the library's directory, or there is no such directory. -/
theorem entryNames_cases {given : List LooseText} (h : l.entryNames files = .ok given) :
    (given = [] ∧ ∀ d entries, l.directory = some d →
      files.lookUp d ≠ .ok (some (.directory entries))) ∨
    ∃ d entries, l.directory = some d ∧ files.lookUp d = .ok (some (.directory entries)) ∧
      given = entries.map Prod.fst := by
  unfold entryNames at h
  split at h
  · next hd =>
    cases h
    exact .inl ⟨rfl, by simp [hd]⟩
  · next d hd =>
    obtain ⟨found, hfound, rfl⟩ := map_eq_ok.1 h
    obtain ⟨node, hnode, rfl⟩ := map_eq_ok.1 hfound
    rcases node with - | content | entries
    · refine .inl ⟨rfl, fun d' entries hd' hlook => ?_⟩
      cases hd.symm.trans hd'
      cases hnode.symm.trans hlook
    · refine .inl ⟨rfl, fun d' entries hd' hlook => ?_⟩
      cases hd.symm.trans hd'
      cases hnode.symm.trans hlook
    · exact .inr ⟨d, entries, hd, hnode, rfl⟩

/-- What is in the library's directory and ends like a world file is listed, and nothing else. -/
theorem mem_names_iff (h : l.names files = .ok listed) : name ∈ listed ↔ isWorldName name = true ∧
    ∃ d entries, l.directory = some d ∧ files.lookUp d = .ok (some (.directory entries)) ∧
      name ∈ entries.map Prod.fst := by
  rw [names_eq] at h
  obtain ⟨given, hgiven, rfl⟩ := map_eq_ok.1 h
  rw [List.mem_mergeSort, List.mem_filter, and_comm]
  refine and_congr_right fun _ => ?_
  rcases entryNames_cases hgiven with ⟨rfl, hnone⟩ | ⟨d, entries, hd, hlook, rfl⟩
  · constructor
    · intro hmem
      cases hmem
    · rintro ⟨d, entries, hd, hlook, -⟩
      exact absurd hlook (hnone d entries hd)
  · constructor
    · exact fun hmem => ⟨d, entries, hd, hlook, hmem⟩
    · rintro ⟨d', entries', hd', hlook', hmem⟩
      cases hd.symm.trans hd'
      cases hlook.symm.trans hlook'
      exact hmem

/-- Names are listed in order, if the directory has each of them once. -/
theorem names_sorted (h : l.names files = .ok listed)
    (honce : ∀ d entries, l.directory = some d → files.lookUp d = .ok (some (.directory entries)) →
      (entries.map Prod.fst).Nodup) : listed.Pairwise fun s t => s.before t = true := by
  rw [names_eq] at h
  obtain ⟨given, hgiven, rfl⟩ := map_eq_ok.1 h
  have hgiven' : given.Nodup := by
    rcases entryNames_cases hgiven with ⟨rfl, -⟩ | ⟨d, entries, hd, hlook, rfl⟩
    · exact List.nodup_nil
    · exact honce d entries hd hlook
  have hsorted : ((given.filter isWorldName).mergeSort fun s t => !t.before s).Pairwise
      fun s t => (!t.before s) = true := by
    refine List.pairwise_mergeSort ?_ LooseText.not_before_total _
    exact fun _ _ _ => LooseText.not_before_trans
  have hnodup := (List.mergeSort_perm (given.filter isWorldName) fun s t => !t.before s).nodup_iff.2
    (hgiven'.filter _)
  exact (hsorted.and hnodup).imp fun h => LooseText.before_of_ne h.1 h.2

/-! ### What names stand for -/

/-- A path that was found is that of a file. -/
theorem resolve_file (h : l.resolve files name = .ok (some path)) :
    (path = .ofText name ∨ ∃ d, l.directory = some d ∧ path = d.join (.ofText name)) ∧
      files.isFile path = .ok true := by
  unfold resolve at h
  dsimp only at h
  rw [firstFile?] at h
  obtain ⟨found, hfound, h⟩ := bind_eq_ok.1 h
  cases found with
  | true =>
    cases h
    exact ⟨.inl rfl, hfound⟩
  | false =>
    cases hd : l.directory with
    | none =>
      rw [hd] at h
      cases h
    | some d =>
      rw [hd] at h
      obtain ⟨found, hfound, h⟩ := bind_eq_ok.1 h
      cases found with
      | true =>
        cases h
        exact ⟨.inr ⟨d, rfl, rfl⟩, hfound⟩
      | false => cases h

theorem resolve_none_iff : l.resolve files name = .ok none ↔
    files.isFile (.ofText name) = .ok false ∧
      ∀ d, l.directory = some d → files.isFile (d.join (.ofText name)) = .ok false := by
  unfold resolve
  dsimp only
  rw [firstFile?]
  simp only [bind_eq_ok]
  cases l.directory with
  | none =>
    constructor
    · rintro ⟨_ | _, hfound, h⟩
      · refine ⟨hfound, fun d hd => ?_⟩
        cases hd
      · cases h
    · exact fun h => ⟨false, h.1, rfl⟩
  | some d =>
    constructor
    · rintro ⟨_ | _, hfound, h⟩
      · obtain ⟨_ | _, hfound', h⟩ := bind_eq_ok.1 h
        · refine ⟨hfound, fun d' hd' => ?_⟩
          cases hd'
          exact hfound'
        · cases h
      · cases h
    · exact fun h => ⟨false, h.1, bind_eq_ok.2 ⟨false, h.2 d rfl, rfl⟩⟩

/-- What is at a path is a file or a directory. -/
theorem isFile_of_lookUp (h : files.lookUp path = .ok (some node)) :
    files.isFile path = .ok !node.isDirectory := by
  rw [Files.isFile, h]
  rfl

/-- A name that ends like that of a world file is that of a file in a format that is known. -/
theorem format?_isSome (h : isWorldName name = true) : (format? (Path.suffixOf name)).isSome := by
  unfold isWorldName at h
  obtain ⟨s, hs, hmem⟩ := (Option.any_eq_true _ _).1 h
  obtain ⟨cs, rfl⟩ : ∃ cs, s = String.ofList ('.' :: cs) := by
    unfold Path.suffixOf at hs
    dsimp only at hs
    split at hs
    · rw [LooseText.toString?_ofString] at hs
      cases hs
      exact absurd hmem (by decide)
    · simp only [LooseText.toString?, List.mapM_cons, CodePoint.char?] at hs
      obtain ⟨points, hpoints, rfl⟩ := Option.map_eq_some_iff.1 hs
      obtain ⟨c, hc, h⟩ := Option.bind_eq_some_iff.1 hpoints
      obtain ⟨cs, -, h⟩ := Option.bind_eq_some_iff.1 h
      cases hc
      cases h
      exact ⟨cs, rfl⟩
  have hpoint : Char.toLower '.' = '.' := by decide
  have hendings : endings.map String.toList =
      ["w".toList, "yaml".toList, "yml".toList].map ('.' :: ·) := by decide
  have hlower : Text.lowerCase cs ∈ ["w".toList, "yaml".toList, "yml".toList] := by
    have hlist := List.mem_map_of_mem (f := String.toList) (List.contains_iff_mem.1 hmem)
    rw [String.toList_ofList, String.toList_ofList, Text.lowerCase, List.map_cons, hpoint,
      hendings] at hlist
    obtain ⟨ending, hending, heq⟩ := List.mem_map.1 hlist
    rw [Text.lowerCase, ← (List.cons.inj heq).2]
    exact hending
  -- only one point is in front of the ending, since none of the three endings begins with one
  have hdrop : cs.dropWhile (· = '.') = cs := by
    cases cs with
    | nil => rfl
    | cons c rest =>
      refine List.dropWhile_cons_of_neg fun hc => ?_
      rw [decide_eq_true_eq] at hc
      subst hc
      simp [Text.lowerCase, hpoint] at hlower
  rw [format?, hs, Option.bind_some, String.toList_ofList, List.dropWhile_cons_of_pos (by decide), hdrop]
  simp only [List.mem_cons, List.not_mem_nil, or_false] at hlower
  rcases hlower with h | h | h <;> rw [h] <;> decide

/-- A name is only that of a directory. -/
def Hollow (l : Library) (files : Files) (name : LooseText) : Prop :=
  files.isFile (.ofText name) = .ok false ∧ ∃ d entries, l.directory = some d ∧
    files.lookUp (d.join (.ofText name)) = .ok (some (.directory entries))

/-- A name stands for a file that can be read, in a format that is known. -/
structure Supported (l : Library) (files : Files) (name : LooseText) (path : Path) : Prop where
  resolve : l.resolve files name = .ok (some path)
  bytes : ∃ data, files.readBytes path = .ok data
  format : ∃ format, format? path.suffix = some format

/-- A name stands for a file, and reading it is not allowed. -/
def Locked (l : Library) (files : Files) (name : LooseText) : Prop :=
  ∃ path, l.resolve files name = .ok (some path) ∧ files.find path = .ok (.file .locked)

/-- Nothing can be read under a name: the file is locked, or there is only a directory and no blank
world is called so. -/
inductive Withheld (l : Library) (files : Files) (name : LooseText) : Prop where
  | locked (h : l.Locked files name)
  | hollow (h : l.Hollow files name) (hblank : name.toString?.bind blankSize? = none)

/-- Asking for a name comes to an error that it cannot be loaded. -/
def Refuses [Yaml.Reader] (l : Library) (files : Files) (name : LooseText) : Prop :=
  ∃ e, l.load files name = .error (.error e) ∧ e.errorClass = .worldLoad

/-- Asking for a name comes to a description of a world or to an error of its format. -/
def Answers [Yaml.Reader] (l : Library) (files : Files) (name : LooseText) : Prop :=
  (∃ d, l.load files name = .ok d ∧ d.problem? = none) ∨
    ∃ e, l.load files name = .error (.error (.format e))

/-- A listed name is only that of a directory where no file is found under it. -/
theorem hollow_iff (hlook : files.lookUp d = .ok (some (.directory entries)))
    (hd : l.directory = some d) (hnamed : FileNode.Named entries) (hmem : (name, node) ∈ entries) :
    l.Hollow files name ↔ l.resolve files name = .ok none := by
  rw [resolve_none_iff]
  refine and_congr_right fun _ => ⟨?_, fun h => ?_⟩
  · rintro ⟨d', inner, hd', hfound⟩ d'' hd''
    cases hd.symm.trans hd'
    cases hd.symm.trans hd''
    exact isFile_of_lookUp hfound
  · have hfile := h d hd
    have hentry := Files.lookUp_entry hlook hnamed hmem
    rw [Files.isFile, hentry] at hfile
    split at hentry
    · next hlong =>
      rw [if_pos hlong] at hfile
      cases hfile
    · next hlong =>
      rw [if_neg hlong] at hfile
      cases node with
      | file content => cases hfile
      | directory inner => exact ⟨d, inner, hd, hentry⟩

/-- A listed name that stands for a file stands for one in a format that is known, which can be read
unless that is not allowed. -/
theorem supported_or_locked (hworld : isWorldName name = true) (hname : Path.IsName name)
    (h : l.resolve files name = .ok (some path)) :
    l.Supported files name path ∨ files.find path = .ok (.file .locked) := by
  obtain ⟨hpath, hfile⟩ := resolve_file h
  -- wherever the file was found, its ending is that of the name
  have hsuffix : path.suffix = Path.suffixOf name := by
    rcases hpath with rfl | ⟨d, -, rfl⟩
    · exact (Path.suffix_of_name (d := .ofText name) hname).1
    · exact (Path.suffix_of_name hname).2
  have hformat : ∃ format, format? path.suffix = some format := by
    rw [hsuffix]
    exact Option.isSome_iff_exists.1 (format?_isSome hworld)
  obtain ⟨found, hfound, hany⟩ := map_eq_ok.1 hfile
  obtain ⟨node, rfl, hnode⟩ := (Option.any_eq_true _ _).1 hany
  have hfind := (Files.lookUp_eq_some_iff.1 hfound).2
  cases node with
  | directory inner => cases hnode
  | file content =>
    cases content with
    | locked => exact .inr hfind
    | bytes data => exact .inl ⟨h, ⟨data, by rw [Files.readBytes, hfind]⟩, hformat⟩

/-- A file that can be read is not locked. -/
theorem Supported.not_locked (h : l.Supported files name path) : ¬ l.Locked files name := by
  rintro ⟨path', hpath, hfind⟩
  obtain rfl := Option.some.inj (Except.ok.inj (h.resolve.symm.trans hpath))
  obtain ⟨data, hdata⟩ := h.bytes
  simp [Files.readBytes, hfind] at hdata

/-- A listed name stands for a file that can be read, in a format that is known, unless the file is
locked, only a directory has the name, or looking for the file breaks off. -/
theorem exists_supported_iff (hworld : isWorldName name = true) (hd : l.directory = some d)
    (hlook : files.lookUp d = .ok (some (.directory entries))) (hnamed : FileNode.Named entries)
    (hmem : (name, node) ∈ entries) : (∃ path, l.Supported files name path) ↔
      ¬ l.Locked files name ∧ ¬ l.Hollow files name ∧ ¬ ∃ b, l.resolve files name = .error b := by
  rw [hollow_iff hlook hd hnamed hmem]
  constructor
  · rintro ⟨path, h⟩
    rw [h.resolve]
    exact ⟨h.not_locked, nofun, nofun⟩
  · rintro ⟨hlocked, hnone, hbroken⟩
    cases hpath : l.resolve files name with
    | error b => exact absurd ⟨b, hpath⟩ hbroken
    | ok found =>
      cases found with
      | none => exact absurd hpath hnone
      | some path =>
        exact ⟨path, (supported_or_locked hworld (hnamed.names _ hmem) hpath).resolve_right
          fun h => hlocked ⟨path, hpath, h⟩⟩

section

variable [Yaml.Reader]

/-- A file that can be read, in a format that is known, is not refused. -/
theorem Supported.not_refuses (h : l.Supported files name path) : ¬ l.Refuses files name := by
  obtain ⟨data, hdata⟩ := h.bytes
  obtain ⟨format, hformat⟩ := h.format
  rintro ⟨e, he, hclass⟩
  rw [load, h.resolve] at he
  simp only [loadFile, Files.readText, Files.readWith, resolve_defect h.resolve, hdata, hformat] at he
  cases hdecode : Files.decode? data with
  | none =>
    rw [hdecode] at he
    cases he
  | some text =>
    rw [hdecode] at he
    obtain he | ⟨d, -, hnoted⟩ := bind_eq_error.1 he
    · obtain ⟨e' | b, -, hfile⟩ := mapError_eq_error.1 he
      · cases hfile
        cases hclass
      · cases hfile
    · unfold noted at hnoted
      split at hnoted <;> cases hnoted

theorem Locked.refuses (h : l.Locked files name) : l.Refuses files name := by
  obtain ⟨path, hpath, hfind⟩ := h
  refine ⟨.unreadable name .denied path, ?_, rfl⟩
  simp only [load, hpath, loadFile, Files.readText, Files.readWith, resolve_defect hpath,
    Files.readBytes, hfind]

/-- Where no file is found, a name is refused that is not that of a blank world. -/
theorem refuses_of_resolve_none (h : l.resolve files name = .ok none) :
    l.Refuses files name ↔ name.toString?.bind blankSize? = none := by
  unfold Refuses load
  rw [h]
  dsimp only
  split
  · next width height hsize =>
    refine iff_of_false ?_ (by simp [hsize])
    rintro ⟨e, he, hclass⟩
    obtain ⟨e' | b, -, hfile⟩ := mapError_eq_error.1 he
    · cases hfile
      cases hclass
    · cases hfile
  · next hnone => exact iff_of_true ⟨_, rfl, rfl⟩ hnone

/-- A listed name is refused if it is withheld. -/
theorem refuses_iff (hworld : isWorldName name = true) (hd : l.directory = some d)
    (hlook : files.lookUp d = .ok (some (.directory entries))) (hnamed : FileNode.Named entries)
    (hmem : (name, node) ∈ entries) : l.Refuses files name ↔ l.Withheld files name := by
  have hhollow := hollow_iff hlook hd hnamed hmem
  constructor
  · intro h
    cases hpath : l.resolve files name with
    | error b =>
      obtain ⟨e, he, -⟩ := h
      rw [load, hpath] at he
      cases he
    | ok found =>
      cases found with
      | none => exact .hollow (hhollow.2 hpath) ((refuses_of_resolve_none hpath).1 h)
      | some path =>
        rcases supported_or_locked hworld (hnamed.names _ hmem) hpath with hsupported | hlocked
        · exact absurd h hsupported.not_refuses
        · exact .locked ⟨path, hpath, hlocked⟩
  · rintro (h | ⟨h, hblank⟩)
    · exact h.refuses
    · exact (refuses_of_resolve_none (hhollow.1 h)).2 hblank

/-- What is neither refused nor breaks off is answered. -/
theorem answers_iff : l.Answers files name ↔
    ¬ l.Refuses files name ∧ ¬ ∃ b, l.BreaksOff files name b := by
  simp only [← load_broken_iff]
  unfold Answers Refuses
  cases h : l.load files name with
  | ok d => simp [Workbench.problem?_of_load h]
  | error failure =>
    cases failure with
    | broken b => simp
    | error e => cases e <;> simp [LoadError.errorClass]

/-- What is listed is what is in the library's directory and ends like a world file, in order and each
name once. A listed name stands for a file that can be read, in a format that is known, unless the file
is locked, only a directory has the name, or looking for the file breaks off. Asking for it is refused
only where it is withheld, and is answered in all other cases, unless it breaks off. -/
theorem names_load_iff (h : l.names files = .ok listed)
    (hnamed : ∀ d entries, l.directory = some d → files.lookUp d = .ok (some (.directory entries)) →
      FileNode.Named entries) :
    (∀ name, name ∈ listed ↔ isWorldName name = true ∧ ∃ d entries, l.directory = some d ∧
      files.lookUp d = .ok (some (.directory entries)) ∧ name ∈ entries.map Prod.fst) ∧
    (listed.Pairwise fun s t => s.before t = true) ∧ listed.Nodup ∧ ∀ name ∈ listed,
      ((∃ path, l.Supported files name path) ↔ ¬ l.Locked files name ∧ ¬ l.Hollow files name ∧
        ¬ ∃ b, l.resolve files name = .error b) ∧
      (l.Refuses files name ↔ l.Withheld files name) ∧
      (l.Answers files name ↔ ¬ l.Withheld files name ∧ ¬ ∃ b, l.BreaksOff files name b) := by
  -- strict order, so no name comes twice
  have hsorted := names_sorted h fun d entries hd hlook => (hnamed d entries hd hlook).nodup
  refine ⟨fun name => mem_names_iff h, hsorted, hsorted.imp fun hbefore heq => ?_,
    fun name hname => ?_⟩
  · rw [heq, LooseText.before_iff] at hbefore
    exact List.lt_irrefl _ hbefore
  · obtain ⟨hworld, d, entries, hd, hlook, hin⟩ := (mem_names_iff h).1 hname
    obtain ⟨⟨_, node⟩, hmem, rfl⟩ := List.mem_map.1 hin
    have hnamed := hnamed d entries hd hlook
    have hrefuses := refuses_iff hworld hd hlook hnamed hmem
    refine ⟨exists_supported_iff hworld hd hlook hnamed hmem, hrefuses, ?_⟩
    rw [answers_iff, hrefuses]

end

/-- A directory of worlds with a file, and with two directories whose names end like those of world
files. -/
def shelf : FileNode :=
  .directory [("5x3.w", .directory []), ("row.yaml", .file (.bytes "dimension: [3, 1]\n".toUTF8)),
    ("sub.w", .directory [])]

/-- The files around a directory of worlds. -/
def shelfFiles : Files :=
  ⟨.directory [("w", shelf)], []⟩

/-- The worlds of that directory. -/
def shelfLibrary : Library :=
  ⟨some (.ofText "w"), none⟩

theorem lookUp_shelf : shelfFiles.lookUp (.ofText "w") = .ok (some shelf) :=
  Files.lookUp_eq_some_iff.2 ⟨by decide +kernel, rfl⟩

theorem names_shelf : shelfLibrary.names shelfFiles = .ok ["5x3.w", "row.yaml", "sub.w"] := by
  have hentries : shelfLibrary.entryNames shelfFiles = .ok ["5x3.w", "row.yaml", "sub.w"] := by
    decide +kernel
  rw [names_eq, hentries]
  exact congrArg Except.ok ((List.mergeSort_of_pairwise (by decide +kernel)).trans (by decide +kernel))

open scoped Yaml.Plain

theorem names_load_shelf : shelfLibrary.names shelfFiles = .ok ["5x3.w", "row.yaml", "sub.w"] ∧
    shelfLibrary.Withheld shelfFiles "sub.w" ∧ ¬ shelfLibrary.Withheld shelfFiles "row.yaml" ∧
    ¬ ∃ b, shelfLibrary.BreaksOff shelfFiles "row.yaml" b := by
  have hload : shelfLibrary.load shelfFiles "sub.w" = .error (.error (.notFound "sub.w")) := by
    decide +kernel
  have hanswer : shelfLibrary.load shelfFiles "row.yaml" = .ok ⟨3, 1, .home, [], [], none⟩ := by
    decide +kernel
  obtain ⟨-, -, -, h⟩ := names_load_iff names_shelf fun d entries hd hlook => by
    cases hd
    cases lookUp_shelf.symm.trans hlook
    decide +kernel
  obtain ⟨-, hrefuses, -⟩ := h "sub.w" (by simp)
  obtain ⟨-, -, hanswers⟩ := h "row.yaml" (by simp)
  exact ⟨names_shelf, hrefuses.1 ⟨_, hload, rfl⟩, hanswers.1 (.inl ⟨_, hanswer, rfl⟩)⟩

/-- A directory is listed as a world, and cannot be loaded. -/
theorem directory_listed : shelfLibrary.names shelfFiles = .ok ["5x3.w", "row.yaml", "sub.w"] ∧
    (¬ ∃ path, shelfLibrary.Supported shelfFiles "sub.w" path) ∧
    shelfLibrary.load shelfFiles "sub.w" = .error (.error (.notFound "sub.w")) := by
  have hresolve : shelfLibrary.resolve shelfFiles "sub.w" = .ok none := by decide +kernel
  refine ⟨names_shelf, ?_, by decide +kernel⟩
  rintro ⟨path, h⟩
  cases hresolve.symm.trans h.resolve

end Library

end GridRobot

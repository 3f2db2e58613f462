import GridRobot.Bundle
import GridRobot.Config.Cache
import GridRobot.Proofs.Config.Spelled
import GridRobot.Yaml.Document
import Mathlib.Data.List.Induction

/-!
# Remembered configurations and their files

A remembered configuration is the one that was read first from its file since everything was last
forgotten. It was read at the path of that time. So whoever asks for the file by another path gets
what reading it would give if the path can be followed, and if it spells the same directory or the
directory of worlds is absolute; and something else otherwise.

## Main definitions

* `ConfigCache.Request` is a request, `ConfigCache.after` what is remembered after some requests.
* `ConfigCache.firstRead?` is the path at which a remembered file was read.

## Main statements

* `ConfigCache.lookup_after`: what is remembered, after any requests.
* `ConfigCache.get_eq_load_iff`: when a remembered configuration is what reading would give.
* `ConfigCache.get_respelled`: when it is not.
-/

namespace GridRobot.ConfigCache

/-- A request: for a configuration, by the path of its file or for the bundled one, or to forget
everything. -/
inductive Request where
  | get (spelled : Option LooseText)
  | clear
  deriving Repr, DecidableEq

variable {files : Files} {home key p q : Path} {c : ConfigCache} {config : Config}
  {history : List Request} {spelled : Option LooseText}

/-- The file that is asked for. -/
def fileOf (home : Path) : Option LooseText → Path
  | none => Bundle.configFile home
  | some s => .ofText s

/-- What is remembered after a request. -/
def respond [Yaml.Reader] (files : Files) (home : Path) (c : ConfigCache) : Request → ConfigCache
  | .get spelled => (c.get files (fileOf home spelled)).2
  | .clear => c.clear

/-- What is remembered after some requests. -/
def after [Yaml.Reader] (files : Files) (home : Path) (history : List Request) : ConfigCache :=
  history.foldl (respond files home) empty

/-- The requests since everything was last forgotten. -/
def sinceClear (history : List Request) : List Request :=
  (history.reverse.takeWhile (· ≠ .clear)).reverse

section

variable [Yaml.Reader]

/-- The path at which a request reads the file of a key, and what it reads. -/
def readUnder? (files : Files) (home key : Path) : Request → Option (Path × Config)
  | .get spelled =>
    let file := fileOf home spelled
    match keyOf files file, Config.load files file with
    | .ok k, .ok config => if k = key then some (file, config) else none
    | _, _ => none
  | .clear => none

/-- The path at which the file of a key was first read since everything was last forgotten, and what
was read there. -/
def firstRead? (files : Files) (home key : Path) (history : List Request) : Option (Path × Config) :=
  (sinceClear history).findSome? (readUnder? files home key)

theorem readUnder?_get (hkey : keyOf files (fileOf home spelled) = .ok key)
    (hload : Config.load files (fileOf home spelled) = .ok config) :
    readUnder? files home key (.get spelled) = some (fileOf home spelled, config) := by
  simp [readUnder?, hkey, hload]

theorem readUnder?_eq_some {r : Request} (h : readUnder? files home key r = some (q, config)) :
    keyOf files q = .ok key ∧ Config.load files q = .ok config := by
  cases r with
  | clear => cases h
  | get spelled =>
    unfold readUnder? at h
    dsimp only at h
    split at h
    · next k config' hkey hload =>
      split at h
      · next hk =>
        cases h
        exact ⟨hk ▸ hkey, hload⟩
      · cases h
    · cases h

/-- The file of a key can be read at the path at which it was read first. -/
theorem firstRead?_eq_some (h : firstRead? files home key history = some (q, config)) :
    keyOf files q = .ok key ∧ Config.load files q = .ok config := by
  obtain ⟨_, r, _, -, hr, -⟩ := List.findSome?_eq_some_iff.1 h
  exact readUnder?_eq_some hr

end

theorem sinceClear_get (history : List Request) (spelled : Option LooseText) :
    sinceClear (history ++ [.get spelled]) = sinceClear history ++ [.get spelled] := by
  simp [sinceClear]

theorem sinceClear_clear (history : List Request) : sinceClear (history ++ [.clear]) = [] := by
  simp [sinceClear]

theorem firstRead?_get [Yaml.Reader] : firstRead? files home key (history ++ [.get spelled]) =
    (firstRead? files home key history).or (readUnder? files home key (.get spelled)) := by
  rw [firstRead?, sinceClear_get, List.findSome?_append, List.findSome?_singleton]
  rfl

/-! ### What is remembered -/

/-- The configuration that is remembered under a key. -/
def remembered? (c : ConfigCache) (key : Path) : Option Config :=
  (c.entries.lookup key).map (·.config)

section

variable [Yaml.Reader]

/-- What a request to read a file adds to what is remembered. -/
theorem remembered?_get (c : ConfigCache) (files : Files) (home key : Path)
    (spelled : Option LooseText) : (c.respond files home (.get spelled)).remembered? key =
      (c.remembered? key).or ((readUnder? files home key (.get spelled)).map (·.2)) := by
  unfold respond get readUnder? remembered?
  dsimp only
  cases keyOf files (fileOf home spelled) with
  | error b => simp
  | ok k =>
    dsimp only
    cases hknown : c.entries.lookup k with
    | some known =>
      -- a key that is remembered already stays as it is
      by_cases hk : k = key
      · subst hk
        simp [hknown]
      · cases Config.load files (fileOf home spelled) <;> simp [hk]
    | none =>
      unfold load
      cases Config.load files (fileOf home spelled) with
      | error e => simp
      | ok config =>
        by_cases hk : k = key
        · subst hk
          simp [hknown]
        · have hne : (key == k) = false := beq_eq_false_iff_ne.2 fun h => hk h.symm
          simp [List.lookup_cons, hne, hk]

theorem after_concat (history : List Request) (r : Request) :
    after files home (history ++ [r]) = (after files home history).respond files home r := by
  simp [after]

/-- After any requests, what was read first is remembered. -/
theorem remembered?_after (files : Files) (home key : Path) (history : List Request) :
    (after files home history).remembered? key = (firstRead? files home key history).map (·.2) := by
  -- from the end of the requests, where the last one meets what was remembered before
  induction history using List.reverseRecOn with
  | nil => rfl
  | append_singleton history r ih =>
    rw [after_concat]
    cases r with
    | get spelled =>
      rw [remembered?_get, firstRead?_get, ih]
      cases firstRead? files home key history <;> rfl
    | clear =>
      rw [firstRead?, sinceClear_clear]
      rfl

/-! ### What is given -/

/-- What a request gives, whatever the number of the configuration. -/
def outcome (c : ConfigCache) (files : Files) (file : Path) : Except ConfigFailure Config :=
  (c.get files file).1.map (·.config)

theorem outcome_of_remembered (hkey : keyOf files p = .ok key) (h : c.remembered? key = some config) :
    c.outcome files p = .ok config := by
  obtain ⟨known, hknown, rfl⟩ := Option.map_eq_some_iff.1 h
  simp [outcome, get, hkey, hknown, Except.map]

/-- What is not remembered is read. -/
theorem outcome_of_not_remembered (hkey : keyOf files p = .ok key) (h : c.remembered? key = none) :
    c.outcome files p = Config.load files p := by
  have hnone := Option.map_eq_none_iff.1 h
  unfold outcome get load
  rw [hkey]
  dsimp only
  rw [hnone]
  cases Config.load files p <;> rfl

end

theorem keyOf_eq_ok : keyOf files p = .ok key ↔
    p.firstDefect? = none ∧ Path.absolute files.directory p = key := by
  unfold keyOf
  cases p.firstDefect? <;> simp

theorem keyOf_eq_error {b : Breakdown} : keyOf files p = .error b ↔ p.firstDefect? = some b := by
  unfold keyOf
  cases p.firstDefect? <;> simp

theorem outcome_of_defect [Yaml.Reader] {b : Breakdown} (h : p.firstDefect? = some b) :
    c.outcome files p = .error (.broken b) := by
  simp [outcome, get, keyOf_eq_error.2 h, Except.map]

/-- Whatever was asked before, a request gives what reading the file would give, except in two cases.
No file can have the path, and this shows in different ways if the names on it are looked at one by one
or all at once. Or the file is remembered from another path, which does not agree with the one that is
given now. -/
theorem get_eq_load_iff [Yaml.Reader] (files : Files) (home : Path) (history : List Request)
    (spelled : Option LooseText) :
    (after files home history).outcome files (fileOf home spelled) =
        Config.load files (fileOf home spelled) ↔
      (fileOf home spelled).firstDefect? = (fileOf home spelled).defect? ∧
        ∀ key q config, keyOf files (fileOf home spelled) = .ok key →
          firstRead? files home key history = some (q, config) →
          Config.Agrees files (fileOf home spelled) q := by
  generalize fileOf home spelled = p
  cases hkey : keyOf files p with
  | error b =>
    -- there is no key, so nothing can be remembered; reading breaks off as well
    have hfirst := keyOf_eq_error.1 hkey
    obtain ⟨b', hdefect⟩ : ∃ b', p.defect? = some b' := by
      rw [← Option.isSome_iff_exists, ← Path.firstDefect?_isSome_iff, hfirst]
      rfl
    rw [outcome_of_defect hfirst, Config.load_of_defect hdefect, hfirst, hdefect]
    simp
  | ok key =>
    obtain ⟨hfirst, habsolute⟩ := keyOf_eq_ok.1 hkey
    have hdefect : p.defect? = none := by
      rw [← Option.not_isSome_iff_eq_none, ← Path.firstDefect?_isSome_iff, hfirst]
      simp
    have hafter := remembered?_after files home key history
    rw [and_iff_right (hfirst.trans hdefect.symm)]
    -- either the file is read now, or it was read before at a path that means the same
    cases hread : firstRead? files home key history with
    | none =>
      rw [hread] at hafter
      refine iff_of_true (outcome_of_not_remembered hkey hafter) ?_
      rintro _ q config ⟨⟩ hsome
      rw [hread] at hsome
      cases hsome
    | some first =>
      obtain ⟨q, config⟩ := first
      rw [hread] at hafter
      obtain ⟨hq, hload⟩ := firstRead?_eq_some hread
      rw [outcome_of_remembered hkey hafter, eq_comm,
        Config.load_respelled_iff hload hdefect (habsolute.trans (keyOf_eq_ok.1 hq).2.symm)]
      constructor
      · rintro h _ q' config' ⟨⟩ hsome
        rw [hread] at hsome
        cases hsome
        exact h
      · exact fun h => h key q config rfl hread

/-- A configuration file in words. -/
def plainText : String :=
  "timing:\n  heartbeat_ms: 8\n  action_heartbeats: 1\n" ++
    "limits:\n  max_call_depth: 9\n  max_free_ops_per_step: 9\n"

/-- A configuration file, and a directory next to it. -/
def besideFile : Files :=
  ⟨.directory [("karel.yaml", .file (.bytes plainText.toUTF8)), ("sub", .directory [])], []⟩

/-- The configuration in that file. -/
def plainConfig : Config :=
  ⟨⟨8, 1, 100⟩, ⟨9, 9, 100⟩, ⟨"15x15.w", .ofText "worlds", none⟩, ⟨370, 370⟩⟩

open scoped Yaml.Plain

theorem load_besideFile : Config.load besideFile (.ofText "karel.yaml") = .ok plainConfig := by
  have hdata : besideFile.readData (.ofText "karel.yaml") = .ok plainText.toUTF8 := by rfl
  have hportions : portions plainText.toUTF8 = [.ok plainText.toList] := by decide +kernel
  have hvalue : Yaml.Reader.ofFile plainText.toUTF8 = Yaml.load (.ofPortions [.ok plainText.toList]) :=
    congrArg (fun ps => Yaml.load (.ofPortions ps)) hportions
  rw [Config.load, hdata]
  simp only [hvalue]
  decide +kernel

/-- A file that is remembered is given at a path that cannot be followed, and at one from which other
worlds would be found. -/
theorem get_respelled :
    (after besideFile (.ofText "/home") [.get (some "karel.yaml")]).outcome besideFile
        (.ofText "gone/../karel.yaml") = .ok plainConfig ∧
      Config.load besideFile (.ofText "gone/../karel.yaml") =
        .error (.error (.badFile (FileProblem.missing.message (.ofText "gone/../karel.yaml")))) ∧
      (after besideFile (.ofText "/home") [.get (some "karel.yaml")]).outcome besideFile
        (.ofText "sub/../karel.yaml") = .ok plainConfig ∧
      Config.load besideFile (.ofText "sub/../karel.yaml") ≠ .ok plainConfig := by
  have hkey : keyOf besideFile (.ofText "karel.yaml") = .ok (.ofText "/karel.yaml") := by decide +kernel
  have hread : (after besideFile (.ofText "/home") [.get (some "karel.yaml")]).remembered?
      (.ofText "/karel.yaml") = some plainConfig := by
    have hunder : readUnder? besideFile (.ofText "/home") (.ofText "/karel.yaml")
        (.get (some "karel.yaml")) = some (.ofText "karel.yaml", plainConfig) :=
      readUnder?_get hkey load_besideFile
    rw [remembered?_after, ← List.nil_append [Request.get (some "karel.yaml")], firstRead?_get, hunder]
    rfl
  have hmissing : besideFile.readData (.ofText "gone/../karel.yaml") = .error (.file .missing) := by
    rfl
  refine ⟨outcome_of_remembered (by decide +kernel) hread, by rw [Config.load, hmissing],
    outcome_of_remembered (by decide +kernel) hread, ?_⟩
  -- the directory of worlds is relative, and the directories that are spelled differ
  intro hload
  have h := (Config.load_respelled_iff load_besideFile (by decide +kernel) (by decide +kernel)).1 hload
  obtain ⟨w, hw, hplaced⟩ := Config.load_eq_ok_iff.1 load_besideFile
  have hdir : w.world.worldsDir = .ofText "worlds" := by
    have hjoin : (Path.ofText "karel.yaml").parent.join w.world.worldsDir = .ofText "worlds" :=
      congrArg (fun c => c.world.worldsDir) hplaced
    have hnowhere : (Path.ofText "karel.yaml").parent = Config.nowhere.parent := by decide +kernel
    rwa [hnowhere, Config.nowhere_join] at hjoin
  rcases h.directory w hw with habsolute | hparent
  · rw [hdir] at habsolute
    exact absurd habsolute (by decide +kernel)
  · exact absurd hparent (by decide +kernel)

end GridRobot.ConfigCache

import GridRobot.Config.Read
import GridRobot.Proofs.Config.Range
import GridRobot.Proofs.World.Unreadable
import GridRobot.Yaml.Document

/-!
# What comes of a configuration file

Whatever a configuration file holds, it gives a configuration with all settings in their range, or an
error says what is wrong with it. There are exceptions: the reader of YAML may break off on the bytes of
the file, and a setting may be infinite where an integer has to be.

## Main definitions

* `Config.order` lists the settings in the order in which they are looked at.
* `Config.MeetsInfinity` says that reading a mapping comes to an infinite number.
* `Config.entriesOf` is a mapping from which a configuration is read.
* `Config.Contained` says that a reading comes to a configuration that serves or to an error.
* `Config.BreaksOff` says why reading a configuration file breaks off.

## Main statements

* `Config.settings_map`: settings are looked at one by one.
* `Config.settings_broken_iff`, `Config.load_broken_iff`: reading breaks off in these ways only.
* `Config.ofValue_entriesOf`: a configuration is read from its entries.
* `Config.load_contained_iff`: in all other cases a file gives a configuration or an error.
-/

namespace GridRobot.Config

variable {c : Config} {file : Path} {raw fields : List (Value × Value)} {key : String} {v : Value}
  {b : Breakdown}

/-! ### Settings one by one -/

/-- How a setting is looked at. -/
inductive Manner where
  | integer
  | integerOr (default : Int)
  | textOr (default : String)
  | bag

/-- A setting, by the section in which it is, whether the section may be left out, and its key. -/
structure Setting where
  part : String
  mayLack : Bool
  key : String
  manner : Manner

/-- The settings in the order in which they are looked at. -/
def order : List Setting :=
  [⟨"timing", false, "heartbeat_ms", .integer⟩,
   ⟨"timing", false, "action_heartbeats", .integer⟩,
   ⟨"timing", false, "refresh_heartbeats", .integerOr 100⟩,
   ⟨"limits", false, "max_call_depth", .integer⟩,
   ⟨"limits", false, "max_free_ops_per_step", .integer⟩,
   ⟨"limits", false, "max_nesting_depth", .integerOr 100⟩,
   ⟨"world", true, "initial_world", .textOr "15x15.w"⟩,
   ⟨"world", true, "worlds_dir", .textOr "worlds"⟩,
   ⟨"world", true, "default_bag", .bag⟩,
   ⟨"canvas", true, "width", .integerOr 370⟩,
   ⟨"canvas", true, "height", .integerOr 370⟩]

/-- A section that must be there. -/
def sectionOf (key : String) (raw : List (Value × Value)) :
    Except ConfigFailure (List (Value × Value)) := do
  let v ← used (Value.require key raw)
  used v.entries

/-- Looks at a setting in its section. -/
def Manner.look (key : String) (fields : List (Value × Value)) : Manner → Except ConfigFailure Unit
  | integer => (required key fields).map fun _ => ()
  | integerOr default => (optional key default fields).map fun _ => ()
  | textOr default => (Config.textOr key default fields).map fun _ => ()
  | bag => (bagOf ((Value.find? key fields).getD .null)).map fun _ => ()

/-- The section of a setting. -/
def Setting.entries (s : Setting) (raw : List (Value × Value)) :
    Except ConfigFailure (List (Value × Value)) :=
  if s.mayLack then sectionOr s.part raw else sectionOf s.part raw

/-- Looks at a setting. -/
def Setting.look (s : Setting) (raw : List (Value × Value)) : Except ConfigFailure Unit := do
  let fields ← s.entries raw
  s.manner.look s.key fields

/-- Looks at all settings in order, once the sections are there that must be. -/
def look (raw : List (Value × Value)) : Except ConfigFailure Unit := do
  let _ ← used (Value.require "timing" raw)
  let _ ← used (Value.require "limits" raw)
  forM order fun s => s.look raw

/-- A result that is used in one place only, and looked at in the other. -/
theorem map_bind_look {ε α β : Type} {x : Except ε α} {f : α → Except ε β} {rest : Except ε Unit}
    (h : ∀ a, (f a).map (fun _ => ()) = rest) :
    (x >>= f).map (fun _ => ()) = x.map (fun _ => ()) >>= fun _ => rest := by
  cases x with
  | error e => rfl
  | ok a => exact h a

/-- Reading the settings is looking at all of them. -/
theorem settings_map (file : Path) (raw : List (Value × Value)) :
    (settings file raw).map (fun _ => ()) = look raw := by
  unfold settings look order
  simp only [List.forM_cons, List.forM_nil, Setting.look, Setting.entries, Manner.look, sectionOf,
    if_true, Bool.false_eq_true, if_false]
  -- a section is read once here and again for each of its settings there
  cases used (Value.require "timing" raw) with
  | error e => rfl
  | ok timing =>
  cases used (Value.require "limits" raw) with
  | error e => rfl
  | ok limits =>
  simp only [ok_bind]
  cases used timing.entries with
  | error e => rfl
  | ok timing =>
  simp only [ok_bind]
  refine map_bind_look fun _ => map_bind_look fun _ => map_bind_look fun _ => ?_
  cases used limits.entries with
  | error e => rfl
  | ok limits =>
  simp only [ok_bind]
  refine map_bind_look fun _ => map_bind_look fun _ => map_bind_look fun _ => ?_
  cases sectionOr "world" raw with
  | error e => rfl
  | ok world =>
  simp only [ok_bind]
  refine map_bind_look fun _ => map_bind_look fun _ => map_bind_look fun _ => ?_
  cases sectionOr "canvas" raw with
  | error e => rfl
  | ok canvas =>
  simp only [ok_bind]
  exact map_bind_look fun _ => map_bind_look fun _ => rfl

/-! ### What breaks the reading off -/

theorem used_eq_ok {α : Type} {r : Except Value.Misuse α} {a : α} : used r = .ok a ↔ r = .ok a :=
  mapError_eq_ok

theorem used_broken_iff {α : Type} {r : Except Value.Misuse α} :
    used r = .error (.broken b) ↔ r = .error (.broken b) := by
  rw [used, mapError_eq_error]
  constructor
  · rintro ⟨m, rfl, hm⟩
    cases m <;> simp_all [ofMisuse]
  · rintro rfl
    exact ⟨_, rfl, rfl⟩

theorem used_require_ne_broken : used (Value.require key raw) ≠ .error (.broken b) :=
  fun h => Values.require_ne_broken (used_broken_iff.1 h)

theorem used_entries_ne_broken : used v.entries ≠ .error (.broken b) :=
  fun h => Values.entries_ne_broken (used_broken_iff.1 h)

theorem used_toInteger_broken_iff :
    used v.toInteger = .error (.broken b) ↔ b = .tooGreat ∧ v.IsInfinite :=
  used_broken_iff.trans Value.toInteger_broken_iff

theorem required_broken_iff :
    required key fields = .error (.broken b) ↔ b = .tooGreat ∧ Values.InfiniteAt key fields := by
  rw [required, bind_eq_error, or_iff_right used_require_ne_broken]
  simp only [used_eq_ok, Values.require_eq_ok, used_toInteger_broken_iff, Values.InfiniteAt]
  constructor
  · rintro ⟨v, hv, hb, hinf⟩
    exact ⟨hb, v, hv, hinf⟩
  · rintro ⟨hb, v, hv, hinf⟩
    exact ⟨v, hv, hb, hinf⟩

theorem optional_broken_iff {default : Int} : optional key default fields = .error (.broken b) ↔
    b = .tooGreat ∧ Values.InfiniteAt key fields := by
  unfold optional Values.InfiniteAt
  cases Value.find? key fields with
  | none => simp
  | some v => simp [used_toInteger_broken_iff]

theorem textOr_ne_broken {default : String} : textOr key default fields ≠ .error (.broken b) := by
  unfold textOr
  split
  · exact nofun
  · split
    · exact nofun
    · intro h
      cases used_broken_iff.1 h

theorem bagOf_broken_iff : bagOf v = .error (.broken b) ↔ b = .tooGreat ∧ v.IsInfinite := by
  unfold bagOf
  split
  · simp [Value.IsInfinite]
  · split
    · simp [Value.IsInfinite]
    · rw [map_eq_error, used_toInteger_broken_iff]
  · rw [map_eq_error, used_toInteger_broken_iff]

/-- Looking at a setting needs an integer, perhaps. -/
def Manner.IsNumber : Manner → Prop
  | textOr _ => False
  | _ => True

theorem Manner.look_broken_iff {m : Manner} : m.look key fields = .error (.broken b) ↔
    b = .tooGreat ∧ m.IsNumber ∧ Values.InfiniteAt key fields := by
  cases m with
  | integer => simp [look, map_eq_error, required_broken_iff, IsNumber]
  | integerOr default => simp [look, map_eq_error, optional_broken_iff, IsNumber]
  | textOr default => simp [look, map_eq_error, textOr_ne_broken, IsNumber]
  | bag =>
    rw [look, map_eq_error, bagOf_broken_iff]
    cases h : Value.find? key fields <;> simp [IsNumber, Values.InfiniteAt, Value.IsInfinite, h]

/-- A setting is an infinite number where an integer has to be. -/
def Setting.IsInfinite (s : Setting) (raw : List (Value × Value)) : Prop :=
  s.manner.IsNumber ∧ ∃ fields, Value.find? s.part raw = some (.map fields) ∧
    Values.InfiniteAt s.key fields

theorem sectionOf_eq_ok :
    sectionOf key raw = .ok fields ↔ Value.find? key raw = some (.map fields) := by
  rw [sectionOf, bind_eq_ok]
  simp only [used_eq_ok, Values.require_eq_ok, Values.entries_eq_ok]
  exact ⟨fun ⟨v, hv, hmap⟩ => hmap ▸ hv, fun h => ⟨_, h, rfl⟩⟩

theorem sectionOf_ne_broken : sectionOf key raw ≠ .error (.broken b) := by
  rw [sectionOf, Ne, bind_eq_error]
  rintro (h | ⟨v, -, h⟩)
  · exact used_require_ne_broken h
  · exact used_entries_ne_broken h

theorem sectionOr_ne_broken : sectionOr key raw ≠ .error (.broken b) := by
  unfold sectionOr
  split
  · exact nofun
  · exact used_entries_ne_broken

/-- A section that is left out has no settings. -/
theorem sectionOr_eq_ok : sectionOr key raw = .ok fields ↔
    Value.find? key raw = some (.map fields) ∨ Value.find? key raw = none ∧ fields = [] := by
  unfold sectionOr
  cases Value.find? key raw with
  | none => simp [eq_comm]
  | some v => simp [used_eq_ok, Values.entries_eq_ok]

theorem not_infiniteAt_nil : ¬ Values.InfiniteAt key [] := by
  rintro ⟨v, hv, -⟩
  cases hv

theorem Setting.look_broken_iff {s : Setting} :
    s.look raw = .error (.broken b) ↔ b = .tooGreat ∧ s.IsInfinite raw := by
  rw [look, bind_eq_error, entries]
  simp only [Manner.look_broken_iff, IsInfinite]
  -- a section that was left out has no infinite number in it, so it need not be told apart
  cases s.mayLack with
  | false =>
    simp only [Bool.false_eq_true, if_false, sectionOf_ne_broken, sectionOf_eq_ok, false_or]
    tauto
  | true =>
    simp only [if_true, sectionOr_ne_broken, sectionOr_eq_ok, false_or]
    constructor
    · rintro ⟨fields, hfields | ⟨-, rfl⟩, hb, hnumber, hinf⟩
      · exact ⟨hb, hnumber, fields, hfields, hinf⟩
      · exact absurd hinf not_infiniteAt_nil
    · rintro ⟨hb, hnumber, fields, hfields, hinf⟩
      exact ⟨fields, .inl hfields, hb, hnumber, hinf⟩

/-- Reading a mapping comes to an infinite number: the sections are there that must be, and every
setting before that one can be read. -/
structure MeetsInfinity (raw : List (Value × Value)) : Prop where
  timing : (Value.find? "timing" raw).isSome
  limits : (Value.find? "limits" raw).isSome
  setting : ∃ before s after, order = before ++ s :: after ∧ (∀ t ∈ before, t.look raw = .ok ()) ∧
    s.IsInfinite raw

/-- The settings of a mapping break off only at an infinite number. -/
theorem settings_broken_iff :
    settings file raw = .error (.broken b) ↔ b = .tooGreat ∧ MeetsInfinity raw := by
  rw [← map_eq_error (f := fun _ => ()), settings_map, look, bind_eq_error,
    or_iff_right used_require_ne_broken]
  simp only [bind_eq_error, used_require_ne_broken, false_or, forM_eq_error, Setting.look_broken_iff,
    used_eq_ok, Values.require_eq_ok]
  constructor
  · rintro ⟨timing, htiming, limits, hlimits, before, s, after, horder, hbefore, hb, hinf⟩
    exact ⟨hb, by simp [htiming], by simp [hlimits], before, s, after, horder, hbefore, hinf⟩
  · rintro ⟨hb, htiming, hlimits, before, s, after, horder, hbefore, hinf⟩
    obtain ⟨timing, htiming⟩ := Option.isSome_iff_exists.1 htiming
    obtain ⟨limits, hlimits⟩ := Option.isSome_iff_exists.1 hlimits
    exact ⟨timing, htiming, limits, hlimits, before, s, after, horder, hbefore, hb, hinf⟩

/-! ### Configurations as mappings -/

/-- A bag as a value. -/
def bagValue : Option Int → Value
  | none => .null
  | some n => .int n

/-- The entries of a configuration, with its directory of worlds as a text. -/
def entriesOf (c : Config) (worlds : LooseText) : List (Value × Value) :=
  [(.text "timing", .map [(.text "heartbeat_ms", .int c.timing.heartbeatMs),
      (.text "action_heartbeats", .int c.timing.actionHeartbeats),
      (.text "refresh_heartbeats", .int c.timing.refreshHeartbeats)]),
   (.text "limits", .map [(.text "max_call_depth", .int c.limits.callDepth),
      (.text "max_free_ops_per_step", .int c.limits.freeTurns),
      (.text "max_nesting_depth", .int c.limits.nesting)]),
   (.text "world", .map [(.text "initial_world", .text c.world.initialWorld),
      (.text "worlds_dir", .text worlds), (.text "default_bag", bagValue c.world.defaultBag)]),
   (.text "canvas", .map [(.text "width", .int c.canvas.width),
      (.text "height", .int c.canvas.height)])]

theorem find?_text_cons (key s : String) (v : Value) (rest : List (Value × Value)) :
    Value.find? key ((.text s, v) :: rest) = if s = key then some v else Value.find? key rest := by
  have hsame : Value.sameKey (.text s) (.text key) = decide (s = key) := by
    rw [Value.sameKey]
    by_cases h : s = key
    · simp [h]
    · have hne : LooseText.ofString s ≠ .ofString key := fun heq => h <| by
        simpa using congrArg LooseText.toString? heq
      simp [h, hne]
  simp only [Value.find?, List.find?_cons, hsame]
  split <;> simp_all

theorem bagOf_bagValue (bag : Option Int) : bagOf (bagValue bag) = .ok bag := by
  cases bag <;> rfl

theorem settings_entriesOf {worlds : LooseText}
    (hworlds : file.parent.join (.ofText worlds) = c.world.worldsDir) :
    settings file (c.entriesOf worlds) = .ok c := by
  simp [settings, entriesOf, required, optional, textOr, sectionOr, used, Value.require,
    find?_text_cons, Value.toInteger, Value.entries, Value.isWritable, Value.asText,
    bagOf_bagValue, hworlds, mapError_ok, ok_bind]

/-- A configuration with all settings in their range is read from its entries. -/
theorem ofValue_entriesOf {worlds : LooseText} (hrange : c.InRange)
    (hworlds : file.parent.join (.ofText worlds) = c.world.worldsDir) :
    ofValue file (.map (c.entriesOf worlds)) = .ok c := by
  rw [ofValue, ofEntries, settings_entriesOf hworlds, ok_bind, checked_eq_ok.2 ⟨hrange, rfl⟩,
    mapError_ok]

/-! ### What comes of files -/

/-- A reading comes to a configuration with all settings in their range, which are taken by whatever is
made from it, or to an error of configuration. -/
def Contained (r : Except ConfigFailure Config) : Prop :=
  (∃ c, r = .ok c ∧ c.InRange ∧ c.Serves) ∨ ∃ e, r = .error (.error e)

theorem ofEntries_inRange (h : ofEntries file raw = .ok c) : c.InRange := by
  obtain ⟨d, -, h⟩ := bind_eq_ok.1 h
  obtain ⟨hrange, rfl⟩ := checked_eq_ok.1 (mapError_eq_ok.1 h)
  exact hrange

theorem ofValue_inRange (h : ofValue file v = .ok c) : c.InRange := by
  unfold ofValue at h
  split at h
  · exact ofEntries_inRange h
  · cases h

/-- A configuration that is handed out has all settings in their range. -/
theorem load_inRange [Yaml.Reader] {files : Files} (h : load files file = .ok c) : c.InRange := by
  unfold load at h
  split at h
  · cases h
  · cases h
  · split at h
    · cases h
    · cases h
    · exact ofValue_inRange h

theorem contained_iff_not_broken {r : Except ConfigFailure Config} (h : ∀ c, r = .ok c → c.InRange) :
    Contained r ↔ ¬ ∃ b, r = .error (.broken b) := by
  unfold Contained
  cases r with
  | ok c => simpa using ⟨h c rfl, (h c rfl).serves⟩
  | error e => cases e <;> simp

theorem ofEntries_broken_iff :
    ofEntries file raw = .error (.broken b) ↔ b = .tooGreat ∧ MeetsInfinity raw := by
  rw [ofEntries, bind_eq_error, settings_broken_iff, or_iff_left]
  rintro ⟨c, -, h⟩
  obtain ⟨e, -, he⟩ := mapError_eq_error.1 h
  cases he

theorem ofValue_broken_iff : ofValue file v = .error (.broken b) ↔
    b = .tooGreat ∧ ∃ raw, v = .map raw ∧ MeetsInfinity raw := by
  cases v with
  | map raw => simp [ofValue, ofEntries_broken_iff]
  | _ => simp [ofValue]

/-- Why reading a configuration file breaks off. -/
inductive BreaksOff [Yaml.Reader] (files : Files) (file : Path) : Breakdown → Prop where
  /-- No file can have the path. -/
  | path {b : Breakdown} (h : file.defect? = some b) : BreaksOff files file b
  /-- The bytes of the file break off the reading of their value. -/
  | text {data : ByteArray} {b : Breakdown} (hpath : file.defect? = none)
      (hdata : files.readBytes file = .ok data)
      (h : Yaml.Reader.ofFile data = .error (.broken b)) : BreaksOff files file b
  /-- A setting is infinite. -/
  | value {data : ByteArray} {raw : List (Value × Value)} (hpath : file.defect? = none)
      (hdata : files.readBytes file = .ok data)
      (hload : Yaml.Reader.ofFile data = .ok (.map raw)) (h : MeetsInfinity raw) :
      BreaksOff files file .tooGreat

/-- Reading a configuration file breaks off in these ways only. -/
theorem load_broken_iff [Yaml.Reader] {files : Files} :
    load files file = .error (.broken b) ↔ BreaksOff files file b := by
  unfold load Files.readData Files.readWith
  cases hpath : file.defect? with
  | some b' =>
    constructor
    · intro h
      cases h
      exact .path hpath
    · intro h
      cases h <;> simp_all
  | none =>
    cases hdata : files.readBytes file with
    | error problem =>
      constructor
      · intro h
        cases h
      · intro h
        cases h <;> simp_all
    | ok data =>
      simp only [mapError_ok]
      split
      · next hload =>
        constructor
        · intro h
          cases h
        · intro h
          cases h <;> simp_all
      · next b' hload =>
        constructor
        · intro h
          cases h
          exact .text hpath hdata hload
        · intro h
          cases h <;> simp_all
      · next v hload =>
        rw [ofValue_broken_iff]
        constructor
        · rintro ⟨rfl, raw, rfl, h⟩
          exact .value hpath hdata hload h
        · intro h
          cases h <;> simp_all

/-- Whatever file there is at a path, it gives a configuration with all settings in their range, which
are taken by whatever is made from it, or an error, unless reading it breaks off. So does every value
that a file may hold, unless a setting in it is infinite, and each such configuration comes of a value. -/
theorem load_contained_iff [Yaml.Reader] (files : Files) (file : Path) :
    (Contained (load files file) ↔ ¬ ∃ b, BreaksOff files file b) ∧
      (∀ v, Contained (ofValue file v) ↔ ∀ raw, v = .map raw → ¬ MeetsInfinity raw) ∧
      ∀ c worlds, c.InRange → file.parent.join (.ofText worlds) = c.world.worldsDir →
        ofValue file (.map (c.entriesOf worlds)) = .ok c := by
  refine ⟨?_, ?_, fun c worlds => ofValue_entriesOf⟩
  · rw [contained_iff_not_broken fun c => load_inRange]
    simp only [load_broken_iff]
  · intro v
    rw [contained_iff_not_broken fun c => ofValue_inRange]
    simp only [ofValue_broken_iff]
    constructor
    · intro h raw hraw hinf
      exact h ⟨.tooGreat, rfl, raw, hraw, hinf⟩
    · rintro h ⟨b, -, raw, hraw, hinf⟩
      exact h raw hraw hinf

/-- A configuration file of one byte that begins no character. -/
def strayByte : Files :=
  ⟨.directory [("karel.yaml", .file (.bytes ⟨#[0xFF]⟩))], []⟩

/-- A configuration with an endless heartbeat. -/
def endlessBeat : List (Value × Value) :=
  [(.text "timing", .map [(.text "heartbeat_ms", .float (Double.toFloat (.infinite false))),
      (.text "action_heartbeats", .int 1)]),
    (.text "limits", .map [(.text "max_call_depth", .int 9), (.text "max_free_ops_per_step", .int 9)])]

open scoped Yaml.Plain

/-- Neither a stray byte nor an endless heartbeat is told to be wrong. -/
theorem load_strayByte : load strayByte (.ofText "karel.yaml") = .error (.broken .undecodable) ∧
    ¬ Contained (load strayByte (.ofText "karel.yaml")) ∧
    ofValue (.ofText "karel.yaml") (.map endlessBeat) = .error (.broken .tooGreat) ∧
    ¬ Contained (ofValue (.ofText "karel.yaml") (.map endlessBeat)) := by
  have hload : load strayByte (.ofText "karel.yaml") = .error (.broken .undecodable) := by
    decide +kernel
  have hvalue : ofValue (.ofText "karel.yaml") (.map endlessBeat) = .error (.broken .tooGreat) := by
    decide +kernel
  refine ⟨hload, ?_, hvalue, ?_⟩
  · rw [contained_iff_not_broken fun c => load_inRange]
    exact fun h => h ⟨_, hload⟩
  · rw [contained_iff_not_broken fun c => ofValue_inRange]
    exact fun h => h ⟨_, hvalue⟩

end GridRobot.Config

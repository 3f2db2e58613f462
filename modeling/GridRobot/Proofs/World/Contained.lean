import GridRobot.Proofs.World.Described
import GridRobot.Proofs.World.Library
import GridRobot.Proofs.World.Unreadable
import GridRobot.Yaml.Document

/-!
# What comes of a mapping of values

Whatever values a file holds, they make a description of a world, or an error says what is wrong with
them. There are two exceptions. An infinite number where an integer has to be breaks the reading off,
and so does a cell off the grid that is so far away that the error cannot tell it.

## Main definitions

* `Contained` says that a reading comes to a description of a world or to a format error.
* `TooFar` says that the cell that would have to be told is too far away.

## Main statements

* `Values.readEntries_sane`: entries that are made of values are sane by themselves.
* `untold_iff_tooFar`: only a cell can be wrong in a way that cannot be told.
* `Values.read_contained_iff`: the exceptions are the two above.
* `Values.read_infinite` is a file that meets the first one.
-/

namespace GridRobot

/-- A reading comes to a description of a world, or to a format error. -/
def Contained (r : Except LayoutError Description) : Prop :=
  (∃ d w, r = .ok d ∧ d.problem? = none ∧ World.ofDescription d = .ok w) ∨
    ∃ e, r = .error (.format e)

/-! ### Entries made of values -/

namespace Entry

theorem sane_of_dimension? {width height : Int} {e : Entry} (h : dimension? width height = .ok e) :
    e.Sane := by
  unfold dimension? at h
  split at h
  · cases h
  · next hpos =>
    cases h
    exact ⟨by omega, by omega⟩

theorem sane_of_beepers? {x y count : Int} {e : Entry} (h : beepers? x y count = .ok e) : e.Sane := by
  unfold beepers? at h
  split at h
  · cases h
  · next hcount =>
    cases h
    exact not_lt.1 hcount

theorem sane_of_wall? {x y : Int} {side : LooseText} {e : Entry} (h : wall? x y side = .ok e) :
    e.Sane := by
  obtain ⟨_, -, rfl⟩ := map_eq_ok.1 h
  trivial

theorem sane_of_robot? {x y : Int} {facing : LooseText} {e : Entry} (h : robot? x y facing = .ok e) :
    e.Sane := by
  obtain ⟨_, -, rfl⟩ := map_eq_ok.1 h
  trivial

theorem sane_of_bag? {written : LooseText} {shown : String} {e : Entry}
    (h : bag? written shown = .ok e) : e.Sane := by
  unfold bag? at h
  simp only at h
  split at h
  · cases h
    trivial
  · split at h
    · cases h
    · split at h
      · cases h
      · next hcount =>
        cases h
        exact not_lt.1 hcount

end Entry

namespace Values

variable {fields : List (Value × Value)} {v : Value} {e : Entry} {entries : List Entry}

theorem made_eq_ok {r : Except FormatError.Cause Entry} : made r = .ok e ↔ r = .ok e :=
  mapError_eq_ok

theorem dimensionOf_sane (h : dimensionOf fields = .ok e) : e.Sane := by
  obtain ⟨v, -, h⟩ := bind_eq_ok.1 h
  obtain ⟨parts, -, h⟩ := bind_eq_ok.1 h
  split at h
  · obtain ⟨w, -, h⟩ := bind_eq_ok.1 h
    obtain ⟨n, -, h⟩ := bind_eq_ok.1 h
    exact Entry.sane_of_dimension? (made_eq_ok.1 h)
  · cases h

theorem robotOf_sane (h : robotOf fields = .ok entries) : ∀ e ∈ entries, e.Sane := by
  unfold robotOf at h
  split at h
  · cases h
    simp
  · cases h
    simp
  · obtain ⟨inner, -, h⟩ := bind_eq_ok.1 h
    obtain ⟨x, -, h⟩ := bind_eq_ok.1 h
    obtain ⟨y, -, h⟩ := bind_eq_ok.1 h
    obtain ⟨facing, -, h⟩ := bind_eq_ok.1 h
    obtain ⟨robot, hrobot, h⟩ := bind_eq_ok.1 h
    cases h
    simpa using Entry.sane_of_robot? (made_eq_ok.1 hrobot)

theorem wallOf_sane (h : wallOf v = .ok e) : e.Sane := by
  obtain ⟨inner, -, h⟩ := bind_eq_ok.1 h
  obtain ⟨x, -, h⟩ := bind_eq_ok.1 h
  obtain ⟨y, -, h⟩ := bind_eq_ok.1 h
  obtain ⟨side, -, h⟩ := bind_eq_ok.1 h
  obtain ⟨word, -, h⟩ := bind_eq_ok.1 h
  exact Entry.sane_of_wall? (made_eq_ok.1 h)

theorem beepersOf_sane (h : beepersOf v = .ok e) : e.Sane := by
  obtain ⟨inner, -, h⟩ := bind_eq_ok.1 h
  obtain ⟨x, -, h⟩ := bind_eq_ok.1 h
  obtain ⟨y, -, h⟩ := bind_eq_ok.1 h
  obtain ⟨count, -, h⟩ := bind_eq_ok.1 h
  exact Entry.sane_of_beepers? (made_eq_ok.1 h)

theorem bagOf_sane (h : bagOf fields = .ok entries) : ∀ e ∈ entries, e.Sane := by
  unfold bagOf at h
  split at h
  · cases h
    simp
  · cases h
    simp [Entry.Sane]
  · split at h
    · obtain ⟨bag, hbag, h⟩ := bind_eq_ok.1 h
      cases h
      simpa using Entry.sane_of_bag? (made_eq_ok.1 hbag)
    · cases h

/-- Entries that are made of values are sane by themselves. -/
theorem readEntries_sane (h : readEntries fields = .ok entries) : ∀ e ∈ entries, e.Sane := by
  obtain ⟨size, hsize, h⟩ := bind_eq_ok.1 h
  obtain ⟨robot, hrobot, h⟩ := bind_eq_ok.1 h
  obtain ⟨sides, -, h⟩ := bind_eq_ok.1 h
  obtain ⟨walls, hwalls, h⟩ := bind_eq_ok.1 h
  obtain ⟨heaps, -, h⟩ := bind_eq_ok.1 h
  obtain ⟨beepers, hbeepers, h⟩ := bind_eq_ok.1 h
  obtain ⟨bag, hbag, h⟩ := bind_eq_ok.1 h
  cases h
  intro e he
  simp only [List.cons_append, List.mem_cons, List.mem_append] at he
  rcases he with rfl | ((he | he) | he) | he
  · exact dimensionOf_sane hsize
  · exact robotOf_sane hrobot e he
  · obtain ⟨v, -, hv⟩ := exists_of_mem_mapM hwalls e he
    exact wallOf_sane hv
  · obtain ⟨v, -, hv⟩ := exists_of_mem_mapM hbeepers e he
    exact beepersOf_sane hv
  · exact bagOf_sane hbag e he

end Values

/-! ### Cells too far away -/

/-- Some entries do not make a world because of a cell off the grid, the robot's or one with beepers,
and the cell is so far away that it cannot be told. -/
def TooFar (bag : Option Int) (entries : List Entry) : Prop :=
  ∃ x y, (Flaw bag entries (.robotOutside x y) ∨ Flaw bag entries (.beeperOutside x y)) ∧
    ¬ (Text.isWritable x = true ∧ Text.isWritable y = true)

variable {bag : Option Int} {entries : List Entry}

/-- What is wrong with some entries is told, unless it is a cell too far away. -/
theorem untold_iff_tooFar (hsane : ∀ e ∈ entries, e.Sane) : Untold bag entries ↔ TooFar bag entries := by
  constructor
  · rintro ⟨e, he, hnot⟩
    have hunfit : Unfit bag entries := by
      by_contra hfit
      obtain ⟨d, hd, -⟩ := Draft.finish_of_fit hsane hfit
      rw [hd] at he
      cases he
    obtain ⟨cause, hflaw⟩ := hunfit.exists_flaw
    rw [Draft.finish_of_flaw hsane hflaw] at he
    cases he
    -- a missing size and a negative bag are told without a number
    cases hflaw with
    | noSize => cases hnot
    | robot hsize hout =>
      exact ⟨_, _, .inl (.robot hsize hout), by
        simpa [FormatError.Cause.isWritable, FormatError.Cause.numbers] using hnot⟩
    | beepers hsize hrobot hfirst =>
      exact ⟨_, _, .inr (.beepers hsize hrobot hfirst), by
        simpa [FormatError.Cause.isWritable, FormatError.Cause.numbers] using hnot⟩
    | bag => cases hnot
  · rintro ⟨x, y, hflaw | hflaw, hnot⟩
    · exact ⟨_, Draft.finish_of_flaw hsane hflaw, by
        simpa [FormatError.Cause.isWritable, FormatError.Cause.numbers] using hnot⟩
    · exact ⟨_, Draft.finish_of_flaw hsane hflaw, by
        simpa [FormatError.Cause.isWritable, FormatError.Cause.numbers] using hnot⟩

/-! ### What comes of values -/

theorem not_contained_broken {b : Breakdown} : ¬ Contained (.error (.broken b)) := by
  rintro (⟨d, w, h, -⟩ | ⟨e, h⟩)
  · cases h
  · cases h

/-- A reading comes to a world or to a format error, unless it breaks off. -/
theorem contained_iff_not_broken {r : Except LayoutError Description}
    (hworld : ∀ d, r = .ok d → ∃ w, World.ofDescription d = .ok w) :
    Contained r ↔ ∀ b, r ≠ .error (.broken b) := by
  constructor
  · rintro h b rfl
    exact not_contained_broken h
  · intro h
    cases r with
    | ok d =>
      obtain ⟨w, hw⟩ := hworld d rfl
      exact .inl ⟨d, w, rfl, (World.ofDescription_eq_ok.1 hw).1, hw⟩
    | error e =>
      cases e with
      | format e => exact .inr ⟨e, rfl⟩
      | broken b => exact absurd rfl (h b)

/-- Whatever value a file has and whatever bag holds for want of any, the value makes a description of
a world or it is told what is wrong with it, except where an infinite number is met or what is wrong is a
cell too far away to be told. -/
theorem Values.read_contained_iff (bag : Option Int) (v : Value) :
    Contained (Values.read bag v) ↔ ∀ fields, v = .map fields →
      ¬ Values.MeetsInfinity fields ∧
        ∀ entries, Values.readEntries fields = .ok entries → ¬ TooFar bag entries := by
  rw [contained_iff_not_broken fun d => Values.read_world]
  simp only [Ne, Values.read_broken_iff]
  constructor
  · rintro h fields rfl
    refine ⟨fun hinf => h .tooGreat ⟨fields, rfl, .inl ⟨rfl, hinf⟩⟩, fun entries hentries hfar => ?_⟩
    have hsane := Values.readEntries_sane hentries
    exact h .badNumber ⟨fields, rfl, .inr ⟨entries, hentries, rfl, (untold_iff_tooFar hsane).2 hfar⟩⟩
  · rintro h b ⟨fields, rfl, ⟨-, hinf⟩ | ⟨entries, hentries, -, huntold⟩⟩
    · exact (h fields rfl).1 hinf
    · have hsane := Values.readEntries_sane hentries
      exact (h fields rfl).2 entries hentries ((untold_iff_tooFar hsane).1 huntold)

/-- A mapping that tells of an infinitely wide world. -/
def endlessFields : List (Value × Value) :=
  [(.text "dimension", .list [.float (Double.toFloat (.infinite false)), .int 1])]

/-- A text of such a mapping. -/
def endlessText : String :=
  "dimension: [.inf, 1]\n"

open scoped Yaml.Plain

/-- An infinitely wide world is not told to be wrong. -/
theorem Values.read_infinite :
    Values.read none (.map endlessFields) = .error (.broken .tooGreat) ∧
      (Yaml.Reader.ofText endlessText).isOk = true ∧
      Values.readText none endlessText = .error (.broken .tooGreat) ∧
      ¬ Contained (Values.read none (.map endlessFields)) ∧
      ¬ Contained (Values.readText none endlessText) := by
  have hread : Values.read none (.map endlessFields) = .error (.broken .tooGreat) := by
    decide +kernel
  have htext : Values.readText none endlessText = .error (.broken .tooGreat) := by decide +kernel
  refine ⟨hread, by decide +kernel, htext, ?_, ?_⟩
  · rw [hread]
    exact not_contained_broken
  · rw [htext]
    exact not_contained_broken

end GridRobot

import GridRobot.Proofs.Reading
import GridRobot.Proofs.World.Invariant
import GridRobot.World.Library

/-!
# Worlds of a library

Whatever a world file says is checked at its end, whether it is made of lines or of values and
whether it stands for itself or for a blank world. So a description that was loaded always describes
a world.

## Main statements

* `describe_world`: entries that give a description give a world.
* `Library.load_world`: so does every name that a description is found for.
-/

namespace GridRobot

variable {defaultBag : Option Int} {text : String} {d : Description}

theorem World.ofDescription_of_checked {d' : Description} (h : d'.checked = .ok d) :
    ∃ w, World.ofDescription d = .ok w := by
  obtain ⟨hnone, rfl⟩ := Description.checked_eq_ok.1 h
  exact ⟨_, World.ofDescription_eq_ok.2 ⟨hnone, rfl⟩⟩

/-- Entries that give a description give a world. -/
theorem describe_world {entries : List Entry} (h : describe defaultBag entries = .ok d) :
    ∃ w, World.ofDescription d = .ok w := by
  rw [describe, mapError_eq_ok] at h
  unfold Draft.finish at h
  split at h
  · cases h
  · exact World.ofDescription_of_checked h

theorem Lines.read_world (h : Lines.read defaultBag text = .ok d) :
    ∃ w, World.ofDescription d = .ok w := by
  obtain ⟨entries, _, hdescribe⟩ := bind_eq_ok.1 h
  exact describe_world hdescribe

theorem Values.read_world {v : Value} (h : Values.read defaultBag v = .ok d) :
    ∃ w, World.ofDescription d = .ok w := by
  unfold Values.read at h
  split at h
  · obtain ⟨entries, _, hdescribe⟩ := bind_eq_ok.1 h
    exact describe_world hdescribe
  · cases h

theorem readWorldAs_world [Yaml.Reader] {format : WorldFormat}
    (h : readWorldAs format defaultBag text = .ok d) :
    ∃ w, World.ofDescription d = .ok w := by
  cases format with
  | lines => exact Lines.read_world h
  | values =>
    simp only [readWorldAs, Values.readText] at h
    split at h
    · cases h
    · cases h
    · exact Values.read_world h

namespace Library

variable {l : Library} {files : Files} {name : LooseText}

theorem noted_eq_ok {d' : Description} :
    noted d = .ok d' ↔ Text.isWritable d.width ∧ Text.isWritable d.height ∧ d = d' := by
  unfold noted
  split <;> simp_all

/-- A description that is found under a name describes a world. -/
theorem load_world [Yaml.Reader] (h : l.load files name = .ok d) :
    ∃ w, World.ofDescription d = .ok w := by
  unfold load at h
  split at h
  · cases h
  · unfold loadFile at h
    split at h
    · cases h
    · cases h
    · split at h
      · cases h
      · obtain ⟨read, hread, hnoted⟩ := bind_eq_ok.1 h
        obtain ⟨-, -, rfl⟩ := noted_eq_ok.1 hnoted
        exact readWorldAs_world (mapError_eq_ok.1 hread)
  · split at h
    · exact Lines.read_world (mapError_eq_ok.1 h)
    · cases h

end Library

end GridRobot

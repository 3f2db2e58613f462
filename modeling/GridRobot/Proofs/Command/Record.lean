import GridRobot.Command.Performance
import GridRobot.Proofs.Workbench.Played

/-!
# What a record tells of a run

A record is made of what a workbench tells. While a run is made, it tells of the run as it stands: the
fault or the end to which it has come, and on its film a picture of each world on the way.

## Main definitions

* `Film.Shows` says that a film has the pictures of a run so far.
* `Record.Tells` says that a record tells of a run as it stands.

## Main statements

* `Record.Tells.step`: a step of the run is recorded.
* `Record.Tells.redrawn`: a picture in between changes nothing.
-/

namespace GridRobot

variable {limits : Limits} {r : Run} {w : World} {m n : Nat} {x : StepResult} {f : Film}
  {rec : Record} {p : Program}

/-- A film with a picture of every world of a run so far: each picture is on a cleared screen, that
of the world as it is comes last, and the film is broken exactly if one of the worlds cannot be
drawn. -/
structure Film.Shows (limits : Limits) (r : Run) (w : World) (m : Nat) (f : Film) : Prop where
  clear : f.clear = true
  broken : f.broken = true ↔ ∃ j ≤ m, (r.after limits w j).2.snapshot.isDrawable = false
  last : ∃ before, f.shown =
    before ++ Film.clearScreen ++ (r.after limits w m).2.snapshot.picture ++ "\n"

namespace Film

theorem Shows.first : ((Film.blank true).addPicture w.snapshot).Shows limits r w 0 where
  clear := rfl
  broken := by simp [addPicture, blank, Run.after]
  last := ⟨"", rfl⟩

theorem Shows.step (h : f.Shows limits r w m) :
    (f.addPicture (r.after limits w (m + 1)).2.snapshot).Shows limits r w (m + 1) where
  clear := h.clear
  broken := by
    have hbroken := h.broken
    simp only [addPicture, Bool.or_eq_true, Bool.not_eq_true', hbroken]
    constructor
    · rintro (⟨j, hj, hnot⟩ | hnot)
      · exact ⟨j, Nat.le_succ_of_le hj, hnot⟩
      · exact ⟨m + 1, Nat.le_refl _, hnot⟩
    · rintro ⟨j, hj, hnot⟩
      rcases Nat.lt_or_eq_of_le hj with hlt | rfl
      · exact .inl ⟨j, Nat.le_of_lt_succ hlt, hnot⟩
      · exact .inr hnot
  last := ⟨f.shown, by simp only [addPicture, h.clear, if_true]⟩

theorem Shows.redrawn (h : f.Shows limits r w m) :
    (f.addPicture (r.after limits w m).2.snapshot).Shows limits r w m where
  clear := h.clear
  broken := by
    have hbroken := h.broken
    simp only [addPicture, Bool.or_eq_true, Bool.not_eq_true', hbroken]
    exact or_iff_left_of_imp fun hnot => ⟨m, Nat.le_refl _, hnot⟩
  last := ⟨f.shown, by simp only [addPicture, h.clear, if_true]⟩

end Film

/-- A record that tells of a run of a compiled program as it stands after `m` steps. -/
structure Record.Tells (limits : Limits) (r : Run) (w : World) (m : Nat) (rec : Record) : Prop where
  compiled : rec.compileError = none
  fault : rec.fault = (r.after limits w m).1.lastFault
  finished : rec.finished = if (r.after limits w m).1.status = .finished then
    some (r.after limits w m).1.steps else none
  film : ∀ f ∈ rec.film, f.Shows limits r w m

namespace Record

theorem note_film_isSome (rec : Record) (n : Notice) :
    (rec.note n).film.isSome = rec.film.isSome := by
  cases n <;> simp [note]

theorem foldl_film_isSome (ns : List Notice) (rec : Record) :
    (ns.foldl note rec).film.isSome = rec.film.isSome := by
  induction ns generalizing rec with
  | nil => rfl
  | cons n ns ih => rw [List.foldl_cons, ih, note_film_isSome]

/-- A record of the world with which a performance begins. -/
theorem Tells.first {name : LooseText} (hr : Run.start? p = some r) {film : Option Film}
    (hfilm : ∀ f ∈ film, f = .blank true) :
    ([.drawn w.snapshot, .loaded name].foldl note (.blank film)).Tells limits r w 0 := by
  obtain ⟨entry, -, rfl⟩ := Option.map_eq_some_iff.1 hr
  refine ⟨rfl, rfl, rfl, ?_⟩
  intro f hf
  obtain ⟨g, hg, rfl⟩ := Option.map_eq_some_iff.1 hf
  rw [hfilm g hg]
  exact .first

/-- A step of the run is recorded. -/
theorem Tells.step (h : rec.Tells limits r w m)
    (hrun : (r.after limits w m).1.status = .running)
    (hx : (r.stepAfter limits w m).result = .ok x) :
    ((Workbench.stepNews limits r w m x).foldl note rec).Tells limits r w (m + 1) := by
  have hfilm : ∀ f ∈ (rec.note (.drawn (r.after limits w (m + 1)).2.snapshot)).film,
      f.Shows limits r w (m + 1) := by
    intro f hf
    obtain ⟨g, hg, rfl⟩ := Option.map_eq_some_iff.1 hf
    exact (h.film g hg).step
  obtain ⟨result, stack', after, -, hout⟩ := Run.step_spec limits (r.after limits w m).2 hrun
  have hafter : (r.after limits w (m + 1)).1 = (r.after limits w m).1.finishStep stack' (.ok x) := by
    rw [Run.stepAfter, hout] at hx
    obtain rfl : result = .ok x := hx
    rw [Run.after_succ, Run.stepAfter, hout]
  -- the run has not ended yet, so no end is recorded so far
  have hfault := h.fault
  have hfinished := h.finished
  rw [if_neg (by simp [hrun])] at hfinished
  refine ⟨?_, ?_, ?_, ?_⟩
  · cases x <;> exact h.compiled
  · rw [hafter]
    cases x with
    | fault f => rfl
    | _ => exact hfault
  · rw [hafter]
    cases x with
    | continued => exact hfinished.trans (if_neg (by simp [Run.finishStep, hrun])).symm
    | finished =>
      have hsteps := congrArg (fun run : Run => some run.steps) hafter
      exact hsteps.trans (if_pos rfl).symm
    | fault f => exact hfinished.trans (if_neg (by simp [Run.finishStep])).symm
  · cases x <;> exact hfilm

/-- A picture of the world as it is changes nothing of what is told. -/
theorem Tells.redrawn (h : rec.Tells limits r w m) :
    (rec.note (.drawn (r.after limits w m).2.snapshot)).Tells limits r w m where
  compiled := h.compiled
  fault := h.fault
  finished := h.finished
  film := by
    intro f hf
    obtain ⟨g, hg, rfl⟩ := Option.map_eq_some_iff.1 hf
    exact (h.film g hg).redrawn

/-- After the end of a run one more step makes no difference. -/
theorem Tells.succ (h : rec.Tells limits r w m)
    (hsame : r.after limits w (m + 1) = r.after limits w m) : rec.Tells limits r w (m + 1) where
  compiled := h.compiled
  fault := by rw [hsame, h.fault]
  finished := by rw [hsame, h.finished]
  film := by
    intro f hf
    obtain ⟨hclear, hbroken, hlast⟩ := h.film f hf
    refine ⟨hclear, hbroken.trans ?_, by rwa [hsame]⟩
    constructor
    · rintro ⟨j, hj, hnot⟩
      exact ⟨j, Nat.le_succ_of_le hj, hnot⟩
    · rintro ⟨j, hj, hnot⟩
      rcases Nat.lt_or_eq_of_le hj with hlt | rfl
      · exact ⟨j, Nat.le_of_lt_succ hlt, hnot⟩
      · exact ⟨m, Nat.le_refl _, hsame ▸ hnot⟩

end Record

end GridRobot

import GridRobot.Proofs.Scheduler.Pace

/-!
# Runs that are stopped

A run may be stopped when it has made a number of actions, if it has not come to its end by then. A
linked run that has not ended makes one action in every step, so it is determined after how many
steps it is stopped.

## Main definitions

* `Run.StopsAt` says after how many steps a run has ended or is stopped.

## Main statements

* `Run.Linked.after_steps`: a run that has not ended has made an action in every step.
* `Run.after_performs`: a run has made of the world what its actions make of it.
* `Run.StopsAt.finished_iff`: a run that is not stopped before it has finished.
-/

namespace GridRobot

variable {limits : Limits} {p : Program} {w after : World} {r : Run} {m n most : Nat}

/-- A step that does not go on leaves the world as it was. -/
theorem Advance.world_eq {turns : Nat} {stack stack' : List Frame}
    {result : Except MissingProcedure StepResult}
    (h : Advance limits p w turns stack result stack' after) (hstops : result ≠ .ok .continued) :
    after = w := by
  induction h with
  | turn _ _ ih => exact ih hstops
  | halt h =>
    cases h with
    | acted _ _ => exact absurd rfl hstops
    | _ => rfl

namespace Run

theorem step_world_eq (hstops : (r.step limits w).result ≠ .ok .continued) :
    (r.step limits w).world = w := by
  by_cases hrun : r.status = .running
  · obtain ⟨result, stack', after, hadv, hout⟩ := step_spec limits w hrun
    rw [hout] at hstops ⊢
    exact hadv.world_eq hstops
  · rw [step_of_ended limits w hrun]

theorem goesOn_iff {s : Stepped} : goesOn s = true ↔ s.result = .ok .continued := by
  unfold goesOn
  split <;> simp_all

/-- A step makes one action, or none. -/
theorem step_performs (limits : Limits) (r : Run) (w : World) :
    ((r.step limits w).run.steps = r.steps + 1 ∧
        ∃ a, w.perform a = .ok (r.step limits w).world) ∨
      ((r.step limits w).run.steps = r.steps ∧ (r.step limits w).world = w) := by
  by_cases hrun : r.status = .running
  · have hsteps : (r.step limits w).run.steps =
        r.steps + if goesOn (r.step limits w) then 1 else 0 := step_steps hrun
    by_cases hgo : (r.step limits w).result = .ok .continued
    · rw [if_pos (goesOn_iff.2 hgo)] at hsteps
      exact .inl ⟨hsteps, step_continued hgo⟩
    · rw [if_neg (mt goesOn_iff.1 hgo), Nat.add_zero] at hsteps
      exact .inr ⟨hsteps, step_world_eq hgo⟩
  · rw [step_of_ended limits w hrun]
    exact .inr ⟨rfl, rfl⟩

/-- A run has made of the world what its actions make of it, and it has counted them. -/
theorem after_performs (limits : Limits) (r : Run) (w : World) (m : Nat) :
    ∃ actions : List Action, (r.after limits w m).1.steps = r.steps + actions.length ∧
      actions.foldlM World.perform w = .ok (r.after limits w m).2 := by
  induction m with
  | zero => exact ⟨[], rfl, rfl⟩
  | succ m ih =>
    obtain ⟨actions, hcount, hworld⟩ := ih
    rw [after_succ]
    rcases step_performs limits (r.after limits w m).1 (r.after limits w m).2 with
      ⟨hsteps, a, ha⟩ | ⟨hsteps, hsame⟩
    · refine ⟨actions ++ [a], ?_, ?_⟩
      · rw [List.length_append, List.length_singleton, ← Nat.add_assoc, ← hcount]
        exact hsteps
      · rw [List.foldlM_append, hworld]
        show [a].foldlM World.perform (r.after limits w m).2 = _
        rw [List.foldlM_cons, ha]
        rfl
    · exact ⟨actions, hsteps.trans hcount, hworld.trans (congrArg Except.ok hsame.symm)⟩

theorem after_steps_le (limits : Limits) (r : Run) (w : World) (m : Nat) :
    (r.after limits w m).1.steps ≤ r.steps + m := by
  induction m with
  | zero => exact Nat.le_refl _
  | succ m ih =>
    rw [after_succ]
    rcases step_performs limits (r.after limits w m).1 (r.after limits w m).2 with
      ⟨hsteps, -⟩ | ⟨hsteps, -⟩
    · exact Nat.le_trans (Nat.le_of_eq hsteps) (by omega)
    · exact Nat.le_trans (Nat.le_of_eq hsteps) (by omega)

/-- A run that has not ended after some steps had not ended after fewer. -/
theorem running_of_le (hmn : m ≤ n) (hrun : (r.after limits w n).1.status = .running) :
    (r.after limits w m).1.status = .running := by
  induction n with
  | zero =>
    obtain rfl := Nat.le_zero.1 hmn
    exact hrun
  | succ n ih =>
    rcases Nat.lt_or_eq_of_le hmn with hlt | rfl
    · refine ih (Nat.le_of_lt_succ hlt) ?_
      by_contra hended
      rw [after_succ_of_ended hended] at hrun
      exact hended hrun
    · exact hrun

/-- A linked run that has not ended has made an action in every step. -/
theorem Linked.after_steps (hr : r.Linked) (hrun : (r.after limits w m).1.status = .running) :
    (r.after limits w m).1.steps = r.steps + m := by
  induction m with
  | zero => rfl
  | succ m ih =>
    have hearlier := running_of_le (Nat.le_succ m) hrun
    have hsteps : (r.stepAfter limits w m).run.steps =
        (r.after limits w m).1.steps + if goesOn (r.stepAfter limits w m) then 1 else 0 :=
      step_steps hearlier
    obtain ⟨x, hx, -, -, hgoes⟩ := (hr.after limits w m).step_running hearlier limits
      (r.after limits w m).2
    rw [after_succ] at hrun ⊢
    obtain rfl := hgoes.1 hrun
    have hgoesOn : goesOn (r.stepAfter limits w m) = true := goesOn_iff.2 hx
    rw [if_pos hgoesOn, ih hearlier] at hsteps
    exact hsteps

/-- As long as a run has not ended, its trace has all its steps. -/
theorem Linked.trace_eq (hr : r.Linked) (hgoing : ∀ j < m, (r.after limits w j).1.status = .running) :
    r.trace limits w m = (List.range m).map (r.stepAfter limits w) := by
  induction m with
  | zero => rfl
  | succ m ih =>
    rw [hr.trace_succ (hgoing m (Nat.lt_succ_self m)),
      ih fun j hj => hgoing j (Nat.lt_succ_of_lt hj), List.range_succ, List.map_append]
    rfl

/-- The trace of a run that has ended is complete. -/
theorem trace_succ_of_ended (hrun : r.status = .running)
    (hended : (r.after limits w n).1.status ≠ .running) :
    r.trace limits w (n + 1) = r.trace limits w n := by
  induction n generalizing r w with
  | zero => exact absurd hrun hended
  | succ n ih =>
    have htrace (k : Nat) : r.trace limits w (k + 1) = r.step limits w ::
        if goesOn (r.step limits w) then
          (r.step limits w).run.trace limits (r.step limits w).world k
        else [] := rfl
    rw [htrace, htrace]
    by_cases hgo : goesOn (r.step limits w) = true
    · have hnext := (step_running_iff hrun).2 (.inl (goesOn_iff.1 hgo))
      rw [ih hnext hended]
    · rw [if_neg hgo, if_neg hgo]

/-- A run is stopped after `m` steps: it had not ended before, and then it has, unless it has made
the greatest number of actions. -/
structure StopsAt (limits : Limits) (r : Run) (w : World) (most m : Nat) : Prop where
  going : ∀ j < m, (r.after limits w j).1.status = .running
  le : m ≤ most
  ends : (r.after limits w m).1.status = .running → m = most

namespace StopsAt

/-- There is a number of steps after which a run is stopped. -/
theorem exists_of_most (limits : Limits) (r : Run) (w : World) (most : Nat) :
    ∃ m, r.StopsAt limits w most m := by
  induction most with
  | zero => exact ⟨0, fun j hj => absurd hj (Nat.not_lt_zero j), Nat.le_refl _, fun _ => rfl⟩
  | succ most ih =>
    obtain ⟨m, hgoing, hle, hends⟩ := ih
    by_cases hrun : (r.after limits w m).1.status = .running
    · obtain rfl := hends hrun
      refine ⟨m + 1, fun j hj => ?_, Nat.le_refl _, fun _ => rfl⟩
      exact running_of_le (Nat.le_of_lt_succ hj) hrun
    · exact ⟨m, hgoing, Nat.le_succ_of_le hle, fun h => absurd h hrun⟩

theorem unique (h : r.StopsAt limits w most m) (h' : r.StopsAt limits w most n) : m = n := by
  rcases Nat.lt_trichotomy m n with hlt | heq | hlt
  · have hmost := h.ends (h'.going m hlt)
    have hle := h'.le
    omega
  · exact heq
  · have hmost := h'.ends (h.going n hlt)
    have hle := h.le
    omega

/-- The run does not go on after that. -/
theorem after_eq (h : r.StopsAt limits w most m) : r.after limits w most = r.after limits w m := by
  by_cases hrun : (r.after limits w m).1.status = .running
  · rw [h.ends hrun]
  · have hstays (k : Nat) : r.after limits w (m + k) = r.after limits w m := by
      induction k with
      | zero => rfl
      | succ k ih =>
        have hended : (r.after limits w (m + k)).1.status ≠ .running := by rwa [ih]
        rw [← Nat.add_assoc, after_succ_of_ended hended, ih]
    rw [← Nat.add_sub_cancel' h.le, hstays]

/-- The trace of the run has the steps that are made. -/
theorem trace_eq (hr : r.Linked) (hrun : r.status = .running) (h : r.StopsAt limits w most m) :
    r.trace limits w most = (List.range m).map (r.stepAfter limits w) := by
  by_cases hgoes : (r.after limits w m).1.status = .running
  · rw [← h.ends hgoes, hr.trace_eq h.going]
  · have hstays (k : Nat) : r.trace limits w (m + k) = r.trace limits w m := by
      induction k with
      | zero => rfl
      | succ k ih =>
        have hended : (r.after limits w (m + k)).1.status ≠ .running :=
          fun hrunning => hgoes (running_of_le (Nat.le_add_right m k) hrunning)
        rw [← Nat.add_assoc, trace_succ_of_ended hrun hended, ih]
    rw [← Nat.add_sub_cancel' h.le, hstays, hr.trace_eq h.going]

/-- A linked run has finished when it is stopped exactly if it finishes after fewer actions than the
greatest number. -/
theorem finished_iff (hr : r.Linked) (hrun : r.status = .running) (hzero : r.steps = 0)
    (h : r.StopsAt limits w most m) : (r.after limits w m).1.status = .finished ↔
      ∃ k, (r.stepAfter limits w k).result = .ok .finished ∧ (r.after limits w k).1.steps < most := by
  have hsteps {k : Nat} (hgoing : (r.after limits w k).1.status = .running) :
      (r.after limits w k).1.steps = k := by
    rw [hr.after_steps hgoing, hzero, Nat.zero_add]
  constructor
  · intro hfinished
    cases m with
    | zero => cases hrun.symm.trans hfinished
    | succ k =>
      have hgoing := h.going k (Nat.lt_succ_self k)
      obtain ⟨result, stack', after, -, hout⟩ := step_spec limits (r.after limits w k).2 hgoing
      rw [after_succ, stepAfter, hout] at hfinished
      refine ⟨k, ?_, (hsteps hgoing).symm ▸ h.le⟩
      rw [stepAfter, hout]
      rcases result with missing | (_ | _ | f)
      · simp [finishStep, hgoing] at hfinished
      · simp [finishStep, hgoing] at hfinished
      · rfl
      · simp [finishStep] at hfinished
  · rintro ⟨k, hresult, hk⟩
    have hgoing : (r.after limits w k).1.status = .running := by
      by_contra hended
      rw [stepAfter, step_of_ended limits _ hended] at hresult
      cases hresult
    rw [hsteps hgoing] at hk
    obtain ⟨result, stack', after, -, hout⟩ := step_spec limits (r.after limits w k).2 hgoing
    have hafter : (r.after limits w (k + 1)).1.status = .finished := by
      rw [stepAfter, hout] at hresult
      obtain rfl : result = .ok .finished := hresult
      rw [after_succ, stepAfter, hout]
      rfl
    -- the run is not stopped before, and it does not go on after that
    have hm : m = k + 1 := by
      rcases Nat.lt_trichotomy m (k + 1) with hlt | heq | hlt
      · have hmost := h.ends (running_of_le (Nat.le_of_lt_succ hlt) hgoing)
        omega
      · exact heq
      · cases (h.going (k + 1) hlt).symm.trans hafter
    rw [hm]
    exact hafter

end StopsAt

end Run

end GridRobot

import GridRobot.Proofs.Run.Frames
import GridRobot.Proofs.Run.Turns

/-!
# When a step makes no progress

A step is given up when it takes too long to come to something: to an action, to a call that has no
room, or to the end of the program. What it passes through before that are free turns. The bound of a
step counts its passes, and the pass that meets an action or a full row of calls is one of them, the
end of the program is not.

So the bound on free turns is one less before an action than it is before the end, and a step that
has made exactly as many free turns as there may be is given up before its action.

## Main definitions

* `Comes` says what is come to from a stack, and after how many free turns.
* `passes` is how many passes of a step that takes.

## Main statements

* `Comes.step_eq`: within the bound a step comes to whatever there is to come to.
* `Run.closed_noProgress`: when a step of a run is given up, and when that is beyond the free turns.
* `Run.noProgress_atBound`: a step that is given up at its last free turn.
-/

namespace GridRobot

/-- From a stack so many free turns lead to an action, a call or the end of the program, and that
comes to a result, a stack and a world. -/
def Comes (limits : Limits) (p : Program) (w : World) (k : Nat) (stack : List Frame)
    (x : StepResult) (stack' : List Frame) (after : World) : Prop :=
  ∃ mid, Turns limits p w k stack mid ∧ Halt limits p w 1 mid (.ok x) stack' after

/-- Number of passes that a step needs for so many free turns and a result: meeting the end of the
program is none. -/
def passes (k : Nat) (x : StepResult) : Nat :=
  if x = .finished then k else k + 1

/-- The step is given up. -/
def Stepped.GivenUp (s : Stepped) : Prop :=
  ∃ line, s.result = .ok (.faulted .noProgress line)

variable {limits : Limits} {p : Program} {r : Run} {w after after' : World} {k m left : Nat}
  {stack stack' stack₁ : List Frame} {x y : StepResult}

/-- What is come to with a turn left is not that the turns are used up. -/
theorem Halt.progress (h : Halt limits p w (left + 1) stack (.ok x) stack' after)
    (line : Option Int) : x ≠ .faulted .noProgress line := by
  rintro rfl
  cases h with
  | failed _ ha =>
    obtain ⟨-, hkind⟩ | ⟨-, hkind⟩ | ⟨-, hkind⟩ := World.perform_eq_error ha
    · cases hkind
    · cases hkind
    · cases hkind

theorem Halt.finished_iff (h : Halt limits p w (left + 1) stack (.ok x) stack' after) :
    x = .finished ↔ stack = [] := by
  cases h with
  | finished => exact ⟨fun _ => rfl, fun _ => rfl⟩
  | acted => exact ⟨nofun, nofun⟩
  | failed => exact ⟨nofun, nofun⟩
  | overflow => exact ⟨nofun, nofun⟩

/-- There is one thing at most to come to, and one number of free turns before it. -/
theorem Comes.unique (h : Comes limits p w k stack x stack' after)
    (h' : Comes limits p w m stack y stack₁ after') : k = m ∧ (x = .finished ↔ y = .finished) := by
  obtain ⟨mid, hturns, hhalt⟩ := h
  obtain ⟨mid', hturns', hhalt'⟩ := h'
  obtain ⟨rfl, rfl⟩ := hturns.halt_unique hhalt hturns' hhalt'
  exact ⟨rfl, hhalt.finished_iff.trans hhalt'.finished_iff.symm⟩

/-- A step within its bound comes to whatever there is to come to. -/
theorem Comes.step_eq (h : Comes limits r.program w k r.stack x stack' after)
    (hrun : r.status = .running) (hbound : passes k x ≤ limits.freeTurns) :
    r.step limits w = ⟨.ok x, r.finishStep stack' (.ok x), after⟩ := by
  obtain ⟨mid, hturns, hhalt⟩ := h
  rw [Run.step_of_running limits w hrun]
  by_cases hx : x = .finished
  · rw [passes, if_pos hx] at hbound
    obtain ⟨m, hm⟩ := Nat.exists_eq_add_of_le hbound
    obtain rfl := hhalt.finished_iff.1 hx
    rw [hm, hturns.advance_eq]
    cases hhalt
    exact (Halt.finished m).advance_eq
  · rw [passes, if_neg hx] at hbound
    obtain ⟨m, hm⟩ := Nat.exists_eq_add_of_le hbound
    have hsplit : limits.freeTurns = k + (m + 1) := by omega
    rw [hsplit, hturns.advance_eq]
    exact (hhalt.of_succ m).advance_eq

namespace Run

/-- A step of a linked run is given up, or it comes to something within its bound. -/
theorem Linked.givenUp_or_comes (h : r.Linked) (hrun : r.status = .running) (limits : Limits)
    (w : World) :
    (r.step limits w).GivenUp ∨ ∃ k x stack' after, Comes limits r.program w k r.stack x stack' after ∧
      passes k x ≤ limits.freeTurns := by
  obtain ⟨k, left, mid, result, stack', after, hfree, hturns, hhalt, hout⟩ :=
    step_turns limits w hrun
  have hlinked : StackLinked r.program mid := hturns.preserves (Turn.stackLinked h.program) h.stack
  obtain ⟨⟨x, rfl⟩, -⟩ := hhalt.stackLinked hlinked
  cases left with
  | zero =>
    cases hhalt with
    | finished =>
      refine .inr ⟨k, .finished, [], w, ⟨[], hturns, .finished 1⟩, ?_⟩
      rw [passes, if_pos rfl]
      omega
    | stalled top below =>
      rw [hout]
      exact .inl ⟨_, rfl⟩
  | succ left =>
    refine .inr ⟨k, x, stack', after, ⟨mid, hturns, hhalt.of_succ 0⟩, ?_⟩
    unfold passes
    split
    · omega
    · omega

/-- A step is given up exactly if it needs more passes than it may make for whatever there is to come
to. -/
theorem Linked.givenUp_iff (h : r.Linked) (hrun : r.status = .running) :
    (r.step limits w).GivenUp ↔ ∀ k x stack' after,
      Comes limits r.program w k r.stack x stack' after → limits.freeTurns < passes k x := by
  constructor
  · rintro ⟨line, hstep⟩ k x stack' after hcomes
    apply Nat.lt_of_not_le
    intro hbound
    rw [hcomes.step_eq hrun hbound] at hstep
    obtain ⟨mid, -, hhalt⟩ := hcomes
    exact hhalt.progress line (Except.ok.inj hstep)
  · intro hall
    obtain hgiven | ⟨k, x, stack', after, hcomes, hbound⟩ := h.givenUp_or_comes hrun limits w
    · exact hgiven
    · exact absurd hbound (Nat.not_le_of_lt (hall k x stack' after hcomes))

/-- The free turns alone decide whether a step is given up, unless there are exactly as many of them
as there may be, and they do not lead to the end of the program. -/
theorem Linked.givenUp_turns_iff (h : r.Linked) (hrun : r.status = .running) :
    ((r.step limits w).GivenUp ↔ ∀ k x stack' after,
        Comes limits r.program w k r.stack x stack' after → limits.freeTurns < k) ↔
      ∀ x stack' after, Comes limits r.program w limits.freeTurns r.stack x stack' after →
        x = .finished := by
  rw [h.givenUp_iff hrun]
  constructor
  · intro hsame x stack' after hcomes
    by_contra hx
    -- all that is come to is come to after just these free turns, and so beyond the bound
    refine Nat.lt_irrefl _ (hsame.1 (fun k y stack₁ after' hcomes' => ?_) _ x stack' after hcomes)
    obtain ⟨rfl, hiff⟩ := hcomes.unique hcomes'
    rw [passes, if_neg (mt hiff.2 hx)]
    exact Nat.lt_succ_self _
  · intro hend
    constructor
    · intro hall k x stack' after hcomes
      have hpasses := hall k x stack' after hcomes
      by_cases hx : x = .finished
      · rwa [passes, if_pos hx] at hpasses
      · rw [passes, if_neg hx] at hpasses
        have hne : k ≠ limits.freeTurns := by
          rintro rfl
          exact hx (hend x stack' after hcomes)
        omega
    · intro hall k x stack' after hcomes
      have hturns := hall k x stack' after hcomes
      unfold passes
      split
      · exact hturns
      · exact Nat.lt_succ_of_lt hturns

theorem Linked.reaches {r' : Run} (h : r.Linked) (hreach : Reaches limits r r') : r'.Linked := by
  induction hreach with
  | refl => exact h
  | step w _ ih => exact (ih.step limits w).2

/-- A step of a run of a closed program is given up exactly if it needs more passes than it may make,
and otherwise it comes to the action, the full row of calls or the end that is before it. The pass
that meets an action or a full row of calls counts too; so the step is given up exactly if more free
turns than it may make come before, unless there are just as many of them and they lead to an action
or a full row of calls. -/
theorem closed_noProgress (hp : p.Closed) :
    ∃ r, Run.start? p = some r ∧ ∀ (earlier limits : Limits) (r' : Run), Reaches earlier r r' →
      r'.status = .running → ∀ w : World,
        ((r'.step limits w).GivenUp ↔ ∀ k x stack' after,
          Comes limits p w k r'.stack x stack' after → limits.freeTurns < passes k x) ∧
        (∀ k x stack' after, Comes limits p w k r'.stack x stack' after →
          passes k x ≤ limits.freeTurns →
            r'.step limits w = ⟨.ok x, r'.finishStep stack' (.ok x), after⟩) ∧
        (((r'.step limits w).GivenUp ↔ ∀ k x stack' after,
            Comes limits p w k r'.stack x stack' after → limits.freeTurns < k) ↔
          ∀ x stack' after, Comes limits p w limits.freeTurns r'.stack x stack' after →
            x = .finished) := by
  obtain ⟨r, hstart, hlinked, rfl, -⟩ := start?_linked hp.linked
  refine ⟨r, hstart, fun earlier limits r' hreach hrun w => ?_⟩
  have hlinked' := hlinked.reaches hreach
  rw [← hreach.program_eq]
  refine ⟨hlinked'.givenUp_iff hrun, ?_, hlinked'.givenUp_turns_iff hrun⟩
  intro k x stack' after hcomes hbound
  exact hcomes.step_eq hrun hbound

/-- A text with its actions in a branch. -/
def cornerText : String :=
  "if(frontIsClear())\x7bmove();turnLeft();\x7d"

/-- The program of that text. -/
def corner : Program :=
  ⟨[⟨"main", [.ifElse (.predicate ⟨.frontClear, true⟩ 1) [.action .move 1, .action .turnLeft 1] [] 1],
    1⟩], "main"⟩

/-- A world of two cells. -/
def corridor : World :=
  ⟨2, 1, .home, [], [], none⟩

/-- One free turn, the branch, leads to the first action. -/
theorem corner_comes {r : Run} (hstart : Run.start? corner = some r) (limits : Limits) :
    ∃ stack' after, Comes limits corner corridor 1 r.stack .continued stack' after := by
  obtain rfl := Option.some.inj hstart
  exact ⟨_, _, _, .head (.ifElse rfl) (.refl _), .acted rfl rfl⟩

theorem closed_noProgress_corner :
    corner.Closed ∧ ∃ r, Run.start? corner = some r ∧ r.status = .running ∧
      ∃ stack' after, Comes ⟨1, 2⟩ corner corridor 1 r.stack .continued stack' after ∧
        passes 1 .continued ≤ 2 ∧
        r.step ⟨1, 2⟩ corridor = ⟨.ok .continued, r.finishStep stack' (.ok .continued), after⟩ := by
  have hcompile : Source.compile 1 cornerText = .ok corner := by cbv
  have hclosed := Source.compile_closed hcompile
  obtain ⟨r, hstart, h⟩ := closed_noProgress hclosed
  obtain ⟨stack', after, hcomes⟩ := corner_comes hstart ⟨1, 2⟩
  have hrun : r.status = .running := by
    obtain rfl := Option.some.inj hstart
    rfl
  have hbound : passes 1 .continued ≤ 2 := by decide
  obtain ⟨-, hstep, -⟩ := h ⟨1, 2⟩ ⟨1, 2⟩ r .refl hrun corridor
  exact ⟨hclosed, r, hstart, hrun, stack', after, hcomes, hbound, hstep _ _ _ _ hcomes hbound⟩

/-- A step that may make one free turn is given up although there is only one before its action. -/
theorem noProgress_atBound :
    ∃ r, Run.start? corner = some r ∧ r.status = .running ∧
      (∃ stack' after, Comes ⟨1, 1⟩ corner corridor 1 r.stack .continued stack' after) ∧
      (r.step ⟨1, 1⟩ corridor).GivenUp ∧
      ¬ ((r.step ⟨1, 1⟩ corridor).GivenUp ↔ ∀ k x stack' after,
        Comes ⟨1, 1⟩ corner corridor k r.stack x stack' after → 1 < k) := by
  refine ⟨_, rfl, rfl, corner_comes rfl ⟨1, 1⟩, ⟨_, rfl⟩, fun hsame => ?_⟩
  obtain ⟨stack', after, hcomes⟩ := corner_comes rfl ⟨1, 1⟩
  exact absurd (hsame.1 ⟨_, rfl⟩ _ _ _ _ hcomes) (Nat.lt_irrefl 1)

end Run

end GridRobot

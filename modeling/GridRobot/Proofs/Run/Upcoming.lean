import GridRobot.Proofs.Run.Progress

/-!
# The line of the next statement

The line that a run shows is read off its stack: it is that of the first statement that is still to
come in any frame, from the top down. The statement that is taken up next is another one where a
loop comes round first. A loop whose body is through has nothing left in its frame, so it is passed
over, and what is shown is the line of what comes after the loop.

This is the only case. Between two steps no loop that comes round has an empty body; so where no
statement is taken up any more, no line is shown. Within a step, where one may be given up, a loop
may go round an empty body.

## Main definitions

* `Fetches` says which statement is taken up next, and after how many ends of bodies.
* `ComesRound` says which loop begins its body once more before that.
* `Foretells` says when a line is that of the next statement.

## Main statements

* `Fetches.nextLine_iff`, `nextLine_eq_none_iff`: when the line that is shown is the right one.
* `Run.Filled.reaches`: between two steps only the body of a procedure may be empty.
* `Run.compiled_currentLine`: the line of a run, and that of a step that is given up.
* `Run.currentLine_atLoopEnd`: a run that shows the line after its loop.
-/

namespace GridRobot

/-- The statement is the next that is taken up from a stack, after so many ends of bodies. -/
inductive Fetches (limits : Limits) (p : Program) (w : World) :
    Nat → List Frame → Statement → Prop where
  | next {top : Frame} {below : List Frame} {s : Statement} {rest : List Statement}
      (hrest : top.rest = s :: rest) : Fetches limits p w 0 (top :: below) s
  | close {k : Nat} {top : Frame} {below stack : List Frame} {s : Statement}
      (hrest : top.rest = []) (hturn : Turn limits p w (top :: below) stack)
      (h : Fetches limits p w k stack s) : Fetches limits p w (k + 1) (top :: below) s

/-- The frame is the first on a stack that begins its body once more, and all above it are left; the
other frames are those below it. -/
inductive ComesRound (w : World) : List Frame → Frame → List Frame → Prop where
  | here {f next : Frame} {below : List Frame} (hrest : f.rest = [])
      (hend : f.atEnd w = some next) : ComesRound w (f :: below) f below
  | leave {top f : Frame} {stack below : List Frame} (hrest : top.rest = [])
      (hend : top.atEnd w = none) (h : ComesRound w stack f below) :
      ComesRound w (top :: stack) f below

variable {limits : Limits} {p : Program} {entry : Procedure} {w : World} {k m : Nat}
  {stack below : List Frame} {f top : Frame} {s : Statement} {rest : List Statement}

theorem nextLine_of_nil (h : f.rest = []) (below : List Frame) :
    nextLine (f :: below) = nextLine below := by
  simp [nextLine, h]

theorem nextLine_of_cons (h : f.rest = s :: rest) (below : List Frame) :
    nextLine (f :: below) = some s.line := by
  simp [nextLine, h]

/-! ### What is shown, and what comes next -/

/-- A loop that comes round is passed over. -/
theorem ComesRound.nextLine_eq (h : ComesRound w stack f below) :
    nextLine stack = nextLine below := by
  induction h with
  | here hrest _ => exact nextLine_of_nil hrest _
  | leave hrest _ _ ih => rw [nextLine_of_nil hrest, ih]

/-- Without a loop that comes round, the line of the next statement is shown. -/
theorem Fetches.comesRound_or (h : Fetches limits p w k stack s) :
    (∃ f below, ComesRound w stack f below) ∨ nextLine stack = some s.line := by
  induction h with
  | next hrest => exact .inr (nextLine_of_cons hrest _)
  | close hrest hturn _ ih =>
    cases hturn with
    | again _ hend => exact .inl ⟨_, _, .here hrest hend⟩
    | leave _ hend =>
      rw [nextLine_of_nil hrest]
      obtain ⟨f, below, hround⟩ | hline := ih
      · exact .inl ⟨f, below, .leave hrest hend hround⟩
      · exact .inr hline
    | _ hrest' => simp [hrest] at hrest'

/-- Where nothing is taken up any more, a loop comes round or no line is shown. -/
theorem comesRound_or_of_not_fetches (h : ∀ k s, ¬ Fetches limits p w k stack s) :
    (∃ f below, ComesRound w stack f below) ∨ nextLine stack = none := by
  induction stack with
  | nil => exact .inr rfl
  | cons top below ih =>
    cases hrest : top.rest with
    | cons s rest => exact absurd (.next hrest) (h 0 s)
    | nil =>
      cases hend : top.atEnd w with
      | some next => exact .inl ⟨top, below, .here hrest hend⟩
      | none =>
        rw [nextLine_of_nil hrest]
        obtain ⟨f, later, hround⟩ | hline :=
          ih fun k s hs => h (k + 1) s (.close hrest (.leave hrest hend) hs)
        · exact .inl ⟨f, later, .leave hrest hend hround⟩
        · exact .inr hline

/-- The line of the next statement is shown unless a loop comes round before it and the line after
the loop is another one. -/
theorem Fetches.nextLine_iff (h : Fetches limits p w k stack s) :
    nextLine stack = some s.line ↔
      ∀ f below, ComesRound w stack f below → nextLine below = some s.line := by
  constructor
  · intro hline f below hround
    rw [← hround.nextLine_eq, hline]
  · intro hall
    obtain ⟨f, below, hround⟩ | hline := h.comesRound_or
    · rw [hround.nextLine_eq, hall f below hround]
    · exact hline

/-- Where nothing is taken up any more, no line is shown unless a loop comes round for ever and
something stands after it. -/
theorem nextLine_eq_none_iff (h : ∀ k s, ¬ Fetches limits p w k stack s) :
    nextLine stack = none ↔ ∀ f below, ComesRound w stack f below → nextLine below = none := by
  constructor
  · intro hline f below hround
    rw [← hround.nextLine_eq, hline]
  · intro hall
    obtain ⟨f, below, hround⟩ | hline := comesRound_or_of_not_fetches h
    · rw [hround.nextLine_eq, hall f below hround]
    · exact hline

/-- When a line is that of the statement that comes next on a stack, and when it is rightly missing:
the line after a loop that comes round must be the same. -/
structure Foretells (limits : Limits) (p : Program) (w : World) (stack : List Frame)
    (line : Option Int) : Prop where
  fetched : ∀ k s, Fetches limits p w k stack s →
    (line = some s.line ↔ ∀ f below, ComesRound w stack f below → nextLine below = some s.line)
  unfetched : (∀ k s, ¬ Fetches limits p w k stack s) →
    (line = none ↔ ∀ f below, ComesRound w stack f below → nextLine below = none)

theorem foretells_nextLine (limits : Limits) (p : Program) (w : World) (stack : List Frame) :
    Foretells limits p w stack (nextLine stack) where
  fetched _ _ h := h.nextLine_iff
  unfetched h := nextLine_eq_none_iff h

/-- The bodies that are closed before a statement is taken up are so many turns, which a step may
not have. -/
theorem Fetches.turns (h : Fetches limits p w k stack s) (hm : m ≤ k) :
    ∃ top below, Turns limits p w m stack (top :: below) := by
  induction h generalizing m with
  | next _ =>
    obtain rfl := Nat.le_zero.1 hm
    exact ⟨_, _, .refl _⟩
  | close _ hturn _ ih =>
    cases m with
    | zero => exact ⟨_, _, .refl _⟩
    | succ m =>
      obtain ⟨top, below, hturns⟩ := ih (Nat.le_of_succ_le_succ hm)
      exact ⟨top, below, .head hturn hturns⟩

/-- After the bodies that are closed, the statement is the next one of the frame on top. -/
theorem Fetches.stands (h : Fetches limits p w k stack s) :
    ∃ top below rest, Turns limits p w k stack (top :: below) ∧ top.rest = s :: rest := by
  induction h with
  | next hrest => exact ⟨_, _, _, .refl _, hrest⟩
  | close _ hturn _ ih =>
    obtain ⟨top, below, rest, hturns, hrest⟩ := ih
    exact ⟨top, below, rest, .head hturn hturns, hrest⟩

/-- A loop that comes round with something in its body takes that up. -/
theorem ComesRound.fetches (h : ComesRound w stack f below) (hbody : f.body ≠ []) :
    ∃ k s, Fetches limits p w k stack s := by
  induction h with
  | here hrest hend =>
    obtain ⟨s, rest, hcons⟩ := List.exists_cons_of_ne_nil hbody
    have hnext := (Frame.atEnd_body hend).2.trans hcons
    exact ⟨1, s, .close hrest (.again hrest hend) (.next hnext)⟩
  | leave hrest hend _ ih =>
    obtain ⟨k, s, hs⟩ := ih hbody
    exact ⟨k + 1, s, .close hrest (.leave hrest hend) hs⟩

theorem ComesRound.mem (h : ComesRound w stack f below) :
    f ∈ stack ∧ ∃ next, f.atEnd w = some next := by
  induction h with
  | here _ hend => exact ⟨List.mem_cons_self, _, hend⟩
  | leave _ _ _ ih => exact ⟨List.mem_cons_of_mem _ ih.1, ih.2⟩

/-! ### Bodies between two steps -/

/-- In a frame below another one a statement was taken up. -/
theorem Stacked.body_ne_nil (h : Stacked p entry (top :: below)) : ∀ f ∈ below, f.body ≠ [] := by
  generalize hstack : top :: below = stack at h
  induction h generalizing top below with
  | nil => cases hstack
  | entry =>
    cases hstack
    exact nofun
  | @above f g below _ hopen _ ih =>
    cases hstack
    rintro x hx
    rcases List.mem_cons.1 hx with rfl | hbelow
    · obtain ⟨s, hs, -⟩ := hopen
      exact List.ne_nil_of_mem (Frame.mem_body_of_latest? hs)
    · exact ih rfl x hbelow

namespace Run

/-- Only the body of a procedure may be empty. -/
def Filled (r : Run) : Prop :=
  ∀ f ∈ r.stack, f.kind = .procedure ∨ f.body ≠ []

variable {r r' : Run}

/-- A step that leaves a run going on leaves it with something in all its bodies. -/
theorem Ordered.filled_step (h : r.Ordered entry limits) (hrun : r.status = .running)
    (hnext : (r.step limits w).run.status = .running) : (r.step limits w).run.Filled := by
  obtain ⟨k, left, mid, result, stack', after, -, hturns, hhalt, hout⟩ := step_turns limits w hrun
  have hmid : Bounded limits r.program entry mid := hturns.preserves Turn.bounded h.bounded
  rw [hout] at hnext ⊢
  intro f hf
  rw [finishStep_stack] at hf
  cases hhalt with
  | @acted left top below a line rest after hrest ha =>
    right
    rcases List.mem_cons.1 hf with rfl | hbelow
    · have hbody : Statement.action a line ∈ top.body :=
        hmid.stacked.mem_body List.mem_cons_self hrest
      exact List.ne_nil_of_mem hbody
    · exact hmid.stacked.body_ne_nil f hbelow
  | missing hrest hroom hq =>
    have hlinked : StackLinked r.program (_ :: _) :=
      hturns.preserves (Turn.stackLinked h.linked.program) h.linked.stack
    have hsome := (hlinked.topRest hrest).call
    simp [hq] at hsome
  | _ => simp [finishStep, StepResult.faulted] at hnext

theorem Filled.reaches (h : r.Ordered entry limits) (hfilled : r.Filled)
    (hreach : Reaches limits r r') (hrun : r'.status = .running) : r'.Filled := by
  induction hreach with
  | refl => exact hfilled
  | @step r' w hreach ih =>
    by_cases hbefore : r'.status = .running
    · exact (h.reaches hreach).filled_step hbefore hrun
    · rw [step_of_ended limits w hbefore] at hrun
      exact absurd hrun hbefore

/-- Between two steps no loop goes round an empty body. -/
theorem Filled.currentLine_eq_none (h : r.Filled)
    (hnone : ∀ k s, ¬ Fetches limits p w k r.stack s) : r.currentLine = none := by
  obtain ⟨f, below, hround⟩ | hline := comesRound_or_of_not_fetches hnone
  · obtain ⟨hf, next, hend⟩ := hround.mem
    obtain hkind | hbody := h f hf
    · simp [Frame.atEnd, hkind] at hend
    · obtain ⟨k, s, hs⟩ := hround.fetches hbody
      exact absurd hs (hnone k s)
  · exact hline

/-- With a turn more than there are bodies to close, a step goes on with the statement. -/
theorem step_of_fetches (hrun : r.status = .running) (h : Fetches limits r.program w k r.stack s)
    {left : Nat} (hfree : limits.freeTurns = k + (left + 1)) :
    ∃ top below rest, top.rest = s :: rest ∧
      r.step limits w = advance limits r w (left + 1) (top :: below) := by
  obtain ⟨top, below, rest, hturns, hrest⟩ := h.stands
  refine ⟨top, below, rest, hrest, ?_⟩
  rw [step_of_running limits w hrun, hfree, hturns.advance_eq]

/-- A step is given up when there are more bodies to close than it may make turns. -/
theorem givenUp_of_fetches (hrun : r.status = .running)
    (h : Fetches limits r.program w k r.stack s) (hfree : limits.freeTurns ≤ k) :
    (r.step limits w).GivenUp := by
  obtain ⟨top, below, hturns⟩ := h.turns hfree
  have hstep := hturns.advance_eq 0
  rw [Nat.add_zero, (Halt.stalled top below).advance_eq, ← step_of_running limits w hrun] at hstep
  exact ⟨_, by rw [hstep]⟩

/-- The line of a step that is given up is the one that is shown where it has come to. -/
theorem exists_of_noProgress (hrun : r.status = .running) {line : Option Int}
    (h : (r.step limits w).result = .ok (.faulted .noProgress line)) :
    ∃ stack, Turns limits r.program w limits.freeTurns r.stack stack ∧ line = nextLine stack := by
  obtain ⟨k, left, mid, result, stack', after, hfree, hturns, hhalt, hout⟩ :=
    step_turns limits w hrun
  rw [hout] at h
  obtain rfl : result = .ok (.faulted .noProgress line) := h
  cases left with
  | zero =>
    rw [Nat.add_zero] at hfree
    subst hfree
    cases hhalt with
    | stalled top below => exact ⟨_, hturns, rfl⟩
  | succ left => exact absurd rfl (hhalt.progress line)

theorem start?_filled (hstart : Run.start? p = some r) : r.Filled := by
  obtain ⟨entry, -, rfl⟩ := Option.map_eq_some_iff.1 hstart
  rintro f hf
  rw [List.mem_singleton.1 hf]
  exact .inl rfl

/-- Between two steps of a run of a compiled program, the line of the next statement is shown exactly
if no loop comes round before it after which another line is shown. With this statement the next step
goes on, unless it is given up before it has closed so many bodies, which makes no difference. No line
is shown where no statement is taken up any more. The line of a step that is given up is right in the
same cases, and may also be the line after a loop that goes round an empty body for ever. -/
theorem compiled_currentLine {limit : Int} {source : String}
    (hcompile : Source.compile limit source = .ok p) :
    ∃ r, Run.start? p = some r ∧ ∀ earlier limits : Limits, 1 ≤ earlier.callDepth → ∀ r',
      Reaches earlier r r' → r'.status = .running → ∀ w : World,
        (∀ k s, Fetches limits p w k r'.stack s →
          (r'.currentLine = some s.line ↔
            ∀ f below, ComesRound w r'.stack f below → nextLine below = some s.line) ∧
          (∀ left, limits.freeTurns = k + (left + 1) → ∃ top below rest, top.rest = s :: rest ∧
            r'.step limits w = advance limits r' w (left + 1) (top :: below)) ∧
          (limits.freeTurns ≤ k → (r'.step limits w).GivenUp)) ∧
        ((∀ k s, ¬ Fetches limits p w k r'.stack s) → r'.currentLine = none) ∧
        ∀ line, (r'.step limits w).result = .ok (.faulted .noProgress line) →
          ∃ stack, Turns limits p w limits.freeTurns r'.stack stack ∧
            Foretells limits p w stack line := by
  obtain ⟨r, entry, hstart, -, rfl, hordered⟩ :=
    start?_ordered (Source.compile_closed hcompile).linked
  refine ⟨r, hstart, fun earlier limits hpos r' hreach hrun w => ?_⟩
  have hfilled := (start?_filled hstart).reaches (hordered earlier hpos) hreach hrun
  rw [← hreach.program_eq]
  refine ⟨fun k s hs => ⟨hs.nextLine_iff, fun left => step_of_fetches hrun hs,
    givenUp_of_fetches hrun hs⟩, hfilled.currentLine_eq_none, fun line hline => ?_⟩
  obtain ⟨stack, hturns, rfl⟩ := exists_of_noProgress hrun hline
  exact ⟨stack, hturns, foretells_nextLine limits r'.program w stack⟩

/-- A text of a loop on its first three lines, and an action on the fourth. -/
def lapText : String :=
  "while (frontIsClear()) \x7b\nmove();\n\x7d\nturnLeft();"

/-- The program of that text. -/
def lap : Program :=
  ⟨[⟨"main", [.whileLoop (.predicate ⟨.frontClear, true⟩ 1) [.action .move 2] 1,
    .action .turnLeft 4], 1⟩], "main"⟩

/-- A world of three cells in a row. -/
def track : World :=
  ⟨3, 1, .home, [], [], none⟩

/-- Once around the loop the robot may still move, and the next statement is again the move. -/
theorem lap_fetches {r : Run} (hstart : Run.start? lap = some r) (limits : Limits) :
    Fetches limits lap (r.after ⟨1, 9⟩ track 1).2 1 (r.after ⟨1, 9⟩ track 1).1.stack
      (.action .move 2) := by
  obtain rfl := Option.some.inj hstart
  exact .close rfl (.again rfl rfl) (.next rfl)

theorem compiled_currentLine_lap :
    Source.compile 1 lapText = .ok lap ∧ ∃ r, Run.start? lap = some r ∧
      Reaches ⟨1, 9⟩ r (r.after ⟨1, 9⟩ track 1).1 ∧
      (r.after ⟨1, 9⟩ track 1).1.status = .running ∧
      Fetches ⟨1, 1⟩ lap (r.after ⟨1, 9⟩ track 1).2 1 (r.after ⟨1, 9⟩ track 1).1.stack
        (.action .move 2) ∧
      ((r.after ⟨1, 9⟩ track 1).1.currentLine = some 2 ↔ ∀ f below,
        ComesRound (r.after ⟨1, 9⟩ track 1).2 (r.after ⟨1, 9⟩ track 1).1.stack f below →
          nextLine below = some 2) ∧
      ((r.after ⟨1, 9⟩ track 1).1.step ⟨1, 1⟩ (r.after ⟨1, 9⟩ track 1).2).result =
        .ok (.faulted .noProgress (some 2)) ∧
      ∃ stack, Turns ⟨1, 1⟩ lap (r.after ⟨1, 9⟩ track 1).2 1 (r.after ⟨1, 9⟩ track 1).1.stack stack ∧
        Foretells ⟨1, 1⟩ lap (r.after ⟨1, 9⟩ track 1).2 stack (some 2) := by
  have hcompile : Source.compile 1 lapText = .ok lap := by cbv
  obtain ⟨r, hstart, h⟩ := compiled_currentLine hcompile
  have hfetches := lap_fetches hstart ⟨1, 1⟩
  have hreach := reaches_after r ⟨1, 9⟩ track 1
  obtain rfl := Option.some.inj hstart
  obtain ⟨hline, -, hgiven⟩ := h ⟨1, 9⟩ ⟨1, 1⟩ (Nat.le_refl 1) _ hreach rfl _
  exact ⟨hcompile, _, rfl, hreach, rfl, hfetches, (hline _ _ hfetches).1, rfl, hgiven _ rfl⟩

/-- After a pass of a loop that goes on, the line after the loop is shown: the next statement is the
move on line 2, and the line that is shown is 4. -/
theorem currentLine_atLoopEnd :
    ∃ r, Run.start? lap = some r ∧ (r.after ⟨1, 9⟩ track 1).1.status = .running ∧
      Fetches ⟨1, 9⟩ lap (r.after ⟨1, 9⟩ track 1).2 1 (r.after ⟨1, 9⟩ track 1).1.stack
        (.action .move 2) ∧
      (r.after ⟨1, 9⟩ track 1).1.currentLine = some 4 :=
  ⟨_, rfl, rfl, lap_fetches rfl ⟨1, 9⟩, rfl⟩

end Run

end GridRobot

import GridRobot.Proofs.Run.Meaning
import GridRobot.Proofs.Run.Safety

/-!
# Runs follow the meaning of programs

The stack of a run stands for a course: what is left of each body, and after it what its loop still
has to do. A free turn uses up at most one pass of a loop and changes the course in no other way, and
an action takes the first world off it. So a run shows exactly what the program means.

## Main definitions

* `stackCourse` is the course that a stack stands for.
* `Stepped.observed` is what is seen of one step of a run.

## Main statements

* `Turn.stackCourse_begins`: a turn shows no more than the stack before it with one more pass.
* `Run.trace_eq_observations`: the trace of a run is what the program means, as far as it goes.
-/

namespace GridRobot

/-- What is seen of a step of a run: its result and the world after it. -/
def Stepped.observed (s : Stepped) : Except MissingProcedure Observation :=
  s.result.map fun result => ⟨result, s.world⟩

/-- Does a step end because the run makes no progress? -/
def Stepped.stalls (s : Stepped) : Bool :=
  match s.result with
  | .ok (.fault f) => f.kind = .noProgress
  | _ => false

/-- What a frame has to do after the end of its body. -/
def Frame.remainder (f : Frame) (call : String → Int → World → Course) (passes : Nat) :
    World → Course :=
  match f.kind with
  | .procedure => Course.done
  | .block => Course.done
  | .whileLoop c => Course.loop c (bodyCourse call passes f.body) passes
  | .doWhile c => Course.loop c (bodyCourse call passes f.body) passes
  | .repeatLoop n => Course.times (bodyCourse call passes f.body) (n - 1)

/-- The course that a stack stands for. While a frame is worked off, the activations that are live
are those at it and below. -/
def stackCourse (p : Program) (limit passes : Nat) : List Frame → World → Course
  | [] => Course.done
  | f :: below => fun w =>
    let call := p.callCourse limit passes (callDepth (f :: below))
    ((bodyCourse call passes f.rest w).andThen (f.remainder call passes)).andThen
      (stackCourse p limit passes below)

variable {limits : Limits} {p : Program} {w : World}

theorem Frame.remainder_begins (f : Frame) {call call' : String → Int → World → Course} {m n : Nat}
    (hcall : ∀ name line w, (call name line w).Begins (call' name line w)) (hmn : m ≤ n)
    (w : World) : (f.remainder call m w).Begins (f.remainder call' n w) := by
  obtain ⟨kind, body, rest⟩ := f
  have hbody := bodyCourse_begins hcall hmn body
  cases kind with
  | procedure => exact .refl _
  | block => exact .refl _
  | whileLoop c => exact .loop c hbody hmn w
  | doWhile c => exact .loop c hbody hmn w
  | repeatLoop k => exact .times hbody (k - 1) w

theorem stackCourse_begins (p : Program) (limit : Nat) {m n : Nat} (hmn : m ≤ n)
    (stack : List Frame) (w : World) :
    (stackCourse p limit m stack w).Begins (stackCourse p limit n stack w) := by
  induction stack generalizing w with
  | nil => exact .refl _
  | cons f below ih =>
    have hcall := p.callCourse_begins limit hmn (callDepth (f :: below))
    exact ((bodyCourse_begins hcall hmn f.rest w).andThen
      (f.remainder_begins hcall hmn)).andThen ih

/-! ### What a stack stands for, from the top -/

theorem stackCourse_over {top : Frame} {below : List Frame} {s : Statement}
    {rest : List Statement} (hrest : top.rest = s :: rest) (limit passes : Nat) :
    stackCourse p limit passes (top :: below) w =
      (s.course (p.callCourse limit passes (callDepth (top :: below))) passes w).andThen
        (stackCourse p limit passes (top.over rest below)) := by
  simp only [stackCourse, Frame.over, hrest, bodyCourse, Course.andThen_assoc]
  rfl

theorem stackCourse_through {top : Frame} {below : List Frame} (hrest : top.rest = [])
    (limit passes : Nat) :
    stackCourse p limit passes (top :: below) w =
      (top.remainder (p.callCourse limit passes (callDepth (top :: below))) passes w).andThen
        (stackCourse p limit passes below) := by
  simp only [stackCourse, hrest, bodyCourse, Course.done_andThen]

theorem stackCourse_enter (kind : FrameKind) (body : List Statement) (stack : List Frame)
    (limit passes : Nat) :
    stackCourse p limit passes (.enter kind body :: stack) w =
      (bodyCourse (p.callCourse limit passes (callDepth (.enter kind body :: stack))) passes
        body w).andThen fun v =>
          ((Frame.enter kind body).remainder
            (p.callCourse limit passes (callDepth (.enter kind body :: stack))) passes v).andThen
            (stackCourse p limit passes stack) := by
  simp only [stackCourse, Course.andThen_assoc]
  rfl

/-- The stack of a fresh run stands for the body of the entry, which is the first activation. -/
theorem stackCourse_start (body : List Statement) (limit passes : Nat) :
    stackCourse p limit passes [.enter .procedure body] w =
      bodyCourse (p.callCourse limit passes 1) passes body w := by
  rw [stackCourse_enter]
  exact Course.andThen_done _

/-- A branch may be left out when it is empty. -/
theorem stackCourse_branch (branch : List Statement) (stack : List Frame) (limit passes : Nat) :
    stackCourse p limit passes (Run.push (!branch.isEmpty) .block branch stack) w =
      (bodyCourse (p.callCourse limit passes (callDepth stack)) passes branch w).andThen
        (stackCourse p limit passes stack) := by
  cases branch with
  | nil => simp only [List.isEmpty_nil, Bool.not_true, Run.push_false, bodyCourse,
      Course.done_andThen]
  | cons s rest =>
    simp only [List.isEmpty_cons, Bool.not_false, Run.push_true]
    rw [stackCourse_enter, callDepth_enter (by simp), ← Course.andThen_assoc]
    exact congrArg (Course.andThen · _) (Course.andThen_done _)

/-- A counted loop may be left out when it has no pass to make, or an empty body. -/
theorem stackCourse_counted (n : Int) (body : List Statement) (stack : List Frame)
    (limit passes : Nat) :
    stackCourse p limit passes (Run.push (0 < n && !body.isEmpty) (.repeatLoop n.toNat) body stack)
        w =
      (Course.times (bodyCourse (p.callCourse limit passes (callDepth stack)) passes body) n.toNat
        w).andThen (stackCourse p limit passes stack) := by
  by_cases hn : 0 < n
  · cases body with
    | nil =>
      simp only [List.isEmpty_nil, Bool.not_true, Bool.and_false, Run.push_false, bodyCourse,
        Course.times_done, Course.done_andThen]
    | cons s rest =>
      obtain ⟨m, hm⟩ : ∃ m, n.toNat = m + 1 := ⟨n.toNat - 1, by omega⟩
      simp only [hn, decide_true, List.isEmpty_cons, Bool.not_false, Bool.and_true, Run.push_true]
      rw [stackCourse_enter, callDepth_enter (by simp), ← Course.andThen_assoc, hm]
      rfl
  · have hzero : n.toNat = 0 := by omega
    simp only [hn, decide_false, Bool.false_and, Run.push_false, hzero, Course.times,
      Course.done_andThen]

/-! ### Turns and halts -/

/-- A loop that begins its body once more shows no more than it did with one more pass. -/
theorem Frame.again_begins {top next : Frame} {below : List Frame} (hrest : top.rest = [])
    (hend : top.atEnd w = some next) (limit passes : Nat) :
    (stackCourse p limit passes (next :: below) w).Begins
      (stackCourse p limit (passes + 1) (top :: below) w) := by
  have hbelow := stackCourse_begins p limit (Nat.le_succ passes) below
  have hbody := bodyCourse_begins
    (p.callCourse_begins limit (Nat.le_succ passes) (callDepth (top :: below)))
    (Nat.le_succ passes) top.body
  rw [stackCourse_through hrest]
  obtain ⟨kind, body, rest⟩ := top
  cases kind with
  | procedure => simp [Frame.atEnd] at hend
  | block => simp [Frame.atEnd] at hend
  | whileLoop c =>
    obtain ⟨hc, rfl⟩ : c.eval w = true ∧ ⟨.whileLoop c, body, body⟩ = next := by
      simpa [Frame.atEnd] using hend
    exact (Course.Begins.pass hbody hc passes).andThen hbelow
  | doWhile c =>
    obtain ⟨hc, rfl⟩ : c.eval w = true ∧ ⟨.doWhile c, body, body⟩ = next := by
      simpa [Frame.atEnd] using hend
    exact (Course.Begins.pass hbody hc passes).andThen hbelow
  | repeatLoop n =>
    obtain ⟨hn, rfl⟩ : 1 < n ∧ ⟨.repeatLoop (n - 1), body, body⟩ = next := by
      simpa [Frame.atEnd] using hend
    obtain ⟨m, rfl⟩ : ∃ m, n = m + 2 := ⟨n - 2, by omega⟩
    exact ((hbody w).andThen fun v => .times hbody m v).andThen hbelow

/-- A frame that is left has nothing to do after the end of its body. -/
theorem Frame.remainder_of_leave {top : Frame} (hend : top.atEnd w = none)
    (call : String → Int → World → Course) (passes : Nat) :
    top.remainder call passes w = Course.done w := by
  obtain ⟨kind, body, rest⟩ := top
  cases kind with
  | procedure => rfl
  | block => rfl
  | whileLoop c => exact Course.loop_of_not (by simpa [Frame.atEnd] using hend) _ _
  | doWhile c => exact Course.loop_of_not (by simpa [Frame.atEnd] using hend) _ _
  | repeatLoop n =>
    have hn : n - 1 = 0 := by
      simp only [Frame.atEnd, ite_eq_right_iff, reduceCtorEq, imp_false] at hend
      omega
    simp only [Frame.remainder, hn, Course.times]

/-- A turn leaves a stack that shows no more than the one before it with one more pass. -/
theorem Turn.stackCourse_begins {a b : List Frame} (h : Turn limits p w a b) (passes : Nat) :
    (stackCourse p limits.callDepth passes b w).Begins
      (stackCourse p limits.callDepth (passes + 1) a w) := by
  have hmore (stack : List Frame) (v : World) :=
    GridRobot.stackCourse_begins p limits.callDepth (Nat.le_succ passes) stack v
  have hbody (live : Nat) := bodyCourse_begins
    (p.callCourse_begins limits.callDepth (Nat.le_succ passes) live) (Nat.le_succ passes)
  cases h with
  | again hrest hend => exact Frame.again_begins hrest hend _ _
  | leave hrest hend =>
    rw [stackCourse_through hrest, Frame.remainder_of_leave hend, Course.done_andThen]
    exact hmore _ w
  | @call top below name line rest q hrest hroom hq =>
    rw [stackCourse_over hrest, stackCourse_enter, Statement.course,
      Program.callCourse_room hroom hq]
    have hdepth : callDepth (.enter .procedure q.body :: top.over rest below) =
        callDepth (top :: below) + 1 := List.countP_cons_of_pos rfl
    rw [hdepth]
    refine (hbody _ q.body w).andThen fun v => ?_
    rw [show (Frame.enter .procedure q.body).remainder _ _ v = .done v from rfl,
      Course.done_andThen]
    exact hmore _ v
  | @ifElse top below c t e line rest hrest =>
    rw [stackCourse_over hrest, stackCourse_branch]
    refine Course.Begins.andThen ?_ (hmore _)
    simp only [Statement.course]
    split
    · exact hbody _ t w
    · exact hbody _ e w
  | @whileLoop top below c body line rest hrest =>
    rw [stackCourse_over hrest]
    cases hc : c.eval w with
    | false =>
      simp only [Statement.course, Course.loop_of_not hc, Course.done_andThen, Run.push_false]
      exact hmore _ w
    | true =>
      rw [Run.push_true, stackCourse_enter, callDepth_enter (by simp), callDepth_over,
        ← Course.andThen_assoc]
      exact (Course.Begins.pass (hbody _ body) hc passes).andThen (hmore _)
  | @doWhile top below c body line rest hrest =>
    rw [stackCourse_over hrest, Run.push_true, stackCourse_enter, callDepth_enter (by simp),
      callDepth_over, ← Course.andThen_assoc]
    refine Course.Begins.andThen ?_ (hmore _)
    exact (hbody _ body w).andThen (.loop c (hbody _ body) (Nat.le_succ passes))
  | @repeatLoop top below n body line rest hrest =>
    rw [stackCourse_over hrest, stackCourse_counted]
    exact (Course.Begins.times (hbody _ body) n.toNat w).andThen (hmore _)

namespace Course

/-- The course that shows a result and a world first, and goes on if the result says so. -/
def following (x : StepResult) (after : World) (later : Course) : Course :=
  match x with
  | .continued => ⟨after :: later.worlds, later.ending⟩
  | .finished => done after
  | .fault f => ⟨[], .fault f after⟩

theorem observations_following_continued (after : World) (later : Course) :
    (following .continued after later).observations =
      ⟨.continued, after⟩ :: later.observations := rfl

theorem observations_following_last {x : StepResult} (hx : x ≠ .continued) (after : World)
    (later : Course) : (following x after later).observations = [⟨x, after⟩] := by
  cases x with
  | continued => exact absurd rfl hx
  | finished => rfl
  | fault f => rfl

theorem settles_following_continued {later : Course} {n : Nat} (h : later.Settles n)
    (after : World) : (following .continued after later).Settles (n + 1) := by
  rcases h with hn | hne
  · exact .inl (Nat.succ_le_succ hn)
  · exact .inr hne

theorem settles_following_last {x : StepResult} (hx : x ≠ .continued) (after : World)
    (later : Course) (n : Nat) : (following x after later).Settles n := by
  right
  cases x with
  | continued => exact absurd rfl hx
  | finished => simp [following, done]
  | fault f => simp [following]

end Course

/-- A halt shows what comes first in the course of the stack, unless the run makes no progress. -/
theorem Halt.stackCourse {left : Nat} {stack stack' : List Frame} {x : StepResult} {after : World}
    (h : Halt limits p w left stack (.ok x) stack' after)
    (hx : ∀ line, x ≠ .faulted .noProgress line) (passes : Nat) :
    stackCourse p limits.callDepth passes stack w =
      .following x after (stackCourse p limits.callDepth passes stack' after) := by
  cases h with
  | finished => rfl
  | acted hrest ha =>
    rw [stackCourse_over hrest, Statement.course, Course.ofAction, ha]
    simp only [Course.andThen, Course.following, List.cons_append, List.nil_append]
  | failed hrest ha =>
    rw [stackCourse_over hrest, Statement.course, Course.ofAction, ha]
    exact Course.faulted_andThen _ _ _ _
  | overflow hrest hfull =>
    rw [stackCourse_over hrest, Statement.course, Program.callCourse_full p hfull]
    exact Course.faulted_andThen _ _ _ _
  | stalled top below => exact absurd rfl (hx _)

/-- A step shows what comes first in the course of the stack, and its free turns use up no more
passes than there are turns. -/
theorem Advance.stackCourse_begins {turns : Nat} {stack stack' : List Frame}
    {result : Except MissingProcedure StepResult} {x : StepResult} {after : World}
    (h : Advance limits p w turns stack result stack' after) (hok : result = .ok x)
    (hx : ∀ line, x ≠ .faulted .noProgress line) (passes : Nat) :
    (Course.following x after (stackCourse p limits.callDepth passes stack' after)).Begins
      (stackCourse p limits.callDepth (passes + turns) stack w) := by
  induction h with
  | halt h =>
    subst hok
    rw [← h.stackCourse hx]
    exact GridRobot.stackCourse_begins p _ (Nat.le_add_right _ _) _ w
  | turn h _ ih => exact (ih hok).trans (h.stackCourse_begins _)

namespace Run

/-- The trace of a linked run is the course of its stack, as far as it is settled. -/
theorem Linked.trace_observed {r : Run} (hr : r.Linked) (hrun : r.status = .running) (limits : Limits)
    (w : World) {n : Nat}
    (hprogress : ∀ s ∈ r.trace limits w n, s.stalls = false)
    {passes : Nat} (hpasses : n * limits.freeTurns ≤ passes) :
    (stackCourse r.program limits.callDepth passes r.stack w).Settles n ∧
      (r.trace limits w n).map Stepped.observed =
        ((stackCourse r.program limits.callDepth passes r.stack w).observations.take n).map
          Except.ok := by
  induction n generalizing r w passes with
  | zero => exact ⟨.inl (Nat.zero_le _), by simp [trace]⟩
  | succ n ih =>
    obtain ⟨result, stack', after, hadv, hout⟩ := step_spec limits w hrun
    obtain ⟨⟨x, rfl⟩, _⟩ := hadv.stackLinked hr.program hr.stack
    have hx (line : Option Int) : x ≠ .faulted .noProgress line := by
      rintro rfl
      have hfirst : r.step limits w ∈ r.trace limits w (n + 1) := by simp [trace]
      have hstalls := hprogress _ hfirst
      simp [Stepped.stalls, hout, StepResult.faulted] at hstalls
    -- the passes that the free turns of this step may use up are set aside
    rw [Nat.succ_mul] at hpasses
    obtain ⟨more, rfl⟩ : ∃ more, passes = more + limits.freeTurns :=
      ⟨passes - limits.freeTurns, by omega⟩
    have hbegins := hadv.stackCourse_begins rfl hx more
    by_cases hgo : x = .continued
    · subst hgo
      have htrace : r.trace limits w (n + 1) = r.step limits w ::
          (r.finishStep stack' (.ok .continued)).trace limits after n := by
        simp [trace, hout, goesOn]
      rw [htrace] at hprogress ⊢
      have hlinked := (hr.step limits w).2
      rw [hout] at hlinked
      obtain ⟨hset, hobs⟩ := ih hlinked (by simp [finishStep, hrun]) after
        (fun s hs => hprogress s (List.mem_cons_of_mem _ hs)) (by omega : n * _ ≤ more)
      rw [finishStep_program, finishStep_stack] at hset hobs
      have hsettles := Course.settles_following_continued hset after
      refine ⟨hbegins.settles hsettles, ?_⟩
      rw [hbegins.take_observations hsettles, Course.observations_following_continued,
        List.take_succ_cons, List.map_cons, List.map_cons, hobs, hout]
      rfl
    · have hsettles := Course.settles_following_last hgo after
        (stackCourse r.program limits.callDepth more stack' after) (n + 1)
      refine ⟨hbegins.settles hsettles, ?_⟩
      rw [hbegins.take_observations hsettles, Course.observations_following_last hgo]
      cases x with
      | continued => exact absurd rfl hgo
      | finished => simp [trace, hout, goesOn, Stepped.observed, Except.map]
      | fault f => simp [trace, hout, goesOn, Stepped.observed, Except.map]

/-- A run of a linked program shows exactly what the program means: as long as it makes progress,
the first `n` of its steps are the first `n` observations of the program's course, in which every
loop has passes enough for the free turns of these steps. -/
theorem trace_eq_observations {p : Program} (hp : p.Linked) (limits : Limits) (w : World) :
    ∃ r, Run.start? p = some r ∧ ∀ n,
      (∀ s ∈ r.trace limits w n, s.stalls = false) →
      ∀ passes, n * limits.freeTurns ≤ passes →
        (r.trace limits w n).map Stepped.observed =
          ((p.course limits.callDepth passes w).observations.take n).map Except.ok := by
  obtain ⟨r, hstart, hr, hprogram, hrun⟩ := start?_linked hp
  refine ⟨r, hstart, fun n hprogress passes hpasses => ?_⟩
  have h := (hr.trace_observed hrun limits w hprogress hpasses).2
  have hcourse : p.course limits.callDepth passes w =
      stackCourse r.program limits.callDepth passes r.stack w := by
    obtain ⟨entry, hentry, rfl⟩ := Option.map_eq_some_iff.1 hstart
    simp only [Program.course, hentry]
    exact (stackCourse_start entry.body limits.callDepth passes).symm
  rw [hcourse]
  exact h

/-- A program that takes two strides by calls, walks on to the wall and bumps into it. -/
def walk : Program :=
  ⟨[⟨"main", [.repeatLoop 2 [.call "stride" 2] 1,
      .whileLoop (.predicate ⟨.frontClear, true⟩ 3) [.action .move 3] 3, .action .move 4], 1⟩,
    ⟨"stride", [.action .move 5, .ifElse (.predicate ⟨.beepersPresent, true⟩ 6) [] [] 6], 5⟩],
    "main"⟩

theorem trace_eq_observations_walk :
    walk.Linked ∧ ∃ r, Run.start? walk = some r ∧
      (∀ s ∈ r.trace ⟨2, 6⟩ ⟨4, 1, .home, [], [], none⟩ 4, s.stalls = false) ∧
      (r.trace ⟨2, 6⟩ ⟨4, 1, .home, [], [], none⟩ 4).map Stepped.observed =
        ((walk.course 2 24 ⟨4, 1, .home, [], [], none⟩).observations.take 4).map Except.ok := by
  have hlinked : walk.Linked := by decide
  obtain ⟨r, hstart, h⟩ := trace_eq_observations hlinked ⟨2, 6⟩ ⟨4, 1, .home, [], [], none⟩
  have hprogress : ∀ s ∈ r.trace ⟨2, 6⟩ ⟨4, 1, .home, [], [], none⟩ 4, s.stalls = false := by
    obtain rfl := Option.some.inj hstart
    decide
  exact ⟨hlinked, r, hstart, hprogress, h 4 hprogress 24 (by decide)⟩

end Run

end GridRobot

import GridRobot.Proofs.Scheduler.Untouched
import GridRobot.Proofs.Workbench.Sound

/-!
# Requests that are turned down

A request to a workbench is turned down when the text is no program or when the desk refuses it. One
notice tells so, and the record of the text may be new. Everything else is as it was, with one
exception: a single step that has no world to act on takes the count of the steps back to zero, and
takes it back before it is known that there is no world.

## Main definitions

* `Event.Asks` says of an event that it is a request which may be turned down, and
  `Notice.Declines` of a notice that it turns one down.
* `Workbench.Spared` says that nothing is new but the record of the text and one notice.
* `Workbench.noted` is a workbench with another record of the text.

## Main statements

* `Workbench.play_declined`, `Workbench.singleStep_declined`: the requests that read the text.
* `Workbench.ticks_spared`: heartbeats go on as if nothing had been asked.
* `Workbench.spared_iff`: when a request that is turned down leaves everything as it was.
-/

namespace GridRobot

/-- The notice turns a request down: the text is no program, or the desk refuses. -/
inductive Notice.Declines : Notice → Prop where
  | text (e : Source.CompileError) : Declines (.compileError e)
  | desk (reason : Refusal) : Declines (.rejected reason)

/-- The requests that may be turned down. -/
inductive Event.Asks : Event → Prop where
  | play : Asks .play
  | singleStep : Asks .singleStep
  | resume : Asks .resume
  | manual (a : Action) : Asks (.manual a)

namespace Workbench

/-- Nothing is new but the record of the text and one notice. -/
def Spared (b b' : Workbench) (n : Notice) : Prop :=
  b' = { b with reads := b'.reads, lastCompile := b'.lastCompile, notices := b.notices ++ [n] }

variable {b : Workbench} {n : Notice}

theorem Spared.of_eq {b' : Workbench} {reads : Nat} {last : Option Source.CompileOutcome}
    (h : b' = { b with reads := reads, lastCompile := last, notices := b.notices ++ [n] }) :
    Spared b b' n := by
  subst h
  rfl

theorem Spared.steps_eq {b' : Workbench} (h : Spared b b' n) : b'.steps = b.steps := by
  rw [h]

/-! ### What turns a request down -/

theorem not_declines_of_result {r : StepResult} (hn : n ∈ b.heard (.result r)) :
    ¬ n.Declines := by
  simp only [heard, List.mem_append] at hn
  rcases hn with hn | hn
  · unfold picture at hn
    cases hmodel : b.model? with
    | none => simp [hmodel] at hn
    | some d =>
      obtain rfl : n = .drawn d := by simpa [hmodel] using hn
      rintro ⟨⟩
  · cases r with
    | continued => cases hn
    | finished =>
      obtain rfl := List.mem_singleton.1 hn
      rintro ⟨⟩
    | fault f =>
      obtain rfl := List.mem_singleton.1 hn
      rintro ⟨⟩

/-- Of the answers of a sound desk only a refusal turns a request down, and then the workbench has
heard of it and is as it was. -/
theorem accept_declined {q : Request Nat} {ns : List Notice} (hb : b.desk.Sound) (hq : q.Linked)
    (hnotices : (b.accept (b.desk.perform q)).2.notices = b.notices ++ ns) (hn : n ∈ ns)
    (hdeclines : n.Declines) :
    ∃ reason, (b.desk.perform q).answer = .refused reason ∧ n = .rejected reason ∧
      (b.accept (b.desk.perform q)).2 = b.tell n := by
  rw [accept_spec] at hnotices ⊢
  obtain rfl := List.append_cancel_left hnotices
  cases hanswer : (b.desk.perform q).answer with
  | result r =>
    rw [hanswer] at hn
    exact absurd hdeclines (not_declines_of_result hn)
  | refused reason =>
    have hdesk := hb.perform_refused hq hanswer
    rw [hanswer] at hn
    obtain rfl := List.mem_singleton.1 hn
    exact ⟨reason, rfl, rfl, by simp [answered, heard, Answer.actions, hanswer, hdesk, tell]⟩
  | done =>
    rw [hanswer] at hn
    cases hn
  | limits period limits =>
    rw [hanswer] at hn
    cases hn

theorem ask_declined {q : Request Nat} {ns : List Notice} (hb : b.desk.Sound) (hq : q.Linked)
    (hnotices : (b.ask q).2.notices = b.notices ++ ns) (hn : n ∈ ns) (hdeclines : n.Declines) :
    Spared b (b.ask q).2 n := by
  obtain ⟨_, _, _, hask⟩ := accept_declined hb hq hnotices hn hdeclines
  exact .of_eq hask

/-- A text that is no program is told of, and that is all. -/
theorem compile_declined {ns : List Notice} (hprogram : b.program? = none)
    (hnotices : b.compile.2.notices = b.notices ++ ns) (hn : n ∈ ns) :
    Spared b b.compile.2 n ∧ ∃ e, n = .compileError e := by
  unfold program? compile at hprogram
  unfold compile at hnotices ⊢
  simp only at hprogram hnotices ⊢
  split at hnotices
  · rename_i p hp
    simp [hp] at hprogram
  · rename_i e he
    obtain rfl : ns = [.compileError e] := (List.append_cancel_left hnotices).symm
    obtain rfl := List.mem_singleton.1 hn
    exact ⟨.of_eq rfl, e, rfl⟩
  · obtain rfl : ns = [] := by simpa using hnotices
    cases hn

/-! ### The requests that read the text -/

theorem play_declined [Yaml.Reader] (hb : b.desk.Sound) (hn : n ∈ b.told .play)
    (hdeclines : n.Declines) : Spared b b.play.2 n := by
  have hnotices : b.play.2.notices = b.notices ++ b.told .play := happen_notices b .play
  cases hp : b.program? with
  | none =>
    rw [play_of_not_program? hp] at hnotices ⊢
    exact (compile_declined hp hnotices hn).1
  | some p =>
    have hlinked : (Request.start (some p) b.shown).Linked := by
      rintro _ ⟨⟩
      exact linked_of_program? hp
    have hplay := play_of_program? hp
    simp only at hplay
    rw [hplay] at hnotices ⊢
    have htold : ((b.compiled p).accept (b.desk.perform (.start (some p) b.shown))).2.notices =
        (b.compiled p).notices ++ b.told .play := by
      split at hnotices <;> exact hnotices
    obtain ⟨reason, hanswer, -, hafter⟩ :=
      accept_declined (b := b.compiled p) hb hlinked htold hn hdeclines
    have hnot : (b.desk.perform (.start (some p) b.shown)).answer ≠ .done := by
      rw [show (b.desk.perform (.start (some p) b.shown)).answer = .refused reason from hanswer]
      exact nofun
    rw [if_neg hnot]
    exact .of_eq hafter

/-- A step of the run that waits for it is not refused. -/
theorem step_unrefused (hb : b.desk.Sound) (hheld : b.desk.scheduler.suspended?.isSome)
    (world : Option Nat) (reason : Refusal) :
    (b.desk.perform (.step none world)).answer ≠ .refused reason := by
  have hready : b.desk.scheduler.readyStep none (b.desk.present world) = .ok _ :=
    Scheduler.readyStep_eq_ok.2 ⟨hb.scheduler.resting, .inl ⟨hheld, rfl⟩⟩
  obtain ⟨hsound, hsome⟩ := hb.readied (p := none) nofun hready
  intro hrefused
  rw [Desk.perform_step_of_suspended hb.scheduler.resting hheld] at hrefused
  exact hsound.stepOutcome_ne_refused hsome reason hrefused

/-- A step of a fresh run is refused only because no world is there. -/
theorem step_refusal {p : Program} {world : Option Nat} {reason : Refusal} (hb : b.desk.Sound)
    (hlinked : (Request.step (some p) world).Linked)
    (hfree : b.desk.scheduler.suspended? = none)
    (h : (b.desk.perform (.step (some p) world)).answer = .refused reason) : reason = .noWorld := by
  have hreason := (Desk.perform_answers hb hlinked).refused reason h
  cases hbegin : b.desk.scheduler.begin (some p) (b.desk.present world) with
  | ok ready =>
    have hready : b.desk.scheduler.readyStep (some p) (b.desk.present world) = .ok _ :=
      Scheduler.readyStep_eq_ok.2 ⟨hb.scheduler.resting, .inr ⟨hfree, ready, hbegin, rfl⟩⟩
    obtain ⟨hsound, hheld⟩ := hb.readied hlinked hready
    rw [Desk.perform_step_of_begun hb.scheduler.resting hfree hbegin] at h
    exact absurd h (hsound.stepOutcome_ne_refused hheld reason)
  | error reason' =>
    rw [Desk.perform_step_of_refused hb.scheduler.resting hfree hbegin] at h
    obtain rfl : reason' = reason := by simpa using h
    cases hpresent : b.desk.present world with
    | none =>
      rw [hpresent] at hbegin
      exact (Except.error.inj hbegin).symm
    | some key =>
      rw [hpresent] at hbegin
      cases hrun : Run.start? p <;> simp [Scheduler.begin, hrun] at hbegin
      simp [← hbegin, Request.refusals] at hreason

/-- A single step is turned down because of the text, and then everything else is as it was; or
because no world is there, and then the count of the steps is taken back. -/
theorem singleStep_declined [Yaml.Reader] (hb : b.desk.Sound) (hn : n ∈ b.told .singleStep)
    (hdeclines : n.Declines) :
    b.desk.scheduler.suspended? = none ∧
      (((∃ e, n = .compileError e) ∧ Spared b b.singleStep.2 n) ∨
        (n = .rejected .noWorld ∧ Spared { b with steps := 0 } b.singleStep.2 n)) := by
  have hnotices : b.singleStep.2.notices = b.notices ++ b.told .singleStep :=
    happen_notices b .singleStep
  cases hfree : b.desk.scheduler.suspended? with
  | some h =>
    have hheld : b.desk.scheduler.suspended?.isSome := by rw [hfree]; rfl
    rw [singleStep_of_suspended hheld] at hnotices
    have hlinked : (Request.step none b.shown).Linked := nofun
    obtain ⟨reason, hanswer, -, -⟩ := accept_declined hb hlinked hnotices hn hdeclines
    exact absurd hanswer (step_unrefused hb hheld b.shown reason)
  | none =>
    refine ⟨rfl, ?_⟩
    cases hp : b.program? with
    | none =>
      rw [(singleStep_of_not_program? hfree hp).1] at hnotices ⊢
      obtain ⟨hspared, herror⟩ := compile_declined hp hnotices hn
      exact .inl ⟨herror, hspared⟩
    | some p =>
      let ready : Workbench := { b.compiled p with steps := 0 }
      have hlinked : (Request.step (some p) b.shown).Linked := by
        rintro _ ⟨⟩
        exact linked_of_program? hp
      rw [singleStep_of_program? hfree hp] at hnotices ⊢
      obtain ⟨reason, hanswer, rfl, hafter⟩ :=
        accept_declined (b := ready) hb hlinked hnotices hn hdeclines
      obtain rfl := step_refusal hb hlinked hfree hanswer
      exact .inr ⟨rfl, .of_eq hafter⟩

/-! ### What is turned down -/

/-- The event is a single step, and the notice tells that no world is there for it. -/
def Worldless (e : Event) (n : Notice) : Prop :=
  e = .singleStep ∧ n = .rejected .noWorld

/-- A request that is turned down leaves everything as it was, or it is a single step without a
world, which begins with taking back the count of the steps. -/
theorem happen_declined [Yaml.Reader] {e : Event} (hb : b.desk.Sound) (he : e.Asks)
    (hn : n ∈ b.told e) (hdeclines : n.Declines) :
    (¬ Worldless e n ∧ Spared b (b.happen e) n) ∨
      (Worldless e n ∧ b.desk.scheduler.suspended? = none ∧
        Spared { b with steps := 0 } (b.happen e) n) := by
  cases he with
  | play => exact .inl ⟨nofun, play_declined hb hn hdeclines⟩
  | resume =>
    exact .inl ⟨nofun, ask_declined hb trivial (happen_notices b .resume) hn hdeclines⟩
  | manual a =>
    exact .inl ⟨nofun, ask_declined hb trivial (happen_notices b (.manual a)) hn hdeclines⟩
  | singleStep =>
    obtain ⟨hfree, ⟨⟨e, rfl⟩, hspared⟩ | ⟨rfl, hspared⟩⟩ := singleStep_declined hb hn hdeclines
    · exact .inl ⟨nofun, hspared⟩
    · exact .inr ⟨⟨rfl, rfl⟩, hfree, hspared⟩

/-! ### Heartbeats after a request that was turned down -/

/-- The workbench with another record of the text. -/
def noted (reads : Nat) (last : Option Source.CompileOutcome) (b : Workbench) : Workbench :=
  { b with reads := reads, lastCompile := last }

section Noted

variable (reads : Nat) (last : Option Source.CompileOutcome)

theorem heartbeat_noted (b : Workbench) :
    (b.noted reads last).heartbeat = b.heartbeat.noted reads last := by
  have hask : (b.noted reads last).ask .heartbeat =
      ((b.ask .heartbeat).1, (b.ask .heartbeat).2.noted reads last) := by
    unfold ask
    rw [accept_spec, accept_spec]
    rfl
  unfold heartbeat
  rw [hask]
  obtain ⟨r, after⟩ := b.ask .heartbeat
  simp only [show (after.noted reads last).refresh = after.refresh from rfl]
  split
  · rfl
  · cases r with
    | none =>
      simp only [Option.isNone_none, if_true, draw_spec]
      rfl
    | some r => rfl

theorem tick_noted (b : Workbench) (k : Nat) :
    (b.noted reads last).tick k = (b.tick k).noted reads last := by
  induction k generalizing b with
  | zero => rfl
  | succ k ih => rw [tick, heartbeat_noted, ih, tick]

end Noted

theorem tick_behind (page : List Notice) (b : Workbench) (k : Nat) :
    (b.behind page).tick k = (b.tick k).behind page := by
  induction k generalizing b with
  | zero => rfl
  | succ k ih => exact (congrArg (tick · k) (heartbeat_refiled page id b)).trans (ih b.heartbeat)

/-- After a request that left everything as it was, heartbeats go on as if nothing had been asked. -/
theorem ticks_spared {b' : Workbench} (h : Spared b b' n) (k : Nat) :
    b'.tick k = { b.tick k with
      reads := b'.reads
      lastCompile := b'.lastCompile
      notices := b.notices ++ n :: (b.newPage.tick k).notices } := by
  have hb' : b' = (b.newPage.noted b'.reads b'.lastCompile).behind (b.notices ++ [n]) := by
    conv_lhs => rw [h]
    simp [behind, refiled, noted, newPage]
  have hb : b.tick k = (b.newPage.tick k).behind b.notices := by
    conv_lhs => rw [← b.behind_newPage, tick_behind]
  conv_lhs => rw [hb', tick_behind, tick_noted]
  rw [hb]
  simp [behind, refiled, noted]

/-! ### Histories -/

section Opened

variable [Yaml.Reader] {config : Config} (hperiod : 1 ≤ config.timing.actionHeartbeats)
  (library : Library) (loading : Loading) (source : String) (initialWorld : Option LooseText)
  (files : Files)

include hperiod

/-- In every history of a workbench a request that is turned down is told of by one notice. It
leaves everything as it was, but for the record of the text, exactly if it is no single step without
a world or if no steps had been counted; in a single step without a world the count goes back to
zero, and everything else is as it was. While a program is animated every such request leaves
everything as it was, and the animation goes on as if nothing had been asked. -/
theorem spared_iff (events : List Event) {e : Event} (he : e.Asks) {n : Notice} :
    let b := (opened config library loading source initialWorld files).2.through events
    n ∈ b.told e → n.Declines →
      b.told e = [n] ∧
      (Spared b (b.happen e) n ↔ (Worldless e n → b.steps = 0)) ∧
      (Worldless e n → Spared { b with steps := 0 } (b.happen e) n) ∧
      (b.animating = true → Spared b (b.happen e) n ∧
        ∀ k, (b.happen e).tick k = { b.tick k with
          reads := (b.happen e).reads
          lastCompile := (b.happen e).lastCompile
          notices := b.notices ++ n :: (b.newPage.tick k).notices }) := by
  intro b hn hdeclines
  have hsound : b.desk.Sound :=
    opened_sound hperiod library loading source initialWorld files events
  have htold (after : Workbench) (hafter : after.notices = b.notices)
      (hspared : Spared after (b.happen e) n) : b.told e = [n] := by
    refine told_eq (e := e) ?_
    rw [hspared, hafter]
  rcases happen_declined hsound he hn hdeclines with ⟨hworld, hspared⟩ | ⟨hworldless, hfree, hspared⟩
  · refine ⟨htold b rfl hspared, ?_, fun h => absurd h hworld, fun _ => ⟨hspared, ticks_spared hspared⟩⟩
    exact ⟨fun _ h => absurd h hworld, fun _ => hspared⟩
  · refine ⟨htold { b with steps := 0 } rfl hspared, ⟨?_, ?_⟩, fun _ => hspared, ?_⟩
    · intro hsame _
      rw [← hsame.steps_eq, hspared.steps_eq]
    · intro hsteps
      have hb : { b with steps := 0 } = b := by rw [← hsteps hworldless]
      rwa [hb] at hspared
    · intro hanimating
      -- what is animated waits for its next step, and a single step would be made of it
      have hrunning : b.desk.scheduler.phase = .running := of_decide_eq_true hanimating
      have hheld := hsound.scheduler.animated hrunning
      rw [← hsound.scheduler.suspended?_eq, hfree] at hheld
      cases hheld

end Opened

/-! ### A program of one step -/

open scoped Yaml.Plain

/-- What is seen of an event after a history: whether a program is animated, the steps counted before
and after the event, and what the event tells. -/
def glance [Yaml.Reader] (b : Workbench) (events : List Event) (e : Event) :
    Bool × Nat × Nat × List Notice :=
  let before := b.through events
  (before.animating, before.steps, (before.happen e).steps, before.told e)

theorem glance_cutOff : oneStep.glance [.play, .edit "move("] .play =
    (true, 0, 0, [.compileError ⟨.badArgument none, .position ⟨1, 6⟩⟩]) := by
  rw [oneStep_eq]
  cbv

theorem glance_astray : oneStep.glance [.singleStep, .changeWorld (.empty []) "a"] .singleStep =
    (false, 1, 0, [.rejected .noWorld]) := by
  have hdirect : (oneStep.happen .singleStep).loading = .direct := by
    rw [oneStep_eq]
    cbv
  have hlibrary : (oneStep.happen .singleStep).library = ⟨none, none⟩ := by
    rw [oneStep_eq]
    cbv
  have hlacking : (oneStep.happen .singleStep).library.load (.empty []) "a" =
      (Except.error (.notFound "a") : Except LoadError Description).mapError .error := by
    rw [hlibrary]
    decide +kernel
  have hchanged : (oneStep.happen .singleStep).happen (.changeWorld (.empty []) "a") = _ :=
    congrArg Prod.snd (changeWorld_delivered hdirect hlacking)
  rw [glance, through_cons, through_cons, through_nil, hchanged, oneStep_eq]
  cbv

/-- The program is being animated when its text is cut off within an argument list. -/
theorem spared_iff_cutOff :
    let b := oneStep.through [.play, .edit "move("]
    let n := Notice.compileError ⟨.badArgument none, .position ⟨1, 6⟩⟩
    Event.Asks .play ∧ n ∈ b.told .play ∧ n.Declines ∧ b.animating = true ∧
      Spared b (b.happen .play) n ∧ ((b.happen .play).tick 2).desk = (b.tick 2).desk := by
  intro b n
  have hanimating : b.animating = true := congrArg (·.1) glance_cutOff
  have htold : b.told .play = [n] := congrArg (·.2.2.2) glance_cutOff
  have hn : n ∈ b.told .play := by simp [htold]
  obtain ⟨-, -, -, hgoes⟩ := spared_iff (by decide) _ _ _ _ _ _ .play hn (.text _)
  obtain ⟨hspared, hticks⟩ := hgoes hanimating
  have hdesk : ((b.happen .play).tick 2).desk = (b.tick 2).desk := (congrArg desk (hticks 2) :)
  exact ⟨.play, hn, .text _, hanimating, hspared, hdesk⟩

/-- After a step of the program there is a change to a world that does not exist: the single step that
is asked for then is refused, and the step that had been counted is no longer counted. -/
theorem steps_takenBack :
    let b := oneStep.through [.singleStep, .changeWorld (.empty []) "a"]
    b.steps = 1 ∧ b.told .singleStep = [.rejected .noWorld] ∧ (b.happen .singleStep).steps = 0 ∧
      ¬ Spared b (b.happen .singleStep) (.rejected .noWorld) := by
  intro b
  have hbefore : b.steps = 1 := congrArg (·.2.1) glance_astray
  have hafter : (b.happen .singleStep).steps = 0 := congrArg (·.2.2.1) glance_astray
  have htold : b.told .singleStep = [.rejected .noWorld] := congrArg (·.2.2.2) glance_astray
  refine ⟨hbefore, htold, hafter, fun hspared => ?_⟩
  have hsame := hspared.steps_eq
  rw [hbefore, hafter] at hsame
  cases hsame

end Workbench

end GridRobot

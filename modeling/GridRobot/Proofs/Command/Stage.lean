import GridRobot.Command.Run
import GridRobot.Proofs.Command.Performance
import GridRobot.Proofs.Config.Range
import GridRobot.Proofs.World.Library

/-!
# What a command performs

A command that runs a program begins with a workbench on which the text and a world have been put. No
run is held there, and all that was told is that world. A text that does not compile is all that such
a performance comes to.

## Main definitions

* `Workbench.Ready` says that a workbench is at its beginning, with a text and a world.
* `Command.filmFor` is the film of a performance, if it is to have one.

## Main statements

* `Workbench.opened_ready`, `Workbench.opened_world?_of_failure`: a workbench that is opened.
* `Command.stageSource_of_ready`, `Command.stage_ready`: what is performed.
* `Performance.leave_begin`: a run that is given up.
-/

namespace GridRobot

variable {config : Config} {source : String} {w : World} {b : Workbench} {p : Program} {files : Files}
  {film : Option Film}

/-- The settings of a configuration without a problem are positive. -/
theorem Config.positive_of_problem? (h : config.problem? = none) :
    0 < config.timing.heartbeatMs ∧ 0 < config.timing.actionHeartbeats ∧
      0 < config.limits.callDepth ∧ 0 < config.limits.nesting := by
  have hrange := problem?_eq_none_iff.1 h
  exact ⟨hrange.heartbeatMs, hrange.actionHeartbeats, hrange.callDepth, hrange.nesting⟩

namespace Workbench

/-- A workbench at its beginning, with a text and a world that is shown. -/
structure Ready (config : Config) (source : String) (w : World) (b : Workbench) : Prop where
  poised : b.Poised config.runLimits w 0
  period : b.desk.scheduler.period = config.timing.actionHeartbeats.toNat
  config : b.config = config
  source : b.source = source
  steps : b.steps = 0
  notices : ∃ name, b.notices = [.drawn w.snapshot, .loaded name]

section Opened

variable [Yaml.Reader] {library : Library} {name : Option LooseText} {d : Description}

theorem opened_ready (source : String)
    (hload : library.load files (firstName config name) = .ok d)
    (hw : World.ofDescription d = .ok w) :
    ∃ b, opened config library .direct source name files = (.ok (), b) ∧
      b.Ready config source w := by
  have hfound : library.load files (firstName config name) =
      (Except.ok d : Except LoadError Description).mapError .error := hload
  have hopened : opened config library .direct source name files = (.ok (),
      (bare config library .direct source name).install (firstName config name) w) := by
    rw [opened, load_delivered (b := bare config library .direct source name) rfl hfound]
    simp only [deliver, ne_eq, not_true, if_false, hw]
    rfl
  exact ⟨_, hopened, ⟨⟨rfl, rfl, rfl, rfl, rfl⟩, rfl, rfl, rfl, rfl, _, rfl⟩⟩

/-- Without a description no world is shown. -/
theorem opened_world?_of_failure (source : String) {e : LoadFailure}
    (hload : library.load files (firstName config name) = .error e) :
    (opened config library .direct source name files).2.world? = none := by
  have hfound : (bare config library .direct source name).library.load files
      (bare config library .direct source name).worldName = .error e := hload
  unfold opened load
  simp only [hfound]
  cases e with
  | error e => rfl
  | broken i => rfl

end Opened

namespace Ready

theorem program?_eq (h : b.Ready config source w) :
    b.program? = some p ↔ Source.compile config.limits.nesting source = .ok p := by
  unfold program? compile
  rw [h.config, h.source]
  rcases Source.compile config.limits.nesting source with (e | _ | _) | q <;> simp

theorem program?_eq_none (h : b.Ready config source w)
    (hnot : ∀ p, Source.compile config.limits.nesting source ≠ .ok p) : b.program? = none :=
  Option.eq_none_iff_forall_ne_some.2 fun p hp => hnot p (h.program?_eq.1 hp)

theorem suspended? (h : b.Ready config source w) : b.desk.scheduler.suspended? = none := by
  rw [Scheduler.suspended?, h.poised.free]
  rfl

/-- An error in the text is told, and nothing else happens. -/
theorem compile_of_error {e : Source.CompileError} (h : b.Ready config source w)
    (hcompile : Source.compile config.limits.nesting source = .error (.error e)) :
    b.compile = (.ok (.error e), { b with
      reads := b.reads + 1
      lastCompile := some (.error e)
      notices := b.notices ++ [.compileError e] }) := by
  unfold compile
  rw [h.config, h.source, hcompile]
  rfl

/-- A text that comes neither to a program nor to an error in it breaks everything off. -/
theorem compile_of_refusal {refusal : Source.Refusal} (h : b.Ready config source w)
    (hcompile : Source.compile config.limits.nesting source = .error refusal)
    (hnot : ∀ e, refusal ≠ .error e) : b.compile.1 = .error .badNumber := by
  unfold compile
  rw [h.config, h.source, hcompile]
  cases refusal with
  | error e => exact absurd rfl (hnot e)
  | limitNotPositive => rfl
  | numberTooLong => rfl

end Ready

end Workbench

namespace Performance

/-- What is recorded at the beginning is the world. -/
theorem tells_begin {limits : Limits} {r : Run} (h : b.Ready config source w)
    (hstart : Run.start? p = some r) (hfilm : ∀ f ∈ film, f = .blank true) :
    (begin film b).record.Tells limits r w 0 := by
  obtain ⟨name, hnotices⟩ := h.notices
  rw [begin, hnotices]
  show ([.drawn w.snapshot, .loaded name].foldl Record.note (.blank film)).Tells limits r w 0
  exact .first hstart hfilm

/-- A run that is given up changes nothing of what is recorded, counted and shown. -/
theorem leave_begin (film : Option Film) (b : Workbench) :
    (begin film b).leave.record = (begin film b).record ∧
      (begin film b).leave.bench.steps = b.steps ∧
      (begin film b).leave.bench.world? = b.world? := by
  unfold leave
  split <;> exact ⟨rfl, rfl, rfl⟩

end Performance

/-! ### Without a program -/

namespace Command

variable {τ ω : Type} [Seconds τ] {scene : Scene τ ω} {s : RunSettings} {most : Int}

/-- The film of a performance, if it is animated. -/
def filmFor (animate : Bool) : Option Film :=
  if animate then some (.blank true) else none

theorem eq_blank_of_mem_filmFor (animate : Bool) : ∀ f ∈ filmFor animate, f = .blank true := by
  cases animate <;> simp [filmFor]

/-- A text with an error in it comes to that error, however it is to be performed. -/
theorem perform_of_error {e : Source.CompileError} (h : b.Ready config source w) (hpos : 0 < most)
    (hcompile : Source.compile config.limits.nesting source = .error (.error e)) (animate : Bool) :
    perform scene animate ⟨.begin film b, most⟩ = .ok (.begin film b.compile.2) := by
  have hcompiled := h.compile_of_error hcompile
  cases animate with
  | true =>
    have hplay : b.play = b.compile :=
      Workbench.play_eq_compile (h.program?_eq_none (by simp [hcompile]))
    have hfirst : b.play.1 = .ok (.error e) := by rw [hplay, hcompiled]
    show Performance.playAnimated _ _ _ _ = _
    rw [Performance.playAnimated_of_not_program hfirst, hplay]
  | false =>
    have hstep : b.singleStep = (.ok none, b.compile.2) := by
      unfold Workbench.singleStep
      rw [h.suspended?, hcompiled]
      rfl
    obtain ⟨n, hn⟩ : ∃ n, most.toNat = n + 1 := ⟨most.toNat - 1, by omega⟩
    show Performance.playStepwise _ _ most.toNat = _
    rw [hn, Performance.playStepwise_succ, hstep]

/-- A performance of a text that comes to neither breaks off. -/
theorem perform_of_refusal {refusal : Source.Refusal} (h : b.Ready config source w) (hpos : 0 < most)
    (hcompile : Source.compile config.limits.nesting source = .error refusal)
    (hnot : ∀ e, refusal ≠ .error e) (animate : Bool) :
    perform scene animate ⟨.begin film b, most⟩ = .error .badNumber := by
  obtain ⟨after, hafter⟩ : ∃ after, b.compile = (.error .badNumber, after) :=
    ⟨_, Prod.ext (h.compile_of_refusal hcompile hnot) rfl⟩
  cases animate with
  | true =>
    have hplay : b.play = b.compile :=
      Workbench.play_eq_compile (h.program?_eq_none (by simp [hcompile]))
    show Performance.playAnimated _ _ _ _ = _
    rw [Performance.playAnimated, Performance.beginAnimation_eq, hplay, hafter]
    rfl
  | false =>
    have hstep : b.singleStep.1 = .error .badNumber := by
      unfold Workbench.singleStep
      rw [h.suspended?, hafter]
      rfl
    obtain ⟨n, hn⟩ : ∃ n, most.toNat = n + 1 := ⟨most.toNat - 1, by omega⟩
    show Performance.playStepwise _ _ most.toNat = _
    rw [hn, Performance.playStepwise_succ, hstep]

/-! ### What is staged -/

variable [Yaml.Reader]

/-- With a world on the workbench there is something to be performed, unless the world is to be
drawn and cannot be. -/
theorem stageSource_of_ready (h : b.Ready config source w)
    (hopened : Workbench.opened config (libraryFor config s.worldsDir) .direct source s.world files =
      (.ok (), b)) : stageSource files config s most source =
      if s.animate && !w.snapshot.isDrawable then .error .badNumber
      else .ok (.ok ⟨.begin (filmFor s.animate) b, most⟩) := by
  obtain ⟨name, hnotices⟩ := h.notices
  have hworld : b.world?.isNone = false := by rw [h.poised.world?]; rfl
  have hbroken : (Performance.begin (filmFor s.animate) b).record.film.any Film.broken =
      (s.animate && !w.snapshot.isDrawable) := by
    rw [Performance.begin, hnotices]
    cases s.animate with
    | true => simp [filmFor, Record.blank, Record.note, Film.addPicture, Film.blank]
    | false => rfl
  unfold stageSource
  rw [hopened]
  simp only [ok_bind, hworld, Bool.false_eq_true, if_false]
  rw [← hbroken]
  rfl

/-- Without a world there is nothing to be performed. -/
theorem stageSource_of_no_world
    (hnone : (Workbench.opened config (libraryFor config s.worldsDir) .direct source s.world
      files).2.world? = none) (ready : Stage) :
    stageSource files config s most source ≠ .ok (.ok ready) := by
  unfold stageSource
  generalize Workbench.opened config (libraryFor config s.worldsDir) .direct source s.world files =
    opened at hnone ⊢
  obtain ⟨i | _, b⟩ := opened
  · exact nofun
  · simp only [ok_bind, hnone]
    exact nofun

theorem stage_of_source (hmost : s.maxSteps = some most) (hpos : 0 < most)
    (hsource : files.readText (.ofText s.program) = .ok source) :
    stage files config s = stageSource files config s most source := by
  simp only [stage, hmost, Int.not_le.2 hpos, if_false, hsource]

/-- What is staged is a workbench at its beginning, and the number of actions is positive. -/
theorem stage_ready {ready : Stage} (h : stage files config s = .ok (.ok ready)) :
    ∃ source w b, s.maxSteps = some ready.most ∧ 0 < ready.most ∧
      files.readText (.ofText s.program) = .ok source ∧ b.Ready config source w ∧
      ready.first = .begin (filmFor s.animate) b := by
  unfold stage at h
  split at h
  · cases h
  · rename_i most hmost
    split at h
    · cases h
    · rename_i hpos
      split at h
      · cases h
      · cases h
      · rename_i source hsource
        rcases hload : (libraryFor config s.worldsDir).load files
          (Workbench.firstName config s.world) with e | d
        · have hnone := Workbench.opened_world?_of_failure source hload
          exact absurd h (stageSource_of_no_world hnone ready)
        · obtain ⟨w, hw⟩ := Library.load_world hload
          obtain ⟨b, hopened, hb⟩ := Workbench.opened_ready source hload hw
          rw [stageSource_of_ready hb hopened] at h
          split at h
          · cases h
          · obtain rfl := Except.ok.inj (Except.ok.inj h)
            exact ⟨source, w, b, hmost, Int.not_le.1 hpos, hsource, hb, rfl⟩

end Command

end GridRobot

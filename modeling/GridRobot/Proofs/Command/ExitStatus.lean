import GridRobot.Proofs.Command.Stage
import GridRobot.Proofs.Run.Frames
import GridRobot.Proofs.Source.CompileOutcome
import GridRobot.Yaml.Document

/-!
# The status with which a command ends

A command that runs a program says in the end how far its run has come, and its status tells whether
the run has finished in time. Both depend on the run alone, not on the way in which it is performed:
step by step, or at the pace of the scheduler if heartbeats come one by one. Only a world that cannot
be drawn keeps the command from saying it.

## Main definitions

* `Command.Prepared` says that a command has a text, a world and a number of actions.
* `Command.Conclusion` is what is said in the end.
* `Command.ComesTo` says which steps a text comes to on a world, and what is said of them.
* `Command.Performs` says that a performance makes certain steps.

## Main statements

* `Command.comesTo_status_iff`: the status is zero for a run that has finished in time.
* `Command.runOutput_concludes`: the output of a command, animated or not.
* `Command.runOutput_undrawable`: a command that does not say how its run has ended.
-/

namespace GridRobot

variable {config : Config} {source : String} {w : World} {b : Workbench} {film : Option Film}
  {limits : Limits} {r : Run} {p : Program} {most m : Nat} {files : Files}

/-- A run that has finished has met no fault. -/
theorem Run.lastFault_eq_none (hp : p.Linked) (hstart : Run.start? p = some r)
    (hlimits : 1 ≤ limits.callDepth) (hfinished : (r.after limits w m).1.status = .finished) :
    (r.after limits w m).1.lastFault = none := by
  obtain ⟨r', entry, hstart', -, -, hordered⟩ := Run.start?_ordered hp
  obtain rfl := Option.some.inj (hstart.symm.trans hstart')
  have hfaulted := ((hordered limits hlimits).reaches (r.reaches_after limits w m)).faulted
  rw [hfinished] at hfaulted
  simpa using hfaulted

/-- A text whose numbers are short comes to a program or to an error in it. -/
theorem Source.compile_of_short {limit : Int} (hlimit : 1 ≤ limit)
    (hshort : ∀ text, tokenize source = .ok text → ShortNumbers text.tokens) :
    (∃ p, compile limit source = .ok p) ∨ ∃ e, compile limit source = .error (.error e) := by
  rcases compile_outcome hlimit source with hcut | ⟨e | p, houtcome⟩
  · obtain ⟨text, htext, hlisting⟩ := (compile_eq_numberTooLong hlimit).1 hcut
    exact absurd (hshort text htext) hlisting.not_short
  · exact .inr ⟨e, houtcome⟩
  · exact .inl ⟨p, houtcome⟩

namespace Performance

/-- By a watch on which time passes only in sleep, heartbeats come one by one. -/
theorem oneByOne_still (hb : b.Ready config source w) (hconfig : config.problem? = none) (start : ℚ)
    (most : Int) : OneByOne Watch.still start most (begin film b) := by
  intro begun hbegun
  obtain ⟨hpositive, -⟩ := Config.positive_of_problem? hconfig
  obtain ⟨outcome, -, hbegun⟩ := map_eq_ok.1 ((beginAnimation_eq film b).symm.trans hbegun)
  obtain rfl : begin film b.play.2 = begun := congrArg Prod.snd hbegun
  have hconfig : (begin film b.play.2).bench.config = config := b.play_config.trans hb.config
  have hinterval : (0 : ℚ) < (config.timing.heartbeatMs.toNat : Int) / 1000 := by
    have hnat : 0 < config.timing.heartbeatMs.toNat := by omega
    positivity
  have hstill : (surroundings (Watch.still : Watch ℚ ℚ) most).Still fun s => s.1 :=
    ⟨fun _ => rfl, fun _ _ => rfl, fun _ _ => rfl⟩
  rw [hconfig]
  exact ⟨_, rfl, hstill.oneByOne hinterval (start, begin film b.play.2)⟩

end Performance

theorem LooseText.append_assoc (s t u : LooseText) : s ++ t ++ u = s ++ (t ++ u) :=
  congrArg LooseText.mk (List.append_assoc s.points t.points u.points)

theorem LooseText.append_empty (s : LooseText) : s ++ ("" : String) = s :=
  congrArg LooseText.mk (List.append_nil s.points)

namespace Command

variable {τ ω : Type} [Seconds τ] {scene : Scene τ ω} {s : RunSettings}

/-! ### What is said in the end -/

/-- What is said in the end: the status, the line after the last picture, and what is told as an
error. -/
structure Conclusion where
  status : Nat
  line : LooseText
  err : LooseText

namespace Conclusion

/-- What is said of an error in the text. -/
def ofError (e : Source.CompileError) : Conclusion :=
  ⟨1, "", e.message ++ "\n"⟩

/-- What is said of a run that was to be stopped after a number of actions. -/
def ofRun (most : Int) (r : Run) : Conclusion :=
  match r.lastFault, r.status with
  | some f, _ => ⟨1, "", "Fault after " ++ toString r.steps ++ " step(s): " ++ f.text ++ "\n"⟩
  | none, .finished => ⟨0, "Finished after " ++ toString r.steps ++ " step(s)\n", ""⟩
  | none, _ => ⟨1, "", "Stopped: step limit of " ++ toString most ++ " reached\n"⟩

/-- The output of a command that has shown something and then says this. -/
def after (shown : String) (c : Conclusion) : Output :=
  ⟨c.status, shown ++ c.line, c.err⟩

end Conclusion

theorem verdict_of_error {e : Source.CompileError} {q : Performance}
    (h : q.record.compileError = some e) (most : Int) (shown : String) :
    verdict most shown q = (Conclusion.ofError e).after shown := by
  simp [verdict, h, Conclusion.ofError, Conclusion.after, LooseText.append_empty]

theorem verdict_of_tells {q : Performance} (h : q.record.Tells limits r w m)
    (hsteps : q.bench.steps = (r.after limits w m).1.steps) (shown : String) :
    verdict most shown q = (Conclusion.ofRun most (r.after limits w m).1).after shown := by
  rw [verdict, h.compiled, h.fault, h.finished, hsteps]
  unfold Conclusion.ofRun
  cases (r.after limits w m).1.lastFault with
  | some f => simp [Conclusion.after, LooseText.append_empty]
  | none =>
    cases (r.after limits w m).1.status <;>
      simp [Conclusion.after, LooseText.append_assoc, LooseText.append_empty]

/-! ### What a text comes to -/

/-- The steps to which a text comes on a world, if it is stopped after a number of actions, and what
is said of them: a text with an error makes none, and a program makes those of its run. -/
inductive ComesTo (config : Config) (source : String) (w : World) (most : Nat) :
    List Observation → Conclusion → Prop where
  | unread {e : Source.CompileError}
      (compiled : Source.compile config.limits.nesting source = .error (.error e)) :
      ComesTo config source w most [] (.ofError e)
  | run {p : Program} {r : Run} {seen : List Observation}
      (compiled : Source.compile config.limits.nesting source = .ok p)
      (start : Run.start? p = some r)
      (steps : seen.map Except.ok = (r.trace config.runLimits w most).map Stepped.observed) :
      ComesTo config source w most seen (.ofRun most (r.after config.runLimits w most).1)

/-- A text compiles, and its run on a world finishes after fewer actions than a number. -/
def FinishesInTime (config : Config) (source : String) (w : World) (most : Nat) : Prop :=
  ∃ p r k, Source.compile config.limits.nesting source = .ok p ∧ Run.start? p = some r ∧
    (r.stepAfter config.runLimits w k).result = .ok .finished ∧
    (r.after config.runLimits w k).1.steps < most

/-- The status is zero for a run that finishes in time, and one otherwise. -/
theorem comesTo_status_iff {seen : List Observation} {said : Conclusion}
    (hconfig : config.problem? = none) (h : ComesTo config source w most seen said) :
    (said.status = 0 ↔ FinishesInTime config source w most) ∧
      (said.status = 0 ∨ said.status = 1) := by
  cases h with
  | unread compiled =>
    refine ⟨⟨nofun, ?_⟩, .inr rfl⟩
    rintro ⟨p, r, k, hp, -⟩
    cases compiled.symm.trans hp
  | @run p r seen compiled start steps =>
    obtain ⟨-, -, hdepth, -⟩ := Config.positive_of_problem? hconfig
    have hlinked := (Source.compile_closed compiled).linked
    obtain ⟨r', hstart', hr, -⟩ := Run.start?_linked hlinked
    obtain rfl := Option.some.inj (start.symm.trans hstart')
    obtain ⟨hrun, hzero⟩ := Run.start?_running start
    obtain ⟨m, hstops⟩ := Run.StopsAt.exists_of_most config.runLimits r w most
    rw [hstops.after_eq]
    have hfinished : (r.after config.runLimits w m).1.status = .finished ↔
        FinishesInTime config source w most := by
      rw [hstops.finished_iff hr hrun hzero]
      constructor
      · rintro ⟨k, hk⟩
        exact ⟨p, r, k, compiled, start, hk⟩
      · rintro ⟨p', r', k, hp', hr', hk⟩
        obtain rfl := Except.ok.inj (compiled.symm.trans hp')
        obtain rfl := Option.some.inj (start.symm.trans hr')
        exact ⟨k, hk⟩
    -- a run that has finished has met no fault, so its end is what is said
    have hlimits : 1 ≤ config.runLimits.callDepth := by
      show 1 ≤ config.limits.callDepth.toNat
      omega
    have hfault := Run.lastFault_eq_none (m := m) (w := w) hlinked start hlimits
    rw [← hfinished]
    unfold Conclusion.ofRun
    split
    · rename_i f _ hf
      refine ⟨⟨nofun, fun hends => ?_⟩, .inr rfl⟩
      rw [hfault hends] at hf
      cases hf
    · rename_i hstatus
      exact ⟨⟨fun _ => hstatus, fun _ => rfl⟩, .inl rfl⟩
    · rename_i hstatus
      exact ⟨⟨nofun, fun hends => absurd hends hstatus⟩, .inr rfl⟩

/-! ### Worlds on the way -/

/-- The worlds on the way of some steps: the first one and those that are seen. -/
def worldsOf (w : World) (seen : List Observation) : List World :=
  w :: seen.map Observation.world

/-- The world after some steps. -/
def lastWorld (w : World) (seen : List Observation) : World :=
  (seen.map Observation.world).getLastD w

theorem map_world_of_steps {seen : List Observation}
    (h : seen.map Except.ok = (List.range m).map fun i => (r.stepAfter limits w i).observed) :
    seen.map Observation.world = (List.range m).map fun i => (r.after limits w (i + 1)).2 := by
  have hlength : seen.length = m := by simpa using congrArg List.length h
  refine List.ext_getElem (by simp [hlength]) fun i hi _ => ?_
  have hi : i < seen.length := by simpa using hi
  have hstep : Except.ok seen[i] = (r.stepAfter limits w i).observed := by
    have hget := List.getElem_of_eq h (by simpa using hi)
    simpa using hget
  obtain ⟨x, -, hx⟩ := map_eq_ok.1 hstep.symm
  rw [List.getElem_map, List.getElem_map, List.getElem_range, ← hx, Run.after_succ]

theorem lastWorld_eq {seen : List Observation}
    (h : seen.map Except.ok = (List.range m).map fun i => (r.stepAfter limits w i).observed) :
    lastWorld w seen = (r.after limits w m).2 := by
  rw [lastWorld, map_world_of_steps h]
  cases m with
  | zero => rfl
  | succ m => rw [List.range_succ, List.map_append, List.map_singleton, List.getLastD_concat]

theorem mem_worldsOf {seen : List Observation}
    (h : seen.map Except.ok = (List.range m).map fun i => (r.stepAfter limits w i).observed)
    {v : World} : v ∈ worldsOf w seen ↔ ∃ j ≤ m, (r.after limits w j).2 = v := by
  rw [worldsOf, map_world_of_steps h, List.mem_cons, List.mem_map]
  constructor
  · rintro (rfl | ⟨i, hi, rfl⟩)
    · exact ⟨0, Nat.zero_le m, rfl⟩
    · exact ⟨i + 1, List.mem_range.1 hi, rfl⟩
  · rintro ⟨j, hj, rfl⟩
    cases j with
    | zero => exact .inl rfl
    | succ i => exact .inr ⟨i, List.mem_range.2 hj, rfl⟩

/-- Can all worlds on the way of some steps be drawn? -/
def allDrawable (w : World) (seen : List Observation) : Bool :=
  (worldsOf w seen).all fun v => v.snapshot.isDrawable

/-- A film shows the worlds on the way of some steps: it is whole if all of them can be drawn, and the
last one is on a cleared screen at its end. -/
def Filmed (w : World) (seen : List Observation) (f : Film) : Prop :=
  f.broken = !allDrawable w seen ∧
    ∃ before, f.shown = before ++ Film.clearScreen ++ (lastWorld w seen).snapshot.picture ++ "\n"

theorem filmed_of_shows {f : Film} {seen : List Observation} (hf : f.Shows limits r w m)
    (h : seen.map Except.ok = (List.range m).map fun i => (r.stepAfter limits w i).observed) :
    Filmed w seen f := by
  refine ⟨?_, ?_⟩
  · rw [Bool.eq_iff_iff, hf.broken, Bool.not_eq_true', allDrawable, List.all_eq_false]
    constructor
    · rintro ⟨j, hj, hnot⟩
      exact ⟨_, (mem_worldsOf h).2 ⟨j, hj, rfl⟩, by rw [hnot]; exact Bool.false_ne_true⟩
    · rintro ⟨v, hv, hnot⟩
      obtain ⟨j, hj, rfl⟩ := (mem_worldsOf h).1 hv
      exact ⟨j, hj, Bool.eq_false_iff.2 hnot⟩
  · rw [lastWorld_eq h]
    exact hf.last

/-! ### How a performance closes -/

/-- A performance has made some steps, all of which are on its film if it has one, and this is to be
said of it. -/
structure Closes (most : Nat) (w : World) (animate : Bool) (seen : List Observation)
    (said : Conclusion) (last : Performance) : Prop where
  tells : ∀ shown, verdict most shown last = said.after shown
  world : last.bench.world? = some (lastWorld w seen)
  film : last.record.film.isSome = animate
  filmed : ∀ f ∈ last.record.film, Filmed w seen f

/-- It closes in the same way if it gives up the run. -/
theorem Closes.leave {seen : List Observation} {said : Conclusion} {animate : Bool}
    (h : Closes most w animate seen said (.begin film b)) :
    Closes most w animate seen said (Performance.begin film b).leave := by
  obtain ⟨hrecord, hsteps, hworld⟩ := Performance.leave_begin film b
  refine ⟨fun shown => ?_, hworld.trans h.world, ?_, ?_⟩
  · have htells := h.tells shown
    unfold verdict at htells ⊢
    rw [hrecord, hsteps]
    exact htells
  · rw [hrecord]
    exact h.film
  · rw [hrecord]
    exact h.filmed

theorem film_isSome (animate : Bool) (b : Workbench) :
    (Performance.begin (filmFor animate) b).record.film.isSome = animate := by
  rw [Performance.begin, Record.foldl_film_isSome]
  cases animate <;> rfl

/-- The steps of a run. -/
theorem closes_of_follows {animate : Bool} {key : Nat} {seen : List Observation}
    (h : Performance.Follows limits r w key m (filmFor animate) b)
    (hseen : seen.map Except.ok = (List.range m).map fun i => (r.stepAfter limits w i).observed) :
    Closes most w animate seen (.ofRun most (r.after limits w m).1) (.begin (filmFor animate) b) where
  tells := verdict_of_tells h.tells h.plays.steps
  world := by
    rw [lastWorld_eq hseen]
    exact h.plays.world?
  film := film_isSome animate b
  filmed := fun f hf => filmed_of_shows (h.tells.film f hf) hseen

/-- A text with an error in it. -/
theorem closes_of_error {e : Source.CompileError} {animate : Bool} (hb : b.Ready config source w)
    (hcompile : Source.compile config.limits.nesting source = .error (.error e)) :
    Closes most w animate [] (.ofError e) (.begin (filmFor animate) b.compile.2) := by
  obtain ⟨name, hnotices⟩ := hb.notices
  have hrecord : (Performance.begin (filmFor animate) b.compile.2).record =
      ⟨(filmFor animate).map fun f => f.addPicture w.snapshot, some e, none, none, none⟩ := by
    rw [hb.compile_of_error hcompile, Performance.begin, hnotices]
    rfl
  refine ⟨verdict_of_error (congrArg Record.compileError hrecord) _, ?_, film_isSome animate _, ?_⟩
  · rw [hb.compile_of_error hcompile]
    exact hb.poised.world?
  · intro f hf
    rw [hrecord] at hf
    obtain ⟨g, hg, rfl⟩ := Option.map_eq_some_iff.1 hf
    rw [eq_blank_of_mem_filmFor animate g hg]
    exact ⟨by simp [allDrawable, worldsOf, Film.addPicture, Film.blank], "", rfl⟩

section

variable [Yaml.Reader]

/-- What is performed on a workbench is a history of it, in which just these steps are seen and of
which this is said; in the end the run may be given up. -/
def Performs (scene : Scene τ ω) (animate : Bool) (most : Nat) (w : World) (b : Workbench)
    (seen : List Observation) (said : Conclusion) : Prop :=
  ∃ events last, perform scene animate ⟨.begin (filmFor animate) b, most⟩ = .ok last ∧
    (last = .begin (filmFor animate) (b.through events) ∨
      last = (Performance.begin (filmFor animate) (b.through events)).leave) ∧
    b.seen events = seen ∧ Closes most w animate seen said last

/-- A text with an error in it comes to that error. -/
theorem performs_of_error {e : Source.CompileError} (hb : b.Ready config source w) (hmost : 0 < most)
    (hcompile : Source.compile config.limits.nesting source = .error (.error e)) (animate : Bool) :
    Performs scene animate most w b [] (.ofError e) := by
  have hp : b.program? = none := hb.program?_eq_none (by simp [hcompile])
  refine ⟨[if animate then .play else .singleStep], _,
    perform_of_error hb (Int.natCast_pos.2 hmost) hcompile animate, .inl ?_, ?_,
    closes_of_error hb hcompile⟩
  · cases animate with
    | true =>
      show _ = Performance.begin _ b.play.2
      rw [Workbench.play_of_not_program? hp]
    | false =>
      show _ = Performance.begin _ b.singleStep.2
      rw [(Workbench.singleStep_of_not_program? hb.suspended? hp).1]
  · have hheard : b.stepResult? (if animate then .play else .singleStep) = none := by
      cases animate with
      | true => rfl
      | false => exact (Workbench.singleStep_of_not_program? hb.suspended? hp).2
    rw [Workbench.seen, Workbench.seen?, hheard]
    rfl

/-- Step by step a program makes the steps of its run. -/
theorem performs_stepwise (scene : Scene τ ω) (hb : b.Ready config source w) (hmost : 0 < most)
    (hcompile : Source.compile config.limits.nesting source = .ok p) (hstart : Run.start? p = some r)
    (hr : r.Linked) (hstops : r.StopsAt config.runLimits w most m) :
    ∃ seen, seen.map Except.ok =
        ((List.range m).map fun i => (r.stepAfter config.runLimits w i).observed) ∧
      Performs scene false most w b seen (.ofRun most (r.after config.runLimits w m).1) := by
  have hp := hb.program?_eq.2 hcompile
  obtain ⟨hrun, hzero⟩ := Run.start?_running hstart
  obtain ⟨k, hk⟩ := Performance.playStepwise_spec (n := most) (m := 0) hr hzero hmost
    (.first hb.poised hp hstart) (Performance.tells_begin hb hstart
      (eq_blank_of_mem_filmFor false)) (fun j hj => by rw [Nat.le_zero.1 hj]; exact hrun)
  obtain ⟨hstops', hplayed, hfollows, hseen⟩ := hk
  rw [Nat.zero_add] at hplayed
  rw [Nat.zero_add, Nat.zero_add] at hstops'
  rw [Nat.zero_add] at hfollows
  rw [← List.range_eq_range'] at hseen
  obtain rfl := hstops.unique hstops'
  exact ⟨_, hseen, .replicate m .singleStep, _, hplayed, .inl rfl, rfl,
    closes_of_follows hfollows hseen⟩

/-- So it does if it is animated by single heartbeats. -/
theorem performs_animated (hb : b.Ready config source w) (hconfig : config.problem? = none)
    (hmost : 0 < most) (hcompile : Source.compile config.limits.nesting source = .ok p)
    (hstart : Run.start? p = some r) (hr : r.Linked)
    (hstops : r.StopsAt config.runLimits w most m)
    (hsingly : Performance.OneByOne scene.watch scene.start most (.begin (filmFor true) b)) :
    ∃ seen, seen.map Except.ok =
        ((List.range m).map fun i => (r.stepAfter config.runLimits w i).observed) ∧
      Performs scene true most w b seen (.ofRun most (r.after config.runLimits w m).1) := by
  have hp := hb.program?_eq.2 hcompile
  obtain ⟨-, hperiod, -⟩ := Config.positive_of_problem? hconfig
  obtain ⟨m', hstops', hplayed, hfollows, hseen⟩ := Performance.playAnimated_spec
    (n := config.timing.actionHeartbeats.toNat) hr (by omega) hmost hb.poised hp hstart hb.period
    (by rw [hb.config]) (Performance.tells_begin hb hstart (eq_blank_of_mem_filmFor true)) hsingly
  obtain rfl := hstops.unique hstops'
  exact ⟨_, hseen, _, _, hplayed, .inr rfl, rfl, (closes_of_follows hfollows hseen).leave⟩

end

/-! ### The output of a command -/

variable {seen : List Observation} {said : Conclusion} {last : Performance} {animate : Bool}

theorem Closes.shownBy_stepwise (h : Closes most w false seen said last) :
    shownBy last = if (lastWorld w seen).snapshot.isDrawable
      then .ok ((lastWorld w seen).snapshot.picture ++ "\n") else .error .badNumber := by
  have hfilm : last.record.film = none := by simpa using h.film
  have hmodel : last.bench.model? = some (lastWorld w seen).snapshot := by
    rw [Workbench.model?, h.world]
    rfl
  rw [shownBy, hfilm, hmodel]
  cases hdrawable : (lastWorld w seen).snapshot.isDrawable <;>
    simp [Film.text, Film.addPicture, Film.blank, hdrawable]

theorem Closes.shownBy_animated (h : Closes most w true seen said last) :
    ∃ before : String, shownBy last = if allDrawable w seen
      then .ok (before ++ Film.clearScreen ++ (lastWorld w seen).snapshot.picture ++ "\n")
      else .error .badNumber := by
  obtain ⟨f, hf⟩ := Option.isSome_iff_exists.1 h.film
  obtain ⟨hbroken, before, hshown⟩ := h.filmed f hf
  refine ⟨before, ?_⟩
  rw [shownBy, hf]
  show f.text = _
  rw [Film.text, hbroken, hshown]
  cases allDrawable w seen <;> rfl

theorem runOutput_of_closes [Yaml.Reader]
    (hstage : stage scene.files config s = .ok (.ok ⟨.begin (filmFor s.animate) b, most⟩))
    (hlast : perform scene s.animate ⟨.begin (filmFor s.animate) b, most⟩ = .ok last)
    (h : Closes most w s.animate seen said last) :
    runOutput scene config s = (shownBy last).map said.after := by
  rw [runOutput, hstage, ok_bind]
  show perform scene s.animate ⟨.begin (filmFor s.animate) b, most⟩ >>= _ = _
  rw [hlast, ok_bind]
  cases shownBy last with
  | error i => rfl
  | ok shown => exact congrArg Except.ok (h.tells shown)

/-- A command has what it needs: a text whose numbers are short, a world, a configuration without a
problem, and a positive number of actions. -/
structure Prepared [Yaml.Reader] (files : Files) (config : Config) (s : RunSettings)
    (source : String) (most : Nat) (w : World) : Prop where
  valid : config.problem? = none
  limit : s.maxSteps = some (most : Int)
  positive : 0 < most
  read : files.readText (.ofText s.program) = .ok source
  short : ∀ text, Source.tokenize source = .ok text → Source.ShortNumbers text.tokens
  found : ∃ d, (libraryFor config s.worldsDir).load files (Workbench.firstName config s.world) =
    .ok d ∧ World.ofDescription d = .ok w

namespace Prepared

variable [Yaml.Reader]

/-- Both ways of performing a text make the steps to which it comes. -/
theorem performs (h : Prepared scene.files config s source most w) (hb : b.Ready config source w) :
    ∃ seen said, ComesTo config source w most seen said ∧
      Performs scene false most w b seen said ∧
      (Performance.OneByOne scene.watch scene.start most (.begin (filmFor true) b) →
        Performs scene true most w b seen said) := by
  obtain ⟨-, -, -, hnesting⟩ := Config.positive_of_problem? h.valid
  have hlimit : 1 ≤ config.limits.nesting := hnesting
  rcases Source.compile_of_short hlimit h.short with ⟨p, hcompile⟩ | ⟨e, hcompile⟩
  · obtain ⟨r, hstart, hr, -⟩ := Run.start?_linked (Source.compile_closed hcompile).linked
    obtain ⟨m, hstops⟩ := Run.StopsAt.exists_of_most config.runLimits r w most
    obtain ⟨seen, hseen, hstepwise⟩ :=
      performs_stepwise scene hb h.positive hcompile hstart hr hstops
    refine ⟨seen, _, .run hcompile hstart ?_, ?_, fun hsingly => ?_⟩
    · rw [hstops.trace_eq hr (Run.start?_running hstart).1, List.map_map]
      exact hseen
    · rw [hstops.after_eq]
      exact hstepwise
    -- both performances see the steps of the run up to the same one, hence the same steps
    · obtain ⟨seen', hseen', hanimated⟩ :=
        performs_animated hb h.valid h.positive hcompile hstart hr hstops hsingly
      obtain rfl : seen' = seen :=
        List.map_injective_iff.2 (fun _ _ => Except.ok.inj) (hseen'.trans hseen.symm)
      rw [hstops.after_eq]
      exact hanimated
  · exact ⟨[], _, .unread hcompile, performs_of_error hb h.positive hcompile false,
      fun _ => performs_of_error hb h.positive hcompile true⟩

theorem stage_eq (h : Prepared files config s source most w) (hb : b.Ready config source w)
    (hopened : Workbench.opened config (libraryFor config s.worldsDir) .direct source s.world files =
      (.ok (), b)) : stage files config s =
      if s.animate && !w.snapshot.isDrawable then .error .badNumber
      else .ok (.ok ⟨.begin (filmFor s.animate) b, most⟩) := by
  have hpos : (0 : Int) < most := Int.natCast_pos.2 h.positive
  exact (stage_of_source h.limit hpos h.read).trans (stageSource_of_ready hb hopened)

/-- With another way of performing the text. -/
theorem withAnimate (h : Prepared files config s source most w) (animate : Bool) :
    Prepared files config { s with animate := animate } source most w :=
  ⟨h.valid, h.limit, h.positive, h.read, h.short, h.found⟩

end Prepared

/-- What a command comes to that has what it needs. The steps that it makes are those of the run, in
whichever way it is performed, and so is what is said in the end: the status, the number of actions
and the fault. Its status is zero if the run finishes in time, and one otherwise. Step by step the
last world is shown; animated by single heartbeats, all worlds on the way, with the same one at the
end. If one of them cannot be drawn, the command breaks off. -/
theorem runOutput_concludes [Yaml.Reader] (h : Prepared scene.files config s source most w) :
    ∃ b seen said,
      Workbench.opened config (libraryFor config s.worldsDir) .direct source s.world scene.files =
        (.ok (), b) ∧
      ComesTo config source w most seen said ∧
      (said.status = 0 ↔ FinishesInTime config source w most) ∧
      (said.status = 0 ∨ said.status = 1) ∧
      (Performs scene false most w b seen said ∧
        runOutput scene config { s with animate := false } =
          if (lastWorld w seen).snapshot.isDrawable then
            .ok (said.after ((lastWorld w seen).snapshot.picture ++ "\n"))
          else .error .badNumber) ∧
      (Performance.OneByOne scene.watch scene.start most (.begin (filmFor true) b) →
        (allDrawable w seen = true → Performs scene true most w b seen said ∧ ∃ before : String,
          runOutput scene config { s with animate := true } = .ok (said.after
            (before ++ Film.clearScreen ++ (lastWorld w seen).snapshot.picture ++ "\n"))) ∧
        (allDrawable w seen = false →
          runOutput scene config { s with animate := true } = .error .badNumber)) := by
  obtain ⟨d, hload, hw⟩ := h.found
  obtain ⟨b, hopened, hb⟩ := Workbench.opened_ready source hload hw
  obtain ⟨seen, said, hcomes, hstepwise, hanimated⟩ := h.performs hb
  obtain ⟨hstatus, hone⟩ := comesTo_status_iff h.valid hcomes
  refine ⟨b, seen, said, hopened, hcomes, hstatus, hone, ⟨hstepwise, ?_⟩, fun hsingly => ?_⟩
  · obtain ⟨events, last, hlast, -, -, hcloses⟩ := hstepwise
    have hstage := (h.withAnimate false).stage_eq hb hopened
    rw [runOutput_of_closes hstage hlast hcloses, hcloses.shownBy_stepwise]
    split <;> rfl
  · obtain ⟨events, last, hlast, -, -, hcloses⟩ := hanimated hsingly
    have hstage := (h.withAnimate true).stage_eq hb hopened
    obtain ⟨before, hshown⟩ := hcloses.shownBy_animated
    -- the world at the beginning is drawn before anything is performed
    cases hdrawable : w.snapshot.isDrawable with
    | true =>
      rw [hdrawable] at hstage
      rw [runOutput_of_closes hstage hlast hcloses, hshown]
      refine ⟨fun hall => ⟨hanimated hsingly, before, ?_⟩, fun hnot => ?_⟩
      · rw [hall]
        rfl
      · rw [hnot]
        rfl
    | false =>
      have hnot : allDrawable w seen = false := by
        rw [allDrawable, worldsOf, List.all_cons, hdrawable, Bool.false_and]
      rw [hdrawable] at hstage
      refine ⟨fun hall => absurd (hnot.symm.trans hall) Bool.false_ne_true, fun _ => ?_⟩
      rw [runOutput, hstage]
      rfl

/-! ### A program that picks up a beeper -/

/-- Files with that program, and with a world of one cell where a beeper lies. -/
def pickFiles : Files :=
  ⟨.directory [("p.k", .file (.bytes "pickBeeper();".toUTF8)),
    ("w.w", .file (.bytes "Dimension: (1, 1)\nBeeper: (1, 1)".toUTF8))], []⟩

/-- A configuration with what is in the bag of worlds that do not say. -/
def pickConfig (bag : Option Nat) : Config :=
  ⟨⟨8, 1, 100⟩, ⟨1000, 100000, 100⟩, ⟨"1x1.w", ⟨.here, []⟩, bag.map Int.ofNat⟩, ⟨1, 1⟩⟩

/-- The program is to be run in that world, and to be stopped after two actions. -/
def pickSettings : RunSettings :=
  ⟨"p.k", none, some "w.w", none, some 2, false⟩

/-- The world before the beeper is picked up. -/
def pickWorld (bag : Option Nat) : World :=
  ⟨1, 1, .home, [], [(⟨0, 0⟩, 1)], bag⟩

/-- The world after that. -/
def pickedWorld (bag : Option Nat) : World :=
  ⟨1, 1, .home, [], [], bag.map (· + 1)⟩

/-- The program. -/
def pickProgram : Program :=
  ⟨[⟨"main", [.action .pickBeeper 1], 1⟩], "main"⟩

/-- Its run. -/
def pickRun : Run :=
  ⟨pickProgram, [.enter .procedure [.action .pickBeeper 1]], .running, 0, none⟩

theorem compile_pick : Source.compile 100 "pickBeeper();" = .ok pickProgram := by cbv

variable {bag : Option Nat}

theorem finishesInTime_pick : FinishesInTime (pickConfig bag) "pickBeeper();" (pickWorld bag) 2 := by
  refine ⟨pickProgram, pickRun, 1, compile_pick, rfl, ?_, ?_⟩
  · cases bag <;> rfl
  · cases bag <;> exact Nat.one_lt_two

theorem comesTo_pick (h : ComesTo (pickConfig bag) "pickBeeper();" (pickWorld bag) 2 seen said) :
    seen = [⟨.continued, pickedWorld bag⟩, ⟨.finished, pickedWorld bag⟩] := by
  cases h with
  | unread compiled => cases compile_pick.symm.trans compiled
  | run compiled start steps =>
    obtain rfl := Except.ok.inj (compile_pick.symm.trans compiled)
    obtain rfl : pickRun = _ := Option.some.inj start
    refine List.map_injective_iff.2 (fun _ _ => Except.ok.inj) (steps.trans ?_)
    cases bag <;> rfl

theorem prepared_pick [Yaml.Reader]
    (hload : (libraryFor (pickConfig bag) none).load pickFiles "w.w" =
      .ok ⟨1, 1, .home, [], [(⟨0, 0⟩, 1)], bag.map Int.ofNat⟩) :
    Prepared pickFiles (pickConfig bag) pickSettings "pickBeeper();" 2 (pickWorld bag) where
  valid := by cases bag <;> rfl
  limit := rfl
  positive := by decide
  read := by decide +kernel
  short := by
    have htokens : Source.tokenize "pickBeeper();" =
        .ok ⟨[⟨.word "pickBeeper", ⟨1, 1⟩⟩, ⟨.symbol .leftParen, ⟨1, 11⟩⟩,
          ⟨.symbol .rightParen, ⟨1, 12⟩⟩, ⟨.symbol .semicolon, ⟨1, 13⟩⟩], ⟨1, 14⟩⟩ := by cbv
    intro text htext digits p hmem
    obtain rfl := Except.ok.inj (htokens.symm.trans htext)
    simp at hmem
  found := ⟨_, hload, by cases bag <;> rfl⟩

/-- The program is performed by a watch on which time passes only in sleep. -/
def pickScene : Scene ℚ ℚ :=
  ⟨pickFiles, ⟨.root, []⟩, .still, 0⟩

open scoped Yaml.Plain

theorem runOutput_concludes_pick :
    Prepared pickFiles (pickConfig none) pickSettings "pickBeeper();" 2 (pickWorld none) ∧
      ∃ said before, said.status = 0 ∧
        runOutput pickScene (pickConfig none) { pickSettings with animate := false } =
          .ok (Conclusion.after ((pickedWorld none).snapshot.picture ++ "\n") said) ∧
        runOutput pickScene (pickConfig none) { pickSettings with animate := true } =
          .ok (Conclusion.after
            (before ++ Film.clearScreen ++ (pickedWorld none).snapshot.picture ++ "\n") said) := by
  have hprepared : Prepared pickScene.files (pickConfig none) pickSettings "pickBeeper();" 2
      (pickWorld none) := prepared_pick (by decide +kernel)
  obtain ⟨b, seen, said, hopened, hcomes, hstatus, -, ⟨-, hstepwise⟩, hanimated⟩ :=
    runOutput_concludes hprepared
  obtain ⟨d, hload, hw⟩ := hprepared.found
  obtain ⟨b', hopened', hb⟩ := Workbench.opened_ready "pickBeeper();" hload hw
  obtain rfl : b' = b := congrArg Prod.snd (hopened'.symm.trans hopened)
  obtain rfl := comesTo_pick hcomes
  obtain ⟨hwhole, -⟩ := hanimated (Performance.oneByOne_still hb hprepared.valid 0 2)
  obtain ⟨-, before, houtput⟩ := hwhole rfl
  exact ⟨hprepared, said, before, hstatus.2 finishesInTime_pick, hstepwise, houtput⟩

/-- The greatest number of beepers that can be written. -/
def fullBag : Nat :=
  10 ^ Text.maxDigits - 1

/-- With a full bag the program finishes in time, and the command breaks off: the picture of the last
world cannot be drawn. -/
theorem runOutput_undrawable :
    Prepared pickFiles (pickConfig (some fullBag)) pickSettings "pickBeeper();" 2
        (pickWorld (some fullBag)) ∧
      FinishesInTime (pickConfig (some fullBag)) "pickBeeper();" (pickWorld (some fullBag)) 2 ∧
      runOutput pickScene (pickConfig (some fullBag)) pickSettings = .error .badNumber := by
  have hprepared : Prepared pickScene.files (pickConfig (some fullBag)) pickSettings
      "pickBeeper();" 2 (pickWorld (some fullBag)) := prepared_pick (by decide +kernel)
  obtain ⟨d, hload, hw⟩ := hprepared.found
  obtain ⟨b, hopened, hb⟩ := Workbench.opened_ready "pickBeeper();" hload hw
  obtain ⟨seen, said, hcomes, ⟨events, last, hlast, -, -, hcloses⟩, -⟩ :=
    hprepared.performs hb
  have hnot : (lastWorld (pickWorld (some fullBag)) seen).snapshot.isDrawable = false := by
    rw [comesTo_pick hcomes]
    decide +kernel
  refine ⟨hprepared, finishesInTime_pick, ?_⟩
  rw [runOutput_of_closes (hprepared.stage_eq hb hopened) hlast hcloses, hcloses.shownBy_stepwise,
    hnot]
  rfl

end Command

end GridRobot

import GridRobot.Proofs.Command.Stage
import GridRobot.Yaml.Document

/-!
# How many actions a command performs

A command that runs a program stops it after a number of actions. Step by step it looks after every
action. While it animates the program it looks only between two batches of heartbeats, and a batch is
as large as the watch makes it: the actions of the last batch may go beyond the number.

## Main definitions

* `Performance.Made` says that a performance shows the world that its actions have made.
* `Performance.Animated` says what an animated performance is after some batches of heartbeats.

## Main statements

* `Command.actions_overrun_le`: by how many actions a performance may go beyond the number.
* `Command.actions_overrun`: a performance that does so.
-/

namespace GridRobot

variable {config : Config} {source : String} {w : World} {b : Workbench} {film : Option Film}
  {limits : Limits} {r : Run} {p : Program} {key m n : Nat}

namespace Performance

/-- A performance shows what the actions that it has counted have made of a world. -/
def Made (w : World) (p : Performance) : Prop :=
  ∃ (actions : List Action) (after : World), actions.length = p.bench.steps ∧
    actions.foldlM World.perform w = .ok after ∧ p.bench.world? = some after

theorem Follows.made (hzero : r.steps = 0) (h : Follows limits r w key m film b) :
    (begin film b).Made w := by
  obtain ⟨actions, hcount, hworld⟩ := r.after_performs limits w m
  refine ⟨actions, _, ?_, hworld, h.plays.world?⟩
  rw [hzero, Nat.zero_add] at hcount
  exact hcount.symm.trans h.plays.steps.symm

/-- What a performance has made shows in its count and in its world. -/
theorem Made.of_same {q last : Performance} (h : q.Made w) (hsteps : last.bench.steps = q.bench.steps)
    (hworld : last.bench.world? = q.bench.world?) : last.Made w := by
  obtain ⟨actions, after, hcount, hmakes, hshown⟩ := h
  exact ⟨actions, after, hcount.trans hsteps.symm, hmakes, hworld.trans hshown⟩

variable {τ ω : Type} [Seconds τ] {watch : Watch τ ω} {start : ω} {most : Int}

/-- An animated performance after some batches of heartbeats, whatever the watch shows. -/
inductive Animated (watch : Watch τ ω) (start : ω) (most : Int) (p : Performance) :
    List Nat → Performance → Prop where
  /-- The text is no program, and there are no heartbeats. -/
  | unread {begun : Performance} (h : p.beginAnimation = .ok (false, begun)) :
      Animated watch start most p [] begun
  | paced {begun q : Performance} {interval : τ} {batches : List Nat} {pacer : Pacer τ} {t : ω}
      (h : p.beginAnimation = .ok (true, begun))
      (hinterval : Seconds.ofMilliseconds (begun.bench.config.timing.heartbeatMs.toNat : Int) =
        .ok interval)
      (hands : Pacer.Hands (surroundings watch most) (.begin interval (watch.now start).1)
        ((watch.now start).2, begun) batches pacer (t, q)) :
      Animated watch start most p batches q

/-- An animated performance comes to its end after some batches, and then gives up its run. -/
theorem animated_of_playAnimated [Yaml.Reader] {last : Performance}
    (h : playAnimated watch start most (begin film b) = .ok last) :
    ∃ batches q, Animated watch start most (begin film b) batches q ∧
      last.bench.steps = q.bench.steps ∧ last.bench.world? = q.bench.world? := by
  rcases hplay : b.play.1 with i | e | p
  · rw [playAnimated, beginAnimation_eq, hplay] at h
    cases h
  · rw [playAnimated_of_not_program hplay] at h
    refine ⟨[], last, .unread ?_, rfl, rfl⟩
    rw [beginAnimation_eq, hplay, ← Except.ok.inj h]
    rfl
  · rw [playAnimated_eq hplay] at h
    obtain ⟨interval, hinterval, h⟩ := bind_eq_ok.1 h
    obtain ⟨batches, pacer, ⟨t, q⟩, hands, -, ⟨hrun, -⟩ | ⟨i, hrun, -⟩⟩ := Pacer.run_hands
      (surroundings watch most) (mostBatches b.play.2.config most)
      (.begin interval (watch.now start).1) ((watch.now start).2, begin film b.play.2)
    · rw [hrun] at h
      obtain rfl : q = _ := hands_begin hands
      obtain rfl := Except.ok.inj h
      refine ⟨batches, _, .paced ?_ hinterval hands, (leave_begin film _).2⟩
      rw [beginAnimation_eq, hplay]
      rfl
    · rw [hrun] at h
      cases h

/-- The batches of an animated run have made its steps at every `n`-th heartbeat, and before the last
one the run had made fewer steps than it may. -/
theorem Animated.follows [Yaml.Reader] {most : Nat} {batches : List Nat} {q : Performance}
    (h : Animated watch start most (begin film b) batches q) (hb : b.Poised limits w key)
    (hp : b.program? = some p) (hstart : Run.start? p = some r) (hr : r.Linked) (hn : 0 < n)
    (hperiod : b.desk.scheduler.period = n)
    (htells : (begin film b).record.Tells limits r w 0) :
    ∃ b', q = begin film b' ∧ Follows limits r w key (batches.sum / n) film b' ∧
      ∀ earlier k, batches = earlier ++ [k] → earlier.sum / n < most := by
  obtain ⟨hplay, hfollows, hpaced⟩ := follows_play hb hp hstart hperiod htells
  have hbegin : (begin film b).beginAnimation = .ok (true, begin film b.play.2) := by
    rw [beginAnimation_eq, hplay]
    rfl
  cases h with
  | unread h => cases hbegin.symm.trans h
  | paced h hinterval hands =>
    obtain rfl : begin film b.play.2 = _ := congrArg Prod.snd (Except.ok.inj (hbegin.symm.trans h))
    refine ⟨_, hands_begin hands, (hfollows.heartbeats hr hn hpaced _).1, ?_⟩
    rintro earlier k rfl
    obtain ⟨pacer, ⟨t, q'⟩, hearlier, hgoes⟩ := hands.last
    obtain rfl : q' = _ := hands_begin hearlier
    obtain ⟨hfollows', hpaced'⟩ := hfollows.heartbeats hr hn hpaced earlier.sum
    exact ((goesOn_iff hr (Run.start?_running hstart).2 t hfollows' hpaced').1 hgoes).2

/-- A batch of `k` adds at most so many whole periods. -/
theorem add_div_le (hn : 0 < n) (a k : Nat) : (a + k) / n ≤ a / n + 1 + (k - 1) / n := by
  have ha : a < n * (a / n + 1) := Nat.lt_mul_div_succ a hn
  have hk : k - 1 < n * ((k - 1) / n + 1) := Nat.lt_mul_div_succ (k - 1) hn
  have hsum : n * (a / n + 1 + (k - 1) / n + 1) =
      n * (a / n + 1) + n * ((k - 1) / n + 1) := by ring
  refine Nat.lt_add_one_iff.1 ((Nat.div_lt_iff_lt_mul hn).2 ?_)
  rw [Nat.mul_comm]
  omega

/-- Without a program no action is made, and the performance is not animated. -/
theorem Animated.of_not_program {batches : List Nat} {q : Performance}
    (h : Animated watch start most (begin film b) batches q) (hb : b.Ready config source w)
    (hp : b.program? = none) : q.Made w ∧ batches = [] ∧ q.bench.steps = 0 := by
  obtain ⟨hnot, last, ns, hcompiled, -⟩ := Workbench.compile_of_not_program? hp
  have hbegin := beginAnimation_eq film b
  rw [Workbench.play_eq_compile hp] at hbegin
  cases h with
  | unread h =>
    obtain ⟨outcome, -, hq⟩ := map_eq_ok.1 (hbegin.symm.trans h)
    obtain rfl : begin film b.compile.2 = q := congrArg Prod.snd hq
    have hzero : (begin film b.compile.2).bench.steps = 0 := by
      rw [hcompiled]
      exact hb.steps
    have hshown : (begin film b.compile.2).bench.world? = some w := by
      rw [hcompiled]
      exact hb.poised.world?
    exact ⟨⟨[], w, hzero.symm, rfl, hshown⟩, rfl, hzero⟩
  | paced h _ _ =>
    obtain ⟨outcome, houtcome, hq⟩ := map_eq_ok.1 (hbegin.symm.trans h)
    cases outcome with
    | error e => cases hq
    | ok p => exact absurd houtcome (hnot p)

/-- By how many actions an animated performance may go beyond the number after which it is to be
stopped: by one for each further period of the last batch of heartbeats. -/
theorem Animated.overrun_le [Yaml.Reader] {most : Nat} {batches : List Nat} {q : Performance}
    (h : Animated watch start most (begin film b) batches q) (hb : b.Ready config source w)
    (hn : 0 < n) (hperiod : config.timing.actionHeartbeats.toNat = n)
    (hfilm : ∀ f ∈ film, f = .blank true) :
    q.Made w ∧
      (∀ p r, b.program? = some p → Run.start? p = some r →
        q.bench.steps = (r.after config.runLimits w (batches.sum / n)).1.steps) ∧
      q.bench.steps ≤ most + (batches.getLastD 0 - 1) / n := by
  cases hp : b.program? with
  | none =>
    obtain ⟨hmade, -, hzero⟩ := h.of_not_program hb hp
    exact ⟨hmade, nofun, by rw [hzero]; exact Nat.zero_le _⟩
  | some p =>
    obtain ⟨r, hstart, hr, -, -⟩ := Run.start?_linked (Workbench.linked_of_program? hp)
    have hzero := (Run.start?_running hstart).2
    obtain ⟨b', rfl, hfollows, hearlier⟩ := h.follows hb.poised hp hstart hr hn
      (hb.period.trans hperiod) (tells_begin hb hstart hfilm)
    refine ⟨hfollows.made hzero, ?_, ?_⟩
    · intro p' r' hp' hstart'
      obtain rfl := Option.some.inj hp'
      obtain rfl := Option.some.inj (hstart.symm.trans hstart')
      exact hfollows.plays.steps
    · have hsteps : b'.steps ≤ batches.sum / n := by
        have hle := r.after_steps_le config.runLimits w (batches.sum / n)
        rw [hfollows.plays.steps]
        rwa [hzero, Nat.zero_add] at hle
      refine Nat.le_trans hsteps ?_
      -- before the last batch the run had made fewer steps than it may
      rcases List.eq_nil_or_concat' batches with rfl | ⟨earlier, k, rfl⟩
      · simp
      · have hless := hearlier earlier k rfl
        have hbatch := add_div_le hn earlier.sum k
        rw [List.sum_append, List.sum_singleton, List.getLastD_concat]
        omega

end Performance

namespace Command

variable {τ ω : Type} [Seconds τ] {scene : Scene τ ω} {s : RunSettings} {ready : Stage}

/-- Step by step a performance of a program comes to its end, or is stopped after the number of
actions. -/
theorem perform_stepwise_of_program [Yaml.Reader] (scene : Scene τ ω) {most : Nat}
    (hb : b.Ready config source w) (hmost : 0 < most) (hfilm : ∀ f ∈ film, f = .blank true)
    (hp : b.program? = some p) : ∃ last, perform scene false ⟨.begin film b, most⟩ = .ok last ∧ last.Made w ∧
      last.bench.steps ≤ most := by
  obtain ⟨r, hstart, hr, -, hrun⟩ := Run.start?_linked (Workbench.linked_of_program? hp)
  have hzero := (Run.start?_running hstart).2
  obtain ⟨k, hk⟩ := Performance.playStepwise_spec (n := most) (m := 0) hr hzero hmost
    (.first hb.poised hp hstart) (Performance.tells_begin hb hstart hfilm)
    (fun j hj => by rw [Nat.le_zero.1 hj]; exact hrun)
  have hplayed := hk.played
  rw [Nat.zero_add] at hplayed
  refine ⟨_, hplayed, hk.follows.made hzero, ?_⟩
  have hle := r.after_steps_le config.runLimits w (0 + k)
  have hstops := hk.stops.le
  rw [hzero] at hle
  exact Nat.le_trans (Nat.le_of_eq hk.follows.plays.steps) (by omega)

/-- So it is whatever the text comes to, and only a program is performed. -/
theorem perform_stepwise_made [Yaml.Reader] (scene : Scene τ ω) {most : Nat}
    (hb : b.Ready config source w) (hmost : 0 < most) (hfilm : ∀ f ∈ film, f = .blank true) :
    (∀ last, perform scene false ⟨.begin film b, most⟩ = .ok last →
      last.Made w ∧ last.bench.steps ≤ most) ∧
    ∀ i, perform scene false ⟨.begin film b, most⟩ = .error i →
      ∀ p, Source.compile config.limits.nesting source ≠ .ok p := by
  have hpos : (0 : Int) < most := Int.natCast_pos.2 hmost
  rcases hcompile : Source.compile config.limits.nesting source with refusal | p
  · refine ⟨fun last h => ?_, fun _ _ => nofun⟩
    by_cases hnot : ∀ e, refusal ≠ .error e
    · rw [perform_of_refusal hb hpos hcompile hnot] at h
      cases h
    · obtain ⟨e, he⟩ := not_forall.1 hnot
      obtain rfl := not_not.1 he
      rw [perform_of_error hb hpos hcompile] at h
      obtain rfl := Except.ok.inj h
      rw [hb.compile_of_error hcompile]
      refine ⟨⟨[], w, hb.steps.symm, rfl, hb.poised.world?⟩, ?_⟩
      exact Nat.le_trans (Nat.le_of_eq hb.steps) (Nat.zero_le _)
  · obtain ⟨last, hlast, hmade⟩ :=
      perform_stepwise_of_program scene hb hmost hfilm (hb.program?_eq.2 hcompile)
    refine ⟨fun last' h => ?_, fun i h => ?_⟩
    · obtain rfl := Except.ok.inj (hlast.symm.trans h)
      exact hmade
    · cases hlast.symm.trans h

/-- By how many actions a performance may go beyond the number after which it is to be stopped: by
none step by step, and by none while it is animated and the last batch of heartbeats is no longer than
the period of the scheduler; by one for each further period of the last batch otherwise. -/
theorem actions_overrun_le [Yaml.Reader] (hconfig : config.problem? = none)
    (hstage : stage scene.files config s = .ok (.ok ready)) :
    ∃ source w, scene.files.readText (.ofText s.program) = .ok source ∧
      ready.first.bench.world? = some w ∧
      (∀ last, perform scene false ready = .ok last →
        last.Made w ∧ (last.bench.steps : Int) ≤ ready.most) ∧
      (∀ i, perform scene false ready = .error i →
        ∀ p, Source.compile config.limits.nesting source ≠ .ok p) ∧
      (∀ last, perform scene true ready = .ok last → last.Made w ∧ ∃ batches q,
        Performance.Animated scene.watch scene.start ready.most ready.first batches q ∧
          last.bench.steps = q.bench.steps) ∧
      ∀ batches q,
        Performance.Animated scene.watch scene.start ready.most ready.first batches q →
          q.Made w ∧
          (∀ p r, Source.compile config.limits.nesting source = .ok p → Run.start? p = some r →
            q.bench.steps = (r.after config.runLimits w
              (batches.sum / config.timing.actionHeartbeats.toNat)).1.steps) ∧
          (q.bench.steps : Int) ≤ ready.most +
            ((batches.getLastD 0 - 1) / config.timing.actionHeartbeats.toNat : Nat) ∧
          ((batches.getLastD 0 : Int) ≤ config.timing.actionHeartbeats →
            (q.bench.steps : Int) ≤ ready.most) := by
  obtain ⟨-, hperiod, -, hnesting⟩ := Config.positive_of_problem? hconfig
  obtain ⟨source, w, b, -, hpos, hsource, hb, hfirst⟩ := stage_ready hstage
  obtain ⟨first, limit⟩ := ready
  obtain rfl : first = _ := hfirst
  obtain ⟨most, rfl⟩ := Int.eq_ofNat_of_zero_le (Int.le_of_lt hpos)
  have hmost : 0 < most := Int.natCast_pos.1 hpos
  have hfilm := eq_blank_of_mem_filmFor s.animate
  have hn : 0 < config.timing.actionHeartbeats.toNat := by omega
  obtain ⟨hstepwise, hbroken⟩ := perform_stepwise_made scene hb hmost hfilm
  refine ⟨source, w, hsource, hb.poised.world?, ?_, hbroken, ?_, ?_⟩
  · intro last hlast
    obtain ⟨hmade, hle⟩ := hstepwise last hlast
    exact ⟨hmade, Int.ofNat_le.2 hle⟩
  · intro last hlast
    obtain ⟨batches, q, hreach, hsteps, hworld⟩ := Performance.animated_of_playAnimated hlast
    exact ⟨(hreach.overrun_le hb hn rfl hfilm).1.of_same hsteps hworld, batches, q, hreach, hsteps⟩
  · intro batches q hreach
    obtain ⟨hmade, hcount, hle⟩ := hreach.overrun_le hb hn rfl hfilm
    refine ⟨hmade, ?_, ?_, ?_⟩
    · exact fun p r hp hstart => hcount p r (hb.program?_eq.2 hp) hstart
    · show (q.bench.steps : Int) ≤ (most : Int) + _
      exact_mod_cast hle
    · intro hshort
      rw [Nat.div_eq_of_lt (by omega), Nat.add_zero] at hle
      exact Int.ofNat_le.2 hle

/-! ### A watch that falls behind -/

/-- Files with a program of two steps. -/
def rowFiles : Files :=
  ⟨.directory [("p.k", .file (.bytes "move(); move();".toUTF8))], []⟩

/-- A configuration that begins with a blank row of three cells. -/
def rowConfig : Config :=
  ⟨⟨8, 1, 100⟩, ⟨1000, 100000, 100⟩, ⟨"3x1.w", ⟨.here, []⟩, none⟩, ⟨1, 1⟩⟩

/-- The program is to be animated, and to be stopped after one action. -/
def rowSettings : RunSettings :=
  ⟨"p.k", none, none, none, some 1, true⟩

open scoped Yaml.Plain

/-- The program on the row. -/
def rowBench : Workbench :=
  (Workbench.opened rowConfig (libraryFor rowConfig none) .direct "move(); move();" none rowFiles).2

theorem opened_row :
    Workbench.opened rowConfig (libraryFor rowConfig none) .direct "move(); move();" none rowFiles =
        (.ok (), rowBench) ∧
      rowBench.Ready rowConfig "move(); move();" ⟨3, 1, .home, [], [], none⟩ := by
  have hload : (libraryFor rowConfig none).load rowFiles (Workbench.firstName rowConfig none) =
      .ok ⟨3, 1, .home, [], [], none⟩ := by decide +kernel
  obtain ⟨b, hopened, hb⟩ := Workbench.opened_ready "move(); move();" hload rfl
  obtain rfl : rowBench = b := congrArg Prod.snd hopened
  exact ⟨hopened, hb⟩

theorem stage_row :
    stage rowFiles rowConfig rowSettings = .ok (.ok ⟨.begin (filmFor true) rowBench, 1⟩) := by
  have hsource : rowFiles.readText (.ofText rowSettings.program) = .ok "move(); move();" := by
    decide +kernel
  have hstage : stage rowFiles rowConfig rowSettings =
      stageSource rowFiles rowConfig rowSettings 1 "move(); move();" :=
    stage_of_source rfl Int.one_pos hsource
  exact hstage.trans (stageSource_of_ready opened_row.2 opened_row.1)

/-- A watch by which every sleep takes eight milliseconds too long. -/
def laggingWatch : Watch ℚ ℚ where
  now t := (t, t)
  sleep delay t := t + delay + 1 / 125

/-- The program is performed by that watch. -/
def laggingScene : Scene ℚ ℚ :=
  ⟨rowFiles, ⟨.root, []⟩, laggingWatch, 0⟩

/-- The program of two steps. -/
def twoMoves : Program :=
  ⟨[⟨"main", [.action .move 1, .action .move 1], 1⟩], "main"⟩

theorem program?_rowBench : rowBench.program? = some twoMoves := by
  have hcompile : Source.compile 100 "move(); move();" = .ok twoMoves := by cbv
  exact opened_row.2.program?_eq.2 hcompile

/-- The two heartbeats that are due when the first sleep ends come in one batch. -/
theorem perform_row : ∃ last,
    perform laggingScene true ⟨.begin (filmFor true) rowBench, 1⟩ = .ok last ∧
      last.bench.steps = 2 ∧ last.bench.world?.map (fun w => w.robot.cell) = some ⟨2, 0⟩ := by
  have hplay := Workbench.play_of_program? program?_rowBench
  have hinterval : (Seconds.ofMilliseconds (rowBench.play.2.config.timing.heartbeatMs.toNat : Int) :
      Except Breakdown ℚ) = .ok (8 / 1000) := by
    rw [rowBench.play_config]
    rfl
  have hmost : Performance.mostBatches rowBench.play.2.config 1 = 1 := by
    rw [rowBench.play_config]
    rfl
  have hrun : ((Pacer.run (Performance.surroundings laggingWatch 1) 1 (.begin (8 / 1000) 0)
      (0, .begin (filmFor true) rowBench.play.2)).map fun last => last.2.2.leave).map
        (fun last => (last.bench.steps, last.bench.world?.map fun w => w.robot.cell)) =
      .ok (2, some ⟨2, 0⟩) := by
    rw [hplay]
    decide +kernel
  obtain ⟨last, hlast, hshown⟩ := map_eq_ok.1 hrun
  refine ⟨last, ?_, congrArg Prod.fst hshown, congrArg Prod.snd hshown⟩
  show Performance.playAnimated laggingWatch 0 1 _ = _
  rw [Performance.playAnimated_eq (Workbench.play_outcome program?_rowBench), hinterval, hmost]
  exact hlast

theorem actions_overrun_le_row : rowConfig.problem? = none ∧ ∃ ready last w batches q,
    stage laggingScene.files rowConfig rowSettings = .ok (.ok ready) ∧
      perform laggingScene true ready = .ok last ∧ ready.first.bench.world? = some w ∧ last.Made w ∧
      Performance.Animated laggingWatch 0 1 ready.first batches q ∧ q.bench.steps = 2 ∧
      (2 : Int) ≤ 1 + ((batches.getLastD 0 - 1) / 1 : Nat) := by
  have hconfig : rowConfig.problem? = none := by decide
  have hstage : stage laggingScene.files rowConfig rowSettings =
      .ok (.ok ⟨.begin (filmFor true) rowBench, 1⟩) := stage_row
  obtain ⟨source, w, -, hw, -, -, hanimated, hbatches⟩ := actions_overrun_le hconfig hstage
  obtain ⟨last, hlast, htwo, -⟩ := perform_row
  obtain ⟨hmade, batches, q, hreach, hsteps⟩ := hanimated last hlast
  have hq : q.bench.steps = 2 := hsteps.symm.trans htwo
  obtain ⟨-, -, hle, -⟩ := hbatches batches q hreach
  rw [hq] at hle
  exact ⟨hconfig, _, last, w, batches, q, hstage, hlast, hw, hmade, hreach, hq, hle⟩

/-- The watch is what makes the difference: the program makes two actions, and was to be stopped
after one. -/
theorem actions_overrun : ∃ ready last,
    stage laggingScene.files rowConfig rowSettings = .ok (.ok ready) ∧ ready.most = 1 ∧
      perform laggingScene true ready = .ok last ∧ last.bench.steps = 2 ∧
      last.bench.world?.map (fun w => w.robot.cell) = some ⟨2, 0⟩ := by
  obtain ⟨last, hlast⟩ := perform_row
  exact ⟨_, last, stage_row, rfl, hlast⟩

end Command

end GridRobot

import GridRobot.Proofs.Clock.Pacer
import GridRobot.Proofs.Command.Record

/-!
# What a performance comes to

A performance turns the page of its workbench after every request and keeps a record of what was told,
so it has the history that its workbench has without pages. Played step by step, it makes the steps
of its run until the run has ended or is stopped. Animated, it makes them at the pace of the
scheduler, and looks whether to stop between two batches only.

## Main definitions

* `Performance.Follows` says that a workbench has made so many steps of a run, and that its record
  tells of them.
* `Performance.OneByOne` says that the heartbeats of an animated performance come one by one.

## Main statements

* `Performance.begin_next`: a performance has the history of its workbench.
* `Performance.playStepwise_spec`: a performance step by step.
* `Performance.hands_begin`: an animated performance after some batches.
* `Performance.playAnimated_spec`: an animated performance whose heartbeats come one by one.
-/

namespace GridRobot

variable {limits : Limits} {r : Run} {w : World} {key m n k most : Nat} {film : Option Film}
  {b b' : Workbench} {p : Program} {e : Source.CompileError}

namespace Performance

/-! ### Histories -/

theorem begin_record {ns : List Notice} (h : b'.notices = b.notices ++ ns) :
    (begin film b').record = ns.foldl Record.note (begin film b).record := by
  simp only [begin, h, List.foldl_append]

/-- What was done on a new page was done behind the one before. -/
theorem begin_next_behind (film : Option Film) (b after : Workbench) :
    (begin film b).next after = begin film (after.behind b.notices) := by
  show Performance.mk after.newPage _ = ⟨_, (b.notices ++ after.notices).foldl Record.note _⟩
  rw [List.foldl_append]
  rfl

/-- A performance has the history that its workbench has without pages. -/
theorem begin_next [Yaml.Reader] (film : Option Film) (b : Workbench) (events : List Event) :
    (begin film b).next ((begin film b).bench.through events) = begin film (b.through events) := by
  rw [begin_next_behind, ← Workbench.through_behind]
  exact congrArg (fun bench => begin film (bench.through events)) b.behind_newPage

/-- The first request of a step by step performance, and what comes of it. -/
theorem playStepwise_succ (most : Int) (film : Option Film) (b : Workbench) (n : Nat) :
    playStepwise most (begin film b) (n + 1) =
      match b.singleStep.1 with
      | .error i => .error i
      | .ok (some .continued) =>
        if most ≤ b.singleStep.2.steps then .ok (begin film b.singleStep.2)
        else playStepwise most (begin film b.singleStep.2) n
      | .ok _ => .ok (begin film b.singleStep.2) := by
  -- a page that is turned takes the notices away, and a single step does not look at them
  have hsame : b.singleStep =
      (b.newPage.singleStep.1, b.newPage.singleStep.2.behind b.notices) := by
    have h := Workbench.singleStep_refiled b.notices id b.newPage
    exact (congrArg Workbench.singleStep (b.behind_newPage)).symm.trans h
  have hnext : (begin film b).next b.newPage.singleStep.2 = begin film b.singleStep.2 := by
    rw [begin_next_behind, hsame]
  have hsteps : b.singleStep.2.steps = b.newPage.singleStep.2.steps := by rw [hsame]; rfl
  have hsaid : b.singleStep.1 = b.newPage.singleStep.1 := by rw [hsame]
  have hbench : (begin film b).bench.singleStep = b.newPage.singleStep := rfl
  rw [playStepwise, hsteps, ← hnext, hsaid, hbench]
  rcases b.newPage.singleStep with ⟨i | (_ | _ | _ | _), after⟩ <;> rfl

/-- A workbench has made `m` steps of a run, and the record that is made of it tells of them. -/
structure Follows (limits : Limits) (r : Run) (w : World) (key m : Nat) (film : Option Film)
    (b : Workbench) : Prop where
  plays : b.Plays limits r w key m
  tells : (begin film b).record.Tells limits r w m

/-! ### Step by step -/

section

variable [Yaml.Reader]

/-- A performance that has made `m` steps of a run and may make at most `n` more makes `k` more. -/
structure MakesSteps (limits : Limits) (r : Run) (w : World) (key m n k : Nat) (film : Option Film)
    (b : Workbench) : Prop where
  stops : r.StopsAt limits w (m + n) (m + k)
  played : playStepwise ((m + n : Nat) : Int) (begin film b) n =
    .ok (begin film (b.through (.replicate k .singleStep)))
  follows : Follows limits r w key (m + k) film (b.through (.replicate k .singleStep))
  seen : (b.seen (.replicate k .singleStep)).map Except.ok =
    (List.range' m k).map fun i => (r.stepAfter limits w i).observed

/-- The first step of a performance is made and seen. -/
structure FirstStep (limits : Limits) (r : Run) (w : World) (key m : Nat) (film : Option Film)
    (b : Workbench) : Prop where
  follows : Follows limits r w key (m + 1) film b.singleStep.2
  seen : ∃ o, b.seen? .singleStep = some o ∧ (r.stepAfter limits w m).observed = .ok o

/-- A performance may end with its first step. -/
theorem FirstStep.last (h : FirstStep limits r w key m film b)
    (hgoing : ∀ j ≤ m, (r.after limits w j).1.status = .running)
    (hends : (r.after limits w (m + 1)).1.status = .running → n = 0)
    (hplayed : playStepwise ((m + (n + 1) : Nat) : Int) (begin film b) (n + 1) =
      .ok (begin film b.singleStep.2)) : MakesSteps limits r w key m (n + 1) 1 film b := by
  obtain ⟨o, hseen, hobserved⟩ := h.seen
  refine ⟨⟨fun j hj => hgoing j (Nat.le_of_lt_succ hj), by omega, fun hgoes => ?_⟩, hplayed,
    h.follows, by simp [Workbench.seen, hseen, hobserved]⟩
  rw [hends hgoes]

/-- Or it goes on from there. -/
theorem FirstStep.cons (h : FirstStep limits r w key m film b)
    (hplayed : playStepwise ((m + (n + 1) : Nat) : Int) (begin film b) (n + 1) =
      playStepwise ((m + (n + 1) : Nat) : Int) (begin film b.singleStep.2) n)
    (hlater : MakesSteps limits r w key (m + 1) n k film b.singleStep.2) :
    MakesSteps limits r w key m (n + 1) (k + 1) film b := by
  obtain ⟨o, hseen, hobserved⟩ := h.seen
  have hsum : m + 1 + n = m + (n + 1) := by omega
  have hcount : m + 1 + k = m + (k + 1) := by omega
  refine ⟨?_, ?_, ?_, ?_⟩
  · rw [← hsum, ← hcount]
    exact hlater.stops
  · rw [hplayed, ← hsum]
    exact hlater.played
  · rw [← hcount]
    exact hlater.follows
  · rw [List.replicate_succ, List.range'_succ, Workbench.seen, hseen]
    show _ :: (b.singleStep.2.seen _).map _ = _
    rw [hlater.seen, ← hobserved]
    rfl

/-- Step by step a performance makes the steps of its run until this has ended or all steps are made
that may be made. -/
theorem playStepwise_spec (hr : r.Linked) (hzero : r.steps = 0) (hn : 0 < n)
    (h : b.NextStep limits r w key m) (htells : (begin film b).record.Tells limits r w m)
    (hgoing : ∀ j ≤ m, (r.after limits w j).1.status = .running) :
    ∃ k, MakesSteps limits r w key m n k film b := by
  induction n generalizing m b with
  | zero => cases hn
  | succ n ih =>
    have hrun := hgoing m (Nat.le_refl m)
    obtain ⟨x, hx, hresult, hplays, hnotices⟩ := h.singleStep hr
    have hfirst : FirstStep limits r w key m film b :=
      ⟨⟨hplays, by rw [begin_record hnotices]; exact htells.step hrun hx⟩,
        Workbench.seen?_of_step (e := .singleStep) (by simp [Workbench.stepResult?, hresult]) hx hplays⟩
    have hplayed := playStepwise_succ ((m + (n + 1) : Nat) : Int) film b n
    rw [hresult] at hplayed
    by_cases hgo : x = .continued
    · subst hgo
      have hgoes : (r.after limits w (m + 1)).1.status = .running := by
        rw [Run.after_succ]
        exact (Run.step_running_iff hrun).2 (.inl hx)
      have hsteps : b.singleStep.2.steps = m + 1 := by
        rw [hplays.steps, hr.after_steps hgoes, hzero, Nat.zero_add]
      simp only [hsteps] at hplayed
      -- the run goes on, and so does the performance unless this was the last step it may make
      rcases Nat.eq_zero_or_pos n with rfl | hpos
      · exact ⟨1, hfirst.last hgoing (fun _ => rfl) (hplayed.trans (if_pos (by omega)))⟩
      · rw [if_neg (by omega)] at hplayed
        obtain ⟨k, hk⟩ := ih hpos (.later hplays hgoes) hfirst.follows.tells fun j hj => by
          rcases Nat.lt_or_eq_of_le hj with hlt | rfl
          · exact hgoing j (Nat.le_of_lt_succ hlt)
          · exact hgoes
        exact ⟨k + 1, hfirst.cons hplayed hk⟩
    · have hended : (r.after limits w (m + 1)).1.status ≠ .running := by
        rw [Run.after_succ, Ne, Run.stepAfter, Run.step_running_iff hrun]
        rintro (hgo' | ⟨missing, hmissing⟩)
        · exact hgo (Except.ok.inj (hx.symm.trans hgo'))
        · cases hx.symm.trans hmissing
      refine ⟨1, hfirst.last hgoing (fun hgoes => absurd hgoes hended) (hplayed.trans ?_)⟩
      cases x with
      | continued => exact absurd rfl hgo
      | finished => rfl
      | fault f => rfl

end

/-! ### At the pace of the scheduler -/

/-- A heartbeat is recorded. -/
theorem Follows.heartbeat (hr : r.Linked) (hn : 0 < n) (h : Follows limits r w key (k / n) film b)
    (hd : b.desk.Paced limits n r w key k) :
    Follows limits r w key ((k + 1) / n) film b.heartbeat ∧
      b.heartbeat.desk.Paced limits n r w key (k + 1) := by
  obtain ⟨hplays, hpaced, hbeats⟩ := h.plays.heartbeat hr hn hd
  refine ⟨⟨hplays, ?_⟩, hpaced⟩
  cases hbeats with
  | step due running count result heard told =>
    rw [begin_record told, count]
    exact h.tells.step running result
  | idle quiet same heard told few =>
    -- after the end of the run the steps are counted on, but nothing changes any more
    have htells : (begin film b).record.Tells limits r w ((k + 1) / n) := by
      by_cases hdvd : n ∣ k + 1
      · rw [Nat.succ_div_of_dvd hdvd] at same ⊢
        exact h.tells.succ same
      · rw [Nat.succ_div_of_not_dvd hdvd]
        exact h.tells
    rw [begin_record told]
    rcases few with rfl | rfl
    · exact htells
    · exact htells.redrawn

/-- So are any number of heartbeats. -/
theorem Follows.heartbeats [Yaml.Reader] (hr : r.Linked) (hn : 0 < n)
    (h : Follows limits r w key 0 film b) (hd : b.desk.Paced limits n r w key 0) (k : Nat) :
    Follows limits r w key (k / n) film (b.through (.replicate k .heartbeat)) ∧
      (b.through (.replicate k .heartbeat)).desk.Paced limits n r w key k := by
  induction k with
  | zero =>
    rw [Nat.zero_div]
    exact ⟨h, hd⟩
  | succ k ih =>
    rw [List.replicate_succ', Workbench.through_concat]
    exact ih.1.heartbeat hr hn ih.2

theorem animating_iff (hd : b.desk.Paced limits n r w key k) :
    b.animating = true ↔ (r.after limits w (k / n)).1.status = .running := by
  rw [Workbench.animating, decide_eq_true_iff]
  constructor
  · intro hphase
    by_contra hended
    exact hd.stopped hended hphase
  · exact fun hrun => (hd.counting hrun).1

variable {τ ω : Type} {watch : Watch τ ω}

/-- An animated performance goes on as long as its run has not ended and has made fewer actions than
it may. -/
theorem goesOn_iff (hr : r.Linked) (hzero : r.steps = 0) (t : ω)
    (h : Follows limits r w key (k / n) film b) (hd : b.desk.Paced limits n r w key k) :
    (surroundings watch most).goesOn (t, begin film b) = true ↔
      (r.after limits w (k / n)).1.status = .running ∧ k / n < most := by
  show (b.animating && decide ((b.steps : Int) < (most : Int))) = true ↔ _
  rw [Bool.and_eq_true, animating_iff hd, decide_eq_true_iff, Int.ofNat_lt]
  refine and_congr_right fun hrun => ?_
  rw [h.plays.steps, hr.after_steps hrun, hzero, Nat.zero_add]

variable [Seconds τ]

/-- While a batch is awaited, nothing happens at the workbench. -/
theorem awake_performance (most : Int) (pacer : Pacer τ) (s : ω × Performance) :
    (Pacer.awake (surroundings watch most) pacer s).2.2 = s.2 := by
  have hnow (s : ω × Performance) : ((surroundings watch most).now s).2.2 = s.2 := rfl
  unfold Pacer.awake
  simp only [hnow]
  cases pacer.delay? ((surroundings watch most).now s).1 <;> exact hnow s

/-- After some batches an animated performance has had as many heartbeats. -/
theorem hands_begin [Yaml.Reader] {limit : Int} {pacer pacer' : Pacer τ} {t : ω}
    {s : ω × Performance} {batches : List Nat}
    (hands : Pacer.Hands (surroundings watch limit) pacer (t, begin film b) batches pacer' s) :
    s.2 = begin film (b.through (.replicate batches.sum .heartbeat)) := by
  induction hands with
  | nothing => rfl
  | @batch batches pacer' s k earlier goes due ih =>
    show Performance.next _ _ = _
    rw [awake_performance, ih, Workbench.tick_eq_through, begin_next, ← Workbench.through_append,
      List.replicate_append_replicate, List.sum_append, List.sum_singleton]

/-! ### Performances whose heartbeats come one by one -/

/-- What begins to be animated is the workbench when its program is begun. -/
theorem beginAnimation_eq (film : Option Film) (b : Workbench) :
    (begin film b).beginAnimation =
      b.play.1.map fun outcome => (outcome.toBool, begin film b.play.2) := by
  have hsame : b.play = (b.newPage.play.1, b.newPage.play.2.behind b.notices) := by
    have h := Workbench.play_refiled b.notices id b.newPage
    exact (congrArg Workbench.play b.behind_newPage).symm.trans h
  have hnext : (begin film b).next b.newPage.play.2 = begin film b.play.2 := by
    rw [begin_next_behind, hsame]
  have hfirst : b.play.1 = b.newPage.play.1 := by rw [hsame]
  rw [hfirst, ← hnext]
  rfl

/-- A performance that is animated is what its pacer comes to, and then its run is given up. -/
theorem playAnimated_eq (hplay : b.play.1 = .ok (.ok p)) (start : ω) (most : Int)
    (film : Option Film) : playAnimated watch start most (begin film b) =
      (Seconds.ofMilliseconds (b.play.2.config.timing.heartbeatMs.toNat : Int) :
        Except Breakdown τ) >>= fun interval =>
          (Pacer.run (surroundings watch most) (mostBatches b.play.2.config most)
            (.begin interval (watch.now start).1)
            ((watch.now start).2, begin film b.play.2)).map fun last => last.2.2.leave := by
  rw [playAnimated, beginAnimation_eq, hplay]
  show (Pacer.keep (surroundings watch most) b.play.2.config.timing.heartbeatMs.toNat
    (mostBatches b.play.2.config most) (start, begin film b.play.2) >>=
      fun last => .ok last.2.2.leave) = _
  rw [Pacer.keep]
  cases (Seconds.ofMilliseconds (b.play.2.config.timing.heartbeatMs.toNat : Int) :
      Except Breakdown τ) with
  | error i => rfl
  | ok interval =>
    show (Pacer.run (surroundings watch most) (mostBatches b.play.2.config most)
      (.begin interval (watch.now start).1) ((watch.now start).2, begin film b.play.2) >>=
        fun last => .ok last.2.2.leave) = _
    rw [ok_bind]
    cases Pacer.run (surroundings watch most) (mostBatches b.play.2.config most)
      (.begin interval (watch.now start).1) ((watch.now start).2, begin film b.play.2) <;> rfl

theorem playAnimated_of_not_program (hplay : b.play.1 = .ok (.error e)) (start : ω) (most : Int)
    (film : Option Film) :
    playAnimated watch start most (begin film b) = .ok (begin film b.play.2) := by
  rw [playAnimated, beginAnimation_eq, hplay]
  rfl

/-- A run that is begun to be animated has made no step yet. -/
theorem follows_play (hb : b.Poised limits w key) (hp : b.program? = some p)
    (hstart : Run.start? p = some r) (hperiod : b.desk.scheduler.period = n)
    (htells : (begin film b).record.Tells limits r w 0) :
    b.play.1 = .ok (.ok p) ∧ Follows limits r w key 0 film b.play.2 ∧
      b.play.2.desk.Paced limits n r w key 0 := by
  obtain ⟨hplay, hplays, hpaced, hnotices⟩ := hb.play hp hstart hperiod
  refine ⟨hplay, ⟨hplays, ?_⟩, hpaced⟩
  rw [begin_record (hnotices.trans (List.append_nil _).symm)]
  exact htells

/-- The heartbeats by which a performance is animated come one by one. -/
def OneByOne (watch : Watch τ ω) (start : ω) (most : Int) (p : Performance) : Prop :=
  ∀ begun, p.beginAnimation = .ok (true, begun) → ∃ interval : τ,
    Seconds.ofMilliseconds (begun.bench.config.timing.heartbeatMs.toNat : Int) = .ok interval ∧
      Pacer.OneByOne (surroundings watch most) (.begin interval (watch.now start).1)
        ((watch.now start).2, begun)

variable [Yaml.Reader]

/-- As long as the run goes on, every so many heartbeats a step is seen. -/
theorem heartbeats_seen (hr : r.Linked) (hn : 0 < n) (h : Follows limits r w key 0 film b)
    (hd : b.desk.Paced limits n r w key 0)
    (hgoing : ∀ j < m, (r.after limits w j).1.status = .running) (hk : k ≤ n * m) :
    (b.seen (.replicate k .heartbeat)).map Except.ok =
      (List.range (k / n)).map fun i => (r.stepAfter limits w i).observed := by
  induction k with
  | zero => rw [Nat.zero_div]; rfl
  | succ k ih =>
    obtain ⟨hfollows, hpaced⟩ := h.heartbeats hr hn hd k
    obtain ⟨hplays, -, hbeats⟩ := hfollows.plays.heartbeat hr hn hpaced
    rw [List.replicate_succ', Workbench.seen_concat, List.map_append, ih (by omega)]
    cases hbeats with
    | step due running count result heard told =>
      rw [count] at hplays ⊢
      obtain ⟨o, hseen, hobserved⟩ := Workbench.seen?_of_step (e := .heartbeat) heard result hplays
      rw [hseen, List.range_succ, List.map_append]
      simp [hobserved]
    | idle quiet same heard told few =>
      -- at a whole period a step would have been due, since the run has not ended
      have hdvd : ¬ n ∣ k + 1 := by
        intro hdvd
        have hcount := Nat.succ_div_of_dvd hdvd
        have hle : (k + 1) / n ≤ m := Nat.div_le_of_le_mul hk
        exact quiet ⟨hdvd, hgoing (k / n) (by omega)⟩
      rw [Nat.succ_div_of_not_dvd hdvd, Workbench.seen?, heard]
      exact List.append_nil _

/-- A run that is animated by single heartbeats as long as it is to go on has got as many as its
steps need, up to the one at which it is stopped. -/
theorem stopsAt_of_hands (hr : r.Linked) (hn : 0 < n) (hmost : 0 < most)
    (hrun : r.status = .running) (hzero : r.steps = 0)
    (h : Follows limits r w key 0 film b) (hd : b.desk.Paced limits n r w key 0)
    {pacer pacer' : Pacer τ} {t t' : ω} {q : Performance}
    (hands : Pacer.Hands (surroundings watch most) pacer (t, begin film b) (.replicate k 1) pacer'
      (t', q))
    (hend : k = n * most ∨ (surroundings watch most).goesOn (t', q) = false) :
    ∃ m, r.StopsAt limits w most m ∧
      q = begin film (b.through (.replicate (n * m) .heartbeat)) := by
  have hbench {k : Nat} {pacer' : Pacer τ} {s : ω × Performance} (hands : Pacer.Hands
      (surroundings watch most) pacer (t, begin film b) (.replicate k 1) pacer' s) :
      s.2 = begin film (b.through (.replicate k .heartbeat)) := by
    have hall := hands_begin hands
    rwa [List.sum_replicate, smul_eq_mul, Nat.mul_one] at hall
  have goes (k : Nat) (t : ω) : (surroundings watch most).goesOn
      (t, begin film (b.through (.replicate k .heartbeat))) = true ↔
        (r.after limits w (k / n)).1.status = .running ∧ k / n < most := by
    obtain ⟨hfollows, hpaced⟩ := h.heartbeats hr hn hd k
    exact goesOn_iff hr hzero t hfollows hpaced
  obtain rfl : q = _ := hbench hands
  -- the pacer has stopped: in time, or since it has handed over as many batches as it may
  have hstops : ¬ ((r.after limits w (k / n)).1.status = .running ∧ k / n < most) := by
    rcases hend with rfl | hend
    · rw [Nat.mul_div_cancel_left most hn]
      exact fun hgoes => Nat.lt_irrefl most hgoes.2
    · rw [← goes k t', hend]
      exact Bool.false_ne_true
  cases k with
  | zero =>
    rw [Nat.zero_div] at hstops
    exact absurd ⟨hrun, hmost⟩ hstops
  | succ j =>
    -- before the last heartbeat the run was to go on, so that heartbeat has made a step
    obtain ⟨hgoing, hless⟩ : (r.after limits w (j / n)).1.status = .running ∧ j / n < most := by
      rw [List.replicate_succ'] at hands
      obtain ⟨pacer'', s, hearlier, hgoes⟩ := hands.last
      rw [← goes j s.1, ← hbench hearlier]
      exact hgoes
    have hdvd : n ∣ j + 1 := by
      by_contra hdvd
      rw [Nat.succ_div_of_not_dvd hdvd] at hstops
      exact hstops ⟨hgoing, hless⟩
    have hcount : (j + 1) / n = j / n + 1 := Nat.succ_div_of_dvd hdvd
    rw [hcount] at hstops
    refine ⟨j / n + 1, ⟨?_, hless, fun hgoes => ?_⟩, ?_⟩
    · exact fun i hi => Run.running_of_le (Nat.le_of_lt_succ hi) hgoing
    · by_contra hne
      exact hstops ⟨hgoes, Nat.lt_of_le_of_ne hless hne⟩
    · rw [← hcount, Nat.mul_div_cancel' hdvd]

/-- A performance whose heartbeats come one by one makes the steps of its run until this has ended
or has made as many actions as it may, one step at every `n`-th heartbeat. -/
theorem playAnimated_spec (hr : r.Linked) (hn : 0 < n) (hmost : 0 < most)
    (hb : b.Poised limits w key) (hp : b.program? = some p) (hstart : Run.start? p = some r)
    (hperiod : b.desk.scheduler.period = n)
    (hconfig : b.config.timing.actionHeartbeats.toNat = n)
    (htells : (begin film b).record.Tells limits r w 0) {start : ω}
    (hsingly : OneByOne watch start most (begin film b)) :
    ∃ m, r.StopsAt limits w most m ∧
      playAnimated watch start most (begin film b) =
        .ok (begin film (b.through (.play :: .replicate (n * m) .heartbeat))).leave ∧
      Follows limits r w key m film (b.through (.play :: .replicate (n * m) .heartbeat)) ∧
      (b.seen (.play :: .replicate (n * m) .heartbeat)).map Except.ok =
        (List.range m).map fun i => (r.stepAfter limits w i).observed := by
  obtain ⟨hplay, hbegun, hpaced⟩ := follows_play hb hp hstart hperiod htells
  obtain ⟨hrun, hzero⟩ := Run.start?_running hstart
  obtain ⟨interval, hinterval, hone⟩ :=
    hsingly (begin film b.play.2) (by rw [beginAnimation_eq, hplay]; rfl)
  obtain ⟨k, pacer, ⟨t, q⟩, hands, hpacer, hend⟩ := hone.run (mostBatches b.play.2.config most)
  rw [mostBatches, Workbench.play_config b, hconfig, Int.toNat_natCast] at hend
  obtain ⟨m, hstops, rfl⟩ := stopsAt_of_hands hr hn hmost hrun hzero hbegun hpaced hands hend
  refine ⟨m, hstops, ?_, ?_, ?_⟩
  · rw [playAnimated_eq hplay]
    refine (congrArg (· >>= _) hinterval).trans ?_
    rw [ok_bind, hpacer]
    rfl
  · have hfollows := (hbegun.heartbeats hr hn hpaced (n * m)).1
    rwa [Nat.mul_div_cancel_left m hn] at hfollows
  · rw [Workbench.seen, show b.seen? .play = none from rfl]
    have hseen := heartbeats_seen hr hn hbegun hpaced hstops.going (Nat.le_refl _)
    rwa [Nat.mul_div_cancel_left m hn] at hseen

end Performance

end GridRobot

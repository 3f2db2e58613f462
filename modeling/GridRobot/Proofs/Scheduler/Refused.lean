import GridRobot.Proofs.Scheduler.Untouched

/-!
# Requests that are refused

Four requests need something: a start needs a program and a world, a single step needs them if there is
no run to go on with, a resumption needs such a run, and an action by hand needs a world and that nothing
is animated. They are refused exactly where that is missing. A refusal comes before everything else that
a request does, so it leaves no trace.

Where nothing calls back, the desks that can be reached are those that a row of requests leads to.
Between two requests somebody else may change the worlds, and there may be more of them.

## Main definitions

* `Desk.Reached` says which desks there may be.
* `Desk.Refuses` says that a desk refuses a request for a reason.
* `Desk.RefusesExactly` says of each of the four requests when it is refused, and when it is for want of
  a world.

## Main statements

* `Desk.Sound.refusesExactly`: so it is at every sound desk.
* `Desk.reached_refuses`: at every desk that can be reached, and a refusal changes nothing.
-/

namespace GridRobot

namespace Scheduler

variable {κ : Type} {s : Scheduler κ} {p : Option Program} {world : Option κ} {reason : Refusal}

/-- A program whose entry is there can be begun in any world. -/
theorem begin_eq_error (hp : ∀ q ∈ p, q.Linked) : s.begin p world = .error reason ↔
    (p = none ∧ reason = .programNeeded) ∨ (p.isSome ∧ world = none ∧ reason = .noWorld) := by
  cases p with
  | none => simp [begin, eq_comm]
  | some q =>
    cases world with
    | none => simp [begin, eq_comm]
    | some key =>
      obtain ⟨run, hrun, -⟩ := Run.start?_linked (hp q rfl)
      simp [begin, hrun]

theorem resume_eq_error : s.resume = .error reason ↔
    s.phase ≠ .running ∧ s.suspended? = none ∧ reason = .nothingSuspended := by
  unfold resume
  by_cases hrunning : s.phase = .running
  · simp [hrunning]
  · cases hs : s.suspended? <;> simp [hrunning, eq_comm]

theorem readyStep_eq_error (hresting : s.stepping = false) : s.readyStep p world = .error reason ↔
    s.suspended? = none ∧ s.begin p world = .error reason := by
  unfold readyStep
  cases hs : s.suspended? with
  | some held => simp [hresting, bind_eq_error]
  | none => simp [hresting, bind_eq_error]

theorem allowAction_eq_error (hresting : s.stepping = false) :
    s.allowAction world = .error reason ↔
      (s.phase = .running ∧ reason = .programRuns) ∨
        (s.phase ≠ .running ∧ world = none ∧ reason = .noWorld) := by
  unfold allowAction
  by_cases hrunning : s.phase = .running
  · rw [if_pos (.inl hrunning)]
    simp [hrunning, eq_comm]
  · rw [if_neg (by simp [hrunning, hresting])]
    cases world <;> simp [hrunning, eq_comm]

/-- An action is allowed only in a world that is there. -/
theorem world_of_allowAction {key : κ} (h : s.allowAction world = .ok key) : world = some key := by
  unfold allowAction at h
  split at h
  · cases h
  · split at h <;> cases h
    rfl

end Scheduler

namespace Desk

variable {κ : Type} [DecidableEq κ] {d : Desk κ} {p : Option Program} {k : Option κ} {a : Action}
  {q : Request κ} {reason : Refusal} {limits : Limits} {n : Int}

/-- A desk that may come about: that of a scheduler which was made for `n` heartbeats from step to step,
after any requests, between which the worlds may be changed and others be added. -/
inductive Reached (limits : Limits) (n : Int) : Desk κ → Prop where
  | made {s : Scheduler κ} (hs : Scheduler.ofInts limits n = some s) (ws : Worlds κ) :
      Reached limits n ⟨s, ws⟩
  | asked {d : Desk κ} (h : Reached limits n d) {q : Request κ} (hq : q.Linked) :
      Reached limits n (d.perform q).desk
  | changed {d : Desk κ} (h : Reached limits n d) {ws : Worlds κ}
      (hkeys : d.keys ⊆ ws.map Prod.fst) : Reached limits n { d with worlds := ws }

/-- The desk refuses the request for the reason. -/
def Refuses (d : Desk κ) (q : Request κ) (reason : Refusal) : Prop :=
  (d.perform q).answer = .refused reason

/-- A desk refuses the four requests exactly where something that they need is missing, and for want of
a world exactly where nothing else is missing. -/
structure RefusesExactly (d : Desk κ) : Prop where
  start : ∀ p : Option Program, (∀ q ∈ p, q.Linked) → ∀ k,
    ((∃ reason, d.Refuses (.start p k) reason) ↔ p = none ∨ d.present k = none) ∧
    (d.Refuses (.start p k) .noWorld ↔ p.isSome ∧ d.present k = none)
  step : ∀ p : Option Program, (∀ q ∈ p, q.Linked) → ∀ k,
    ((∃ reason, d.Refuses (.step p k) reason) ↔
      d.scheduler.suspended? = none ∧ (p = none ∨ d.present k = none)) ∧
    (d.Refuses (.step p k) .noWorld ↔
      d.scheduler.suspended? = none ∧ p.isSome ∧ d.present k = none)
  resume :
    ((∃ reason, d.Refuses .resume reason) ↔
      d.scheduler.phase ≠ .running ∧ d.scheduler.suspended? = none) ∧
    ¬ d.Refuses .resume .noWorld
  action : ∀ a k,
    ((∃ reason, d.Refuses (.action a k) reason) ↔
      d.scheduler.phase = .running ∨ d.present k = none) ∧
    (d.Refuses (.action a k) .noWorld ↔ d.scheduler.phase ≠ .running ∧ d.present k = none)

/-! ### Why a request is refused -/

theorem refuses_start (hp : ∀ q ∈ p, q.Linked) : d.Refuses (.start p k) reason ↔
    (p = none ∧ reason = .programNeeded) ∨
      (p.isSome ∧ d.present k = none ∧ reason = .noWorld) := by
  rw [← Scheduler.begin_eq_error (s := d.scheduler) hp, Refuses]
  cases hbegin : d.scheduler.begin p (d.present k) with
  | error other => simp [perform_start_of_refused hbegin]
  | ok ready => simp [perform_start_of_begun hbegin]

theorem Sound.refuses_step (hd : d.Sound) (hp : ∀ q ∈ p, q.Linked) :
    d.Refuses (.step p k) reason ↔ d.scheduler.suspended? = none ∧
      ((p = none ∧ reason = .programNeeded) ∨
        (p.isSome ∧ d.present k = none ∧ reason = .noWorld)) := by
  rw [← Scheduler.begin_eq_error (s := d.scheduler) hp,
    ← Scheduler.readyStep_eq_error hd.scheduler.resting, Refuses]
  cases hready : d.scheduler.readyStep p (d.present k) with
  | error other => simp [Desk.perform, react, adopt, hready]
  | ok ready =>
    -- the step that is then made is not refused
    obtain ⟨hsound, hheld⟩ := hd.readied hp hready
    have hstep := hsound.stepOutcome_ne_refused hheld reason
    simpa [Desk.perform, react, adopt, hready] using hstep

theorem refuses_resume : d.Refuses .resume reason ↔
    d.scheduler.phase ≠ .running ∧ d.scheduler.suspended? = none ∧ reason = .nothingSuspended := by
  rw [← Scheduler.resume_eq_error, Refuses]
  cases hresume : d.scheduler.resume with
  | error other => simp [Desk.perform, react, adopt, hresume]
  | ok s => simp [Desk.perform, react, adopt, hresume]

theorem Sound.refuses_action (hd : d.Sound) : d.Refuses (.action a k) reason ↔
    (d.scheduler.phase = .running ∧ reason = .programRuns) ∨
      (d.scheduler.phase ≠ .running ∧ d.present k = none ∧ reason = .noWorld) := by
  rw [← Scheduler.allowAction_eq_error hd.scheduler.resting, Refuses]
  cases hallow : d.scheduler.allowAction (d.present k) with
  | error other => simp [Desk.perform, react, hallow]
  | ok key =>
    have hkey := (present_eq_some.1 (Scheduler.world_of_allowAction hallow)).2
    obtain ⟨w, hw⟩ := Option.isSome_iff_exists.1 (Worlds.get?_isSome.2 hkey)
    simp [Desk.perform, react, hallow, act, hw]

theorem Sound.refusesExactly (hd : d.Sound) : d.RefusesExactly where
  start p hp k := by
    simp only [refuses_start hp]
    cases p <;> simp
  step p hp k := by
    simp only [hd.refuses_step hp]
    cases p <;> simp
  resume := by simp [refuses_resume]
  action a k := by
    simp only [hd.refuses_action]
    by_cases hrunning : d.scheduler.phase = .running <;> simp [hrunning]

/-! ### Desks that can be reached -/

/-- Whatever becomes of the worlds, that of the run which is held stays there. -/
theorem Reached.sound (h : Reached limits n d) : d.Sound := by
  induction h with
  | made hs ws =>
    exact .of_free (Scheduler.ofInts_sound hs) (Scheduler.ofInts_setting hs).1 ws
  | asked _ hq ih => exact (perform_answers ih hq).desk
  | changed _ hkeys ih =>
    refine ⟨ih.scheduler, fun held hheld => ?_⟩
    exact Worlds.get?_isSome.2 (hkeys (Worlds.get?_isSome.1 (ih.world held hheld)))

/-- At a desk that can be reached, the four requests are refused exactly where something that they need
is missing, and for want of a world exactly where nothing else is missing. Whatever is refused leaves
everything as it was: the scheduler with its countdown, its run and its last fault, and the worlds. In a
session it makes no call, neither to the listener nor for a reload, whoever these are. -/
theorem reached_refuses (h : Reached limits n d) :
    d.RefusesExactly ∧ ∀ (q : Request κ) (reason : Refusal), q.Linked → d.Refuses q reason →
      d.perform q = ⟨.refused reason, d, [], false⟩ ∧
      ∀ (g : Guests κ) (s : Session κ), s.desk = d → s.perform g q = (.refused reason, s) := by
  refine ⟨h.sound.refusesExactly, fun q reason hq hrefused => ?_⟩
  have hreact := h.sound.react_refused hq hrefused
  refine ⟨by rw [Desk.perform, hreact], fun g s hs => ?_⟩
  subst hs
  rw [Session.perform, Session.performWith, hreact]

theorem Reached.through {qs : List (Request κ)} (h : Reached limits n d) (hqs : ∀ q ∈ qs, q.Linked) :
    Reached limits n (d.through qs) := by
  induction qs generalizing d with
  | nil => exact h
  | cons q qs ih =>
    obtain ⟨hq, hlater⟩ := List.forall_mem_cons.1 hqs
    exact ih (h.asked hq) hlater

/-- A desk with one world, and a run that waits there after its first step. -/
def waiting : Desk Nat :=
  (Desk.mk (.fresh ⟨3, 9⟩ 2) [((0 : Nat), ⟨2, 1, .home, [], [], none⟩)]).through
    [.step (some (.ofActions [.move, .move] "main")) (some 0)]

/-- The run that waits may go on without a program or a world, but no other can be begun. -/
theorem reached_refuses_waiting :
    Reached ⟨3, 9⟩ 2 waiting ∧ waiting.RefusesExactly ∧
      (∀ reason, ¬ waiting.Refuses (.step none none) reason) ∧
      waiting.Refuses (.start none (some 0)) .programNeeded ∧
      waiting.perform (.start none (some 0)) = ⟨.refused .programNeeded, waiting, [], false⟩ ∧
      ∀ g : Guests Nat, (Session.opened waiting).perform g (.start none (some 0)) =
        (.refused .programNeeded, Session.opened waiting) := by
  have hmade : Scheduler.ofInts (κ := Nat) ⟨3, 9⟩ 2 = some (.fresh ⟨3, 9⟩ 2) := rfl
  have hreached : Reached ⟨3, 9⟩ 2 waiting := by
    refine (Reached.made hmade _).through fun q hq => ?_
    obtain rfl := List.mem_singleton.1 hq
    rintro _ ⟨⟩
    decide
  have hrefused : waiting.Refuses (.start none (some 0)) .programNeeded := rfl
  obtain ⟨hexactly, hatomic⟩ := reached_refuses hreached
  obtain ⟨hperform, hsession⟩ := hatomic (.start none (some 0)) .programNeeded nofun hrefused
  refine ⟨hreached, hexactly, fun reason hstep => ?_, hrefused, hperform, fun g => hsession g _ rfl⟩
  have hfree := (((hexactly.step none nofun none).1).1 ⟨reason, hstep⟩).1
  cases hfree

end Desk

end GridRobot

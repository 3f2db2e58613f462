import GridRobot.Proofs.Reading
import GridRobot.Proofs.Run.Turn
import GridRobot.Scheduler.Desk

/-!
# Which world a desk's run is on

No request puts the run that a desk holds on another world: after a request the run is on the world
it was on before, or it is a fresh run on the world that came with the request.

## Main definitions

* `Desk.keys` are the keys of the worlds of a desk.
* `Request.world?` is the world that comes with a request.
* `Desk.Follows` says of a desk before and after a request what was said above.
* `Desk.Acts` says which action a run has performed in between.

## Main statements

* `Run.step_continued`: a step that goes on has performed one action on the world.
* `Desk.perform_follows`: every request is of that kind.
* `Desk.perform_heartbeat_continued`, `Desk.perform_step_continued`: a step that goes on has
  performed one action on the world of the run.
-/

namespace GridRobot

/-! ### Worlds by their keys -/

namespace Worlds

variable {κ : Type} [DecidableEq κ] {ws : Worlds κ} {key other : κ} {w : World}

theorem get?_isSome : (ws.get? key).isSome ↔ key ∈ ws.map Prod.fst := by
  induction ws with
  | nil => simp [get?]
  | cons e rest ih =>
    obtain ⟨k, v⟩ := e
    by_cases hk : k = key
    · simp [get?, hk]
    · simp [get?, hk, Ne.symm hk, ih]

@[simp] theorem keys_set : (ws.set key w).map Prod.fst = ws.map Prod.fst := by
  induction ws with
  | nil => rfl
  | cons e rest ih =>
    obtain ⟨k, v⟩ := e
    by_cases hk : k = key
    · simp [set, hk]
    · simp [set, hk, ih]

theorem get?_set_self (h : (ws.get? key).isSome) : (ws.set key w).get? key = some w := by
  induction ws with
  | nil => simp [get?] at h
  | cons e rest ih =>
    obtain ⟨k, v⟩ := e
    by_cases hk : k = key
    · simp [set, get?, hk]
    · have hrest : (get? rest key).isSome := by simpa [get?, hk] using h
      simpa [set, get?, hk] using ih hrest

theorem get?_set_ne (hne : other ≠ key) : (ws.set key w).get? other = ws.get? other := by
  induction ws with
  | nil => rfl
  | cons e rest ih =>
    obtain ⟨k, v⟩ := e
    by_cases hk : k = key
    · subst hk
      simp [set, get?, Ne.symm hne]
    · by_cases ho : k = other
      · simp [set, get?, ho, hne]
      · simp [set, get?, hk, ho, ih]

end Worlds

/-! ### Steps -/

theorem Advance.continued {limits : Limits} {p : Program} {w after : World} {turns : Nat}
    {stack stack' : List Frame} {result : Except MissingProcedure StepResult}
    (h : Advance limits p w turns stack result stack' after) (hgo : result = .ok .continued) :
    ∃ a, w.perform a = .ok after := by
  induction h with
  | turn _ _ ih => exact ih hgo
  | halt h =>
    cases h with
    | acted _ ha => exact ⟨_, ha⟩
    | _ => simp [StepResult.faulted] at hgo

/-- A step that goes on has performed one action on the world. -/
theorem Run.step_continued {limits : Limits} {r : Run} {w : World}
    (h : (r.step limits w).result = .ok .continued) :
    ∃ a, w.perform a = .ok (r.step limits w).world := by
  by_cases hrun : r.status = .running
  · obtain ⟨result, stack', after, hadv, hout⟩ := step_spec limits w hrun
    rw [hout] at h ⊢
    exact hadv.continued h
  · simp [step, terminated, hrun, StepResult.faulted] at h

/-! ### The scheduler's own part -/

namespace Scheduler

variable {κ : Type} {s s' : Scheduler κ} {p : Option Program} {world : Option κ}

theorem begin_held (h : s.begin p world = .ok s') :
    ∃ held, s'.held = some held ∧ world = some held.world := by
  unfold begin at h
  split at h
  · cases h
  · split at h
    · cases h
    · split at h
      · cases h
      · cases h
        exact ⟨_, rfl, rfl⟩

theorem resume_held (h : s.resume = .ok s') : s'.held = s.held := by
  unfold resume at h
  split at h
  · cases h
    rfl
  · split at h
    · cases h
    · cases h
      rfl

@[simp] theorem beat_held : s.beat.1.held = s.held := by
  unfold beat
  split
  · rfl
  · split <;> rfl

theorem settle_held {r : StepResult} : (s.settle r).held = s.held ∨ (s.settle r).held = none := by
  cases r with
  | continued => exact .inl rfl
  | finished => exact .inr rfl
  | fault f => exact .inr rfl

theorem start_held (h : s.start p world = .ok s') :
    ∃ held, s'.held = some held ∧ world = some held.world := by
  simp only [start, bind_eq_ok, Except.ok.injEq] at h
  obtain ⟨ready, hbegin, rfl⟩ := h
  obtain ⟨held, hheld, hworld⟩ := begin_held hbegin
  exact ⟨held, hheld, hworld⟩

theorem readyStep_held (h : s.readyStep p world = .ok s') :
    s'.held = s.held ∨ ∃ held, s'.held = some held ∧ world = some held.world := by
  unfold readyStep at h
  split at h
  · cases h
  · split at h
    · simp only [bind_eq_ok, Except.ok.injEq] at h
      obtain ⟨_, rfl, rfl⟩ := h
      exact .inl rfl
    · simp only [bind_eq_ok, Except.ok.injEq] at h
      obtain ⟨ready, hbegin, rfl⟩ := h
      obtain ⟨held, hheld, hworld⟩ := begin_held hbegin
      exact .inr ⟨held, hheld, hworld⟩

end Scheduler

/-! ### Requests -/

/-- The key of the world that comes with a request. -/
def Request.world? {κ : Type} : Request κ → Option κ
  | .start _ w => w
  | .step _ w => w
  | .action _ w => w
  | _ => none

namespace Desk

variable {κ : Type}

/-- The keys of the worlds of a desk. -/
def keys (d : Desk κ) : List κ :=
  d.worlds.map Prod.fst

/-- The worlds of `d` and `d'` have the same keys, and a run that `d'` holds is on the world of the
run that `d` holds, or on the given one. -/
structure Follows (given : Option κ) (d d' : Desk κ) : Prop where
  keys : d'.keys = d.keys
  held : ∀ h', d'.scheduler.held = some h' →
    (∃ h, d.scheduler.held = some h ∧ h'.world = h.world) ∨
      (given = some h'.world ∧ h'.world ∈ d.keys)

variable {given : Option κ} {d d' d'' : Desk κ}

theorem Follows.of_held (hkeys : d'.keys = d.keys)
    (hheld : d'.scheduler.held = d.scheduler.held) : Follows given d d' where
  keys := hkeys
  held := fun h' h => .inl ⟨h', hheld ▸ h, rfl⟩

theorem Follows.of_none (hkeys : d'.keys = d.keys) (hheld : d'.scheduler.held = none) :
    Follows given d d' where
  keys := hkeys
  held := fun h' h => by simp [hheld] at h

theorem Follows.trans (h : Follows given d d') (h' : Follows none d' d'') :
    Follows given d d'' where
  keys := h'.keys.trans h.keys
  held := by
    intro r'' hr''
    obtain ⟨r', hr', hworld⟩ | ⟨⟨⟩, _⟩ := h'.held r'' hr''
    rw [hworld]
    exact h.held r' hr'

theorem Follows.mono {given' : Option κ} (h : Follows given d d')
    (hgiven : ∀ key, given = some key → given' = some key) : Follows given' d d' where
  keys := h.keys
  held := fun h' hh' => (h.held h' hh').imp_right (.imp_left (hgiven _))

variable [DecidableEq κ]

theorem present_eq_some {key : κ} :
    d.present given = some key ↔ given = some key ∧ key ∈ d.keys := by
  rw [present, Option.filter_eq_some_iff, Worlds.get?_isSome, keys]

/-- What a request does before any step is made. -/
theorem react_follows (q : Request κ) : Follows q.world? d (d.react q).2 := by
  -- a fresh run is on the world that came with the request, if the desk has it
  have fresh {s : Scheduler κ} {given : Option κ} (h : ∃ held, s.held = some held ∧
      d.present given = some held.world) : Follows given d { d with scheduler := s } := by
    obtain ⟨held, hheld, hworld⟩ := h
    refine ⟨rfl, fun h' h => .inr ?_⟩
    obtain rfl : held = h' := Option.some.inj (hheld.symm.trans h)
    exact present_eq_some.1 hworld
  cases q with
  | start p w =>
    simp only [react]
    cases hs : d.scheduler.start p (d.present w) with
    | error reason => exact .of_held rfl rfl
    | ok s => exact fresh (Scheduler.start_held hs)
  | step p w =>
    simp only [react]
    cases hs : d.scheduler.readyStep p (d.present w) with
    | error reason => exact .of_held rfl rfl
    | ok s =>
      rcases Scheduler.readyStep_held hs with hheld | hfresh
      · exact .of_held rfl hheld
      · exact fresh hfresh
  | resume =>
    simp only [react]
    cases hs : d.scheduler.resume with
    | error reason => exact .of_held rfl rfl
    | ok s => exact .of_held rfl (Scheduler.resume_held hs)
  | action a w =>
    simp only [react]
    split
    · exact .of_held rfl rfl
    · simp only [act]
      split
      · exact .of_held rfl rfl
      · exact .of_held Worlds.keys_set rfl
  | stop => exact .of_none rfl rfl
  | reset => exact .of_none rfl rfl
  | heartbeat => exact .of_held rfl Scheduler.beat_held
  | tick n => exact .of_held rfl rfl
  | limits => exact .of_held rfl rfl

theorem toStep?_eq_some {h : Held κ} {w : World} :
    d.toStep? = some (h, w) ↔ d.scheduler.held = some h ∧ d.worlds.get? h.world = some w := by
  simp only [toStep?, Option.bind_eq_bind, Option.bind_eq_some_iff, Option.some.injEq,
    Prod.mk.injEq]
  constructor
  · rintro ⟨_, hheld, _, hworld, rfl, rfl⟩
    exact ⟨hheld, hworld⟩
  · rintro ⟨hheld, hworld⟩
    exact ⟨h, hheld, w, hworld, rfl, rfl⟩

/-- A run that is held by `d'` has changed its world by an action, and no other world was changed. -/
def Acts (d d' : Desk κ) (a : Action) : Prop :=
  ∃ h w after, d'.scheduler.held = some h ∧ d.worlds.get? h.world = some w ∧
    w.perform a = .ok after ∧ d'.worlds = d.worlds.set h.world after

/-- A step is made of the run that is held, which stays or is let go. -/
theorem endStep_follows {h : Held κ} {w : World} (hheld : d.scheduler.held = some h) :
    Follows given d (d.endStep h w true).2 := by
  -- whatever the step came to, the scheduler before it is settled holds the run on its world
  have kept (s : Scheduler κ) (r : Run) (ws : Worlds κ) (hs : s.held = some ⟨r, h.world⟩)
      (hws : ws.map Prod.fst = d.keys) : Follows given d ⟨s, ws⟩ := by
    refine ⟨hws, fun h' hh' => .inl ⟨h, hheld, ?_⟩⟩
    have hsame : some h' = some ⟨r, h.world⟩ := hh'.symm.trans hs
    rw [Option.some.inj hsame]
  simp only [endStep, if_true]
  split
  · exact kept _ _ _ rfl Worlds.keys_set
  · rw [if_neg (by simp)]
    rcases Scheduler.settle_held with hsettle | hsettle
    · exact kept _ _ _ hsettle Worlds.keys_set
    · exact .of_none Worlds.keys_set hsettle

theorem endStep_continued {h : Held κ} {w : World} (hworld : d.worlds.get? h.world = some w)
    (hgo : (d.endStep h w true).1 = .ok .continued) :
    ∃ a, Acts d (d.endStep h w true).2 a := by
  simp only [endStep, if_true] at hgo ⊢
  split at hgo
  · cases hgo
  · rename_i r hr
    rw [if_neg (by simp)] at hgo ⊢
    obtain rfl : r = .continued := by simpa using hgo
    obtain ⟨a, ha⟩ := Run.step_continued hr
    exact ⟨a, _, w, _, rfl, hworld, ha, rfl⟩

theorem makeStep_follows : Follows given d d.makeStep.2 := by
  unfold makeStep
  split
  · exact .of_held rfl rfl
  · rename_i h w hstep
    exact endStep_follows (toStep?_eq_some.1 hstep).1

theorem makeStep_continued (hgo : d.makeStep.1 = .ok .continued) :
    ∃ a, Acts d d.makeStep.2 a := by
  unfold makeStep at hgo ⊢
  split at hgo
  · cases hgo
  · rename_i h w hstep
    exact endStep_continued (toStep?_eq_some.1 hstep).2 hgo

@[simp] theorem stepOutcome_desk : d.stepOutcome.desk = d.makeStep.2 := by
  unfold stepOutcome
  split <;> simp_all

theorem stepOutcome_continued (hgo : d.stepOutcome.answer = .result .continued) :
    ∃ a, Acts d d.stepOutcome.desk a := by
  rw [stepOutcome_desk]
  refine makeStep_continued ?_
  unfold stepOutcome at hgo
  split at hgo
  · rename_i r after hmake
    obtain rfl : r = .continued := by simpa using hgo
    rw [hmake]
  · cases hgo

theorem heartbeat_follows : Follows given d d.heartbeat.desk := by
  have hbeat : Follows given d d.beat.2 := .of_held rfl Scheduler.beat_held
  unfold heartbeat
  split
  · rename_i after hdue
    rw [hdue] at hbeat
    rw [stepOutcome_desk]
    exact hbeat.trans makeStep_follows
  · rename_i after _ hdue
    rw [hdue] at hbeat
    exact hbeat

theorem tick_follows (n : Nat) : Follows given d (d.tick n).desk := by
  induction n generalizing d given with
  | zero => exact .of_held rfl rfl
  | succ n ih =>
    unfold tick
    split
    · exact .of_held rfl rfl
    · simp only
      split
      · exact heartbeat_follows
      · exact heartbeat_follows.trans ih

/-- After a request the run is on the world it was on before, or on the world that came with the
request. -/
theorem perform_follows (q : Request κ) : Follows q.world? d (d.perform q).desk := by
  have hreact := react_follows (d := d) q
  unfold perform
  split
  all_goals
    rename_i hr
    rw [hr] at hreact
  · exact hreact
  · exact hreact
  · rw [stepOutcome_desk]
    exact hreact.trans makeStep_follows
  · exact hreact
  · exact hreact.trans (tick_follows _)

/-- Only the worlds before it matter to what a run has done. -/
theorem Acts.of_worlds {a : Action} (h : Acts d' d'' a) (hworlds : d'.worlds = d.worlds) :
    Acts d d'' a := by
  unfold Acts at h ⊢
  rwa [hworlds] at h

theorem perform_heartbeat : d.perform .heartbeat =
    if d.scheduler.beat.2 then stepOutcome { d with scheduler := d.scheduler.beat.1 }
    else ⟨.done, { d with scheduler := d.scheduler.beat.1 }, [], false⟩ := by
  cases hdue : d.scheduler.beat.2 <;> simp [perform, react, beat, hdue]

theorem perform_heartbeat_continued
    (hgo : (d.perform .heartbeat).answer = .result .continued) :
    ∃ a, Acts d (d.perform .heartbeat).desk a := by
  rw [perform_heartbeat] at hgo ⊢
  by_cases hdue : d.scheduler.beat.2
  · rw [if_pos hdue] at hgo ⊢
    obtain ⟨a, ha⟩ := stepOutcome_continued hgo
    exact ⟨a, ha.of_worlds rfl⟩
  · rw [if_neg hdue] at hgo
    cases hgo

theorem perform_step_continued {p : Option Program} {key : Option κ}
    (hgo : (d.perform (.step p key)).answer = .result .continued) :
    ∃ a, Acts d (d.perform (.step p key)).desk a := by
  simp only [perform, react] at hgo ⊢
  cases hs : d.scheduler.readyStep p (d.present key) with
  | error reason => simp [hs, adopt] at hgo
  | ok s =>
    simp only [hs, adopt] at hgo ⊢
    obtain ⟨a, ha⟩ := stepOutcome_continued hgo
    exact ⟨a, ha.of_worlds rfl⟩

end Desk

end GridRobot

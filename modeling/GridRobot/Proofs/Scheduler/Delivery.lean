import GridRobot.Proofs.Run.Refinement
import GridRobot.Proofs.Scheduler.Invariant

/-!
# Results as they are delivered

However a run is driven, by heartbeats, single steps and resumption in any order, its listener is told
what the run comes to when it is stepped by itself, each result once and in order, and at each of
these moments the world is the one of that run.

## Main definitions

* `Request.singly` takes several heartbeats for what they are.
* `Desk.deliveries` are the results that some requests report, with the worlds at that moment.
* `Request.Drives` says of a request that it goes on with a run, and `Desk.Begins` that it begins one.
* `Desk.Stands` says of a desk that it has made so many steps of a run.

## Main statements

* `Desk.Sound.tick_eq`: a row of heartbeats is given one by one.
* `Desk.Stands.stepOutcome_moves`: a step of the run that is held.
* `Desk.deliveries_eq_trace`: what is delivered of a run.
-/

namespace GridRobot

variable {κ : Type}

/-- The requests that a request stands for: heartbeats are given one by one. -/
def Request.singly : Request κ → List (Request κ)
  | .tick n => List.replicate n.toNat .heartbeat
  | q => [q]

/-- The requests that go on with a run, if there is one, and neither begin nor end any. -/
inductive Request.Drives : Request κ → Prop where
  | heartbeat : Drives .heartbeat
  | tick (n : Int) : Drives (.tick n)
  | resume : Drives .resume
  | step : Drives (.step none none)

theorem Request.Drives.linked {q : Request κ} (h : q.Drives) : q.Linked :=
  Request.linked_of_program? (by cases h <;> rfl)

theorem Request.Drives.singly {q r : Request κ} (h : q.Drives) (hr : r ∈ q.singly) :
    r.Drives ∧ ∀ n, r ≠ .tick n := by
  cases h with
  | tick n =>
    obtain rfl := List.eq_of_mem_replicate hr
    exact ⟨.heartbeat, nofun⟩
  | heartbeat =>
    obtain rfl := List.mem_singleton.1 hr
    exact ⟨.heartbeat, nofun⟩
  | resume =>
    obtain rfl := List.mem_singleton.1 hr
    exact ⟨.resume, nofun⟩
  | step =>
    obtain rfl := List.mem_singleton.1 hr
    exact ⟨.step, nofun⟩

theorem Scheduler.settle_held_ite {s : Scheduler κ} {x : StepResult} {goes : Prop}
    [Decidable goes] (h : goes ↔ x = .continued) :
    (s.settle x).held = if goes then s.held else none := by
  cases x with
  | continued => exact (if_pos (h.2 rfl)).symm
  | finished =>
    have hends : ¬ goes := fun hgoes => nomatch h.1 hgoes
    exact (if_neg hends).symm
  | fault f =>
    have hends : ¬ goes := fun hgoes => nomatch h.1 hgoes
    exact (if_neg hends).symm

namespace Desk

variable [DecidableEq κ] {d : Desk κ}

/-- Does a request begin a run of a program on the world of a key? -/
def Begins (d : Desk κ) (p : Program) (key : κ) : Request κ → Prop
  | .start q w => q = some p ∧ w = some key
  | .step q w => q = some p ∧ w = some key ∧ d.scheduler.suspended? = none
  | _ => False

/-- The results that some requests report, each with the worlds after the request. -/
def deliveries (d : Desk κ) : List (Request κ) → List (StepResult × Worlds κ)
  | [] => []
  | q :: qs =>
    let o := d.perform q
    o.reported.map (·, o.desk.worlds) ++ deliveries o.desk qs

theorem deliveries_told (qs : List (Request κ)) :
    (d.deliveries qs).map Prod.fst = d.told qs := by
  induction qs generalizing d with
  | nil => rfl
  | cons q qs ih => simp [deliveries, told, ih, Function.comp_def]

/-! ### Heartbeats one by one -/

theorem heartbeat_of_not_running (hphase : d.scheduler.phase ≠ .running) :
    d.perform .heartbeat = ⟨.done, d, [], false⟩ := by
  have hbeat : d.scheduler.beat = (d.scheduler, false) := by simp [Scheduler.beat, hphase]
  rw [perform_heartbeat, hbeat]
  rfl

theorem Sound.tick_eq (hd : d.Sound) (n : Nat) :
    (d.tick n).desk = d.through (List.replicate n .heartbeat) ∧
      (d.tick n).reported = d.told (List.replicate n .heartbeat) := by
  induction n generalizing d with
  | zero => exact ⟨rfl, rfl⟩
  | succ n ih =>
    rw [List.replicate_succ, through_cons, told]
    by_cases hphase : d.scheduler.phase = .running
    · obtain ⟨hdesk, hreported⟩ := ih (heartbeat_answers hd).desk
      rw [hd.tick_succ hphase, ← heartbeat_eq_perform]
      exact ⟨hdesk, congrArg _ hreported⟩
    · -- the row stops here, and the heartbeats that are left out would do nothing
      have hrest := ih hd
      rw [tick_of_not_running hphase] at hrest ⊢
      rw [heartbeat_of_not_running hphase]
      exact hrest

theorem Sound.perform_singly (hd : d.Sound) (q : Request κ) :
    (d.perform q).desk = d.through q.singly ∧ (d.perform q).reported = d.told q.singly := by
  cases q with
  | tick n => exact hd.tick_eq n.toNat
  | _ => exact ⟨rfl, (List.append_nil _).symm⟩

theorem Sound.through_singly (hd : d.Sound) {qs : List (Request κ)} (hqs : ∀ q ∈ qs, q.Linked) :
    d.through (qs.flatMap Request.singly) = d.through qs ∧
      d.told (qs.flatMap Request.singly) = d.told qs := by
  induction qs generalizing d with
  | nil => exact ⟨rfl, rfl⟩
  | cons q qs ih =>
    obtain ⟨hq, hlater⟩ := List.forall_mem_cons.1 hqs
    obtain ⟨hdesk, htold⟩ := hd.perform_singly q
    obtain ⟨hthrough, hrest⟩ := ih (perform_answers hd hq).desk hlater
    rw [List.flatMap_cons, through_append, told_append, ← hdesk, ← htold]
    exact ⟨hthrough, congrArg _ hrest⟩

/-! ### One request -/

variable {limits : Limits} {r : Run} {w : World} {key : κ} {n : Nat}

/-- The desk has made `n` steps of a run that was begun on the world of a key: the world is what they
made of it, and the run is held exactly as long as it can go on. -/
structure Stands (limits : Limits) (r : Run) (w : World) (key : κ) (n : Nat) (d : Desk κ) :
    Prop where
  sameLimits : d.scheduler.limits = limits
  world : d.worlds.get? key = some (r.after limits w n).2
  held : d.scheduler.held =
    if (r.after limits w n).1.status = .running then some ⟨(r.after limits w n).1, key⟩ else none

/-- What becomes of a desk that has made `n` steps of a run: it reports nothing and stands as before,
or it reports the step that follows. -/
inductive Moves (limits : Limits) (r : Run) (w : World) (key : κ) (n : Nat) : Outcome κ → Prop where
  | waits {o : Outcome κ} (silent : o.reported = []) (stands : o.desk.Stands limits r w key n) :
      Moves limits r w key n o
  | steps {o : Outcome κ} {x : StepResult} (running : (r.after limits w n).1.status = .running)
      (result : (r.stepAfter limits w n).result = .ok x) (told : o.reported = [x])
      (world : o.desk.worlds.get? key = some (r.stepAfter limits w n).world)
      (stands : o.desk.Stands limits r w key (n + 1)) : Moves limits r w key n o

theorem Stands.with {s : Scheduler κ} (h : d.Stands limits r w key n)
    (hlimits : s.limits = d.scheduler.limits) (hheld : s.held = d.scheduler.held) :
    Stands limits r w key n { d with scheduler := s } where
  sameLimits := hlimits.trans h.sameLimits
  world := h.world
  held := hheld.trans h.held

theorem Stands.stepOutcome_moves (hr : r.Linked) (h : d.Stands limits r w key n)
    (hheld : d.scheduler.held.isSome) : Moves limits r w key n d.stepOutcome := by
  have hrun : (r.after limits w n).1.status = .running := by
    by_contra hended
    simp [h.held, hended] at hheld
  have hlinked := hr.after limits w n
  have hsome : d.scheduler.held = some ⟨(r.after limits w n).1, key⟩ := by
    rw [h.held, if_pos hrun]
  obtain ⟨x, hx, _, hout⟩ := stepOutcome_eq hsome h.world hrun hlinked
  obtain ⟨y, hy, _, _, hgoes⟩ := hlinked.step_running hrun limits (r.after limits w n).2
  rw [h.sameLimits] at hx hout
  obtain rfl : x = y := Except.ok.inj (hx.symm.trans hy)
  have hworld : (d.worlds.set key (r.stepAfter limits w n).world).get? key =
      some (r.stepAfter limits w n).world := Worlds.get?_set_self (by simp [h.world])
  rw [hout]
  refine .steps hrun hx rfl hworld ⟨?_, ?_, ?_⟩
  · cases x <;> exact h.sameLimits
  · rw [Run.after_succ]
    exact hworld
  · rw [Run.after_succ]
    exact Scheduler.settle_held_ite hgoes

theorem Stands.perform_moves (hr : r.Linked) (hd : d.Sound) (h : d.Stands limits r w key n)
    {q : Request κ} (hq : q.Drives) (hsingle : ∀ n, q ≠ .tick n) :
    Moves limits r w key n (d.perform q) := by
  cases hq with
  | heartbeat =>
    have hbeat : Stands limits r w key n { d with scheduler := d.scheduler.beat.1 } :=
      h.with (congrArg Prod.fst Scheduler.beat_setting) Scheduler.beat_held
    rw [perform_heartbeat]
    by_cases hdue : d.scheduler.beat.2 = true
    · rw [if_pos hdue]
      refine hbeat.stepOutcome_moves hr ?_
      show d.scheduler.beat.1.held.isSome
      rw [Scheduler.beat_held]
      exact hd.scheduler.held_of_due hdue
    · rw [if_neg hdue]
      exact .waits rfl hbeat
  | tick k => exact absurd rfl (hsingle k)
  | resume =>
    simp only [perform, react]
    cases hresume : d.scheduler.resume with
    | error reason => exact .waits rfl h
    | ok s =>
      have hsetting := Scheduler.resume_setting hresume
      exact .waits rfl (h.with (congrArg Prod.fst hsetting) (Scheduler.resume_held hresume))
  | step =>
    simp only [perform, react]
    cases hready : d.scheduler.readyStep none (d.present none) with
    | error reason => exact .waits rfl h
    | ok s =>
      rcases (Scheduler.readyStep_eq_ok.1 hready).2 with ⟨hsome, rfl⟩ | ⟨_, ready, hbegin, _⟩
      · rw [hd.scheduler.suspended?_eq] at hsome
        exact Stands.stepOutcome_moves hr (h.with rfl rfl) hsome
      · obtain ⟨_, _, _, ⟨⟩, _⟩ := Scheduler.begin_eq_ok.1 hbegin

/-- A request that begins a run either makes no step of it, or the first. -/
theorem Sound.begins_moves {p : Program} {q : Request κ} (hd : d.Sound) (hp : p.Linked)
    (hw : d.worlds.get? key = some w) (hq : d.Begins p key q) :
    ∃ r, Run.start? p = some r ∧ r.Linked ∧
      Moves d.scheduler.limits r w key 0 (d.perform q) ∧ q.Linked ∧ q.singly = [q] := by
  obtain ⟨r, hstart, hlinked, _, hrun⟩ := Run.start?_linked hp
  have hkey : d.present (some key) = some key :=
    present_eq_some.2 ⟨rfl, Worlds.get?_isSome.1 (by simp [hw])⟩
  have hbegin : d.scheduler.begin (some p) (some key) = .ok { d.scheduler with
      held := some ⟨r, key⟩, lastFault := none, countdown := d.scheduler.period } :=
    Scheduler.begin_eq_ok.2 ⟨p, key, r, rfl, rfl, hstart, rfl⟩
  have hstands (phase : Phase) : Stands d.scheduler.limits r w key 0 { d with scheduler :=
      { d.scheduler with held := some ⟨r, key⟩, lastFault := none,
                         countdown := d.scheduler.period, phase := phase } } :=
    ⟨rfl, hw, (if_pos hrun).symm⟩
  refine ⟨r, hstart, hlinked, ?_⟩
  cases q with
  | start p' k =>
    obtain ⟨rfl, rfl⟩ := hq
    refine ⟨?_, by simpa [Request.Linked] using hp, rfl⟩
    have hok := Scheduler.start_eq_ok.2 ⟨_, hbegin, rfl⟩
    simp only [perform, react, hkey, hok, adopt]
    exact .waits rfl (hstands .running)
  | step p' k =>
    obtain ⟨rfl, rfl, hnone⟩ := hq
    refine ⟨?_, by simpa [Request.Linked] using hp, rfl⟩
    have hok := Scheduler.readyStep_eq_ok.2 ⟨hd.scheduler.resting, .inr ⟨hnone, _, hbegin, rfl⟩⟩
    simp only [perform, react, hkey, hok, adopt]
    exact (hstands .idle).stepOutcome_moves hlinked rfl
  | _ => exact hq.elim

/-! ### Rows of requests -/

/-- What is delivered of a run after `n` steps are the steps that follow in its trace, each with the
world as it is then, and that many steps have been made. -/
structure Continues (limits : Limits) (r : Run) (w : World) (key : κ) (n : Nat)
    (es : List (StepResult × Worlds κ)) (d : Desk κ) : Prop where
  follows : ∃ steps, r.trace limits w (n + es.length) = r.trace limits w n ++ steps ∧
    es.map (fun e => (Except.ok e.1, e.2.get? key)) = steps.map fun s => (s.result, some s.world)
  stands : d.Stands limits r w key (n + es.length)

theorem Moves.continues {o : Outcome κ} (hr : r.Linked) (h : Moves limits r w key n o)
    {es : List (StepResult × Worlds κ)}
    (hlater : ∀ m, o.desk.Stands limits r w key m → Continues limits r w key m es d) :
    Continues limits r w key n (o.reported.map (·, o.desk.worlds) ++ es) d := by
  cases h with
  | waits silent stands =>
    rw [silent]
    exact hlater n stands
  | steps running result told world stands =>
    obtain ⟨⟨steps, htrace, hsame⟩, hstands⟩ := hlater (n + 1) stands
    have hlength : n + 1 + es.length = n + (o.reported.map (·, o.desk.worlds) ++ es).length := by
      rw [told, List.length_append, List.length_map, List.length_singleton]
      omega
    rw [hlength] at htrace hstands
    refine ⟨⟨r.stepAfter limits w n :: steps, ?_, ?_⟩, hstands⟩
    · rw [htrace, hr.trace_succ running, List.append_assoc, List.singleton_append]
    · rw [told]
      simp [result, world, hsame]

theorem Stands.continues {qs : List (Request κ)} (hr : r.Linked) (hd : d.Sound)
    (h : d.Stands limits r w key n) (hqs : ∀ q ∈ qs, q.Drives ∧ ∀ k, q ≠ .tick k) :
    Continues limits r w key n (d.deliveries qs) (d.through qs) := by
  -- the desk stands at some step of the run before each request, at the same or at the next one after
  induction qs generalizing d n with
  | nil => exact ⟨⟨[], (List.append_nil _).symm, rfl⟩, h⟩
  | cons q qs ih =>
    obtain ⟨⟨hdrives, hsingle⟩, hlater⟩ := List.forall_mem_cons.1 hqs
    have hsound := (perform_answers hd hdrives.linked).desk
    exact (h.perform_moves hr hd hdrives hsingle).continues hr fun m hm => ih hsound hm hlater

/-- A run that is begun and then driven in any way: what is delivered is its trace, step by step, with
the world as it is when the run is stepped by itself; all results but the last leave the run going
on; and the run that is still held has made just the steps that were delivered. A listener that makes
no requests hears these results and no others. -/
theorem deliveries_eq_trace {limits : Limits} {period : Int} {s : Scheduler κ}
    (hs : Scheduler.ofInts limits period = some s) (ws : Worlds κ) {earlier : List (Request κ)}
    (hearlier : ∀ q ∈ earlier, q.Linked) {p : Program} (hp : p.Linked) {key : κ} {w : World}
    (hw : ((Desk.mk s ws).through earlier).worlds.get? key = some w) {first : Request κ}
    (hfirst : ((Desk.mk s ws).through earlier).Begins p key first) {qs : List (Request κ)}
    (hqs : ∀ q ∈ qs, q.Drives) :
    let d := (Desk.mk s ws).through earlier
    let row := first :: qs
    let es := d.deliveries (row.flatMap Request.singly)
    ∃ r, Run.start? p = some r ∧
      es.map (fun e => (Except.ok e.1, e.2.get? key)) =
        (r.trace limits w es.length).map (fun t => (t.result, some t.world)) ∧
      (∀ e ∈ es.dropLast, e.1 = .continued) ∧
      (d.through row).Stands limits r w key es.length ∧
      ∀ reloads, ((Session.opened d).through (.listener reloads) row).seen = es.map Prod.fst := by
  intro d row es
  obtain ⟨hnone, hmadeOf, _⟩ := Scheduler.ofInts_setting hs
  have hmade : (Desk.mk s ws).Sound := .of_free (Scheduler.ofInts_sound hs) hnone ws
  have hd : d.Sound := hmade.through hearlier
  have hlimits : d.scheduler.limits = limits := by
    rw [show d.scheduler.limits = s.limits from congrArg Prod.fst (through_setting earlier)]
    exact hmadeOf
  obtain ⟨r, hstart, hlinked, hmoves, hfirstLinked, hfirstSingly⟩ := hd.begins_moves hp hw hfirst
  rw [hlimits] at hmoves
  have hsound := (perform_answers hd hfirstLinked).desk
  have hdrives : ∀ q ∈ qs.flatMap Request.singly, q.Drives ∧ ∀ k, q ≠ .tick k := by
    intro q hq
    obtain ⟨q', hq', hmem⟩ := List.mem_flatMap.1 hq
    exact (hqs q' hq').singly hmem
  have hcontinues : Continues limits r w key 0 es (d.through (row.flatMap Request.singly)) := by
    rw [show es = d.deliveries (first :: qs.flatMap Request.singly) by
        simp [es, row, List.flatMap_cons, hfirstSingly],
      List.flatMap_cons, hfirstSingly]
    exact hmoves.continues hlinked fun m hm => hm.continues hlinked hsound hdrives
  obtain ⟨⟨steps, htrace, hsame⟩, hstands⟩ := hcontinues
  rw [Nat.zero_add] at htrace hstands
  obtain rfl : steps = r.trace limits w es.length := htrace.symm
  have hrow : ∀ q ∈ row, q.Linked := by
    intro q hq
    rcases List.mem_cons.1 hq with rfl | hq
    · exact hfirstLinked
    · exact (hqs q hq).linked
  obtain ⟨hthrough, htold⟩ := hd.through_singly hrow
  refine ⟨r, hstart, hsame, ?_, hthrough ▸ hstands, ?_⟩
  · intro e he
    -- a result before the last is one of the trace, which ends with the run
    have hmem : (Except.ok e.1, e.2.get? key) ∈ (es.map
        fun e => ((Except.ok e.1 : Except MissingProcedure StepResult), e.2.get? key)).dropLast := by
      rw [← List.map_dropLast]
      exact List.mem_map_of_mem he
    rw [hsame, ← List.map_dropLast] at hmem
    obtain ⟨t, ht, hboth⟩ := List.mem_map.1 hmem
    have hresult : t.result = .ok e.1 := congrArg Prod.fst hboth
    exact Except.ok.inj (hresult.symm.trans (Run.continued_of_mem_dropLast ht))
  · intro reloads
    rw [(Session.through_listener _ reloads row).2]
    show [] ++ d.told row = _
    rw [List.nil_append, ← htold]
    exact (deliveries_told _).symm

/-- A scheduler for a step at every second heartbeat, whose first run was given up. -/
def halfPace : Desk Nat :=
  (Desk.mk (.fresh ⟨2, 6⟩ 2) [(0, ⟨4, 1, .home, [], [], none⟩)]).through
    [.start (some Run.walk) (some 0), .heartbeat, .reset]

/-- A run that is begun by a single step, animated, stepped and animated again up to its end. -/
def mixedRow : List (Request Nat) :=
  [.step (some Run.walk) (some 0), .heartbeat, .resume, .tick 3, .step none none, .resume,
    .heartbeat, .heartbeat, .tick 4]

theorem deliveries_eq_trace_mixed :
    let es := halfPace.deliveries (mixedRow.flatMap Request.singly)
    es.map Prod.fst = [.continued, .continued, .continued, .faulted .blockedByWall (some 4)] ∧
      ∃ r, Run.start? Run.walk = some r ∧
        es.map (fun e => (Except.ok e.1, e.2.get? 0)) =
          (r.trace ⟨2, 6⟩ ⟨4, 1, .home, [], [], none⟩ 4).map (fun t => (t.result, some t.world)) ∧
        (halfPace.through mixedRow).Stands ⟨2, 6⟩ r ⟨4, 1, .home, [], [], none⟩ 0 4 := by
  intro es
  have htold : es.map Prod.fst =
      [.continued, .continued, .continued, .faulted .blockedByWall (some 4)] := by decide
  have hlength : es.length = 4 := by rw [← List.length_map Prod.fst, htold]; rfl
  have hmade : Scheduler.ofInts (κ := Nat) ⟨2, 6⟩ 2 = some (.fresh ⟨2, 6⟩ 2) := rfl
  have hwalk : Run.walk.Linked := by decide
  have hearlier : ∀ q ∈ [.start (some Run.walk) (some 0), .heartbeat, .reset],
      Request.Linked (κ := Nat) q := by
    simp [Request.Linked, hwalk]
  have hworld : halfPace.worlds.get? 0 = some ⟨4, 1, .home, [], [], none⟩ := by decide
  have hbegins : halfPace.Begins Run.walk 0 (.step (some Run.walk) (some 0)) := ⟨rfl, rfl, rfl⟩
  have hdrives : ∀ q ∈ mixedRow.tail, q.Drives := by
    intro q hq
    simp only [mixedRow, List.tail_cons, List.mem_cons, List.not_mem_nil, or_false] at hq
    rcases hq with rfl | rfl | rfl | rfl | rfl | rfl | rfl | rfl <;> constructor
  obtain ⟨r, hstart, hsame, _, hstands, _⟩ := deliveries_eq_trace hmade
    [(0, ⟨4, 1, .home, [], [], none⟩)] hearlier hwalk hworld hbegins hdrives
  refine ⟨htold, r, hstart, ?_, ?_⟩
  · rw [← hlength]
    exact hsame
  · rw [← hlength]
    exact hstands

end Desk

end GridRobot

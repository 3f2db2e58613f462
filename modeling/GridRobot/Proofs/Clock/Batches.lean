import GridRobot.Clock.Basic
import GridRobot.Proofs.Scheduler.Pace
import GridRobot.Proofs.Workbench.Sound
import GridRobot.Yaml.Document

/-!
# Heartbeats in batches

A clock hands over its heartbeats in batches, and its one subscriber deals with them one by one.
So it makes no difference how a number of heartbeats is cut into batches, as long as no step is
refused: a batch ends with a refusal, and the heartbeats that are left of it are lost.

## Main definitions

* `Clock.drive` is a clock with its one subscriber after some batches.
* `Session.serve` and `Workbench.serve` are what a scheduler and a workbench do when they are
  called.

## Main statements

* `Session.serve_batches`, `Workbench.serve_batches`: a row of batches is a row of heartbeats.
* `Clock.paced_in_batches`: the pace of a run, and its independence of the batches.
-/

namespace GridRobot

/-! ### A clock and its subscriber -/

namespace Clock

variable {σ : Type}

/-- A clock, and its one subscriber, which takes the number of heartbeats, after some batches:
each of them is counted, and then the subscriber serves the calls. -/
def drive (serve : Call → σ → σ) (c : Clock Unit) (s : σ) : List Nat → Clock Unit × σ
  | [] => (c, s)
  | n :: batches =>
    match c.tick? (fun _ => Hook.batch) n with
    | none => (c, s)
    | some (counted, calls) =>
      drive serve counted (calls.foldl (fun s call => serve call.2 s) s) batches

variable {serve : Call → σ → σ} {c : Clock Unit}

theorem tick?_batch (hc : c.subscribers = [()]) (n : Nat) :
    c.tick? (fun _ => Hook.batch) (n : Int) =
      some ({ c with beatCount := c.beatCount + n }, if n = 0 then [] else [((), .beats n)]) := by
  cases n with
  | zero => rfl
  | succ n =>
    have hpos : ¬ ((n + 1 : Nat) : Int) < 0 := by omega
    have hne : ((n + 1 : Nat) : Int) ≠ 0 := by omega
    rw [tick?, if_neg hpos, if_neg hne, deliveries, hc]
    rfl

/-- Each batch is counted, and the subscriber is called for it. -/
theorem drive_eq (hc : c.subscribers = [()]) (hnone : ∀ s, serve (.beats 0) s = s)
    (batches : List Nat) (s : σ) : c.drive serve s batches =
      ({ c with beatCount := c.beatCount + batches.sum },
        batches.foldl (fun s n => serve (.beats n) s) s) := by
  induction batches generalizing c s with
  | nil => rfl
  | cons n batches ih =>
    rw [drive, tick?_batch hc]
    simp only
    rw [ih (c := { c with beatCount := c.beatCount + n }) hc]
    by_cases hn : n = 0
    · simp [hn, hnone]
    · simp [hn, Nat.add_assoc]

/-- If a subscriber deals with batches as with heartbeats one by one, it makes no difference how
they are cut. -/
theorem drive_singly (beat : Nat → σ → σ) (hc : c.subscribers = [()])
    (hnone : ∀ s, serve (.beats 0) s = s) {s : σ} {batches : List Nat}
    (h : ∀ cut : List Nat, cut.sum = batches.sum →
      cut.foldl (fun s n => serve (.beats n) s) s = beat batches.sum s) :
    c.drive serve s batches = c.drive serve s (.replicate batches.sum 1) := by
  have hsum : (List.replicate batches.sum 1).sum = batches.sum := by simp
  rw [drive_eq hc hnone, drive_eq hc hnone, h batches rfl, h _ hsum, hsum]

end Clock

/-! ### Schedulers -/

/-- What a call of a clock asks of a scheduler. -/
def Call.request {κ : Type} : Call → Request κ
  | .beats n => .tick n
  | .tick => .tick 1
  | .heartbeat => .heartbeat

namespace Session

variable {κ : Type} [DecidableEq κ] {g : Guests κ} {s : Session κ}

/-- A scheduler is called by a clock. -/
def serve (g : Guests κ) (call : Call) (s : Session κ) : Session κ :=
  (s.perform g call.request).2

theorem through_append (qs rs : List (Request κ)) :
    s.through g (qs ++ rs) = (s.through g qs).through g rs := by
  simp only [through, List.foldl_append]

theorem heartbeatWith_eq (hear : Hearing κ) :
    s.heartbeatWith g hear = s.performWith g hear .heartbeat := by
  unfold heartbeatWith performWith Desk.react Desk.beat
  rcases s.desk.scheduler.beat with ⟨scheduler, _ | _⟩ <;> rfl

/-- While nothing is animated, heartbeats do nothing. -/
theorem heartbeatWith_of_not_running (hear : Hearing κ)
    (hphase : s.desk.scheduler.phase ≠ .running) : s.heartbeatWith g hear = (.done, s) := by
  have hbeat : s.desk.scheduler.beat = (s.desk.scheduler, false) := by simp [Scheduler.beat, hphase]
  simp [heartbeatWith, Desk.beat, hbeat]

theorem tickWith_of_not_running (hear : Hearing κ) (hphase : s.desk.scheduler.phase ≠ .running)
    (n : Nat) : s.tickWith g hear n = (.done, s) := by
  cases n with
  | zero => rfl
  | succ n => rw [tickWith, if_pos hphase]

/-- None of the next heartbeats is refused. -/
def Unrefused (g : Guests κ) (s : Session κ) (n : Nat) : Prop :=
  ∀ k < n, ∀ reason,
    ((s.through g (.replicate k .heartbeat)).perform g .heartbeat).1 ≠ .refused reason

theorem Unrefused.first {m n : Nat} (h : s.Unrefused g (m + n)) : s.Unrefused g m :=
  fun k hk => h k (by omega)

theorem Unrefused.later {m n : Nat} (h : s.Unrefused g (m + n)) :
    (s.through g (.replicate m .heartbeat)).Unrefused g n := by
  intro k hk
  rw [← through_append, List.replicate_append_replicate]
  exact h (m + k) (by omega)

/-- So many heartbeats at once are as many heartbeats. -/
theorem tickWith_eq {n : Nat} (h : s.Unrefused g n) :
    (s.tickWith g (hear g g.inListener.length) n).2 = s.through g (.replicate n .heartbeat) := by
  induction n generalizing s with
  | zero => rfl
  | succ n ih =>
    have hlater : (s.perform g .heartbeat).2.Unrefused g n := by
      rw [Nat.add_comm] at h
      exact h.later
    have hrest := ih hlater
    have hbeat : s.heartbeatWith g (hear g g.inListener.length) = s.perform g .heartbeat :=
      heartbeatWith_eq _
    by_cases hphase : s.desk.scheduler.phase = .running
    · have hfirst := h 0 (Nat.succ_pos n)
      rw [tickWith, if_neg (not_not.2 hphase), hbeat]
      rcases hperform : s.perform g .heartbeat with ⟨answer, after⟩
      rw [hperform] at hrest
      have hsame : s.through g (.replicate (n + 1) .heartbeat) =
          after.through g (.replicate n .heartbeat) :=
        congrArg (fun said => said.2.through g (.replicate n .heartbeat)) hperform
      rw [hsame]
      cases answer with
      | refused reason => exact absurd (congrArg Prod.fst hperform) (hfirst reason)
      | _ => exact hrest
    · -- the row stops here, and the heartbeats that are left out would do nothing
      have hstill : s.perform g .heartbeat = (.done, s) := by
        rw [← hbeat]
        exact heartbeatWith_of_not_running _ hphase
      rw [hstill, tickWith_of_not_running _ hphase] at hrest
      rw [tickWith_of_not_running _ hphase]
      exact hrest.trans
        (congrArg (fun said => said.2.through g (.replicate n .heartbeat)) hstill).symm

theorem serve_beats (n : Nat) :
    s.serve g (.beats n) = (s.tickWith g (hear g g.inListener.length) n).2 := rfl

/-- A row of batches is a row of heartbeats. -/
theorem serve_batches {batches : List Nat} (h : s.Unrefused g batches.sum) :
    batches.foldl (fun s n => s.serve g (.beats n)) s =
      s.through g (.replicate batches.sum .heartbeat) := by
  induction batches generalizing s with
  | nil => rfl
  | cons n batches ih =>
    rw [List.sum_cons] at h ⊢
    rw [List.foldl_cons, serve_beats, tickWith_eq h.first, ih h.later, ← through_append,
      List.replicate_append_replicate]

/-- Nothing is refused to a listener if the programs have all that they call. -/
theorem unrefused_listener {d : Desk κ} (hd : d.Sound) (hs : s.desk = d) (reloads : Bool)
    (n : Nat) : s.Unrefused (.listener reloads) n := by
  intro k _ reason hrefused
  have hsame := (s.through_listener reloads (.replicate k .heartbeat)).1
  have hsound : (d.through (.replicate k .heartbeat)).Sound :=
    hd.through fun q hq => by rw [List.eq_of_mem_replicate hq]; trivial
  rw [(perform_keeps _ reloads .heartbeat).answer, hsame, hs,
    ← Desk.heartbeat_eq_perform] at hrefused
  exact absurd ((Desk.heartbeat_answers hsound).refused reason hrefused) List.not_mem_nil

end Session

/-! ### Workbenches -/

namespace Workbench

variable {b : Workbench}

/-- A workbench is called by a clock. -/
def serve (call : Call) (b : Workbench) : Workbench :=
  match call with
  | .beats n => b.tick n
  | .tick => b.tick 1
  | .heartbeat => b.heartbeat

/-- A row of batches is a row of heartbeats. -/
theorem serve_batches [Yaml.Reader] (batches : List Nat) :
    batches.foldl (fun b n => b.serve (.beats n)) b =
      b.through (.replicate batches.sum .heartbeat) := by
  induction batches generalizing b with
  | nil => rfl
  | cons n batches ih =>
    rw [List.foldl_cons, ih, List.sum_cons, ← List.replicate_append_replicate, through_append]
    exact congrArg (through · _) (tick_eq_through b n)

end Workbench

namespace Clock

variable {κ : Type} [DecidableEq κ]

/-- A run that a scheduler begins to animate, by a start or a resumption that is carried out,
makes its steps at exactly the `n`-th heartbeat from then on, the `2 n`-th and so forth up to its
end, and then heartbeats do nothing. However heartbeats are cut into batches, a clock brings a
scheduler to where as many single ones bring it, as long as none of those is refused, and none is
if all programs have what they call; and the same is true of a workbench, at which none is refused
at all. -/
theorem paced_in_batches [Yaml.Reader] {limits : Limits} {n : Nat} {s : Scheduler κ}
    (hs : Scheduler.ofInts limits n = some s) (ws : Worlds κ) (earlier : List (Request κ)) :
    let d := (Desk.mk s ws).through earlier
    (∀ first, d.SetsOff first → (d.perform first).answer = .done →
      let begun := (d.perform first).desk
      ∃ h w, begun.scheduler.held = some h ∧ begun.worlds.get? h.world = some w ∧
        h.run.status = .running ∧ ∀ k,
          let after := begun.through (.replicate k .heartbeat)
          after.Stands limits h.run w h.world (k / n) ∧
          ((after.perform .heartbeat).answer, (after.perform .heartbeat).reported) =
            (if n ∣ k + 1 ∧ (h.run.after limits w (k / n)).1.status = .running then
              (h.run.stepAfter limits w (k / n)).said
            else (.done, [])) ∧
          ((h.run.after limits w (k / n)).1.status ≠ .running →
            (after.perform .heartbeat).desk = after)) ∧
    (∀ (g : Guests κ) (c : Clock Unit) (batches : List Nat), c.subscribers = [()] →
      let session := (Session.opened (Desk.mk s ws)).through g earlier
      ((∀ q ∈ earlier, q.Linked) → (∃ reloads, g = .listener reloads) →
        session.Unrefused g batches.sum) ∧
      (session.Unrefused g batches.sum → c.drive (Session.serve g) session batches =
        c.drive (Session.serve g) session (.replicate batches.sum 1))) ∧
    ∀ (config : Config) (library : Library) (loading : Loading) (source : String)
      (initialWorld : Option LooseText) (files : Files) (events : List Event) (c : Clock Unit)
      (batches : List Nat), c.subscribers = [()] →
      let b := (Workbench.opened config library loading source initialWorld files).2.through events
      (1 ≤ config.timing.actionHeartbeats →
        ∀ reason, (b.desk.perform .heartbeat).answer ≠ .refused reason) ∧
      c.drive Workbench.serve b batches = c.drive Workbench.serve b (.replicate batches.sum 1) := by
  intro d
  obtain ⟨hheld, hmade, hperiod⟩ := Scheduler.ofInts_setting hs
  have hsound := Scheduler.ofInts_sound hs
  have hsetting : d.scheduler.setting = s.setting := Desk.through_setting earlier
  have hsteady : d.Steady := Desk.Steady.through (.of_free hsound.resting hheld
    (hsound.phase_ne_running hheld) ws) earlier
  refine ⟨?_, ?_, ?_⟩
  · intro first hfirst hdone begun
    have hlimits : d.scheduler.limits = limits := (congrArg Prod.fst hsetting).trans hmade
    have hn : d.scheduler.period = n := by
      have hsame : d.scheduler.period = s.period := congrArg Prod.snd hsetting
      omega
    have hpos : 0 < n := by
      have := hsound.period_pos
      omega
    obtain ⟨h, w, hbegun, hworld, hrun, hpaced⟩ :=
      Desk.Paced.of_setsOff hsteady hn hlimits hfirst hdone
    refine ⟨h, w, hbegun, hworld, hrun, fun k => ?_⟩
    have hafter := hpaced.heartbeats hpos k
    refine ⟨hafter.stands, (hafter.heartbeat hpos).2, fun hended => ?_⟩
    rw [(hafter.heartbeat_stopped hpos hended).1]
  · intro g c batches hc session
    refine ⟨?_, fun hgoes => ?_⟩
    · rintro hlinked ⟨reloads, rfl⟩
      have hdesk := ((Session.opened (Desk.mk s ws)).through_listener reloads earlier).1
      have hd : d.Sound := Desk.Sound.through (.of_free hsound hheld ws) hlinked
      exact Session.unrefused_listener hd hdesk reloads batches.sum
    · refine drive_singly (fun n s => s.through g (.replicate n .heartbeat)) hc
        (fun _ => rfl) fun cut hcut => ?_
      rw [← hcut] at hgoes ⊢
      exact Session.serve_batches hgoes
  · intro config library loading source initialWorld files events c batches hc b
    refine ⟨?_, ?_⟩
    · intro hperiod reason
      exact Workbench.heartbeat_unrefused hperiod library loading source initialWorld files events
        reason
    · refine drive_singly (fun n b => b.through (.replicate n .heartbeat)) hc
        (fun _ => rfl) fun cut hcut => ?_
      rw [← hcut]
      exact Workbench.serve_batches cut

/-- A clock with one subscriber. -/
def ticking : Clock Unit :=
  ⟨8, 0, [()]⟩

/-- A desk with a scheduler of a pace, and with a blank world of four cells. -/
def fourCells (n : Nat) : Desk Nat :=
  ⟨.fresh ⟨2, 6⟩ n, [(0, ⟨4, 1, .home, [], [], none⟩)]⟩

open scoped Yaml.Plain

/-- The second step of a run is made at the fourth heartbeat, and five heartbeats are five however
they are cut. -/
theorem paced_in_batches_walk :
    let first : Request Nat := .start (some Run.walk) (some 0)
    let session := (Session.opened (fourCells 2)).through (.listener true) [first]
    Scheduler.ofInts (κ := Nat) ⟨2, 6⟩ 2 = some (.fresh ⟨2, 6⟩ 2) ∧
      (∃ h w, ((fourCells 2).perform first).desk.scheduler.held = some h ∧
        let after := ((fourCells 2).perform first).desk.through (.replicate 3 .heartbeat)
        ((after.perform .heartbeat).answer, (after.perform .heartbeat).reported) =
          (h.run.stepAfter ⟨2, 6⟩ w 1).said) ∧
      ticking.drive (Session.serve (.listener true)) session [3, 0, 2] =
        ticking.drive (Session.serve (.listener true)) session (.replicate 5 1) := by
  intro first session
  have hmade : Scheduler.ofInts (κ := Nat) ⟨2, 6⟩ 2 = some (.fresh ⟨2, 6⟩ 2) := rfl
  have hdone : ((fourCells 2).perform first).answer = .done := by decide
  have hstep : ((((fourCells 2).perform first).desk.through (.replicate 3 .heartbeat)).perform
      .heartbeat).reported = [.continued] := by decide
  have hlinked : ∀ q ∈ [first], q.Linked := by
    have hwalk : Run.walk.Linked := by decide
    simp [first, Request.Linked, hwalk]
  refine ⟨hmade, ?_, ?_⟩
  · obtain ⟨h, w, hheld, -, -, hpace⟩ := (paced_in_batches (n := 2) hmade
      [((0 : Nat), ⟨4, 1, .home, [], [], none⟩)] []).1 first trivial hdone
    refine ⟨h, w, hheld, ?_⟩
    obtain ⟨-, hsaid, -⟩ := hpace 3
    split at hsaid
    · exact hsaid
    · -- no step would be reported then
      have hfour : fourCells 2 =
          Desk.through ⟨.fresh ⟨2, 6⟩ 2, [(0, ⟨4, 1, .home, [], [], none⟩)]⟩ [] := rfl
      obtain ⟨-, hnone⟩ := Prod.mk.inj hsaid
      rw [hfour, hnone] at hstep
      cases hstep
  · have hbatches := (paced_in_batches (n := 2) hmade
      [((0 : Nat), ⟨4, 1, .home, [], [], none⟩)] [first]).2.1 (.listener true) ticking [3, 0, 2] rfl
    exact hbatches.2 (hbatches.1 hlinked ⟨true, rfl⟩)

/-- A run of which the first step meets a procedure that is not there. -/
def lackingCall : Program :=
  ⟨[⟨"main", [.call "go" 1, .action .move 1], 1⟩], "main"⟩

/-- A run that is resumed while it is animated is not paced from then on: its first step is made
at the second heartbeat and not at the third. And when a step is refused, the rest of a batch is
lost. -/
theorem pace_of_resumption :
    let resumed := (fourCells 3).through [.start (some Run.walk) (some 0), .heartbeat]
    let lacking := (Session.opened (fourCells 1)).through (.listener true)
      [.start (some lackingCall) (some 0)]
    ((resumed.perform .resume).answer = .done ∧
      ((((resumed.perform .resume).desk.through [.heartbeat]).perform .heartbeat).reported =
        [.continued])) ∧
    (ticking.drive (Session.serve (.listener true)) lacking [2]).2.seen = [] ∧
    (ticking.drive (Session.serve (.listener true)) lacking (.replicate 2 1)).2.seen =
      [.continued] := by
  decide

end Clock

end GridRobot

import GridRobot.Proofs.Run.Compiled
import GridRobot.Proofs.Workbench.Answered

/-!
# The desk of a workbench

A workbench puts only compiled programs to its desk, and these have all the procedures that they
call. So at its desk the parts fit together, and no step is ever refused.

## Main statements

* `Workbench.happen_sound`: every event leaves a sound desk.
* `Workbench.opened_sound`: the desk is sound in any history of a workbench.
* `Workbench.heartbeat_unrefused`: no heartbeat is refused, in any history of a workbench.
-/

namespace GridRobot.Workbench

variable {b b' : Workbench}

theorem linked_of_program? {p : Program} (h : b.program? = some p) : p.Linked := by
  have hcompile := congrArg Prod.fst (compile_of_program? h)
  unfold compile at hcompile
  simp only at hcompile
  split at hcompile
  · rename_i q hq
    obtain rfl := Except.ok.inj (Except.ok.inj hcompile)
    exact (Source.compile_closed hq).linked
  · simp at hcompile
  · simp at hcompile

/-- The desk is sound after an answer to a request that brings no program, or a linked one. -/
theorem Hears.sound {ready : Workbench} {q : Request Nat} (hb : b.desk.Sound) (hq : q.Linked)
    (h : Hears b ready (b.desk.perform q) b') : b'.desk.Sound := by
  rw [h.desk]
  exact (Desk.perform_answers hb hq).desk

theorem deliver_sound (hb : b.desk.Sound) (a : Arrival) : (b.deliver a).desk.Sound := by
  rcases deliver_spec (b := b) a with hsame | ⟨e, hfailed⟩ | ⟨w, harrived⟩
  · rwa [hsame]
  · rw [hfailed]
    exact hb
  · rw [harrived]
    refine ⟨hb.scheduler, fun h hh => ?_⟩
    have hworld := hb.world h hh
    rw [Worlds.get?_isSome] at hworld ⊢
    exact List.mem_cons_of_mem _ hworld

theorem load_sound [Yaml.Reader] (hb : b.desk.Sound) (files : Files) :
    (b.load files).2.desk.Sound := by
  rcases load_spec (b := b) files with ⟨waiting, hload⟩ | ⟨a, hload⟩
  · rw [hload]
    exact hb
  · rw [hload]
    exact deliver_sound (b := { b with shown := none }) hb a

/-- What is put to the desk brings no program, or a linked one. -/
theorem request?_linked {e : Event} {q : Request Nat} (h : b.request? e = some q) : q.Linked := by
  rcases request?_cases h with hq | ⟨a, rfl⟩ | ⟨p, hp, rfl | rfl⟩
  · simp only [List.mem_cons, List.not_mem_nil, or_false] at hq
    rcases hq with rfl | rfl | rfl | rfl <;> trivial
  · trivial
  · exact fun r hr => linked_of_program? (hp r hr)
  · exact fun r hr => linked_of_program? (hp r hr)

theorem Comes.sound [Yaml.Reader] {e : Event} (hb : b.desk.Sound) (h : b.Comes e b') :
    b'.desk.Sound := by
  cases h with
  | kept hdesk => rwa [hdesk]
  | heard ready steps hq hready h => exact (h.sound hb (request?_linked hq) :)
  | @cleared q hq name files =>
    have hlinked : q.Linked := by rcases hq with rfl | rfl <;> trivial
    have hask : (b.ask q).2.desk.Sound := (accept_hears b b rfl _).sound hb hlinked
    exact load_sound (b := { (b.ask q).2 with worldName := name }) hask files
  | delivered k a =>
    exact deliver_sound (b := { b with arrivals := b.arrivals.eraseIdx k }) hb a

/-- Every event leaves a sound desk. -/
theorem happen_sound [Yaml.Reader] (hb : b.desk.Sound) (e : Event) : (b.happen e).desk.Sound :=
  (happen_comes b e).sound hb

theorem through_sound [Yaml.Reader] (hb : b.desk.Sound) (events : List Event) :
    (b.through events).desk.Sound := by
  induction events generalizing b with
  | nil => exact hb
  | cons e events ih => exact ih (happen_sound hb e)

section Opened

variable [Yaml.Reader] {config : Config} (hperiod : 1 ≤ config.timing.actionHeartbeats)
  (library : Library) (loading : Loading) (source : String) (initialWorld : Option LooseText)
  (files : Files)
  (events : List Event)

include hperiod

/-- In every history of a workbench its desk is sound. -/
theorem opened_sound :
    ((opened config library loading source initialWorld files).2.through events).desk.Sound := by
  have hfresh : (bare config library loading source initialWorld).desk.Sound :=
    .of_free (Scheduler.fresh_sound (by omega)) rfl []
  exact through_sound (load_sound hfresh files) events

/-- In no history of a workbench is a heartbeat refused. -/
theorem heartbeat_unrefused (reason : Refusal) :
    (((opened config library loading source initialWorld files).2.through events).desk.perform
      .heartbeat).answer ≠ .refused reason := by
  have hsound := opened_sound hperiod library loading source initialWorld files events
  rw [← Desk.heartbeat_eq_perform]
  intro hrefused
  exact absurd ((Desk.heartbeat_answers hsound).refused reason hrefused) List.not_mem_nil

end Opened

end GridRobot.Workbench

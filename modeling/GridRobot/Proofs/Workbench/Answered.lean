import GridRobot.Proofs.Scheduler.Steady
import GridRobot.Proofs.Workbench.Page
import GridRobot.Proofs.Workbench.SharedWorld

/-!
# What is told of an answer

A workbench puts most of what is asked of it to its desk. Here it is said once what becomes of the
workbench when its desk has answered, what it tells then, and what the requests to a workbench put
to its desk.

## Main definitions

* `Workbench.picture` and `Workbench.heard` are what is told.
* `Workbench.answered` is the workbench when its desk has answered.
* `Workbench.Hears` says what becomes of a workbench when its desk has answered.
* `Workbench.program?` is the program that the text compiles to, and `Workbench.compiled` the
  workbench then.
* `Workbench.request?` is what an event puts to the desk, and `Workbench.Comes` what it comes to.

## Main statements

* `Workbench.accept_spec`: an answer is counted, and then told.
* `Workbench.play_of_program?`, `Workbench.singleStep_of_suspended`,
  `Workbench.singleStep_of_program?` and `Workbench.heartbeat_hears`: what the requests put to the
  desk.
* `Workbench.deliver_spec`, `Workbench.load_spec`: what arrives.
* `Workbench.happen_comes`: what every event comes to.
-/

namespace GridRobot

/-- The result in an answer. -/
def Answer.result? : Answer → Option StepResult
  | .result r => some r
  | _ => none

/-- The actions that an answer tells of. -/
def Answer.actions (a : Answer) : Nat :=
  if a.result? = some .continued then 1 else 0

@[simp] theorem Answer.result?_eq_some {a : Answer} {r : StepResult} :
    a.result? = some r ↔ a = .result r := by
  cases a <;> simp [result?]

/-- What is told of a result, but for the picture, after so many actions. -/
def StepResult.news (steps : Nat) : StepResult → List Notice
  | .continued => []
  | .finished => [.finished steps]
  | .fault f => [.fault f]

namespace Workbench

variable (b : Workbench)

/-- The picture of the world that is shown, if one is loaded. -/
def picture : List Notice :=
  (b.model?.map Notice.drawn).toList

theorem draw_spec : b.draw = { b with notices := b.notices ++ b.picture } := by
  unfold draw picture
  cases b.model? with
  | none => simp
  | some d => rfl

/-- What is told of an answer that the desk has given. -/
def heard (b : Workbench) : Answer → List Notice
  | .result r => b.picture ++ r.news b.steps
  | .refused reason => [.rejected reason]
  | _ => []

/-- The workbench when its desk has given an answer, before anything is told. -/
def answered (b : Workbench) (o : Desk.Outcome Nat) : Workbench :=
  { b with desk := o.desk, steps := b.steps + o.answer.actions }

/-- An answer of the desk is counted, and then told. -/
theorem accept_spec (o : Desk.Outcome Nat) : b.accept o = (o.answer.result?,
    { b.answered o with notices := b.notices ++ (b.answered o).heard o.answer }) := by
  unfold accept
  cases hanswer : o.answer with
  | result r =>
    cases r <;>
      simp [hear, draw_spec, answered, heard, StepResult.news, Answer.actions, Answer.result?,
        hanswer, tell]
  | refused reason => simp [answered, heard, Answer.actions, Answer.result?, hanswer, tell]
  | done => simp [answered, heard, Answer.actions, Answer.result?, hanswer]
  | limits period limits => simp [answered, heard, Answer.actions, Answer.result?, hanswer]

/-- What becomes of a workbench whose desk has answered, when it was ready to hear the answer. -/
structure Hears (b ready : Workbench) (o : Desk.Outcome Nat) (b' : Workbench) : Prop where
  desk : b'.desk = o.desk
  shown : b'.shown = ready.shown
  steps : b'.steps = ready.steps + o.answer.actions
  notices : ∃ more, b'.notices = b.notices ++ ((ready.answered o).heard o.answer ++ more) ∧
    (more = [] ∨ more = (ready.answered o).picture ∧ o.answer.result? = none)

theorem accept_hears (b ready : Workbench) (h : ready.notices = b.notices)
    (o : Desk.Outcome Nat) : Hears b ready o (ready.accept o).2 := by
  rw [accept_spec]
  exact ⟨rfl, rfl, rfl, [], by rw [h, List.append_nil], .inl rfl⟩

/-! ### What is put to the desk -/

/-- The program that the text compiles to, if it is one. -/
def program? : Option Program :=
  match b.compile.1 with
  | .ok (.ok p) => some p
  | _ => none

/-- The workbench when its text has been compiled to a program. -/
def compiled (b : Workbench) (p : Program) : Workbench :=
  { b with reads := b.reads + 1, lastCompile := some (.ok p) }

variable {b} {p : Program}

theorem compile_of_program? (h : b.program? = some p) :
    b.compile = (.ok (.ok p), b.compiled p) := by
  unfold program? compile at h
  unfold compile
  simp only at h ⊢
  split at h
  · rename_i q hq
    obtain rfl : q = p := Option.some.inj h
    split at hq
    · obtain rfl := Except.ok.inj (Except.ok.inj hq)
      rfl
    · simp at hq
    · simp at hq
  · cases h

/-- A text that is no program leaves the workbench as it was, but for the record of it. -/
theorem compile_of_not_program? (h : b.program? = none) : (∀ p, b.compile.1 ≠ .ok (.ok p)) ∧
    ∃ last ns, b.compile.2 =
      { b with reads := b.reads + 1, lastCompile := last, notices := b.notices ++ ns } ∧
      ∀ n ∈ ns, ∃ e, n = .compileError e := by
  refine ⟨?_, ?_⟩
  · intro p hp
    simp [program?, hp] at h
  · unfold compile
    simp only
    split
    · rename_i q _
      exact ⟨some (.ok q), [], by simp, List.forall_mem_nil _⟩
    · rename_i e _
      exact ⟨_, [.compileError e], rfl, by simp⟩
    · exact ⟨b.lastCompile, [], by simp, List.forall_mem_nil _⟩

theorem play_of_program? (h : b.program? = some p) :
    let o := b.desk.perform (.start (some p) b.shown)
    let after := ((b.compiled p).accept o).2
    b.play.2 = if o.answer = .done then { after with steps := 0 } else after := by
  simp only [play, compile_of_program? h]
  rfl

theorem play_of_not_program? (h : b.program? = none) : b.play.2 = b.compile.2 := by
  obtain ⟨hnot, -⟩ := compile_of_not_program? h
  unfold play
  split
  · rename_i p _ hp
    exact absurd (congrArg Prod.fst hp) (hnot p)
  · rfl

theorem singleStep_of_suspended (h : b.desk.scheduler.suspended?.isSome) : b.singleStep =
    (.ok (b.ask (.step none b.shown)).1, (b.ask (.step none b.shown)).2) := by
  simp only [singleStep, h, if_true]

theorem singleStep_of_program? (hfree : b.desk.scheduler.suspended? = none)
    (h : b.program? = some p) :
    let ready := { b.compiled p with steps := 0 }
    b.singleStep = (.ok (ready.ask (.step (some p) b.shown)).1,
      (ready.ask (.step (some p) b.shown)).2) := by
  simp only [singleStep, hfree, Option.isSome_none, Bool.false_eq_true, if_false,
    compile_of_program? h]
  rfl

theorem singleStep_of_not_program? (hfree : b.desk.scheduler.suspended? = none)
    (h : b.program? = none) :
    b.singleStep.2 = b.compile.2 ∧ b.stepResult? .singleStep = none := by
  obtain ⟨hnot, -⟩ := compile_of_not_program? h
  simp only [stepResult?, singleStep, hfree, Option.isSome_none, Bool.false_eq_true, if_false]
  cases hcompile : b.compile with
  | mk r compiled =>
    rw [hcompile] at hnot
    rcases r with i | e | p
    · exact ⟨rfl, rfl⟩
    · exact ⟨rfl, rfl⟩
    · exact absurd rfl (hnot p)

/-- A heartbeat tells what the desk answers, and now and then there is a picture after it, unless
the answer was a result. -/
theorem heartbeat_hears (b : Workbench) : Hears b b (b.desk.perform .heartbeat) b.heartbeat := by
  let o := b.desk.perform .heartbeat
  unfold heartbeat ask
  rw [accept_spec]
  simp only
  split
  · exact ⟨rfl, rfl, rfl, [], by rw [List.append_nil], .inl rfl⟩
  · split
    · rename_i hnone
      rw [draw_spec]
      refine ⟨rfl, rfl, rfl, (b.answered o).picture, List.append_assoc _ _ _,
        .inr ⟨rfl, Option.isNone_iff_eq_none.1 hnone⟩⟩
    · exact ⟨rfl, rfl, rfl, [], by rw [List.append_nil], .inl rfl⟩

/-! ### What arrives -/

/-- The workbench with a fresh world in front of the others. -/
def arrived (b : Workbench) (w : World) : Workbench :=
  { b with
    desk := ⟨b.desk.scheduler, (b.desk.worlds.length, w) :: b.desk.worlds⟩
    shown := some b.desk.worlds.length }

theorem arrived_steady (hb : b.desk.Steady) (w : World) : (b.arrived w).desk.Steady where
  resting := hb.resting
  live := by
    intro h hh
    obtain ⟨hrun, hworld⟩ := hb.live h hh
    rw [Worlds.get?_isSome] at hworld ⊢
    exact ⟨hrun, List.mem_cons_of_mem _ hworld⟩
  animated := hb.animated

theorem install_spec (name : LooseText) (w : World) : b.install name w =
    { b.arrived w with notices := b.notices ++ ((b.arrived w).picture ++ [.loaded name]) } := by
  unfold install
  simp only
  rw [draw_spec, tell, List.append_assoc]
  rfl

/-- What is delivered is put aside, or it is a failure that is told, or a world that is shown. -/
theorem deliver_spec (a : Arrival) : b.deliver a = b ∨
    (∃ e, b.deliver a = { b with notices := b.notices ++ [.worldError a.name e] }) ∨
      ∃ w, b.deliver a = { b.arrived w with
        notices := b.notices ++ ((b.arrived w).picture ++ [.loaded a.name]) } := by
  unfold deliver
  cases a.outcome with
  | error e => exact .inr (.inl ⟨e, rfl⟩)
  | ok d =>
    simp only
    split
    · exact .inl rfl
    · split
      · rename_i w _
        exact .inr (.inr ⟨w, install_spec _ w⟩)
      · exact .inl rfl

/-- A world that is asked for is on its way, or nothing comes of it, or it is delivered. -/
theorem load_spec [Yaml.Reader] (files : Files) :
    (∃ waiting, (b.load files).2 = { b with shown := none, arrivals := waiting }) ∨
      ∃ a, (b.load files).2 = deliver { b with shown := none } a := by
  unfold load
  simp only
  split
  · exact .inl ⟨_, rfl⟩
  · exact .inl ⟨_, rfl⟩
  · exact .inl ⟨_, rfl⟩
  · exact .inr ⟨_, rfl⟩

/-! ### What an event comes to -/

/-- What an event puts to the desk, if it does. -/
def request? (b : Workbench) : Event → Option (Request Nat)
  | .play => b.program?.map fun p => .start (some p) b.shown
  | .stop _ => some .stop
  | .resume => some .resume
  | .singleStep =>
    if b.desk.scheduler.suspended?.isSome then some (.step none b.shown)
    else b.program?.map fun p => .step (some p) b.shown
  | .changeWorld _ _ => some .reset
  | .manual a => some (.action a b.shown)
  | .heartbeat => some .heartbeat
  | .edit _ | .deliver _ => none

/-- What an event comes to: the desk is left alone, or it answers, or it lets go what it holds and a
world is asked for, or what has arrived is delivered. -/
inductive Comes [Yaml.Reader] (b : Workbench) (e : Event) : Workbench → Prop
  | kept {b' : Workbench} {ns : List Notice} (hdesk : b'.desk = b.desk)
      (hshown : b'.shown = b.shown) (hnotices : b'.notices = b.notices ++ ns)
      (hns : ∀ n ∈ ns, ∃ error, n = .compileError error) : Comes b e b'
  | heard {q : Request Nat} {after : Workbench} (ready : Workbench) (steps : Nat)
      (hq : b.request? e = some q) (hready : ready.shown = b.shown)
      (h : Hears b ready (b.desk.perform q) after) : Comes b e { after with steps := steps }
  | cleared {q : Request Nat} (hq : q = .stop ∨ q = .reset) (name : LooseText) (files : Files) :
      Comes b e (load { (b.ask q).2 with worldName := name } files).2
  | delivered (k : Nat) (a : Arrival) :
      Comes b e (deliver { b with arrivals := b.arrivals.eraseIdx k } a)

variable {e : Event} {q : Request Nat}

section

variable [Yaml.Reader]

theorem Comes.of_hears {after : Workbench} (ready : Workbench) (hq : b.request? e = some q)
    (hready : ready.shown = b.shown) (h : Hears b ready (b.desk.perform q) after) :
    b.Comes e after :=
  .heard ready after.steps hq hready h

theorem Comes.of_not_program? (h : b.program? = none) : b.Comes e b.compile.2 := by
  obtain ⟨-, last, ns, hcompile, herrors⟩ := compile_of_not_program? h
  rw [hcompile]
  exact .kept rfl rfl rfl herrors

theorem play_comes (b : Workbench) : b.Comes .play b.play.2 := by
  cases hp : b.program? with
  | none =>
    rw [play_of_not_program? hp]
    exact .of_not_program? hp
  | some p =>
    have hq : b.request? .play = some (.start (some p) b.shown) := by simp [request?, hp]
    have hhears := accept_hears b (b.compiled p) rfl (b.desk.perform (.start (some p) b.shown))
    rw [play_of_program? hp]
    split
    · exact .heard (b.compiled p) 0 hq rfl hhears
    · exact .of_hears (b.compiled p) hq rfl hhears

theorem singleStep_comes (b : Workbench) : b.Comes .singleStep b.singleStep.2 := by
  cases hfree : b.desk.scheduler.suspended? with
  | some h =>
    have hq : b.request? .singleStep = some (.step none b.shown) := by simp [request?, hfree]
    rw [singleStep_of_suspended (by rw [hfree]; rfl)]
    exact .of_hears b hq rfl (accept_hears b b rfl _)
  | none =>
    cases hp : b.program? with
    | none =>
      rw [(singleStep_of_not_program? hfree hp).1]
      exact .of_not_program? hp
    | some p =>
      have hq : b.request? .singleStep = some (.step (some p) b.shown) := by
        simp [request?, hfree, hp]
      rw [singleStep_of_program? hfree hp]
      let ready := { b.compiled p with steps := 0 }
      exact .of_hears ready hq rfl (accept_hears b ready rfl _)

/-- What every event comes to. -/
theorem happen_comes (b : Workbench) (e : Event) : b.Comes e (b.happen e) := by
  cases e with
  | edit source => exact .kept rfl rfl (List.append_nil _).symm (List.forall_mem_nil _)
  | play => exact play_comes b
  | stop files => exact .cleared (.inl rfl) b.worldName files
  | resume => exact .of_hears b rfl rfl (accept_hears b b rfl _)
  | singleStep => exact singleStep_comes b
  | changeWorld files name => exact .cleared (.inr rfl) name files
  | manual a => exact .of_hears b rfl rfl (accept_hears b b rfl _)
  | heartbeat => exact .of_hears b rfl rfl (heartbeat_hears b)
  | deliver i =>
    show b.Comes (.deliver i) (b.deliverAt i)
    unfold deliverAt
    split
    · exact .kept rfl rfl (List.append_nil _).symm (List.forall_mem_nil _)
    · exact .delivered i.toNat _

end

/-- What is put to the desk is about the world that is shown, and comes with no program but the one
that the text compiles to. -/
theorem request?_cases (h : b.request? e = some q) :
    q ∈ [.stop, .reset, .resume, .heartbeat] ∨ (∃ a, q = .action a b.shown) ∨
      ∃ p, (∀ r ∈ p, b.program? = some r) ∧ (q = .start p b.shown ∨ q = .step p b.shown) := by
  cases e with
  | edit source => cases h
  | play =>
    obtain ⟨p, hp, rfl⟩ := Option.map_eq_some_iff.1 h
    refine .inr (.inr ⟨some p, ?_, .inl rfl⟩)
    rintro _ ⟨⟩
    exact hp
  | singleStep =>
    simp only [request?] at h
    split at h
    · obtain rfl := Option.some.inj h
      exact .inr (.inr ⟨none, nofun, .inr rfl⟩)
    · obtain ⟨p, hp, rfl⟩ := Option.map_eq_some_iff.1 h
      refine .inr (.inr ⟨some p, ?_, .inr rfl⟩)
      rintro _ ⟨⟩
      exact hp
  | manual a => exact .inr (.inl ⟨a, (Option.some.inj h).symm⟩)
  | deliver i => cases h
  | _ => exact .inl (by simp [← Option.some.inj h])

theorem request?_world {key : Nat} (h : b.request? e = some q) (hkey : q.world? = some key) :
    b.shown = some key := by
  rcases request?_cases h with hq | ⟨a, rfl⟩ | ⟨p, -, rfl | rfl⟩
  · simp only [List.mem_cons, List.not_mem_nil, or_false] at hq
    rcases hq with rfl | rfl | rfl | rfl <;> cases hkey
  · exact hkey
  · exact hkey
  · exact hkey

theorem request?_ne_tick (h : b.request? e = some q) (n : Int) : q ≠ .tick n := by
  rintro rfl
  simpa using request?_cases h

end Workbench

end GridRobot

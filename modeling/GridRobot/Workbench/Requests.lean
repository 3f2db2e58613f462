import GridRobot.Workbench.Loading

/-!
# Requests to a workbench

What can be done at a workbench: compile and animate the program, stop and resume it, step it, move
the robot by hand, take another world. And what a heartbeat does.

## Main definitions

* `Workbench.play`, `Workbench.stop`, `Workbench.resume`, `Workbench.singleStep`,
  `Workbench.manual` and `Workbench.changeWorld` are the requests.
* `Workbench.heartbeat` and `Workbench.tick` are heartbeats.
-/

namespace GridRobot.Workbench

/-- The workbench hears the result of a step. -/
def hear (b : Workbench) (r : StepResult) : Workbench :=
  let counted := { b with steps := if r = StepResult.continued then b.steps + 1 else b.steps }
  let drawn := counted.draw
  match r with
  | .continued => drawn
  | .finished => drawn.tell (.finished drawn.steps)
  | .fault f => drawn.tell (.fault f)

/-- What a request to the desk came to, and the workbench after it. -/
def accept (b : Workbench) (o : Desk.Outcome Nat) : Option StepResult × Workbench :=
  let after := { b with desk := o.desk }
  match o.answer with
  | .result r => (some r, after.hear r)
  | .refused reason => (none, after.tell (.rejected reason))
  | _ => (none, after)

/-- Makes a request to the desk. -/
def ask (b : Workbench) (q : Request Nat) : Option StepResult × Workbench :=
  b.accept (b.desk.perform q)

/-- Compiles the text of the program. -/
def compile (b : Workbench) : Except Breakdown Source.CompileOutcome × Workbench :=
  let read := { b with reads := b.reads + 1 }
  match Source.compile b.config.limits.nesting b.source with
  | .ok p => (.ok (.ok p), { read with lastCompile := some (.ok p) })
  | .error (.error e) =>
    (.ok (.error e), { read with lastCompile := some (.error e) }.tell (.compileError e))
  | .error _ => (.error .badNumber, read)

/-- Compiles the program and begins to animate it on the world as it is. -/
def play (b : Workbench) : Except Breakdown Source.CompileOutcome × Workbench :=
  match b.compile with
  | (.ok (.ok p), compiled) =>
    let o := compiled.desk.perform (.start (some p) compiled.shown)
    let after := (compiled.accept o).2
    (.ok (.ok p), if o.answer = .done then { after with steps := 0 } else after)
  | other => other

/-- Gives up the run, and asks for the world again. -/
def stop [Yaml.Reader] (b : Workbench) (files : Files) : Except Breakdown Unit × Workbench :=
  (b.ask .stop).2.load files

/-- Goes on to animate a run that waits for its next step. -/
def resume (b : Workbench) : Workbench :=
  (b.ask .resume).2

/-- Gives up the run, and asks for another world. -/
def changeWorld [Yaml.Reader] (b : Workbench) (files : Files) (name : LooseText) :
    Except Breakdown Unit × Workbench :=
  { (b.ask .reset).2 with worldName := name }.load files

/-- Makes one step, of the run that waits for it, or else of a fresh run. -/
def singleStep (b : Workbench) : Except Breakdown (Option StepResult) × Workbench :=
  if b.desk.scheduler.suspended?.isSome then
    let (r, after) := b.ask (.step none b.shown)
    (.ok r, after)
  else match b.compile with
    | (.ok (.ok p), compiled) =>
      let (r, after) := { compiled with steps := 0 }.ask (.step (some p) compiled.shown)
      (.ok r, after)
    | (.ok (.error _), compiled) => (.ok none, compiled)
    | (.error i, compiled) => (.error i, compiled)

/-- Performs one action by hand. -/
def manual (b : Workbench) (a : Action) : Option StepResult × Workbench :=
  b.ask (.action a b.shown)

/-- One heartbeat: a step if one falls due, and now and then a redraw. -/
def heartbeat (b : Workbench) : Workbench :=
  let (r, after) := b.ask .heartbeat
  if 1 < after.refresh then { after with refresh := after.refresh - 1 }
  else
    let rewound := { after with refresh := after.refreshPeriod }
    if r.isNone then rewound.draw else rewound

/-- So many heartbeats. -/
def tick (b : Workbench) : Nat → Workbench
  | 0 => b
  | n + 1 => b.heartbeat.tick n

end GridRobot.Workbench

import GridRobot.Clock.Pacer
import GridRobot.World.Picture
import GridRobot.Workbench.Requests

/-!
# Performances

A performance is a program run on a workbench from beginning to end, or up to a number of actions.
It is played step by step, or animated at the pace of a clock, every picture on a film.

## Main definitions

* `Record` is what a performance leaves behind.
* `Performance.playStepwise` is a performance step by step.
* `Performance.playAnimated` is a performance at the pace of a clock, `Watch` the time it goes by.

## Design notes

Each step of a performance that goes on is an action, so the number of actions bounds the steps.
Likewise the period of the scheduler times that number bounds the batches of heartbeats, since no
batch is empty.
-/

namespace GridRobot

/-- What a performance leaves behind. -/
structure Record where
  /-- The pictures, if there are to be any. -/
  film : Option Film
  compileError : Option Source.CompileError
  fault : Option Fault
  /-- The number of actions of a run that came to its end. -/
  finished : Option Nat
  worldError : Option LoadError

namespace Record

/-- A record of nothing. -/
def blank (film : Option Film) : Record :=
  ⟨film, none, none, none, none⟩

/-- The record after one more notice. -/
def note (r : Record) : Notice → Record
  | .drawn d => { r with film := r.film.map fun f => f.addPicture d }
  | .compileError e => { r with compileError := some e }
  | .fault f => { r with fault := some f }
  | .finished n => { r with finished := some n }
  | .worldError _ e => { r with worldError := some e }
  | .rejected _ => r
  | .loaded _ => r

end Record

/-- A watch, which shows the time and by which one can sleep. -/
structure Watch (τ ω : Type) where
  now : ω → τ × ω
  sleep : τ → ω → ω

/-- The watch on which time passes only in sleep. -/
def Watch.still {τ : Type} [Seconds τ] : Watch τ τ where
  now t := (t, t)
  sleep d t := Seconds.add t d

/-- A workbench and the record of what was told about it. -/
structure Performance where
  bench : Workbench
  record : Record

namespace Performance

/-- A performance that begins with a record and a workbench with notices. -/
def begin (film : Option Film) (b : Workbench) : Performance :=
  ⟨b.newPage, b.notices.foldl Record.note (.blank film)⟩

/-- The performance after something was done on the workbench. -/
def next (p : Performance) (b : Workbench) : Performance :=
  ⟨b.newPage, b.notices.foldl Record.note p.record⟩

/-- Makes steps until one does not go on or the actions have reached a number. -/
def playStepwise (most : Int) (p : Performance) : Nat → Except Breakdown Performance
  | 0 => .ok p
  | n + 1 =>
    match p.bench.singleStep with
    | (.error i, _) => .error i
    | (.ok (some .continued), b) =>
      if most ≤ b.steps then .ok (p.next b) else playStepwise most (p.next b) n
    | (.ok _, b) => .ok (p.next b)

variable {τ ω : Type}

/-- What a pacer deals with when it animates a performance up to a number of actions. -/
def surroundings (watch : Watch τ ω) (most : Int) : Surroundings τ (ω × Performance) where
  goesOn s := s.2.bench.animating && s.2.bench.steps < most
  now s :=
    let (t, w) := watch.now s.1
    (t, (w, s.2))
  sleep d s := (watch.sleep d s.1, s.2)
  beat n s := (s.1, s.2.next (s.2.bench.tick n))

/-- Bound of the number of batches in a performance of so many actions. -/
def mostBatches (config : Config) (most : Int) : Nat :=
  config.timing.actionHeartbeats.toNat * most.toNat

/-- Gives up a run that is still being animated. -/
def leave (p : Performance) : Performance :=
  if p.bench.animating then p.next (p.bench.ask .reset).2 else p

/-- Compiles the program and begins to animate it; tells also whether it compiled. -/
def beginAnimation (p : Performance) : Except Breakdown (Bool × Performance) :=
  let (r, b) := p.bench.play
  r.map fun outcome => (outcome.toBool, p.next b)

/-- Begins to animate the program, and gives heartbeats until it ends or the actions have reached a
number. -/
def playAnimated [Seconds τ] (watch : Watch τ ω) (start : ω) (most : Int) (p : Performance) :
    Except Breakdown Performance := do
  let (compiled, begun) ← p.beginAnimation
  if compiled then
    let config := begun.bench.config
    let (_, _, last) ← Pacer.keep (surroundings watch most) config.timing.heartbeatMs.toNat
      (mostBatches config most) (start, begun)
    .ok last.leave
  else .ok begun

end Performance

end GridRobot

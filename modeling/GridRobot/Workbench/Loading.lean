import GridRobot.Workbench.Basic

/-!
# Worlds on a workbench

A world is asked for by name. While it has not arrived, no world is shown. A world that arrives
after another one was asked for is put aside.

## Main definitions

* `Workbench.load` asks for a world.
* `Workbench.deliver` is the arrival of a world, or of the reason why there is none.
* `Workbench.opened` is a workbench at its beginning.
-/

namespace GridRobot.Workbench

/-- Puts a fresh world on the workbench. -/
def install (b : Workbench) (name : LooseText) (w : World) : Workbench :=
  let key := b.desk.worlds.length
  { b with desk := ⟨b.desk.scheduler, (key, w) :: b.desk.worlds⟩, shown := some key }.draw.tell
    (.loaded name)

/-- The arrival of a world, or of the reason why there is none. -/
def deliver (b : Workbench) (a : Arrival) : Workbench :=
  match a.outcome with
  | .error e => b.tell (.worldError a.name e)
  | .ok d =>
    if a.name ≠ b.worldName then b
    else match World.ofDescription d with
      | .ok w => b.install a.name w
      -- the delivery breaks off: no library gives a layout that is no world
      | .error _ => b

/-- What is delivered when a world has been looked up; some failures end the look-up silently. -/
def arrival? (name : LooseText) : Except LoadFailure Description → Option Arrival
  | .ok d => some ⟨name, .ok d⟩
  | .error (.error e) => some ⟨name, .error e⟩
  | .error _ => none

/-- The breakdown that ends a look-up silently, if there is one. -/
def breakdown? : Except LoadFailure Description → Option Breakdown
  | .error (.broken b) => some b
  | _ => none

/-- Asks for the world of the present name. -/
def load [Yaml.Reader] (b : Workbench) (files : Files) : Except Breakdown Unit × Workbench :=
  let found := b.library.load files b.worldName
  let waiting := { b with shown := none }
  match arrival? b.worldName found, b.loading with
  | none, .direct =>
    (match breakdown? found with
      | some i => .error i
      | none => .ok (), waiting)
  | none, _ => (.ok (), waiting)
  | some a, .queued => (.ok (), { waiting with arrivals := waiting.arrivals ++ [a] })
  | some a, _ => (.ok (), waiting.deliver a)

/-- Delivers the arrival with a number, counted from zero, if there is one. -/
def deliverAt (b : Workbench) (i : Int) : Workbench :=
  match (if i < 0 then none else b.arrivals[i.toNat]?) with
  | none => b
  | some a => { b with arrivals := b.arrivals.eraseIdx i.toNat }.deliver a

/-- The name of the first world: the given one, or that of the configuration. -/
def firstName (config : Config) : Option LooseText → LooseText
  | none => config.world.initialWorld
  | some name => if name.isEmpty then config.world.initialWorld else name

/-- The library of the worlds that a configuration tells of. -/
def libraryOf (config : Config) : Library :=
  ⟨some config.world.worldsDir, config.world.defaultBag⟩

/-- A workbench that has not yet asked for a world. -/
def bare (config : Config) (library : Library) (loading : Loading) (source : String)
    (initialWorld : Option LooseText) : Workbench where
  config := config
  library := library
  loading := loading
  source := source
  reads := 0
  lastCompile := none
  desk := ⟨.fresh config.runLimits config.timing.actionHeartbeats.toNat, []⟩
  shown := none
  worldName := firstName config initialWorld
  arrivals := []
  refresh := config.timing.refreshHeartbeats.toNat
  steps := 0
  notices := []

/-- A workbench at its beginning. -/
def opened [Yaml.Reader] (config : Config) (library : Library) (loading : Loading) (source : String)
    (initialWorld : Option LooseText) (files : Files) : Except Breakdown Unit × Workbench :=
  (bare config library loading source initialWorld).load files

end GridRobot.Workbench

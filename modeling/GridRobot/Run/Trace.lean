import GridRobot.Run.Machine

/-!
# Traces

What a run comes to when it is stepped again and again.

## Main definitions

* `Run.trace` lists the steps of a run up to its end, or up to a number of steps.
* `Run.after` is a run with its world after a number of steps, whatever these came to.
-/

namespace GridRobot.Run

/-- Does a step leave the run ready for a further one? -/
def goesOn (s : Stepped) : Bool :=
  match s.result with
  | .ok .continued => true
  | _ => false

/-- The steps of a run on a world, up to the first that does not go on, and at most so many. -/
def trace (limits : Limits) (r : Run) (w : World) : Nat → List Stepped
  | 0 => []
  | n + 1 =>
    let s := r.step limits w
    s :: (if goesOn s then trace limits s.run s.world n else [])

/-- A run and its world after so many steps, also beyond the end of the run. -/
def after (limits : Limits) (r : Run) (w : World) : Nat → Run × World
  | 0 => (r, w)
  | n + 1 =>
    let s := r.step limits w
    after limits s.run s.world n

end GridRobot.Run

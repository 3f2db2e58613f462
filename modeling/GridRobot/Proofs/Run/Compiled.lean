import Mathlib
import GridRobot.Proofs.Run.Safety
import GridRobot.Proofs.Source.Binding
import GridRobot.Source.Compile

/-!
# Runs of compiled programs

A program that was compiled from a text is closed, and a run of it never meets a procedure that is
not there. What else could be missing in a run cannot be: a frame of a loop carries the loop's
condition or its remaining passes, and a tree has no other statements and conditions than those
that a run knows.

## Main statements

* `compile_closed`: a compiled program is closed.
* `compile_closed_stepping`: it is closed, and every step of a run of it comes to a result.
-/

namespace GridRobot.Source

variable {limit : Int} {source : String} {p : Program}

/-- A compiled program is closed. -/
theorem compile_closed (h : compile limit source = .ok p) : p.Closed := by
  simp only [compile, bind_eq_ok, mapError_eq_ok] at h
  obtain ⟨_, _, listing, _, hbind⟩ := h
  exact bind_closed hbind

/-- A compiled program is closed; it can be run, and on every world, within all bounds and after any
number of steps the next step comes to a result. -/
theorem compile_closed_stepping (h : compile limit source = .ok p) :
    p.Closed ∧ ∃ r, Run.start? p = some r ∧ ∀ (limits : Limits) (w : World) (n : Nat),
      ∃ x, ((r.after limits w n).1.step limits (r.after limits w n).2).result = .ok x := by
  have hclosed := compile_closed h
  obtain ⟨r, hstart, hlinked, _⟩ := Run.start?_linked hclosed.linked
  refine ⟨hclosed, r, hstart, ?_⟩
  intro limits w n
  exact ((hlinked.after limits w n).step limits _).1

/-- A text with a procedure that calls itself, and with statements outside of it. -/
def patrolText : String :=
  "void go() \x7b while (frontIsClear()) \x7b move(); go(); \x7d \x7d repeat (2) \x7b go(); \x7d"

/-- The tree of that text. -/
def patrolListing : Listing :=
  ⟨[⟨"go", [.whileLoop (.call ⟨"frontIsClear", 0, ⟨1, 20⟩⟩)
      [.call ⟨"move", 0, ⟨1, 38⟩⟩, .call ⟨"go", 0, ⟨1, 46⟩⟩] 1], ⟨1, 6⟩⟩],
    [.repeatLoop 2 [.call ⟨"go", 0, ⟨1, 69⟩⟩] 1]⟩

/-- The program of that text. -/
def patrol : Program :=
  ⟨[⟨"go", [.whileLoop (.predicate ⟨.frontClear, true⟩ 1) [.action .move 1, .call "go" 1] 1], 1⟩,
    ⟨"main", [.repeatLoop 2 [.call "go" 1] 1], 1⟩], "main"⟩

theorem compile_patrol : compile 3 patrolText = .ok patrol := by
  have hlisting : ((tokenize patrolText).mapError Refusal.error >>= parseWithin 3) =
      .ok patrolListing := by cbv
  rw [compile_of_listing hlisting]
  rfl

theorem compile_closed_stepping_patrol :
    compile 3 patrolText = .ok patrol ∧
      patrol.Closed ∧ ∃ r, Run.start? patrol = some r ∧ ∀ (limits : Limits) (w : World) (n : Nat),
        ∃ x, ((r.after limits w n).1.step limits (r.after limits w n).2).result = .ok x :=
  ⟨compile_patrol, compile_closed_stepping compile_patrol⟩

end GridRobot.Source

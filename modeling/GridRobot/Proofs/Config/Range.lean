import GridRobot.Clock.Basic
import GridRobot.Config.Basic
import GridRobot.Proofs.Reading
import GridRobot.Scheduler.Basic
import GridRobot.Source.Compile

/-!
# Settings in their range

A configuration is checked before it is handed out. With every setting in its range, whatever is made
from the configuration takes its settings: the bounds of runs, the scheduler, the clock and the
compiler.

## Main definitions

* `Config.InRange` says that every setting is in its range.
* `Config.Serves` says that whatever is made from a configuration takes its settings.

## Main statements

* `Config.problem?_eq_none_iff`: the check finds every setting that is out of its range.
* `Config.InRange.serves`: settings in their range are taken.
-/

namespace GridRobot.Config

variable {c d : Config} {key : String}

/-- Every setting is in its range. -/
structure InRange (c : Config) : Prop where
  heartbeatMs : 0 < c.timing.heartbeatMs
  actionHeartbeats : 0 < c.timing.actionHeartbeats
  refreshHeartbeats : 0 < c.timing.refreshHeartbeats
  callDepth : 0 < c.limits.callDepth
  freeTurns : 0 < c.limits.freeTurns
  nesting : 0 < c.limits.nesting
  defaultBag : ∀ n, c.world.defaultBag = some n → 0 ≤ n
  width : 0 < c.canvas.width
  height : 0 < c.canvas.height

theorem notPositive?_eq_none_iff {n : Int} : notPositive? key n = none ↔ 0 < n := by
  unfold notPositive?
  split
  · next h => exact iff_of_false nofun (Int.not_lt.2 h)
  · next h => exact iff_of_true rfl (Int.not_le.1 h)

theorem bagProblem?_eq_none_iff {bag : Option Int} :
    bagProblem? bag = none ↔ ∀ n, bag = some n → 0 ≤ n := by
  cases bag with
  | none => exact iff_of_true rfl nofun
  | some n =>
    simp only [bagProblem?, ite_eq_right_iff, reduceCtorEq, imp_false, Int.not_lt, Option.some.injEq,
      forall_eq']

theorem canvasProblem?_eq_none_iff {canvas : Canvas} :
    canvasProblem? canvas = none ↔ 0 < canvas.width ∧ 0 < canvas.height := by
  simp only [canvasProblem?, ite_eq_right_iff, reduceCtorEq, imp_false, not_or, Int.not_le]

/-- A configuration without a problem is one with all settings in their range. -/
theorem problem?_eq_none_iff : c.problem? = none ↔ c.InRange := by
  simp only [problem?, List.findSome?_eq_none_iff, List.mem_cons, forall_eq_or_imp, id,
    List.not_mem_nil, false_implies, implies_true, and_true, notPositive?_eq_none_iff,
    bagProblem?_eq_none_iff, canvasProblem?_eq_none_iff]
  constructor
  · rintro ⟨h₁, h₂, h₃, h₄, h₅, h₆, h₇, h₈, h₉⟩
    exact ⟨h₁, h₂, h₃, h₄, h₅, h₆, h₇, h₈, h₉⟩
  · rintro ⟨h₁, h₂, h₃, h₄, h₅, h₆, h₇, h₈, h₉⟩
    exact ⟨h₁, h₂, h₃, h₄, h₅, h₆, h₇, h₈, h₉⟩

theorem checked_eq_ok : c.checked = .ok d ↔ c.InRange ∧ c = d := by
  rw [← problem?_eq_none_iff]
  unfold checked
  split <;> simp_all

/-- Whatever is made from a configuration takes its settings. -/
structure Serves (c : Config) : Prop where
  machine : Limits.ofInts c.limits.callDepth c.limits.freeTurns = .ok c.runLimits
  scheduler : ∀ κ : Type, ∃ s : Scheduler κ,
    Scheduler.ofInts c.runLimits c.timing.actionHeartbeats = some s
  clock : ∀ κ : Type, ∃ clock : Clock κ, Clock.ofInterval? c.timing.heartbeatMs = some clock
  compiler : ∀ source, Source.compile c.limits.nesting source ≠ .error .limitNotPositive

theorem compile_ne_limitNotPositive {limit : Int} (h : 0 < limit) (source : String) :
    Source.compile limit source ≠ .error .limitNotPositive := by
  intro hcompile
  rcases bind_eq_error.1 hcompile with htokens | ⟨tokens, -, h'⟩
  · obtain ⟨e, -, he⟩ := mapError_eq_error.1 htokens
    cases he
  rcases bind_eq_error.1 h' with hparse | ⟨listing, -, hbind⟩
  · rw [Source.parseWithin, if_neg (Int.not_le.2 h)] at hparse
    split at hparse <;> cases hparse
  · obtain ⟨e, -, he⟩ := mapError_eq_error.1 hbind
    cases he

theorem InRange.serves (h : c.InRange) : c.Serves where
  machine := by
    rw [Limits.ofInts, if_neg (Int.not_le.2 h.callDepth), if_neg (Int.not_le.2 h.freeTurns)]
    rfl
  scheduler κ := ⟨_, if_neg (Int.not_le.2 h.actionHeartbeats)⟩
  clock κ := ⟨_, if_neg (Int.not_le.2 h.heartbeatMs)⟩
  compiler := compile_ne_limitNotPositive h.nesting

end GridRobot.Config

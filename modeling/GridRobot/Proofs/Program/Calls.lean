import GridRobot.Proofs.Program.Linked
import Mathlib.Data.Finset.Card
import Mathlib.Logic.Relation

/-!
# Programs without open loops

Where no loop depends on a condition and no procedure can come to call itself, the text alone bounds
what a run does. The actions of a body are counted from the inside out: a branch counts as its greater
side, a loop as so many passes as it makes, a call as the procedure that is called.

The last clause is a recursion along the calls, which go round nowhere. It is run with as much fuel as
there are procedures; that is enough, because a procedure can come to call fewer procedures than any
that calls it.

## Main definitions

* `Program.Calls` and `Program.Reached` say which procedure calls which, and which a run may come to.
* `Program.LoopFree` and `Program.Acyclic` say that no loop asks a condition, and that no call comes back.
* `bodyActions` counts the actions of a body, given those of the procedures that it calls.
* `Program.actions` counts the actions of a procedure.

## Main statements

* `Program.Acyclic.countsActions`: the count of a procedure is that of its body.
-/

namespace GridRobot

/-- The statement is a loop that makes as many passes as a condition wants. -/
def Statement.isOpenLoop : Statement → Bool
  | .whileLoop _ _ _ => true
  | .doWhile _ _ _ => true
  | _ => false

mutual

/-- The greatest number of actions that a statement may make, where `count` is that of each procedure. A
loop that depends on a condition has no such number and counts for nothing. -/
def Statement.actions (count : String → Nat) : Statement → Nat
  | .action _ _ => 1
  | .call name _ => count name
  | .ifElse _ t e _ => max (bodyActions count t) (bodyActions count e)
  | .whileLoop _ _ _ => 0
  | .doWhile _ _ _ => 0
  | .repeatLoop n body _ => n.toNat * bodyActions count body

/-- The greatest number of actions that a body may make. -/
def bodyActions (count : String → Nat) : List Statement → Nat
  | [] => 0
  | s :: rest => s.actions count + bodyActions count rest

end

mutual

/-- Only the procedures that a statement calls count. -/
theorem Statement.actions_congr {count count' : String → Nat} (s : Statement)
    (h : ∀ x ∈ s.parts, ∀ name ∈ x.called?, count name = count' name) :
    s.actions count = s.actions count' := by
  cases s with
  | action a line => rfl
  | call name line => exact h (.call name line) (List.mem_singleton_self _) name rfl
  | ifElse c t e line =>
    rw [Statement.actions, Statement.actions,
      bodyActions_congr t fun x hx => h x (by simp [Statement.parts, hx]),
      bodyActions_congr e fun x hx => h x (by simp [Statement.parts, hx])]
  | whileLoop c body line => rfl
  | doWhile body c line => rfl
  | repeatLoop n body line =>
    rw [Statement.actions, Statement.actions,
      bodyActions_congr body fun x hx => h x (by simp [Statement.parts, hx])]

theorem bodyActions_congr {count count' : String → Nat} (body : List Statement)
    (h : ∀ x ∈ bodyParts body, ∀ name ∈ x.called?, count name = count' name) :
    bodyActions count body = bodyActions count' body := by
  cases body with
  | nil => rfl
  | cons s rest =>
    rw [bodyActions, bodyActions, s.actions_congr fun x hx => h x (by simp [bodyParts, hx]),
      bodyActions_congr rest fun x hx => h x (by simp [bodyParts, hx])]

end

namespace Program

/-- A procedure of one name calls one of another. -/
def Calls (p : Program) (caller callee : String) : Prop :=
  ∃ q, p.procedure? caller = some q ∧ ∃ s ∈ bodyParts q.body, s.called? = some callee

/-- A name that calls lead to from the entry. -/
def Reached (p : Program) (name : String) : Prop :=
  Relation.ReflTransGen p.Calls p.entry name

/-- No procedure that is reached has a loop that depends on a condition. -/
def LoopFree (p : Program) : Prop :=
  ∀ name q, p.Reached name → p.procedure? name = some q →
    ∀ s ∈ bodyParts q.body, s.isOpenLoop = false

/-- No procedure that is reached can come to call itself. -/
def Acyclic (p : Program) : Prop :=
  ∀ name, p.Reached name → ¬ Relation.TransGen p.Calls name name

/-- The count of every procedure that is reached is that of its body. -/
def CountsActions (p : Program) (count : String → Nat) : Prop :=
  ∀ name q, p.Reached name → p.procedure? name = some q → count name = bodyActions count q.body

/-- The count of a procedure, where calls are followed so deep. -/
def actionsWithin (p : Program) : Nat → String → Nat
  | 0, _ => 0
  | depth + 1, name =>
    match p.procedure? name with
    | none => 0
    | some q => bodyActions (p.actionsWithin depth) q.body

/-- The greatest number of actions that a procedure may make. -/
def actions (p : Program) (name : String) : Nat :=
  p.actionsWithin p.procedures.length name

open Classical in
/-- The procedures that a procedure can come to call. -/
noncomputable def callees (p : Program) (name : String) : Finset String :=
  (p.procedures.map (·.name)).toFinset.filter (Relation.TransGen p.Calls name)

variable {p : Program} {name caller callee : String} {q : Procedure}

theorem mem_callees : callee ∈ p.callees name ↔
    callee ∈ p.procedures.map (·.name) ∧ Relation.TransGen p.Calls name callee := by
  simp only [callees, Finset.mem_filter, List.mem_toFinset]

theorem Calls.callee_mem (h : p.Calls caller callee) (hp : p.Linked) :
    callee ∈ p.procedures.map (·.name) := by
  obtain ⟨q, hq, s, hs, hcallee⟩ := h
  exact procedure?_isSome.1 (hp.calls q (procedure?_mem hq) s hs callee hcallee)

/-- A procedure can come to call less than any that calls it. -/
theorem Acyclic.card_callees_lt (h : p.Acyclic) (hp : p.Linked) (hreached : p.Reached callee)
    (hcall : p.Calls caller callee) : (p.callees callee).card < (p.callees caller).card := by
  apply Finset.card_lt_card
  have hcallee : callee ∈ p.callees caller := mem_callees.2 ⟨hcall.callee_mem hp, .single hcall⟩
  have hnot : callee ∉ p.callees callee := fun hin => h callee hreached (mem_callees.1 hin).2
  refine (Finset.ssubset_iff_of_subset ?_).2 ⟨callee, hcallee, hnot⟩
  intro name hname
  obtain ⟨hmem, hcalls⟩ := mem_callees.1 hname
  exact mem_callees.2 ⟨hmem, .head hcall hcalls⟩

theorem Acyclic.card_callees_lt_length (h : p.Acyclic) (hreached : p.Reached name)
    (hname : p.procedure? name = some q) : (p.callees name).card < p.procedures.length := by
  have hmem : name ∈ (p.procedures.map (·.name)).toFinset :=
    List.mem_toFinset.2 (procedure?_isSome.1 (Option.isSome_of_eq_some hname))
  have hnot : name ∉ p.callees name := fun hin => h name hreached (mem_callees.1 hin).2
  have hsub : p.callees name ⊆ (p.procedures.map (·.name)).toFinset :=
    fun callee hin => List.mem_toFinset.2 (mem_callees.1 hin).1
  calc (p.callees name).card
      < (p.procedures.map (·.name)).toFinset.card :=
        Finset.card_lt_card ((Finset.ssubset_iff_of_subset hsub).2 ⟨name, hmem, hnot⟩)
    _ ≤ (p.procedures.map (·.name)).length := List.toFinset_card_le _
    _ = p.procedures.length := List.length_map _

/-- Once the depth is greater than the number of procedures that may be called, it makes no
difference. -/
theorem Acyclic.actionsWithin_eq (h : p.Acyclic) (hp : p.Linked) {depth depth' : Nat}
    (hreached : p.Reached name) (hdepth : (p.callees name).card < depth)
    (hdepth' : (p.callees name).card < depth') :
    p.actionsWithin depth name = p.actionsWithin depth' name := by
  induction depth generalizing depth' name with
  | zero => exact absurd hdepth (Nat.not_lt_zero _)
  | succ depth ih =>
    cases depth' with
    | zero => exact absurd hdepth' (Nat.not_lt_zero _)
    | succ depth' =>
      rw [actionsWithin, actionsWithin]
      cases hq : p.procedure? name with
      | none => rfl
      | some q =>
        refine bodyActions_congr q.body fun s hs callee hcallee => ?_
        have hcall : p.Calls name callee := ⟨q, hq, s, hs, hcallee⟩
        have hcallee' : p.Reached callee := hreached.tail hcall
        have hless := h.card_callees_lt hp hcallee' hcall
        exact ih hcallee' (by omega) (by omega)

/-- The count of a procedure is that of its body. -/
theorem Acyclic.countsActions (h : p.Acyclic) (hp : p.Linked) : p.CountsActions p.actions := by
  intro name q hreached hq
  have hdepth := h.card_callees_lt_length hreached hq
  obtain ⟨depth, hlength⟩ := Nat.exists_eq_add_of_lt hdepth
  rw [actions, hlength, actionsWithin, hq]
  refine bodyActions_congr q.body fun s hs callee hcallee => ?_
  have hcall : p.Calls name callee := ⟨q, hq, s, hs, hcallee⟩
  have hcallee' : p.Reached callee := hreached.tail hcall
  have hless := h.card_callees_lt hp hcallee' hcall
  rw [actions]
  exact h.actionsWithin_eq hp hcallee' (by omega) (by omega)

theorem loopFree_of_procedures
    (h : ∀ q ∈ p.procedures, ∀ s ∈ bodyParts q.body, s.isOpenLoop = false) : p.LoopFree :=
  fun _ q _ hq => h q (procedure?_mem hq)

/-- A number for every procedure that is less for those that it calls shows that no call comes back. -/
theorem acyclic_of_rank (rank : String → Nat)
    (h : ∀ q ∈ p.procedures, ∀ s ∈ bodyParts q.body, ∀ callee ∈ s.called?,
      rank callee < rank q.name) : p.Acyclic := by
  have hless {caller callee : String} (hcalls : Relation.TransGen p.Calls caller callee) :
      rank callee < rank caller := by
    induction hcalls with
    | single hcall =>
      obtain ⟨q, hq, s, hs, hcallee⟩ := hcall
      have := h q (procedure?_mem hq) s hs _ hcallee
      rwa [procedure?_name hq] at this
    | tail _ hcall ih =>
      obtain ⟨q, hq, s, hs, hcallee⟩ := hcall
      have := h q (procedure?_mem hq) s hs _ hcallee
      rw [procedure?_name hq] at this
      exact Nat.lt_trans this ih
  exact fun name _ hcycle => Nat.lt_irrefl _ (hless hcycle)

end Program

end GridRobot

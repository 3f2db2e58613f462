import GridRobot.Program.Basic
import Mathlib.Data.List.Nodup

/-!
# Linked and closed programs

A program is linked when its entry and every name that it calls, at any depth of any procedure, are
in its table. It is closed when moreover its table is in order.

## Main definitions

* `bodyParts` lists all statements of a body, those inside of others included.
* `Program.Knows` says that a program has the procedures that a body calls.
* `Program.Linked` says that it has those that it calls itself, and its entry.
* `Program.Closed` adds what its names and the counts of its loops are.
-/

namespace GridRobot

mutual

/-- A statement and all statements inside of it. -/
def Statement.parts : Statement → List Statement
  | .action a line => [.action a line]
  | .call name line => [.call name line]
  | .ifElse c t e line => .ifElse c t e line :: (bodyParts t ++ bodyParts e)
  | .whileLoop c body line => .whileLoop c body line :: bodyParts body
  | .doWhile body c line => .doWhile body c line :: bodyParts body
  | .repeatLoop n body line => .repeatLoop n body line :: bodyParts body

/-- All statements of a body, those inside of others included. -/
def bodyParts : List Statement → List Statement
  | [] => []
  | s :: rest => s.parts ++ bodyParts rest

end

/-- The name that a statement calls, if it is a call. -/
def Statement.called? : Statement → Option String
  | .call name _ => some name
  | _ => none

/-- The count of a statement, if it is a counted loop. -/
def Statement.count? : Statement → Option Int
  | .repeatLoop n _ _ => some n
  | _ => none

namespace Program

/-- Every name that a body calls, at any depth, is in the table. -/
def Knows (p : Program) (body : List Statement) : Prop :=
  ∀ s ∈ bodyParts body, ∀ name ∈ s.called?, (p.procedure? name).isSome

/-- The entry and every name that is called are in the table. -/
structure Linked (p : Program) : Prop where
  entry : (p.procedure? p.entry).isSome
  calls : ∀ q ∈ p.procedures, p.Knows q.body

/-- The program is linked, each procedure is in the table once and under its own name, none has the
name of a predicate, and no loop has a negative count. -/
structure Closed (p : Program) : Prop where
  linked : p.Linked
  namesDiffer : (p.procedures.map (·.name)).Nodup
  ownName : ∀ name q, p.procedure? name = some q ↔ q ∈ p.procedures ∧ q.name = name
  noPredicate : ∀ q ∈ p.procedures, Predicate.ofName? q.name = none
  counts : ∀ q ∈ p.procedures, ∀ s ∈ bodyParts q.body, ∀ n ∈ s.count?, 0 ≤ n

variable {p : Program} {c : Condition} {body t e rest : List Statement} {name : String} {line n : Int}

theorem procedure?_mem {q : Procedure} (h : p.procedure? name = some q) : q ∈ p.procedures :=
  List.mem_of_find?_eq_some h

theorem procedure?_name {q : Procedure} (h : p.procedure? name = some q) : q.name = name := by
  simpa using List.find?_some h

theorem procedure?_isSome : (p.procedure? name).isSome ↔ name ∈ p.procedures.map (·.name) := by
  simp [procedure?, List.find?_isSome]

/-- In a table whose names differ, a name leads to each procedure that has it. -/
theorem procedure?_eq_some_iff (h : (p.procedures.map (·.name)).Nodup) {q : Procedure} :
    p.procedure? name = some q ↔ q ∈ p.procedures ∧ q.name = name := by
  constructor
  · intro hq
    exact ⟨procedure?_mem hq, procedure?_name hq⟩
  · rintro ⟨hmem, rfl⟩
    have hsome : (p.procedure? q.name).isSome := procedure?_isSome.2 (List.mem_map_of_mem hmem)
    obtain ⟨r, hr⟩ := Option.isSome_iff_exists.1 hsome
    have hsame : r = q :=
      List.inj_on_of_nodup_map h (procedure?_mem hr) hmem (procedure?_name hr)
    rw [hr, hsame]

/-! ### What a body's procedures are those of -/

theorem Knows.tail {s : Statement} (h : p.Knows (s :: rest)) : p.Knows rest := fun x hx =>
  h x (by simp [bodyParts, hx])

theorem Knows.call (h : p.Knows (.call name line :: rest)) : (p.procedure? name).isSome :=
  h (.call name line) (by simp [bodyParts, Statement.parts]) name (by simp [Statement.called?])

theorem Knows.ifElse (h : p.Knows (.ifElse c t e line :: rest)) (b : Bool) :
    p.Knows (if b then t else e) := by
  cases b
  · exact fun x hx => h x (by simp at hx; simp [bodyParts, Statement.parts, hx])
  · exact fun x hx => h x (by simp at hx; simp [bodyParts, Statement.parts, hx])

theorem Knows.whileLoop (h : p.Knows (.whileLoop c body line :: rest)) : p.Knows body :=
  fun x hx => h x (by simp [bodyParts, Statement.parts, hx])

theorem Knows.doWhile (h : p.Knows (.doWhile body c line :: rest)) : p.Knows body :=
  fun x hx => h x (by simp [bodyParts, Statement.parts, hx])

theorem Knows.repeatLoop (h : p.Knows (.repeatLoop n body line :: rest)) : p.Knows body :=
  fun x hx => h x (by simp [bodyParts, Statement.parts, hx])

instance (body : List Statement) : Decidable (p.Knows body) :=
  inferInstanceAs (Decidable (∀ s ∈ bodyParts body, ∀ name ∈ s.called?, (p.procedure? name).isSome))

theorem linked_iff : p.Linked ↔ (p.procedure? p.entry).isSome ∧ ∀ q ∈ p.procedures, p.Knows q.body :=
  ⟨fun h => ⟨h.entry, h.calls⟩, fun h => ⟨h.1, h.2⟩⟩

instance (p : Program) : Decidable p.Linked :=
  decidable_of_iff _ linked_iff.symm

/-- That each name leads to its own procedure follows from the rest. -/
theorem closed_iff : p.Closed ↔
    p.Linked ∧ (p.procedures.map (·.name)).Nodup ∧
      (∀ q ∈ p.procedures, Predicate.ofName? q.name = none) ∧
      ∀ q ∈ p.procedures, ∀ s ∈ bodyParts q.body, ∀ n ∈ s.count?, 0 ≤ n := by
  constructor
  · intro h
    exact ⟨h.linked, h.namesDiffer, h.noPredicate, h.counts⟩
  · rintro ⟨hlinked, hnames, hpredicate, hcounts⟩
    exact ⟨hlinked, hnames, fun _ _ => procedure?_eq_some_iff hnames, hpredicate, hcounts⟩

instance (p : Program) : Decidable p.Closed :=
  decidable_of_iff _ closed_iff.symm

end Program

end GridRobot

import GridRobot.Proofs.Program.Nesting
import GridRobot.Proofs.Source.Binding

/-!
# What names mean

A name in program text means something where it stands, or it does not. Binding a body succeeds
exactly if all names in it mean something, and makes of each tree the same tree with its names bound.

## Main definitions

* `bodyCalls` and `bodyLeaves` list the calls of a body that are statements, and those that are parts
  of conditions.
* `BodyWellNamed` says of a body that all its names mean something.
* `BodyDenotes` says which bound body a body means.

## Main statements

* `bindBody_isOk`: a body is bound exactly if it is well named.
* `bindBody_denotes`: what a body is bound to is what it means.
* `BodyDenotes.exists_call`: from which calls the actions and calls of a body come.
* `BodyDenotes.not_shadowed`: the name of a procedure never means an action.
* `bindBody_congr`: the order of the names makes no difference.
-/

namespace GridRobot.Source

/-! ### Names of actions and predicates -/

theorem action_ofName?_eq_some {name : String} {a : Action} :
    Action.ofName? name = some a ↔ a.name = name := by
  constructor
  · intro h
    simpa using List.find?_some h
  · rintro rfl
    cases a <;> decide

theorem predicate_ofName?_eq_some {name : String} {p : Predicate} :
    Predicate.ofName? name = some p ↔ p.name = name := by
  constructor
  · intro h
    simpa using List.find?_some h
  · rintro rfl
    obtain ⟨sense, expected⟩ := p
    cases sense with
    | facing d => cases d <;> cases expected <;> decide
    | _ => cases expected <;> decide

theorem predicate_ofName?_eq_none {name : String} :
    Predicate.ofName? name = none ↔ ∀ p : Predicate, p.name ≠ name := by
  simp [Option.eq_none_iff_forall_not_mem, predicate_ofName?_eq_some]

/-! ### Calls -/

/-- All calls of a condition. -/
def Condition.leaves : Condition → List Call
  | .call c => [c]
  | .not operand _ => operand.leaves
  | .binary _ left right _ => left.leaves ++ right.leaves

mutual

/-- The calls that are a statement or stand in one as a statement, at any depth. -/
def Statement.calls : Statement → List Call
  | .call c => [c]
  | .ifElse _ thenBody elseBody _ => bodyCalls thenBody ++ bodyCalls elseBody
  | .whileLoop _ body _ => bodyCalls body
  | .doWhile body _ _ => bodyCalls body
  | .repeatLoop _ body _ => bodyCalls body

/-- The calls that stand in a body as statements, at any depth. -/
def bodyCalls : List Statement → List Call
  | [] => []
  | s :: rest => s.calls ++ bodyCalls rest

end

mutual

/-- The calls in the conditions of a statement, at any depth. -/
def Statement.leaves : Statement → List Call
  | .call _ => []
  | .ifElse condition thenBody elseBody _ =>
    condition.leaves ++ bodyLeaves thenBody ++ bodyLeaves elseBody
  | .whileLoop condition body _ => condition.leaves ++ bodyLeaves body
  | .doWhile body condition _ => bodyLeaves body ++ condition.leaves
  | .repeatLoop _ body _ => bodyLeaves body

/-- The calls in the conditions of a body, at any depth. -/
def bodyLeaves : List Statement → List Call
  | [] => []
  | s :: rest => s.leaves ++ bodyLeaves rest

end

/-- A call that means something as a statement: it has no arguments, and its name is that of a
procedure or an action. -/
structure Call.Commands (names : List String) (c : Call) : Prop where
  bare : c.arguments = 0
  known : c.name ∈ names ∨ ∃ a : Action, a.name = c.name

/-- A call that means something in a condition: it has no arguments, and its name is that of a
predicate. -/
structure Call.Asks (c : Call) : Prop where
  bare : c.arguments = 0
  known : ∃ p : Predicate, p.name = c.name

/-! ### Well named bodies -/

/-- All names of a statement mean something. -/
structure Statement.WellNamed (names : List String) (s : Statement) : Prop where
  calls : ∀ c ∈ s.calls, c.Commands names
  leaves : ∀ c ∈ s.leaves, c.Asks

/-- All names of a body mean something. -/
structure BodyWellNamed (names : List String) (body : List Statement) : Prop where
  calls : ∀ c ∈ bodyCalls body, c.Commands names
  leaves : ∀ c ∈ bodyLeaves body, c.Asks

/-! ### What is meant -/

/-- The condition that a tree means, with the line of each part. -/
inductive Condition.Denotes : Condition → GridRobot.Condition → Prop where
  | call {c : Call} {p : Predicate} (hname : p.name = c.name) :
      Denotes (.call c) (.predicate p c.position.line)
  | not {c : Condition} {d : GridRobot.Condition} {line : Nat} (h : Denotes c d) :
      Denotes (.not c line) (.not d line)
  | both {l r : Condition} {l' r' : GridRobot.Condition} {line : Nat} (hl : Denotes l l')
      (hr : Denotes r r') : Denotes (.binary .both l r line) (.and l' r' line)
  | either {l r : Condition} {l' r' : GridRobot.Condition} {line : Nat} (hl : Denotes l l')
      (hr : Denotes r r') : Denotes (.binary .either l r line) (.or l' r' line)

mutual

/-- The statement that a tree means, with the line of each part: a name that is defined means the
procedure, even if it is that of an action. -/
inductive Statement.Denotes (names : List String) : Statement → GridRobot.Statement → Prop where
  | procedure {c : Call} (hname : c.name ∈ names) :
      Statement.Denotes names (.call c) (.call c.name c.position.line)
  | action {c : Call} {a : Action} (hfree : c.name ∉ names) (hname : a.name = c.name) :
      Statement.Denotes names (.call c) (.action a c.position.line)
  | ifElse {c : Condition} {c' : GridRobot.Condition} {t e : List Statement}
      {t' e' : List GridRobot.Statement} {line : Nat} (hc : c.Denotes c')
      (ht : BodyDenotes names t t') (he : BodyDenotes names e e') :
      Statement.Denotes names (.ifElse c t e line) (.ifElse c' t' e' line)
  | whileLoop {c : Condition} {c' : GridRobot.Condition} {body : List Statement}
      {body' : List GridRobot.Statement} {line : Nat} (hc : c.Denotes c')
      (hbody : BodyDenotes names body body') :
      Statement.Denotes names (.whileLoop c body line) (.whileLoop c' body' line)
  | doWhile {c : Condition} {c' : GridRobot.Condition} {body : List Statement}
      {body' : List GridRobot.Statement} {line : Nat} (hbody : BodyDenotes names body body')
      (hc : c.Denotes c') : Statement.Denotes names (.doWhile body c line) (.doWhile body' c' line)
  | repeatLoop {body : List Statement} {body' : List GridRobot.Statement} {count line : Nat}
      (hbody : BodyDenotes names body body') :
      Statement.Denotes names (.repeatLoop count body line) (.repeatLoop count body' line)

/-- The body that a row of trees means, one statement for each tree. -/
inductive BodyDenotes (names : List String) :
    List Statement → List GridRobot.Statement → Prop where
  | nil : BodyDenotes names [] []
  | cons {s : Statement} {s' : GridRobot.Statement} {rest : List Statement}
      {rest' : List GridRobot.Statement} (hs : Statement.Denotes names s s')
      (hrest : BodyDenotes names rest rest') : BodyDenotes names (s :: rest) (s' :: rest')

end

/-! ### Bound trees -/

variable {names names' : List String}

theorem checkArguments_eq_ok {c : Call} {u : PUnit} :
    checkArguments c = .ok u ↔ c.arguments = 0 := by
  unfold checkArguments
  split <;> simp_all

/-- A call is bound to the procedure of its name, and if there is none to the action. -/
theorem bindCall_eq_ok {c : Call} {s : GridRobot.Statement} :
    bindCall names c = .ok s ↔ c.arguments = 0 ∧ Statement.Denotes names (.call c) s := by
  unfold bindCall
  by_cases hname : c.name ∈ names
  · simp only [List.contains_iff_mem, hname, if_true, bind_eq_ok, checkArguments_eq_ok,
      Except.ok.injEq]
    constructor
    · rintro ⟨-, hbare, rfl⟩
      exact ⟨hbare, .procedure hname⟩
    · rintro ⟨hbare, hs⟩
      cases hs with
      | procedure _ => exact ⟨⟨⟩, hbare, rfl⟩
      | action hfree _ => exact absurd hname hfree
  · simp only [List.contains_iff_mem, hname, if_false]
    cases ha : Action.ofName? c.name with
    | some a =>
      simp only [bind_eq_ok, checkArguments_eq_ok, Except.ok.injEq]
      constructor
      · rintro ⟨-, hbare, rfl⟩
        exact ⟨hbare, .action hname (action_ofName?_eq_some.1 ha)⟩
      · rintro ⟨hbare, hs⟩
        cases hs with
        | procedure hmem => exact absurd hmem hname
        | action _ ha' =>
          rw [action_ofName?_eq_some.2 ha', Option.some.injEq] at ha
          exact ⟨⟨⟩, hbare, by rw [ha]⟩
    | none =>
      constructor
      · intro h
        dsimp only at h
        split at h <;> cases h
      · rintro ⟨-, hs⟩
        cases hs with
        | procedure hmem => exact absurd hmem hname
        | action _ ha' =>
          rw [action_ofName?_eq_some.2 ha'] at ha
          cases ha

theorem bindPredicate_eq_ok {c : Call} {d : GridRobot.Condition} :
    bindPredicate names c = .ok d ↔ c.arguments = 0 ∧ Condition.Denotes (.call c) d := by
  unfold bindPredicate
  cases hp : Predicate.ofName? c.name with
  | some p =>
    simp only [bind_eq_ok, checkArguments_eq_ok, Except.ok.injEq]
    constructor
    · rintro ⟨-, hbare, rfl⟩
      exact ⟨hbare, .call (predicate_ofName?_eq_some.1 hp)⟩
    · rintro ⟨hbare, hd⟩
      obtain ⟨hp'⟩ := hd
      rw [predicate_ofName?_eq_some.2 hp', Option.some.injEq] at hp
      exact ⟨⟨⟩, hbare, by rw [hp]⟩
  | none =>
    constructor
    · intro h
      dsimp only at h
      split at h <;> cases h
    · rintro ⟨-, hd⟩
      obtain ⟨hp'⟩ := hd
      exact absurd hp' (predicate_ofName?_eq_none.1 hp _)

/-! ### What is bound -/

theorem bindCall_isOk {c : Call} : (∃ s, bindCall names c = .ok s) ↔ c.Commands names := by
  simp only [bindCall_eq_ok]
  constructor
  · rintro ⟨s, hbare, hs⟩
    cases hs with
    | procedure hname => exact ⟨hbare, .inl hname⟩
    | action _ hname => exact ⟨hbare, .inr ⟨_, hname⟩⟩
  · rintro ⟨hbare, hknown⟩
    by_cases hname : c.name ∈ names
    · exact ⟨_, hbare, .procedure hname⟩
    · obtain ⟨a, ha⟩ := hknown.resolve_left hname
      exact ⟨_, hbare, .action hname ha⟩

theorem bindPredicate_isOk {c : Call} : (∃ d, bindPredicate names c = .ok d) ↔ c.Asks := by
  simp only [bindPredicate_eq_ok]
  constructor
  · rintro ⟨d, hbare, hd⟩
    obtain ⟨hname⟩ := hd
    exact ⟨hbare, _, hname⟩
  · rintro ⟨hbare, p, hname⟩
    exact ⟨_, hbare, .call hname⟩

theorem bindCondition_isOk {c : Condition} :
    (∃ d, bindCondition names c = .ok d) ↔ ∀ l ∈ c.leaves, l.Asks := by
  induction c with
  | call c => simp [bindCondition, bindPredicate_isOk, Condition.leaves]
  | not operand line ih =>
    simp only [bindCondition, exists_bind_eq_ok, Condition.leaves, ← ih]
    simp
  | binary op l r line ihl ihr =>
    simp only [bindCondition, exists_bind_eq_ok, Condition.leaves, List.forall_mem_append, ← ihl,
      ← ihr]
    cases op <;> simp

section WellNamed

variable {c : Condition} {s : Statement} {t e body rest : List Statement} {line : Nat}

theorem Statement.wellNamed_iff : s.WellNamed names ↔
    (∀ c ∈ s.calls, c.Commands names) ∧ ∀ c ∈ s.leaves, c.Asks :=
  ⟨fun h => ⟨h.1, h.2⟩, fun h => ⟨h.1, h.2⟩⟩

theorem bodyWellNamed_iff : BodyWellNamed names body ↔
    (∀ c ∈ bodyCalls body, c.Commands names) ∧ ∀ c ∈ bodyLeaves body, c.Asks :=
  ⟨fun h => ⟨h.1, h.2⟩, fun h => ⟨h.1, h.2⟩⟩

theorem bodyWellNamed_cons : BodyWellNamed names (s :: rest) ↔
    s.WellNamed names ∧ BodyWellNamed names rest := by
  simp only [Statement.wellNamed_iff, bodyWellNamed_iff, bodyCalls, bodyLeaves,
    List.forall_mem_append, and_and_and_comm]

theorem Statement.call_wellNamed {c : Call} :
    (Statement.call c).WellNamed names ↔ c.Commands names := by
  simp [Statement.wellNamed_iff, Statement.calls, Statement.leaves]

theorem Statement.ifElse_wellNamed : (Statement.ifElse c t e line).WellNamed names ↔
    (∀ l ∈ c.leaves, l.Asks) ∧ BodyWellNamed names t ∧ BodyWellNamed names e := by
  simp only [Statement.wellNamed_iff, bodyWellNamed_iff, Statement.calls, Statement.leaves,
    List.forall_mem_append]
  tauto

theorem Statement.whileLoop_wellNamed : (Statement.whileLoop c body line).WellNamed names ↔
    (∀ l ∈ c.leaves, l.Asks) ∧ BodyWellNamed names body := by
  simp only [Statement.wellNamed_iff, bodyWellNamed_iff, Statement.calls, Statement.leaves,
    List.forall_mem_append, and_left_comm]

theorem Statement.doWhile_wellNamed : (Statement.doWhile body c line).WellNamed names ↔
    BodyWellNamed names body ∧ ∀ l ∈ c.leaves, l.Asks := by
  simp only [Statement.wellNamed_iff, bodyWellNamed_iff, Statement.calls, Statement.leaves,
    List.forall_mem_append, and_assoc]

theorem Statement.repeatLoop_wellNamed {count : Nat} :
    (Statement.repeatLoop count body line).WellNamed names ↔ BodyWellNamed names body := by
  simp only [Statement.wellNamed_iff, bodyWellNamed_iff, Statement.calls, Statement.leaves]

end WellNamed

mutual

/-- A statement is bound exactly if its names mean something. -/
theorem bindStatement_isOk (s : Statement) :
    (∃ b, bindStatement names s = .ok b) ↔ s.WellNamed names := by
  cases s with
  | call c => simp only [bindStatement, bindCall_isOk, Statement.call_wellNamed]
  | ifElse c t e line =>
    simp only [bindStatement, exists_bind_eq_ok, Except.ok.injEq, exists_eq', and_true,
      exists_and_right, bindCondition_isOk, bindBody_isOk t, bindBody_isOk e,
      Statement.ifElse_wellNamed]
  | whileLoop c body line =>
    simp only [bindStatement, exists_bind_eq_ok, Except.ok.injEq, exists_eq', and_true,
      exists_and_right, bindCondition_isOk, bindBody_isOk body, Statement.whileLoop_wellNamed]
  | doWhile body c line =>
    simp only [bindStatement, exists_bind_eq_ok, Except.ok.injEq, exists_eq', and_true,
      exists_and_right, bindCondition_isOk, bindBody_isOk body, Statement.doWhile_wellNamed]
  | repeatLoop count body line =>
    simp only [bindStatement, exists_bind_eq_ok, Except.ok.injEq, exists_eq', and_true,
      bindBody_isOk body, Statement.repeatLoop_wellNamed]

/-- A body is bound exactly if its names mean something. -/
theorem bindBody_isOk (body : List Statement) :
    (∃ b, bindBody names body = .ok b) ↔ BodyWellNamed names body := by
  cases body with
  | nil => simp [bodyWellNamed_iff, bindBody, bodyCalls, bodyLeaves]
  | cons s rest =>
    simp only [bindBody, exists_bind_eq_ok, Except.ok.injEq, exists_eq', and_true,
      exists_and_right, bindStatement_isOk s, bindBody_isOk rest, bodyWellNamed_cons]

end

theorem bindCondition_denotes {c : Condition} {d : GridRobot.Condition}
    (h : bindCondition names c = .ok d) : c.Denotes d := by
  induction c generalizing d with
  | call c => exact (bindPredicate_eq_ok.1 h).2
  | not operand line ih =>
    simp only [bindCondition, bind_eq_ok, Except.ok.injEq] at h
    obtain ⟨d', hd', rfl⟩ := h
    exact .not (ih hd')
  | binary op l r line ihl ihr =>
    simp only [bindCondition, bind_eq_ok] at h
    obtain ⟨l', hl, r', hr, h⟩ := h
    cases op with
    | both =>
      cases h
      exact .both (ihl hl) (ihr hr)
    | either =>
      cases h
      exact .either (ihl hl) (ihr hr)

mutual

/-- A statement is bound to what it means. -/
theorem bindStatement_denotes {s : Statement} {b : GridRobot.Statement}
    (h : bindStatement names s = .ok b) : s.Denotes names b := by
  cases s with
  | call c => exact (bindCall_eq_ok.1 (by simpa only [bindStatement] using h)).2
  | ifElse c t e line =>
    simp only [bindStatement, bind_eq_ok, Except.ok.injEq] at h
    obtain ⟨c', hc, t', ht, e', he, rfl⟩ := h
    exact .ifElse (bindCondition_denotes hc) (bindBody_denotes ht) (bindBody_denotes he)
  | whileLoop c body line =>
    simp only [bindStatement, bind_eq_ok, Except.ok.injEq] at h
    obtain ⟨c', hc, body', hbody, rfl⟩ := h
    exact .whileLoop (bindCondition_denotes hc) (bindBody_denotes hbody)
  | doWhile body c line =>
    simp only [bindStatement, bind_eq_ok, Except.ok.injEq] at h
    obtain ⟨body', hbody, c', hc, rfl⟩ := h
    exact .doWhile (bindBody_denotes hbody) (bindCondition_denotes hc)
  | repeatLoop count body line =>
    simp only [bindStatement, bind_eq_ok, Except.ok.injEq] at h
    obtain ⟨body', hbody, rfl⟩ := h
    exact .repeatLoop (bindBody_denotes hbody)

/-- A body is bound to what it means. -/
theorem bindBody_denotes {body : List Statement} {b : List GridRobot.Statement}
    (h : bindBody names body = .ok b) : BodyDenotes names body b := by
  cases body with
  | nil =>
    simp only [bindBody, Except.ok.injEq] at h
    subst h
    exact .nil
  | cons s rest =>
    simp only [bindBody, bind_eq_ok, Except.ok.injEq] at h
    obtain ⟨first, hfirst, others, hothers, rfl⟩ := h
    exact .cons (bindStatement_denotes hfirst) (bindBody_denotes hothers)

end

/-! ### From which calls a body comes -/

mutual

/-- An action or a call in what a statement means is meant by a call in the statement. -/
theorem Statement.Denotes.exists_call {s : Statement} {b : GridRobot.Statement}
    (h : s.Denotes names b) :
    ∀ x ∈ b.parts, x.nesting = 0 → ∃ c ∈ s.calls, Statement.Denotes names (.call c) x := by
  cases s with
  | call c =>
    have hself : ∀ x ∈ b.parts, x = b := by
      cases h with
      | procedure _ => simp [Statement.parts]
      | action _ _ => simp [Statement.parts]
    intro x hx _
    rw [hself x hx]
    exact ⟨c, by simp [Statement.calls], h⟩
  | ifElse c t e line =>
    cases h with
    | ifElse _ ht he =>
      simp only [Statement.parts, List.mem_cons, List.mem_append, Statement.calls]
      rintro x (rfl | hx | hx) hplain
      · simp [GridRobot.Statement.nesting] at hplain
      · obtain ⟨c, hc, hdenotes⟩ := ht.exists_call x hx hplain
        exact ⟨c, .inl hc, hdenotes⟩
      · obtain ⟨c, hc, hdenotes⟩ := he.exists_call x hx hplain
        exact ⟨c, .inr hc, hdenotes⟩
  | whileLoop c body line =>
    cases h with
    | whileLoop _ hbody =>
      simp only [Statement.parts, List.mem_cons, Statement.calls]
      rintro x (rfl | hx) hplain
      · simp [GridRobot.Statement.nesting] at hplain
      · exact hbody.exists_call x hx hplain
  | doWhile body c line =>
    cases h with
    | doWhile hbody _ =>
      simp only [Statement.parts, List.mem_cons, Statement.calls]
      rintro x (rfl | hx) hplain
      · simp [GridRobot.Statement.nesting] at hplain
      · exact hbody.exists_call x hx hplain
  | repeatLoop count body line =>
    cases h with
    | repeatLoop hbody =>
      simp only [Statement.parts, List.mem_cons, Statement.calls]
      rintro x (rfl | hx) hplain
      · simp [GridRobot.Statement.nesting] at hplain
      · exact hbody.exists_call x hx hplain

/-- An action or a call in what a body means is meant by a call in the body. -/
theorem BodyDenotes.exists_call {body : List Statement} {b : List GridRobot.Statement}
    (h : BodyDenotes names body b) :
    ∀ x ∈ bodyParts b, x.nesting = 0 →
      ∃ c ∈ bodyCalls body, Statement.Denotes names (.call c) x := by
  cases body with
  | nil =>
    cases h
    simp [bodyParts]
  | cons s rest =>
    cases h with
    | cons hs hrest =>
      simp only [bodyParts, bodyCalls, List.mem_append]
      rintro x (hx | hx) hplain
      · obtain ⟨c, hc, hdenotes⟩ := hs.exists_call x hx hplain
        exact ⟨c, .inl hc, hdenotes⟩
      · obtain ⟨c, hc, hdenotes⟩ := hrest.exists_call x hx hplain
        exact ⟨c, .inr hc, hdenotes⟩

end

/-- An action is not in what a body means if its name is that of a procedure. -/
theorem BodyDenotes.not_shadowed {body : List Statement} {b : List GridRobot.Statement}
    (h : BodyDenotes names body b) :
    ∀ x ∈ bodyParts b, ∀ a line, x = .action a line → a.name ∉ names := by
  rintro x hx a line rfl
  obtain ⟨c, -, hdenotes⟩ := h.exists_call _ hx rfl
  cases hdenotes with
  | action hfree hname => rwa [hname]

/-! ### Names in another order -/

theorem bindCall_congr (hnames : ∀ name, name ∈ names ↔ name ∈ names') (c : Call) :
    bindCall names c = bindCall names' c := by
  simp only [bindCall, List.contains_iff_mem, hnames]

theorem bindCondition_congr (hnames : ∀ name, name ∈ names ↔ name ∈ names') (c : Condition) :
    bindCondition names c = bindCondition names' c := by
  induction c with
  | call c =>
    simp only [bindCondition, bindPredicate, Bool.or_eq_true, List.contains_iff_mem, hnames]
  | not operand line ih => simp only [bindCondition, ih]
  | binary op l r line ihl ihr => simp only [bindCondition, ihl, ihr]

mutual

theorem bindStatement_congr (hnames : ∀ name, name ∈ names ↔ name ∈ names') (s : Statement) :
    bindStatement names s = bindStatement names' s := by
  cases s with
  | call c => simp only [bindStatement, bindCall_congr hnames]
  | ifElse c t e line =>
    simp only [bindStatement, bindCondition_congr hnames, bindBody_congr hnames t,
      bindBody_congr hnames e]
  | whileLoop c body line =>
    simp only [bindStatement, bindCondition_congr hnames, bindBody_congr hnames body]
  | doWhile body c line =>
    simp only [bindStatement, bindCondition_congr hnames, bindBody_congr hnames body]
  | repeatLoop count body line => simp only [bindStatement, bindBody_congr hnames body]

/-- What a body is bound to depends only on which names are defined, not on their order. -/
theorem bindBody_congr (hnames : ∀ name, name ∈ names ↔ name ∈ names') (body : List Statement) :
    bindBody names body = bindBody names' body := by
  cases body with
  | nil => simp only [bindBody]
  | cons s rest =>
    simp only [bindBody, bindStatement_congr hnames s, bindBody_congr hnames rest]

end

end GridRobot.Source

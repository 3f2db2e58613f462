import GridRobot.Proofs.Program.Nesting
import GridRobot.Proofs.Source.Binding
import GridRobot.Proofs.Source.Soundness
import GridRobot.Source.Compile

/-!
# Compiled programs nest no deeper than their texts may

The levels that are open at a place of a text are more than what stays of them in the tree:
parentheses in a condition open levels as well. So the bodies of a tree are nested no deeper than the
levels of its derivation, and binding changes neither bodies nor operators.

## Main definitions

* `Statement.nesting` and `bodyNesting` count the bodies inside of each other in a tree.

## Main statements

* `RowText.nesting_le`, `ListingText.nesting_le`: a derived tree has no more than its levels.
* `bindBody_nesting`, `bindBody_low`: bodies and conditions are bound as they are.
* `compile_within`: a compiled program keeps to the limit of its compilation.
-/

namespace GridRobot.Source

variable {limit n : Nat} {names : List String}

mutual

/-- Number of bodies inside of each other in a statement as it is written. -/
def Statement.nesting : Statement → Nat
  | .call _ => 0
  | .ifElse _ t e _ => max (bodyNesting t) (bodyNesting e) + 1
  | .whileLoop _ body _ => bodyNesting body + 1
  | .doWhile body _ _ => bodyNesting body + 1
  | .repeatLoop _ body _ => bodyNesting body + 1

/-- Number of bodies inside of each other below a body as it is written. -/
def bodyNesting : List Statement → Nat
  | [] => 0
  | s :: rest => max s.nesting (bodyNesting rest)

end

theorem bodyNesting_append (body others : List Statement) :
    bodyNesting (body ++ others) = max (bodyNesting body) (bodyNesting others) := by
  induction body with
  | nil => simp [bodyNesting]
  | cons s rest ih => simp [bodyNesting, ih, Nat.max_assoc]

theorem bodyNesting_singleton (s : Statement) : bodyNesting [s] = s.nesting := by
  simp [bodyNesting]

/-! ### Derived trees -/

mutual

theorem BlockText.nesting_lt {ts rest : List Token} {body : List Statement} {n : Nat}
    (h : BlockText ts body n rest) : bodyNesting body < n := by
  match h with
  | .braces hrow => exact Nat.lt_succ_of_le hrow.nesting_le
termination_by structural h

theorem RowText.nesting_le {ts rest : List Token} {body : List Statement} {n : Nat}
    (h : RowText ts body n rest) : bodyNesting body ≤ n := by
  match h with
  | .nil => exact Nat.le_refl 0
  | .cons hfirst hothers =>
    have hs := hfirst.nesting_le
    have hbody := hothers.nesting_le
    rw [bodyNesting_append]
    omega
termination_by structural h

theorem StatementText.nesting_le {ts rest : List Token} {s : Option Statement} {n : Nat}
    (h : StatementText ts s n rest) : bodyNesting s.toList ≤ n := by
  match h with
  | .empty => exact Nat.le_refl 0
  | .call _ => exact Nat.le_refl 0
  | .ifElse hif =>
    have hs := hif.nesting_le
    rwa [Option.toList_some, bodyNesting_singleton]
  | .whileLoop _ hblock =>
    have hbody := hblock.nesting_lt
    simp only [Option.toList_some, bodyNesting_singleton, Statement.nesting]
    omega
  | .doWhile hblock _ =>
    have hbody := hblock.nesting_lt
    simp only [Option.toList_some, bodyNesting_singleton, Statement.nesting]
    omega
  | .repeatLoop hblock =>
    have hbody := hblock.nesting_lt
    simp only [Option.toList_some, bodyNesting_singleton, Statement.nesting]
    omega
termination_by structural h

theorem IfText.nesting_le {ts rest : List Token} {s : Statement} {n : Nat}
    (h : IfText ts s n rest) : s.nesting ≤ n := by
  match h with
  | .branches _ hblock helse =>
    have ht := hblock.nesting_lt
    have he := helse.nesting_lt
    rw [Statement.nesting]
    omega
termination_by structural h

/-- What follows `else` is a level, but there may be no `else`. -/
theorem ElseText.nesting_lt {ts rest : List Token} {body : List Statement} {n : Nat}
    (h : ElseText ts body n rest) : bodyNesting body < max n 1 := by
  match h with
  | .nothing => exact Nat.one_pos
  | .block hblock =>
    have hbody := hblock.nesting_lt
    omega
  | .chain hif =>
    have hs := hif.nesting_le
    rw [bodyNesting_singleton]
    omega
termination_by structural h

end

/-- The bodies of a derived text are nested no deeper than its levels; the body of a procedure is a
level of its own. -/
theorem ListingText.nesting_le {ts : List Token} {listing : Listing} (h : ListingText ts listing n) :
    (∀ d ∈ listing.definitions, bodyNesting d.body < n) ∧ bodyNesting listing.loose ≤ n := by
  induction h with
  | nil => simp [bodyNesting]
  | definition hfirst _ ih =>
    obtain ⟨_, hblock⟩ := hfirst
    have hbody := hblock.nesting_lt
    obtain ⟨hdefs, hloose⟩ := ih
    refine ⟨?_, Nat.le_trans hloose (Nat.le_max_right _ _)⟩
    rintro d (_ | ⟨_, hd⟩)
    · exact Nat.lt_of_lt_of_le hbody (Nat.le_max_left _ _)
    · exact Nat.lt_of_lt_of_le (hdefs d hd) (Nat.le_max_right _ _)
  | statement hfirst _ ih =>
    have hs := hfirst.nesting_le
    obtain ⟨hdefs, hloose⟩ := ih
    refine ⟨fun d hd => ?_, ?_⟩
    · exact Nat.lt_of_lt_of_le (hdefs d hd) (Nat.le_max_right _ _)
    · rw [bodyNesting_append]
      omega

/-! ### Bound trees -/

theorem bindCondition_height {c : Condition} {b : GridRobot.Condition}
    (h : bindCondition names c = .ok b) : b.height = c.height := by
  induction c generalizing b with
  | call c =>
    rw [bindCondition, bindPredicate] at h
    split at h
    · rw [bind_eq_ok] at h
      obtain ⟨_, _, h⟩ := h
      cases h
      rfl
    · split at h <;> cases h
  | not operand line ih =>
    simp only [bindCondition, bind_eq_ok, Except.ok.injEq] at h
    obtain ⟨o, ho, rfl⟩ := h
    rw [GridRobot.Condition.height, ih ho, Condition.height]
  | binary op left right line ihl ihr =>
    simp only [bindCondition, bind_eq_ok] at h
    obtain ⟨l, hl, r, hr, h⟩ := h
    cases op <;>
      · cases h
        rw [GridRobot.Condition.height, ihl hl, ihr hr, Condition.height]

theorem bindCall_plain {c : Call} {b : GridRobot.Statement} (h : bindCall names c = .ok b) :
    b.nesting = 0 ∧ b.parts = [b] ∧ b.condition? = none := by
  rw [bindCall] at h
  split at h
  · rw [bind_eq_ok] at h
    obtain ⟨_, _, h⟩ := h
    cases h
    exact ⟨rfl, rfl, rfl⟩
  · split at h
    · rw [bind_eq_ok] at h
      obtain ⟨_, _, h⟩ := h
      cases h
      exact ⟨rfl, rfl, rfl⟩
    · split at h <;> cases h

mutual

theorem bindStatement_nesting {s : Statement} {b : GridRobot.Statement}
    (h : bindStatement names s = .ok b) : b.nesting = s.nesting := by
  cases s with
  | call c => exact (bindCall_plain (by simpa only [bindStatement] using h)).1
  | ifElse condition thenBody elseBody line =>
    simp only [bindStatement, bind_eq_ok, Except.ok.injEq] at h
    obtain ⟨c, _, t, ht, e, he, rfl⟩ := h
    rw [GridRobot.Statement.nesting, bindBody_nesting ht, bindBody_nesting he, Statement.nesting]
  | whileLoop condition body line =>
    simp only [bindStatement, bind_eq_ok, Except.ok.injEq] at h
    obtain ⟨c, _, t, ht, rfl⟩ := h
    rw [GridRobot.Statement.nesting, bindBody_nesting ht, Statement.nesting]
  | doWhile body condition line =>
    simp only [bindStatement, bind_eq_ok, Except.ok.injEq] at h
    obtain ⟨t, ht, c, _, rfl⟩ := h
    rw [GridRobot.Statement.nesting, bindBody_nesting ht, Statement.nesting]
  | repeatLoop count body line =>
    simp only [bindStatement, bind_eq_ok, Except.ok.injEq] at h
    obtain ⟨t, ht, rfl⟩ := h
    rw [GridRobot.Statement.nesting, bindBody_nesting ht, Statement.nesting]

/-- A body is bound with the bodies that are inside of it. -/
theorem bindBody_nesting {body : List Statement} {b : List GridRobot.Statement}
    (h : bindBody names body = .ok b) : GridRobot.bodyNesting b = bodyNesting body := by
  cases body with
  | nil =>
    simp only [bindBody, Except.ok.injEq] at h
    subst h
    rfl
  | cons s rest =>
    simp only [bindBody, bind_eq_ok, Except.ok.injEq] at h
    obtain ⟨first, hfirst, others, hothers, rfl⟩ := h
    rw [GridRobot.bodyNesting, bindStatement_nesting hfirst, bindBody_nesting hothers, bodyNesting]

end

/-- The conditions of all statements of a body are no higher than a limit. -/
def BoundLow (limit : Nat) (body : List GridRobot.Statement) : Prop :=
  ∀ x ∈ body, ∀ c ∈ x.condition?, c.height ≤ limit

theorem boundLow_cons {x : GridRobot.Statement} {body : List GridRobot.Statement} :
    BoundLow limit (x :: body) ↔ (∀ c ∈ x.condition?, c.height ≤ limit) ∧ BoundLow limit body := by
  simp [BoundLow]

theorem boundLow_append {body others : List GridRobot.Statement} :
    BoundLow limit (body ++ others) ↔ BoundLow limit body ∧ BoundLow limit others := by
  simp [BoundLow, or_imp, forall_and]

theorem boundLow_of_bindCondition {c : Condition} {b : GridRobot.Condition}
    (h : bindCondition names c = .ok b) (hlow : c.height ≤ limit) :
    ∀ d ∈ some b, d.height ≤ limit := by
  rintro d ⟨⟩
  rwa [bindCondition_height h]

mutual

theorem bindStatement_low {s : Statement} {b : GridRobot.Statement}
    (h : bindStatement names s = .ok b) (hlow : Low limit [s]) : BoundLow limit b.parts := by
  cases s with
  | call c =>
    obtain ⟨_, hparts, hnone⟩ := bindCall_plain (by simpa only [bindStatement] using h)
    rw [hparts, boundLow_cons, hnone]
    exact ⟨by simp, by simp [BoundLow]⟩
  | ifElse condition thenBody elseBody line =>
    simp only [bindStatement, bind_eq_ok, Except.ok.injEq] at h
    obtain ⟨c, hc, t, ht, e, he, rfl⟩ := h
    obtain ⟨hheight, hlow₁, hlow₂⟩ := low_ifElse.1 hlow
    exact boundLow_cons.2 ⟨boundLow_of_bindCondition hc hheight,
      boundLow_append.2 ⟨bindBody_low ht hlow₁, bindBody_low he hlow₂⟩⟩
  | whileLoop condition body line =>
    simp only [bindStatement, bind_eq_ok, Except.ok.injEq] at h
    obtain ⟨c, hc, t, ht, rfl⟩ := h
    obtain ⟨hheight, hbody⟩ := low_whileLoop.1 hlow
    exact boundLow_cons.2 ⟨boundLow_of_bindCondition hc hheight, bindBody_low ht hbody⟩
  | doWhile body condition line =>
    simp only [bindStatement, bind_eq_ok, Except.ok.injEq] at h
    obtain ⟨t, ht, c, hc, rfl⟩ := h
    obtain ⟨hheight, hbody⟩ := low_doWhile.1 hlow
    exact boundLow_cons.2 ⟨boundLow_of_bindCondition hc hheight, bindBody_low ht hbody⟩
  | repeatLoop count body line =>
    simp only [bindStatement, bind_eq_ok, Except.ok.injEq] at h
    obtain ⟨t, ht, rfl⟩ := h
    exact boundLow_cons.2 ⟨nofun, bindBody_low ht (low_repeatLoop.1 hlow)⟩

/-- A body is bound with conditions as high as they are written. -/
theorem bindBody_low {body : List Statement} {b : List GridRobot.Statement}
    (h : bindBody names body = .ok b) (hlow : Low limit body) : BoundLow limit (bodyParts b) := by
  cases body with
  | nil =>
    simp only [bindBody, Except.ok.injEq] at h
    subst h
    simp [BoundLow, bodyParts]
  | cons s rest =>
    simp only [bindBody, bind_eq_ok, Except.ok.injEq] at h
    obtain ⟨first, hfirst, others, hothers, rfl⟩ := h
    obtain ⟨hlow₁, hlow₂⟩ := low_append.1 (show Low limit ([s] ++ rest) from hlow)
    exact boundLow_append.2 ⟨bindStatement_low hfirst hlow₁, bindBody_low hothers hlow₂⟩

end

/-! ### Programs -/

theorem bindDefinitions_bodies {defs : List Definition} {qs : List Procedure}
    (h : bindDefinitions names defs = .ok qs) :
    ∀ q ∈ qs, ∃ d ∈ defs, bindBody names d.body = .ok q.body := by
  induction defs generalizing qs with
  | nil =>
    simp only [bindDefinitions, Except.ok.injEq] at h
    simp [← h]
  | cons d rest ih =>
    simp only [bindDefinitions, bind_eq_ok, Except.ok.injEq] at h
    obtain ⟨body, hbody, others, hothers, rfl⟩ := h
    rintro q (_ | ⟨_, hq⟩)
    · exact ⟨d, List.mem_cons_self, hbody⟩
    · obtain ⟨d', hd', hbound⟩ := ih hothers q hq
      exact ⟨d', List.mem_cons_of_mem _ hd', hbound⟩

theorem bindLoose_bodies {loose : List Statement} {qs : List Procedure}
    (h : bindLoose names loose = .ok qs) : ∀ q ∈ qs, bindBody names loose = .ok q.body := by
  cases loose with
  | nil =>
    simp only [bindLoose, Except.ok.injEq] at h
    simp [← h]
  | cons first rest =>
    simp only [bindLoose, bind_eq_ok, Except.ok.injEq] at h
    obtain ⟨body, hbody, rfl⟩ := h
    simpa using hbody

/-- The body of every procedure of a bound text is that of a definition, or the loose statements. -/
theorem bind_bodies {text : Listing} {p : Program} (h : bind text = .ok p) :
    ∃ names, ∀ q ∈ p.procedures, (∃ d ∈ text.definitions, bindBody names d.body = .ok q.body) ∨
      bindBody names text.loose = .ok q.body := by
  simp only [bind, bind_eq_ok, Except.ok.injEq] at h
  obtain ⟨_, _, entry, _, defined, hdefined, implicit, himplicit, rfl⟩ := h
  refine ⟨text.definitions.map (·.name), fun q hq => ?_⟩
  rcases List.mem_append.1 hq with hq | hq
  · exact .inl (bindDefinitions_bodies hdefined q hq)
  · exact .inr (bindLoose_bodies himplicit q hq)

theorem bind_within {text : Listing} {p : Program} {ts : List Token} (h : bind text = .ok p)
    (htext : ListingText ts text n) (hn : n ≤ limit)
    (hheights : ∀ c ∈ text.conditions, c.height ≤ limit) : p.Within limit := by
  obtain ⟨hdefs, hloose⟩ := htext.nesting_le
  obtain ⟨names, hbodies⟩ := bind_bodies h
  -- the same is said of a bound body, whichever of the two it comes from
  have hbody : ∀ q ∈ p.procedures, ∃ body, bindBody names body = .ok q.body ∧
      bodyNesting body ≤ n ∧ Low limit body := by
    intro q hq
    rcases hbodies q hq with ⟨d, hd, hbound⟩ | hbound
    · refine ⟨d.body, hbound, Nat.le_of_lt (hdefs d hd), fun c hc => hheights c ?_⟩
      exact List.mem_append_left _ (List.mem_flatMap.2 ⟨d, hd, hc⟩)
    · exact ⟨text.loose, hbound, hloose, fun c hc => hheights c (List.mem_append_right _ hc)⟩
  refine ⟨fun q hq => ?_, fun q hq => ?_⟩
  · obtain ⟨body, hbound, hnesting, _⟩ := hbody q hq
    rw [bindBody_nesting hbound]
    exact Nat.le_trans hnesting hn
  · obtain ⟨body, hbound, _, hlow⟩ := hbody q hq
    exact bindBody_low hbound hlow

theorem parseWithin_ok {limit : Int} {text : TokenList} {listing : Listing}
    (h : parseWithin limit text = .ok listing) : parse limit.toNat text = .ok listing := by
  unfold parseWithin at h
  split at h
  · cases h
  · split at h
    · rename_i hparse
      rw [hparse]
      cases h
      rfl
    · cases h
    · cases h

/-- A compiled program keeps to the limit of its compilation. -/
theorem compile_within {limit : Int} {source : String} {p : Program}
    (h : compile limit source = .ok p) : p.Within limit.toNat := by
  simp only [compile, bind_eq_ok, mapError_eq_ok] at h
  obtain ⟨text, _, listing, hparse, hbind⟩ := h
  obtain ⟨n, htext, hn, hheights⟩ := listingText_of_ok (parseWithin_ok hparse)
  exact bind_within hbind htext hn hheights

end GridRobot.Source

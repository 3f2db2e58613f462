import GridRobot.Proofs.Program.Linked
import GridRobot.Proofs.Reading
import GridRobot.Source.Binding

/-!
# Bound programs are closed

Binding accepts a text only when each name in it means something, so what it makes of the text is a
closed program.

## Main definitions

* `BoundTo` says of one statement that it calls only the given names, and how often it loops.

## Main statements

* `bindBody_boundTo`: every part of a bound body is bound to the names that were given.
* `bind_closed`: a bound text is a closed program.
-/

namespace GridRobot.Source

variable {names seen : List String}

/-- A statement that calls no other name than the given ones, and has no negative count. -/
structure BoundTo (names : List String) (s : GridRobot.Statement) : Prop where
  called : ∀ name ∈ s.called?, name ∈ names
  count : ∀ n ∈ s.count?, 0 ≤ n

theorem BoundTo.of_none {s : GridRobot.Statement} (hcall : s.called? = none)
    (hcount : s.count? = none) : BoundTo names s :=
  ⟨by simp [hcall], by simp [hcount]⟩

/-! ### Statements -/

theorem bindCall_boundTo {c : Call} {s : GridRobot.Statement} (h : bindCall names c = .ok s) :
    ∀ x ∈ s.parts, BoundTo names x := by
  rw [bindCall] at h
  by_cases hname : names.contains c.name
  · rw [if_pos hname, bind_eq_ok] at h
    obtain ⟨_, _, h⟩ := h
    cases h
    intro x hx
    obtain rfl : x = .call c.name c.position.line := by simpa [Statement.parts] using hx
    exact ⟨by simpa [Statement.called?] using hname, by simp [Statement.count?]⟩
  · rw [if_neg hname] at h
    cases ha : Action.ofName? c.name with
    | some a =>
      simp only [ha, bind_eq_ok] at h
      obtain ⟨_, _, h⟩ := h
      cases h
      intro x hx
      obtain rfl : x = .action a c.position.line := by simpa [Statement.parts] using hx
      exact .of_none rfl rfl
    | none =>
      simp only [ha] at h
      split at h <;> cases h

mutual

/-- Every part of a bound statement is bound to the names that were given. -/
theorem bindStatement_boundTo {s : Statement} {b : GridRobot.Statement}
    (h : bindStatement names s = .ok b) : ∀ x ∈ b.parts, BoundTo names x := by
  cases s with
  | call c => exact bindCall_boundTo (by simpa only [bindStatement] using h)
  | ifElse condition thenBody elseBody line =>
    simp only [bindStatement, bind_eq_ok, Except.ok.injEq] at h
    obtain ⟨c, _, t, ht, e, he, rfl⟩ := h
    simp only [Statement.parts, List.mem_cons, List.mem_append]
    rintro x (rfl | hx | hx)
    · exact .of_none rfl rfl
    · exact bindBody_boundTo ht x hx
    · exact bindBody_boundTo he x hx
  | whileLoop condition body line =>
    simp only [bindStatement, bind_eq_ok, Except.ok.injEq] at h
    obtain ⟨c, _, t, ht, rfl⟩ := h
    simp only [Statement.parts, List.mem_cons]
    rintro x (rfl | hx)
    · exact .of_none rfl rfl
    · exact bindBody_boundTo ht x hx
  | doWhile body condition line =>
    simp only [bindStatement, bind_eq_ok, Except.ok.injEq] at h
    obtain ⟨t, ht, c, _, rfl⟩ := h
    simp only [Statement.parts, List.mem_cons]
    rintro x (rfl | hx)
    · exact .of_none rfl rfl
    · exact bindBody_boundTo ht x hx
  | repeatLoop count body line =>
    simp only [bindStatement, bind_eq_ok, Except.ok.injEq] at h
    obtain ⟨t, ht, rfl⟩ := h
    simp only [Statement.parts, List.mem_cons]
    rintro x (rfl | hx)
    · exact ⟨by simp [Statement.called?], by simp [Statement.count?]⟩
    · exact bindBody_boundTo ht x hx

/-- Every part of a bound body is bound to the names that were given. -/
theorem bindBody_boundTo {body : List Statement} {b : List GridRobot.Statement}
    (h : bindBody names body = .ok b) : ∀ x ∈ bodyParts b, BoundTo names x := by
  cases body with
  | nil =>
    simp only [bindBody, Except.ok.injEq] at h
    subst h
    simp [bodyParts]
  | cons s rest =>
    simp only [bindBody, bind_eq_ok, Except.ok.injEq] at h
    obtain ⟨first, hfirst, others, hothers, rfl⟩ := h
    simp only [bodyParts, List.mem_append]
    rintro x (hx | hx)
    · exact bindStatement_boundTo hfirst x hx
    · exact bindBody_boundTo hothers x hx

end

/-! ### Procedures -/

/-- Names that pass the check differ from each other, from those seen before, and from the names of
predicates. -/
theorem checkDefinitions_ok {defs : List Definition} {u : PUnit}
    (h : checkDefinitions seen defs = .ok u) :
    (∀ d ∈ defs, Predicate.ofName? d.name = none ∧ d.name ∉ seen) ∧
      (defs.map (·.name)).Nodup := by
  induction defs generalizing seen with
  | nil => simp
  | cons d rest ih =>
    rw [checkDefinitions] at h
    by_cases hpred : (Predicate.ofName? d.name).isSome
    · simp [hpred] at h
    · by_cases hseen : seen.contains d.name
      · rw [if_neg hpred, if_pos hseen] at h
        cases h
      · rw [if_neg hpred, if_neg hseen] at h
        obtain ⟨hall, hnodup⟩ := ih h
        refine ⟨?_, ?_⟩
        · rintro x (_ | ⟨_, hx⟩)
          · exact ⟨by simpa using hpred, by simpa using hseen⟩
          · exact ⟨(hall x hx).1, fun hmem => (hall x hx).2 (by simp [hmem])⟩
        · rw [List.map_cons, List.nodup_cons]
          refine ⟨?_, hnodup⟩
          rw [List.mem_map]
          rintro ⟨x, hx, hname⟩
          exact (hall x hx).2 (by simp [hname])

theorem bindDefinitions_ok {defs : List Definition} {qs : List Procedure}
    (h : bindDefinitions names defs = .ok qs) :
    qs.map (·.name) = defs.map (·.name) ∧
      ∀ q ∈ qs, ∀ x ∈ bodyParts q.body, BoundTo names x := by
  induction defs generalizing qs with
  | nil =>
    simp only [bindDefinitions, Except.ok.injEq] at h
    simp [← h]
  | cons d rest ih =>
    simp only [bindDefinitions, bind_eq_ok, Except.ok.injEq] at h
    obtain ⟨body, hbody, others, hothers, rfl⟩ := h
    obtain ⟨hnames, hbound⟩ := ih hothers
    refine ⟨by simp [hnames], ?_⟩
    rintro q (_ | ⟨_, hq⟩)
    · exact bindBody_boundTo hbody
    · exact hbound q hq

/-- Statements outside of procedures come to one procedure, which has the name of the entry. -/
theorem bindLoose_ok {loose : List Statement} {qs : List Procedure}
    (h : bindLoose names loose = .ok qs) :
    qs.map (·.name) = (if loose = [] then [] else [implicitEntry]) ∧
      ∀ q ∈ qs, ∀ x ∈ bodyParts q.body, BoundTo names x := by
  cases loose with
  | nil =>
    simp only [bindLoose, Except.ok.injEq] at h
    simp [← h]
  | cons first rest =>
    simp only [bindLoose, bind_eq_ok, Except.ok.injEq] at h
    obtain ⟨body, hbody, rfl⟩ := h
    exact ⟨by simp, by simpa using bindBody_boundTo hbody⟩

/-- The entry is a defined procedure, or the one that the loose statements make. -/
theorem chooseEntry_ok {loose : List Statement} {entry : String}
    (h : chooseEntry names loose = .ok entry) :
    if loose = [] then entry ∈ names else entry = implicitEntry ∧ implicitEntry ∉ names := by
  cases loose with
  | nil =>
    rw [chooseEntry] at h
    cases hfind : entryNames.find? names.contains with
    | none =>
      rw [hfind] at h
      cases h
    | some name =>
      rw [hfind] at h
      cases h
      simpa using List.find?_some hfind
  | cons first rest =>
    rw [chooseEntry] at h
    by_cases hmain : names.contains implicitEntry
    · rw [if_pos hmain] at h
      cases h
    · rw [if_neg hmain, Except.ok.injEq] at h
      simpa [h.symm] using hmain

/-! ### Programs -/

/-- A table is in order when its names differ, none is a predicate's, and its bodies are bound to
them. -/
theorem closed_of_boundTo {procedures : List Procedure} {entry : String}
    (hnodup : (procedures.map (·.name)).Nodup)
    (hpred : ∀ q ∈ procedures, Predicate.ofName? q.name = none)
    (hentry : entry ∈ procedures.map (·.name))
    (hbound : ∀ q ∈ procedures, ∀ x ∈ bodyParts q.body,
      BoundTo (procedures.map (·.name)) x) :
    Program.Closed ⟨procedures, entry⟩ where
  linked :=
    ⟨Program.procedure?_isSome.2 hentry, fun q hq x hx name hname =>
      Program.procedure?_isSome.2 ((hbound q hq x hx).called name hname)⟩
  namesDiffer := hnodup
  ownName := fun _ _ => Program.procedure?_eq_some_iff hnodup
  noPredicate := hpred
  counts := fun q hq x hx => (hbound q hq x hx).count

/-- A bound text is a closed program. -/
theorem bind_closed {text : Listing} {p : Program} (h : bind text = .ok p) : p.Closed := by
  simp only [bind, bind_eq_ok, Except.ok.injEq] at h
  obtain ⟨_, hcheck, entry, hentry, defined, hdefined, implicit, himplicit, rfl⟩ := h
  obtain ⟨hpred, hnodup⟩ := checkDefinitions_ok hcheck
  obtain ⟨hnames, hbound⟩ := bindDefinitions_ok hdefined
  obtain ⟨hloose, hboundLoose⟩ := bindLoose_ok himplicit
  have hchosen := chooseEntry_ok hentry
  have htable : (defined ++ implicit).map (·.name) =
      text.definitions.map (·.name) ++ (if text.loose = [] then [] else [implicitEntry]) := by
    rw [List.map_append, hnames, hloose]
  have hpredNames : ∀ name ∈ (defined ++ implicit).map (·.name), Predicate.ofName? name = none := by
    intro name hname
    rw [htable, List.mem_append, List.mem_map] at hname
    rcases hname with ⟨d, hd, rfl⟩ | hname
    · exact (hpred d hd).1
    · by_cases hempty : text.loose = []
      · simp [hempty] at hname
      · obtain rfl : name = implicitEntry := by simpa [hempty] using hname
        decide
  have hmono : ∀ x, BoundTo (text.definitions.map (·.name)) x →
      BoundTo ((defined ++ implicit).map (·.name)) x := by
    intro x hx
    refine ⟨fun name hname => ?_, hx.count⟩
    rw [htable]
    exact List.mem_append_left _ (hx.called name hname)
  refine closed_of_boundTo ?_ (fun q hq => hpredNames _ (List.mem_map_of_mem hq)) ?_ ?_
  · rw [htable]
    by_cases hempty : text.loose = []
    · simpa [hempty] using hnodup
    · rw [if_neg hempty] at hchosen ⊢
      exact List.nodup_append.2 ⟨hnodup, by simp, fun a ha b hb hab => by
        obtain rfl : b = implicitEntry := by simpa using hb
        exact hchosen.2 (hab ▸ ha)⟩
  · rw [htable]
    by_cases hempty : text.loose = []
    · simpa [hempty] using hchosen
    · simp only [hempty, if_false] at hchosen ⊢
      simp [hchosen.1]
  · intro q hq x hx
    rcases List.mem_append.1 hq with hq | hq
    · exact hmono x (hbound q hq x hx)
    · exact hmono x (hboundLoose q hq x hx)

end GridRobot.Source

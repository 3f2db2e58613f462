import GridRobot.Proofs.Source.Naming
import Mathlib.Data.List.Forall2
import Mathlib.Data.List.Perm.Basic

/-!
# Texts that are bound

A text is well named when all names in it mean something, its procedures have names of their own,
and it has an entry. Binding accepts exactly these texts, whatever the order of their procedures.

## Main definitions

* `Listing.WellNamed` says that a text is well named.
* `Listing.Denotes` says which program a text means.
* `Listing.Parts` is what the parts of a text are bound to.

## Main statements

* `bind_isOk`: a text is bound exactly if it is well named.
* `bind_perm`: the order of the procedures makes no difference to what the names mean.
* `bind_resolves`: which texts are bound, and to what.
-/

namespace GridRobot.Source

/-! ### Well named texts -/

/-- Names of the procedures that a text defines. -/
def Listing.names (text : Listing) : List String :=
  text.definitions.map (·.name)

/-- The text has an entry: statements outside of procedures and no procedure `main` beside them, or
else a procedure with one of the two names of an entry. -/
def Listing.HasEntry (text : Listing) : Prop :=
  if text.loose = [] then "main" ∈ text.names ∨ "run" ∈ text.names else "main" ∉ text.names

/-- All names of a text mean something, and each procedure has a name of its own. -/
structure Listing.WellNamed (text : Listing) : Prop where
  noPredicate : ∀ d ∈ text.definitions, ∀ p : Predicate, p.name ≠ d.name
  namesDiffer : text.names.Nodup
  entry : text.HasEntry
  defined : ∀ d ∈ text.definitions, BodyWellNamed text.names d.body
  loose : BodyWellNamed text.names text.loose

/-! ### What is meant -/

/-- The procedure that a definition means. -/
structure Definition.Denotes (names : List String) (d : Definition) (q : Procedure) : Prop where
  name : q.name = d.name
  body : BodyDenotes names d.body q.body
  line : q.line = d.position.line

/-- The procedures that the statements outside of procedures mean: one, which begins on the line of
the first of them, or none if there are no such statements. -/
inductive LooseDenotes (names : List String) : List Statement → List Procedure → Prop where
  | none : LooseDenotes names [] []
  | main {first : Statement} {rest : List Statement} {body : List GridRobot.Statement}
      (h : BodyDenotes names (first :: rest) body) :
      LooseDenotes names (first :: rest) [⟨"main", body, first.line⟩]

/-- The program that a text means: a table with a procedure for each definition, in order, and after
them that of the other statements. It begins with `main` if that is in the table, and else with
`run`. -/
structure Listing.Denotes (text : Listing) (p : Program) : Prop where
  table : ∃ defined implicit, p.procedures = defined ++ implicit ∧
    List.Forall₂ (Definition.Denotes text.names) text.definitions defined ∧
    LooseDenotes text.names text.loose implicit
  entry : p.entry = if "main" ∈ p.procedures.map (·.name) then "main" else "run"
  entered : p.entry ∈ p.procedures.map (·.name)

variable {names names' : List String}

/-! ### Tables -/

/-- The procedure that a definition is bound to. -/
structure Definition.Binds (names : List String) (d : Definition) (q : Procedure) : Prop where
  name : q.name = d.name
  body : bindBody names d.body = .ok q.body
  line : q.line = d.position.line

theorem Definition.Binds.denotes {d : Definition} {q : Procedure} (h : d.Binds names q) :
    d.Denotes names q :=
  ⟨h.name, bindBody_denotes h.body, h.line⟩

theorem bindDefinitions_eq_ok {defs : List Definition} {qs : List Procedure} :
    bindDefinitions names defs = .ok qs ↔ List.Forall₂ (Definition.Binds names) defs qs := by
  induction defs generalizing qs with
  | nil => simp [bindDefinitions, eq_comm]
  | cons d rest ih =>
    simp only [bindDefinitions, bind_eq_ok, Except.ok.injEq, List.forall₂_cons_left_iff, ih]
    constructor
    · rintro ⟨body, hbody, others, hothers, rfl⟩
      exact ⟨_, _, ⟨rfl, hbody, rfl⟩, hothers, rfl⟩
    · rintro ⟨⟨name, body, line⟩, others, ⟨rfl, hbody, rfl⟩, hothers, rfl⟩
      exact ⟨body, hbody, others, hothers, rfl⟩

/-- In two rows that are related one by one, each on the right has one on the left. -/
theorem exists_of_mem_forall₂ {α β : Type} {R : α → β → Prop} {as : List α} {bs : List β}
    (h : List.Forall₂ R as bs) {b : β} (hb : b ∈ bs) : ∃ a ∈ as, R a b := by
  induction h with
  | nil => cases hb
  | cons hfirst _ ih =>
    rcases List.mem_cons.1 hb with rfl | hb
    · exact ⟨_, List.mem_cons_self, hfirst⟩
    · obtain ⟨a, ha, hrel⟩ := ih hb
      exact ⟨a, List.mem_cons_of_mem _ ha, hrel⟩

theorem bindDefinitions_isOk {defs : List Definition} :
    (∃ qs, bindDefinitions names defs = .ok qs) ↔ ∀ d ∈ defs, BodyWellNamed names d.body := by
  induction defs with
  | nil => simp [bindDefinitions]
  | cons d rest ih =>
    simp only [bindDefinitions, exists_bind_eq_ok, Except.ok.injEq, exists_eq', and_true,
      exists_and_right, bindBody_isOk, ih, List.forall_mem_cons]

theorem bindLoose_isOk {loose : List Statement} :
    (∃ qs, bindLoose names loose = .ok qs) ↔ BodyWellNamed names loose := by
  rw [← bindBody_isOk]
  cases loose with
  | nil => simp [bindLoose, bindBody]
  | cons first rest =>
    simp only [bindLoose, exists_bind_eq_ok, Except.ok.injEq, exists_eq', and_true]

theorem bindLoose_congr (hnames : ∀ name, name ∈ names ↔ name ∈ names') (loose : List Statement) :
    bindLoose names loose = bindLoose names' loose := by
  cases loose <;> simp only [bindLoose, bindBody_congr hnames]

theorem bindLoose_denotes {loose : List Statement} {qs : List Procedure}
    (h : bindLoose names loose = .ok qs) : LooseDenotes names loose qs := by
  cases loose with
  | nil =>
    cases h
    exact .none
  | cons first rest =>
    simp only [bindLoose, bind_eq_ok, Except.ok.injEq] at h
    obtain ⟨body, hbody, rfl⟩ := h
    exact .main (bindBody_denotes hbody)

theorem checkDefinitions_isOk {seen : List String} {defs : List Definition} :
    (∃ u, checkDefinitions seen defs = .ok u) ↔
      (∀ d ∈ defs, (∀ p : Predicate, p.name ≠ d.name) ∧ d.name ∉ seen) ∧
        (defs.map (·.name)).Nodup := by
  constructor
  · rintro ⟨u, hu⟩
    obtain ⟨hall, hnodup⟩ := checkDefinitions_ok hu
    exact ⟨fun d hd => ⟨predicate_ofName?_eq_none.1 (hall d hd).1, (hall d hd).2⟩, hnodup⟩
  · rintro ⟨hall, hnodup⟩
    induction defs generalizing seen with
    | nil => exact ⟨⟨⟩, rfl⟩
    | cons d rest ih =>
      obtain ⟨⟨hpred, hseen⟩, hrest⟩ := List.forall_mem_cons.1 hall
      obtain ⟨hfresh, hnodup⟩ := List.nodup_cons.1 hnodup
      simp only [checkDefinitions, predicate_ofName?_eq_none.2 hpred, List.contains_iff_mem, hseen,
        Option.isSome_none, Bool.false_eq_true, if_false]
      refine ih (fun x hx => ⟨(hrest x hx).1, ?_⟩) hnodup
      rw [List.mem_cons, not_or]
      exact ⟨fun hsame => hfresh (List.mem_map.2 ⟨x, hx, hsame⟩), (hrest x hx).2⟩

theorem chooseEntry_nil : chooseEntry names [] =
    if "main" ∈ names then .ok "main" else if "run" ∈ names then .ok "run"
    else .error ⟨.missingEntry, .nowhere⟩ := by
  by_cases hmain : "main" ∈ names <;> by_cases hrun : "run" ∈ names <;>
    simp [chooseEntry, entryNames, hmain, hrun]

theorem chooseEntry_cons {first : Statement} {rest : List Statement} :
    chooseEntry names (first :: rest) =
      if "main" ∈ names then .error ⟨.statementsBesideMain, first.place⟩ else .ok "main" := by
  simp [chooseEntry, implicitEntry]

theorem chooseEntry_congr (hnames : ∀ name, name ∈ names ↔ name ∈ names') (loose : List Statement) :
    chooseEntry names loose = chooseEntry names' loose := by
  cases loose <;> simp only [chooseEntry_nil, chooseEntry_cons, hnames]

theorem chooseEntry_isOk {text : Listing} :
    (∃ entry, chooseEntry text.names text.loose = .ok entry) ↔ text.HasEntry := by
  unfold Listing.HasEntry
  cases text.loose with
  | nil =>
    rw [chooseEntry_nil, if_pos rfl]
    by_cases hmain : "main" ∈ text.names <;> by_cases hrun : "run" ∈ text.names <;>
      simp [hmain, hrun]
  | cons first rest =>
    rw [chooseEntry_cons, if_neg (List.cons_ne_nil _ _)]
    by_cases hmain : "main" ∈ text.names <;> simp [hmain]

/-- The entry is `run` only if there is no `main`, and nothing outside of procedures. -/
theorem chooseEntry_eq {loose : List Statement} {entry : String}
    (h : chooseEntry names loose = .ok entry) :
    entry = if "main" ∈ names ∨ loose ≠ [] then "main" else "run" := by
  cases loose with
  | nil =>
    rw [chooseEntry_nil] at h
    split_ifs at h with hmain hrun
    · simpa [hmain] using h.symm
    · simpa [hmain] using h.symm
  | cons first rest =>
    rw [chooseEntry_cons] at h
    split_ifs at h with hmain
    simpa using h.symm

/-! ### Texts -/

theorem bind_isOk {text : Listing} : (∃ p, bind text = .ok p) ↔ text.WellNamed := by
  simp only [bind, exists_bind_eq_ok, Except.ok.injEq, exists_eq', and_true, exists_and_right,
    checkDefinitions_isOk, bindDefinitions_isOk, bindLoose_isOk]
  rw [show text.definitions.map (·.name) = text.names from rfl, chooseEntry_isOk]
  constructor
  · rintro ⟨⟨hall, hnodup⟩, hentry, hdefined, hloose⟩
    exact ⟨fun d hd => (hall d hd).1, hnodup, hentry, hdefined, hloose⟩
  · rintro ⟨hall, hnodup, hentry, hdefined, hloose⟩
    exact ⟨⟨fun d hd => ⟨hall d hd, by simp⟩, hnodup⟩, hentry, hdefined, hloose⟩

/-- What the parts of a text are bound to, when all of it is bound. -/
structure Listing.Parts (text : Listing) (p : Program) (defined implicit : List Procedure) :
    Prop where
  noPredicate : ∀ d ∈ text.definitions, ∀ q : Predicate, q.name ≠ d.name
  namesDiffer : text.names.Nodup
  table : p.procedures = defined ++ implicit
  defined : bindDefinitions text.names text.definitions = .ok defined
  implicit : bindLoose text.names text.loose = .ok implicit
  entry : chooseEntry text.names text.loose = .ok p.entry

variable {text : Listing} {p : Program}

theorem bind_eq_ok_iff_parts :
    bind text = .ok p ↔ ∃ defined implicit, text.Parts p defined implicit := by
  simp only [bind, bind_eq_ok, Except.ok.injEq]
  constructor
  · rintro ⟨u, hcheck, entry, hentry, defined, hdefined, implicit, himplicit, rfl⟩
    obtain ⟨hall, hnodup⟩ := checkDefinitions_isOk.1 ⟨u, hcheck⟩
    exact ⟨defined, implicit, fun d hd => (hall d hd).1, hnodup, rfl, hdefined, himplicit, hentry⟩
  · rintro ⟨defined, implicit, hpred, hnodup, htable, hdefined, himplicit, hentry⟩
    obtain ⟨u, hcheck⟩ : ∃ u, checkDefinitions [] text.definitions = .ok u :=
      checkDefinitions_isOk.2 ⟨fun d hd => ⟨hpred d hd, List.not_mem_nil⟩, hnodup⟩
    exact ⟨u, hcheck, _, hentry, _, hdefined, _, himplicit, by rw [← htable]⟩

namespace Listing.Parts

variable {defined implicit : List Procedure}

theorem mem_names (h : text.Parts p defined implicit) :
    "main" ∈ p.procedures.map (·.name) ↔ "main" ∈ text.names ∨ text.loose ≠ [] := by
  have hnames : p.procedures.map (·.name) =
      text.names ++ if text.loose = [] then [] else ["main"] := by
    rw [h.table, List.map_append, (bindDefinitions_ok h.defined).1, (bindLoose_ok h.implicit).1]
    rfl
  rw [hnames, List.mem_append]
  split_ifs with hloose <;> simp [hloose]

/-- Every body of the table is made of a body of the text. -/
theorem exists_body (h : text.Parts p defined implicit) {q : Procedure} (hq : q ∈ p.procedures) :
    ∃ body, bindBody text.names body = .ok q.body := by
  rw [h.table, List.mem_append] at hq
  rcases hq with hq | hq
  · obtain ⟨d, -, hbinds⟩ := exists_of_mem_forall₂ (bindDefinitions_eq_ok.1 h.defined) hq
    exact ⟨d.body, hbinds.body⟩
  · have himplicit := h.implicit
    cases hloose : text.loose with
    | nil =>
      rw [hloose] at himplicit
      cases himplicit
      cases hq
    | cons first rest =>
      rw [hloose] at himplicit
      simp only [bindLoose, bind_eq_ok, Except.ok.injEq] at himplicit
      obtain ⟨body, hbody, rfl⟩ := himplicit
      obtain rfl := List.mem_singleton.1 hq
      exact ⟨_, hbody⟩

end Listing.Parts

/-- A text is bound to what it means. -/
theorem bind_denotes (h : bind text = .ok p) : text.Denotes p := by
  obtain ⟨defined, implicit, hparts⟩ := bind_eq_ok_iff_parts.1 h
  refine ⟨⟨defined, implicit, hparts.table, ?_, bindLoose_denotes hparts.implicit⟩, ?_, ?_⟩
  · exact (bindDefinitions_eq_ok.1 hparts.defined).imp fun _ _ hbinds => hbinds.denotes
  · simp only [chooseEntry_eq hparts.entry, hparts.mem_names]
  · exact Program.procedure?_isSome.1 (bind_closed h).linked.entry

/-- A text whose procedures are defined in another order is bound to the same procedures, in that
order. -/
theorem bind_perm (h : bind text = .ok p) {definitions : List Definition}
    (hperm : definitions.Perm text.definitions) :
    ∃ q, bind ⟨definitions, text.loose⟩ = .ok q ∧ q.procedures.Perm p.procedures ∧
      q.entry = p.entry := by
  obtain ⟨defined, implicit, hparts⟩ := bind_eq_ok_iff_parts.1 h
  let other : Listing := ⟨definitions, text.loose⟩
  have hnames : other.names.Perm text.names := hperm.map _
  have hmem (name : String) : name ∈ text.names ↔ name ∈ other.names := hnames.mem_iff.symm
  obtain ⟨defined', hdefined', hsame⟩ :=
    List.perm_comp_forall₂ hperm (bindDefinitions_eq_ok.1 hparts.defined)
  refine ⟨⟨defined' ++ implicit, p.entry⟩, ?_, ?_, rfl⟩
  · refine bind_eq_ok_iff_parts.2 ⟨defined', implicit,
      fun d hd => hparts.noPredicate d (hperm.mem_iff.1 hd), hnames.nodup_iff.2 hparts.namesDiffer,
      rfl, ?_, ?_, ?_⟩
    · refine bindDefinitions_eq_ok.2 (hdefined'.imp fun d q hbinds => ?_)
      exact ⟨hbinds.name, by rw [← bindBody_congr hmem, hbinds.body], hbinds.line⟩
    · rw [← bindLoose_congr hmem, hparts.implicit]
    · rw [← chooseEntry_congr hmem, hparts.entry]
  · rw [hparts.table]
    exact hsame.append_right _

/-- A text is bound exactly if it is well named, and then to what it means. No action that has the
name of a procedure is in it, and no call of the procedure that the other statements mean. If the
procedures are defined in another order, the names mean the same. -/
theorem bind_resolves (text : Listing) :
    ((∃ p, bind text = .ok p) ↔ text.WellNamed) ∧
      ∀ p, bind text = .ok p →
        text.Denotes p ∧
        (∀ q ∈ p.procedures, ∀ s ∈ bodyParts q.body,
          (∀ a line, s = .action a line → a.name ∉ text.names) ∧
          (text.loose ≠ [] → s.called? ≠ some "main")) ∧
        ∀ definitions, definitions.Perm text.definitions →
          ∃ q, bind ⟨definitions, text.loose⟩ = .ok q ∧ q.procedures.Perm p.procedures ∧
            q.entry = p.entry := by
  refine ⟨bind_isOk, fun p h => ⟨bind_denotes h, fun q hq s hs => ?_, fun _ => bind_perm h⟩⟩
  obtain ⟨_, _, hparts⟩ := bind_eq_ok_iff_parts.1 h
  obtain ⟨body, hbody⟩ := hparts.exists_body hq
  refine ⟨(bindBody_denotes hbody).not_shadowed s hs, fun hloose hmain => ?_⟩
  have hfree := (bind_isOk.1 ⟨p, h⟩).entry
  rw [Listing.HasEntry, if_neg hloose] at hfree
  exact hfree ((bindBody_boundTo hbody s hs).called _ hmain)

/-- A text of two procedures: the first calls the second, which has the name of an action. -/
def veiled : Listing :=
  ⟨[⟨"run", [.call ⟨"move", 0, ⟨1, 14⟩⟩], ⟨1, 6⟩⟩,
    ⟨"move", [.call ⟨"turnLeft", 0, ⟨2, 15⟩⟩], ⟨2, 6⟩⟩], []⟩

/-- What the text is bound to. -/
def veiledProgram : Program :=
  ⟨[⟨"run", [.call "move" 1], 1⟩, ⟨"move", [.action .turnLeft 2], 2⟩], "run"⟩

theorem bind_veiled : bind veiled = .ok veiledProgram := by rfl

/-- The name `move` means the procedure, also when that is defined first. -/
theorem bind_resolves_veiled :
    bind veiled = .ok veiledProgram ∧ veiled.WellNamed ∧ veiled.Denotes veiledProgram ∧
      veiled.definitions.reverse.Perm veiled.definitions ∧
      ∃ q, bind ⟨veiled.definitions.reverse, veiled.loose⟩ = .ok q ∧
        q.procedures.Perm veiledProgram.procedures ∧ q.entry = "run" := by
  obtain ⟨hnamed, hmeans⟩ := bind_resolves veiled
  obtain ⟨hdenotes, -, hreordered⟩ := hmeans _ bind_veiled
  have hperm := List.reverse_perm veiled.definitions
  exact ⟨bind_veiled, hnamed.1 ⟨_, bind_veiled⟩, hdenotes, hperm, hreordered _ hperm⟩

end GridRobot.Source

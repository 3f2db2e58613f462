import GridRobot.Proofs.Run.Frames
import GridRobot.Proofs.Run.Relined
import GridRobot.Proofs.Run.Turns
import GridRobot.Proofs.Source.Origin

/-!
# A fault points at the statement that failed

When a run fails at an action or at a call, the line of its fault is that of the statement that it
has just taken up. Everything on the stack of a run is part of a procedure of the program, and each
action and each call of a compiled program was read from a token that holds its name. So the line of
the fault is the line of such a token.

Which token of the line it is, the line does not tell. Therefore the run is compared with that of the
numbered tokens: it is the same run, and there the line of a fault is the number of the token.

## Main definitions

* `FaultKind.MetBy` says which names lead to a fault of a kind.
* `Run.EndsWith` says which statement a step has taken up when it ends.

## Main statements

* `Stacked.exists_of_part`: everything on a stack is part of a procedure that is called.
* `Run.Ordered.exists_of_fault`: which statement has met a fault.
* `Run.compiled_fault`: the line of a fault, and the token behind it.
-/

namespace GridRobot

/-- A fault of the kind is met at a statement with the name: that of the one action that may fail in
this way, or that of a procedure. -/
inductive FaultKind.MetBy (procedures : List String) : FaultKind → String → Prop where
  | move : MetBy procedures .blockedByWall "move"
  | pickBeeper : MetBy procedures .noBeeperToPickUp "pickBeeper"
  | putBeeper : MetBy procedures .noBeeperToPutDown "putBeeper"
  | procedure {name : String} (h : name ∈ procedures) : MetBy procedures .stackOverflow name

/-- Some turns lead to the statement, it is taken up, and with that the step ends. -/
inductive Run.EndsWith (limits : Limits) (r : Run) (w : World) (s : Statement) : Prop where
  | mk {k left : Nat} {top : Frame} {below stack' : List Frame} {rest : List Statement}
      {result : Except MissingProcedure StepResult} {after : World}
      (hfree : k + (left + 1) = limits.freeTurns)
      (hturns : Turns limits r.program w k r.stack (top :: below)) (hrest : top.rest = s :: rest)
      (hhalt : Halt limits r.program w (left + 1) (top :: below) result stack' after)

variable {limits : Limits} {p : Program} {entry : Procedure} {w : World} {s : Statement} {f : Frame}
  {stack : List Frame}

/-! ### What is on a stack -/

theorem Statement.mem_parts_self (s : Statement) : s ∈ s.parts := by
  cases s <;> simp [parts]

theorem mem_bodyParts_of_mem {body : List Statement} (hs : s ∈ body) {x : Statement}
    (hx : x ∈ s.parts) : x ∈ bodyParts body := by
  induction body with
  | nil => cases hs
  | cons t rest ih =>
    rw [bodyParts, List.mem_append]
    rcases List.mem_cons.1 hs with rfl | hs
    · exact .inl hx
    · exact .inr (ih hs)

/-- What is in a frame is in the statement that opened it, or else in the procedure that this calls. -/
theorem Opens.mem_parts (h : Opens p s f) {x : Statement} (hx : x ∈ bodyParts f.body) :
    x ∈ s.parts ∨ ∃ name q, s.called? = some name ∧ p.procedure? name = some q ∧
      x ∈ bodyParts q.body := by
  cases h with
  | call hq => exact .inr ⟨_, _, rfl, hq, hx⟩
  | thenBody _ => exact .inl (by simp [Statement.parts, hx])
  | elseBody _ => exact .inl (by simp [Statement.parts, hx])
  | whileLoop => exact .inl (by simp [Statement.parts, hx])
  | doWhile => exact .inl (by simp [Statement.parts, hx])
  | repeatLoop _ _ _ => exact .inl (by simp [Statement.parts, hx])

/-- Everything on a stack is part of a procedure that calls lead to from the entry. -/
theorem Stacked.exists_of_part {P : Procedure → Prop} (h : Stacked p entry stack) (hentry : P entry)
    (hcalled : ∀ q, P q → ∀ s ∈ bodyParts q.body, ∀ name ∈ s.called?, ∀ q',
      p.procedure? name = some q' → P q') :
    ∀ f ∈ stack, ∀ x ∈ bodyParts f.body, ∃ q, P q ∧ x ∈ bodyParts q.body := by
  induction h with
  | nil => exact nofun
  | entry _ hbody _ =>
    intro f hf x hx
    rw [List.mem_singleton.1 hf, hbody] at hx
    exact ⟨entry, hentry, hx⟩
  | above _ hopen _ ih =>
    intro f hf x hx
    rcases List.mem_cons.1 hf with rfl | hbelow
    · obtain ⟨s, hs, hopens⟩ := hopen
      have hpart {y : Statement} (hy : y ∈ s.parts) :=
        ih _ List.mem_cons_self y (mem_bodyParts_of_mem (Frame.mem_body_of_latest? hs) hy)
      obtain hinside | ⟨name, q', hname, hq', hx'⟩ := hopens.mem_parts hx
      · exact hpart hinside
      · obtain ⟨q, hq, hmem⟩ := hpart s.mem_parts_self
        exact ⟨q', hcalled q hq s hmem name hname q' hq', hx'⟩
    · exact ih f hbelow x hx

theorem Stacked.mem_parts (h : Stacked p entry stack) (hentry : entry ∈ p.procedures) :
    ∀ f ∈ stack, ∀ x ∈ bodyParts f.body, ∃ q ∈ p.procedures, x ∈ bodyParts q.body :=
  h.exists_of_part hentry fun _ _ _ _ _ _ _ hq => Program.procedure?_mem hq

theorem World.metBy_of_error {a : Action} {kind : FaultKind} (h : w.perform a = .error kind)
    (procedures : List String) : kind.MetBy procedures a.name := by
  obtain ⟨rfl, rfl⟩ | ⟨rfl, rfl⟩ | ⟨rfl, rfl⟩ := World.perform_eq_error h
  · exact .move
  · exact .putBeeper
  · exact .pickBeeper

namespace Run

/-! ### The statement that fails -/

variable {r : Run}

/-- A statement that meets a fault of a kind: an action that fails in this way, or a call. -/
inductive Meets (p : Program) (kind : FaultKind) : Statement → Prop where
  | action {a : Action} {line : Int} (h : kind.MetBy (p.procedures.map (·.name)) a.name) :
      Meets p kind (.action a line)
  | call {name : String} {line : Int} (h : kind.MetBy (p.procedures.map (·.name)) name) :
      Meets p kind (.call name line)

/-- Unless a step is given up, its fault is met at the statement that it has taken up, which is part
of a procedure, and the line of the fault is the line of that statement. -/
theorem Ordered.exists_of_fault (h : r.Ordered entry limits) {kind : FaultKind} {line : Option Int}
    (hfault : (r.step limits w).result = .ok (.faulted kind line)) (hprogress : kind ≠ .noProgress)
    (htimely : kind ≠ .alreadyTerminated) :
    ∃ s, r.EndsWith limits w s ∧ line = some s.line ∧ Meets r.program kind s ∧
      ∃ q ∈ r.program.procedures, s ∈ bodyParts q.body := by
  have hrun : r.status = .running := by
    by_contra hended
    rw [step_of_ended limits w hended] at hfault
    cases hfault
    exact htimely rfl
  obtain ⟨k, left, mid, result, stack', after, hfree, hturns, hhalt, hout⟩ :=
    step_turns limits w hrun
  rw [hout] at hfault
  obtain rfl : result = .ok (.faulted kind line) := hfault
  have hmid : Bounded limits r.program entry mid := hturns.preserves Turn.bounded h.bounded
  -- the frame on top holds the statement, and what it holds is part of a procedure
  have hpart {top : Frame} {below : List Frame} {s : Statement} {rest : List Statement}
      (hstack : mid = top :: below) (hrest : top.rest = s :: rest) :
      ∃ q ∈ r.program.procedures, s ∈ bodyParts q.body := by
    have htop : top ∈ mid := hstack ▸ List.mem_cons_self
    have hbody := mem_bodyParts_of_mem (hmid.stacked.mem_body htop hrest) s.mem_parts_self
    exact hmid.stacked.mem_parts h.entry_mem top htop s hbody
  cases hhalt with
  | failed hrest ha =>
    exact ⟨_, ⟨hfree, hturns, hrest, .failed hrest ha⟩, rfl, .action (World.metBy_of_error ha _),
      hpart rfl hrest⟩
  | @overflow left top below name line rest hrest hfull =>
    have hlinked : StackLinked r.program (top :: below) :=
      hturns.preserves (Turn.stackLinked h.linked.program) h.linked.stack
    have hname := Program.procedure?_isSome.1 (hlinked.topRest hrest).call
    exact ⟨_, ⟨hfree, hturns, hrest, .overflow hrest hfull⟩, rfl, .call (.procedure hname),
      hpart rfl hrest⟩
  | stalled => exact absurd rfl hprogress

/-! ### The token behind a fault -/

open Source

theorem Meets.nesting_eq_zero {kind : FaultKind} (h : Meets p kind s) : s.nesting = 0 := by
  cases h with
  | action _ => rfl
  | call _ => rfl

/-- A call that means the statement has the name that leads to the fault, on the same line. -/
theorem Meets.of_denotes {kind : FaultKind} (h : Meets p kind s) {names : List String}
    {c : Source.Call} (hdenotes : Source.Statement.Denotes names (.call c) s) :
    kind.MetBy (p.procedures.map (·.name)) c.name ∧ s.line = c.position.line := by
  cases hdenotes with
  | procedure _ =>
    cases h with
    | call hmet => exact ⟨hmet, rfl⟩
  | action _ hname =>
    cases h with
    | action hmet => exact ⟨hname ▸ hmet, rfl⟩

/-- The fault of a run of a compiled program points at the statement that failed. The program is that
of the numbered tokens of its text, with the lines of these, and so is every step of a run. Where a
step fails at an action or for want of room for a call, the fault of the numbered run has the number
of a token; this token stands on the line of the fault and holds the name of the action, or of a
procedure of the program; and from it that statement was read with which the step ends. -/
theorem compiled_fault {limit : Int} {source : String}
    (hcompile : Source.compile limit source = .ok p) :
    ∃ text listing q r r', tokenize source = .ok text ∧
      parse limit.toNat text.numbered = .ok listing ∧ Source.bind listing = .ok q ∧
      p = q.relined text.lineOf ∧ Run.start? p = some r ∧ Run.start? q = some r' ∧
      ∀ limits : Limits, 1 ≤ limits.callDepth → ∀ (w : World) (n : Nat),
        r.stepAfter limits w n = (r'.stepAfter limits w n).relined text.lineOf ∧
        ∀ kind line, (r.stepAfter limits w n).result = .ok (.faulted kind line) →
          kind ≠ .noProgress → kind ≠ .alreadyTerminated →
            ∃ (i : Nat) (t : Token) (c : Source.Call) (s : Statement),
              (r'.stepAfter limits w n).result = .ok (.faulted kind (some i)) ∧
              (r'.after limits w n).1.EndsWith limits (r'.after limits w n).2 s ∧
              Source.Statement.Denotes listing.names (.call c) s ∧ c ∈ listing.calls ∧
              c.NamedAt text i t ∧ line = some (t.position.line : Int) ∧
              kind.MetBy (p.procedures.map (·.name)) c.name := by
  obtain ⟨text, listing, q, htext, hparse, hbind, rfl⟩ := compile_numbered hcompile
  obtain ⟨n₀, hlisting, -⟩ := listingText_of_ok hparse
  obtain ⟨r', entry, hstart, -, rfl, hordered⟩ := start?_ordered (bind_closed hbind).linked
  have hstart' : Run.start? (r'.program.relined text.lineOf) = some (r'.relined text.lineOf) := by
    rw [start?_relined, hstart, Option.map_some]
  refine ⟨text, listing, r'.program, _, r', htext, hparse, hbind, rfl, hstart', hstart, ?_⟩
  intro limits hlimits w n
  have hsame : (r'.relined text.lineOf).stepAfter limits w n =
      (r'.stepAfter limits w n).relined text.lineOf := stepAfter_relined limits r' w n
  refine ⟨hsame, fun kind line hfault hprogress htimely => ?_⟩
  rw [hsame] at hfault
  obtain ⟨line', hfault', rfl⟩ := Stepped.fault_of_relined hfault
  have hreach := reaches_after r' limits w n
  obtain ⟨s, hends, rfl, hmeets, proc, hproc, hpart⟩ :=
    ((hordered limits hlimits).reaches hreach).exists_of_fault hfault' hprogress htimely
  rw [hreach.program_eq] at hmeets hproc
  obtain ⟨c, hc, hdenotes⟩ :=
    (bind_denotes hbind).exists_call hproc hpart hmeets.nesting_eq_zero
  obtain ⟨hmet, hline⟩ := hmeets.of_denotes hdenotes
  obtain ⟨i, t, hnamed⟩ := (hlisting.readIn c hc).namedAt
  rw [hline, hnamed.number] at hfault' ⊢
  rw [Program.names_relined, Option.map_some, TokenList.lineOf_token hnamed.token]
  exact ⟨i, t, c, s, hfault', hends, hdenotes, hc, hnamed, rfl, hmet⟩

/-- A text with the name of an action on each of its two lines. -/
def bumpText : String :=
  "turnLeft();\nmove();"

/-- The program of that text. -/
def bump : Program :=
  ⟨[⟨"main", [.action .turnLeft 1, .action .move 2], 1⟩], "main"⟩

/-- A world of one cell. -/
def closet : World :=
  ⟨1, 1, .home, [], [], none⟩

theorem compiled_fault_bump :
    Source.compile 1 bumpText = .ok bump ∧ ∃ r, Run.start? bump = some r ∧
      (r.stepAfter ⟨1, 1⟩ closet 1).result = .ok (.faulted .blockedByWall (some 2)) ∧
      ∃ text i t c, tokenize bumpText = .ok text ∧ Source.Call.NamedAt text i t c ∧
        (2 : Int) = t.position.line ∧ FaultKind.blockedByWall.MetBy ["main"] c.name := by
  have hcompile : Source.compile 1 bumpText = .ok bump := by cbv
  obtain ⟨text, listing, q, r, r', htext, -, -, -, hstart, -, h⟩ := compiled_fault hcompile
  obtain rfl := Option.some.inj hstart
  obtain ⟨-, hblame⟩ := h ⟨1, 1⟩ (Nat.le_refl 1) closet 1
  obtain ⟨i, t, c, -, -, -, -, -, hnamed, hline, hmet⟩ :=
    hblame .blockedByWall (some 2) rfl (by decide) (by decide)
  exact ⟨hcompile, _, rfl, rfl, text, i, t, c, htext, hnamed, Option.some.inj hline, hmet⟩

end Run

end GridRobot

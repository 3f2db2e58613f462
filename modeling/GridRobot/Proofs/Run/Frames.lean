import GridRobot.Proofs.Program.Nesting
import GridRobot.Proofs.Run.Compiled
import GridRobot.Proofs.Run.Outcome
import GridRobot.Proofs.Source.Nesting

/-!
# The frames of a run

The stack of a run grows from the body of the entry. Every other frame was opened by a statement of
the frame below it, the last one that was taken up there. So the stack can be read in the text of
the program, and is no higher than its calls and its nesting allow.

## Main definitions

* `Opens` says that a statement opens a frame, and `Frame.StandsOn` that the last statement of the
  frame below did.
* `Stacked` says so of a whole stack.
* `Run.Framed` is what is true of a run and its stack at all times.
* `Run.Reaches` says that steps lead from one run to another.

## Main statements

* `Turn.stacked`: a turn keeps a stack in order.
* `Stacked.length_le`: how many frames there are for the calls that have not returned.
* `Run.compiled_framed`: whatever a run of a compiled program reaches is framed.
-/

namespace GridRobot

/-- The statement opens the frame. What is left of the body does not matter; a counted loop has a
body, and at least one and at most all of its passes left. -/
inductive Opens (p : Program) : Statement → Frame → Prop where
  | call {name : String} {line : Int} {q : Procedure} {rest : List Statement}
      (hq : p.procedure? name = some q) : Opens p (.call name line) ⟨.procedure, q.body, rest⟩
  | thenBody {c : Condition} {t e rest : List Statement} {line : Int} (ht : t ≠ []) :
      Opens p (.ifElse c t e line) ⟨.block, t, rest⟩
  | elseBody {c : Condition} {t e rest : List Statement} {line : Int} (he : e ≠ []) :
      Opens p (.ifElse c t e line) ⟨.block, e, rest⟩
  | whileLoop {c : Condition} {body rest : List Statement} {line : Int} :
      Opens p (.whileLoop c body line) ⟨.whileLoop c, body, rest⟩
  | doWhile {c : Condition} {body rest : List Statement} {line : Int} :
      Opens p (.doWhile body c line) ⟨.doWhile c, body, rest⟩
  | repeatLoop {n : Int} {left : Nat} {body rest : List Statement} {line : Int}
      (hbody : body ≠ []) (hpos : 1 ≤ left) (hle : (left : Int) ≤ n) :
      Opens p (.repeatLoop n body line) ⟨.repeatLoop left, body, rest⟩

/-- The statement just before the place that a frame has come to, if it has taken one up. -/
def Frame.latest? (f : Frame) : Option Statement :=
  if f.index = 0 then none else f.body[f.index - 1]?

/-- The latest statement of the frame below opened the frame. -/
def Frame.StandsOn (p : Program) (f below : Frame) : Prop :=
  ∃ s ∈ below.latest?, Opens p s f

/-- A stack in order: at the bottom the body of the entry, each frame on the one that opened it, and
in each of them the end of its body still to come. -/
inductive Stacked (p : Program) (entry : Procedure) : List Frame → Prop where
  | nil : Stacked p entry []
  | entry {f : Frame} (hkind : f.kind = .procedure) (hbody : f.body = entry.body)
      (hrest : f.rest <:+ f.body) : Stacked p entry [f]
  | above {f g : Frame} {below : List Frame} (hrest : f.rest <:+ f.body) (hopen : f.StandsOn p g)
      (hbelow : Stacked p entry (g :: below)) : Stacked p entry (f :: g :: below)

variable {limits : Limits} {p : Program} {entry : Procedure} {w : World}

/-! ### Single frames -/

section

variable {f next : Frame} {s : Statement} {rest : List Statement}

theorem Frame.drop_index (h : f.rest <:+ f.body) : f.body.drop f.index = f.rest :=
  (List.suffix_iff_eq_drop.1 h).symm

theorem Frame.latest?_over (h : s :: rest <:+ f.body) :
    Frame.latest? { f with rest := rest } = some s := by
  obtain ⟨done, hdone⟩ := h
  have hindex : Frame.index { f with rest := rest } = done.length + 1 := by
    simp only [Frame.index, ← hdone, List.length_append, List.length_cons]
    omega
  rw [Frame.latest?, hindex, if_neg (by omega)]
  simp [← hdone]

theorem Frame.mem_body_of_latest? (h : s ∈ f.latest?) : s ∈ f.body := by
  unfold Frame.latest? at h
  split at h
  · cases h
  · exact List.mem_of_getElem? h

theorem Opens.over (h : Opens p s f) (rest : List Statement) :
    Opens p s { f with rest := rest } := by
  cases h with
  | call hq => exact .call hq
  | thenBody ht => exact .thenBody ht
  | elseBody he => exact .elseBody he
  | whileLoop => exact .whileLoop
  | doWhile => exact .doWhile
  | repeatLoop hbody hpos hle => exact .repeatLoop hbody hpos hle

/-- A loop that begins its body once more is still the one that was opened. -/
theorem Opens.again (h : Opens p s f) (hend : f.atEnd w = some next) : Opens p s next := by
  obtain ⟨c, _, _, rfl⟩ | ⟨n, hkind, hmore, rfl⟩ := Frame.atEnd_cases hend
  · exact h.over f.body
  · cases h with
    | repeatLoop hbody hpos hle =>
      cases hkind
      exact .repeatLoop hbody (by omega) (by omega)
    | _ => cases hkind

theorem Frame.isCall_of_again (hend : f.atEnd w = some next) :
    f.isCall = false ∧ next.isCall = false := by
  obtain ⟨c, hkind | hkind, _, rfl⟩ | ⟨n, hkind, _, rfl⟩ := Frame.atEnd_cases hend
  · simp [Frame.isCall, hkind]
  · simp [Frame.isCall, hkind]
  · simp [Frame.isCall, hkind]

/-- Only a call opens a frame whose body is not inside of the statement. -/
theorem Opens.nesting_lt (h : Opens p s f) (hcall : f.isCall = false) :
    bodyNesting f.body < s.nesting := by
  cases h with
  | call hq => cases hcall
  | thenBody ht => exact Nat.lt_succ_of_le (Nat.le_max_left _ _)
  | elseBody he => exact Nat.lt_succ_of_le (Nat.le_max_right _ _)
  | whileLoop => exact Nat.lt_succ_self _
  | doWhile => exact Nat.lt_succ_self _
  | repeatLoop hbody hpos hle => exact Nat.lt_succ_self _

theorem Opens.body_mem (h : Opens p s f) (hcall : f.isCall = true) :
    ∃ q ∈ p.procedures, f.body = q.body := by
  cases h with
  | call hq => exact ⟨_, Program.procedure?_mem hq, rfl⟩
  | _ => cases hcall

end

/-! ### Stacks -/

namespace Stacked

variable {f next : Frame} {below : List Frame} {s : Statement} {rest : List Statement}

theorem tail (h : Stacked p entry (f :: below)) : Stacked p entry below := by
  cases h with
  | entry => exact .nil
  | above _ _ hbelow => exact hbelow

theorem rest_suffix {stack : List Frame} (h : Stacked p entry stack) :
    ∀ f ∈ stack, f.rest <:+ f.body := by
  induction h with
  | nil => exact nofun
  | entry _ _ hrest =>
    rintro f hf
    rwa [List.mem_singleton.1 hf]
  | above hrest _ _ ih =>
    rintro f hf
    rcases List.mem_cons.1 hf with rfl | hbelow
    · exact hrest
    · exact ih f hbelow

theorem rest_suffix_of_cons {stack : List Frame} (h : Stacked p entry stack) (hf : f ∈ stack)
    (hrest : f.rest = s :: rest) : s :: rest <:+ f.body := by
  rw [← hrest]
  exact h.rest_suffix f hf

/-- The next statement of a frame is in its body. -/
theorem mem_body {stack : List Frame} (h : Stacked p entry stack) (hf : f ∈ stack)
    (hrest : f.rest = s :: rest) : s ∈ f.body :=
  (h.rest_suffix_of_cons hf hrest).subset List.mem_cons_self

/-- The frame on top may be replaced by one of the same body that the same statements open. -/
theorem replace (h : Stacked p entry (f :: below))
    (hkind : f.kind = .procedure → next.kind = .procedure) (hbody : next.body = f.body)
    (hrest : next.rest <:+ next.body) (hopens : ∀ s, Opens p s f → Opens p s next) :
    Stacked p entry (next :: below) := by
  cases h with
  | entry hproc hentry _ => exact .entry (hkind hproc) (hbody.trans hentry) hrest
  | above _ hopen hbelow =>
    obtain ⟨s, hs, hsopens⟩ := hopen
    exact .above hrest ⟨s, hs, hopens s hsopens⟩ hbelow

theorem overTop (h : Stacked p entry (f :: below)) (hrest : f.rest = s :: rest) :
    Stacked p entry (f.over rest below) := by
  have hsuffix := h.rest_suffix_of_cons List.mem_cons_self hrest
  exact h.replace id rfl ((List.suffix_cons s rest).trans hsuffix) fun _ hopens => hopens.over rest

/-- A frame may be put on the statement that opens it. -/
theorem push {enter : Bool} {kind : FrameKind} {body : List Statement}
    (h : Stacked p entry (f :: below)) (hrest : f.rest = s :: rest)
    (hopens : enter = true → Opens p s (.enter kind body)) :
    Stacked p entry (Run.push enter kind body (f.over rest below)) := by
  cases enter with
  | false => exact h.overTop hrest
  | true =>
    have hsuffix := h.rest_suffix_of_cons List.mem_cons_self hrest
    have hon : (Frame.enter kind body).StandsOn p { f with rest := rest } :=
      ⟨s, Frame.latest?_over hsuffix, hopens rfl⟩
    exact .above List.suffix_rfl hon (h.overTop hrest)

/-- A loop that comes round was opened by a statement of a body below it. -/
theorem exists_of_again (h : Stacked p entry (f :: below)) (hend : f.atEnd w = some next) :
    ∃ g ∈ below, ∃ s ∈ g.body, Opens p s f := by
  cases h with
  | entry hkind _ _ => simp [Frame.atEnd, hkind] at hend
  | above _ hopen _ =>
    obtain ⟨s, hs, hopens⟩ := hopen
    exact ⟨_, List.mem_cons_self, s, Frame.mem_body_of_latest? hs, hopens⟩

theorem getLast?_eq (h : Stacked p entry (f :: below)) :
    ∃ bottom, (f :: below).getLast? = some bottom ∧
      bottom.kind = .procedure ∧ bottom.body = entry.body := by
  generalize hstack : f :: below = stack at h
  induction h generalizing f below with
  | nil => cases hstack
  | entry hkind hbody _ => exact ⟨_, rfl, hkind, hbody⟩
  | above _ _ _ ih =>
    obtain ⟨bottom, hlast, hbottom⟩ := ih rfl
    exact ⟨bottom, by rw [List.getLast?_cons_cons, hlast], hbottom⟩

theorem isChain {stack : List Frame} (h : Stacked p entry stack) :
    stack.IsChain (Frame.StandsOn p) := by
  induction h with
  | nil => exact .nil
  | entry => exact .singleton _
  | above _ hopen _ ih => exact .cons_cons hopen ih

/-- A loop that is counted stands on its statement. -/
theorem counted {stack : List Frame} (h : Stacked p entry stack) {left : Nat} (hf : f ∈ stack)
    (hkind : f.kind = .repeatLoop left) :
    f.body ≠ [] ∧ 1 ≤ left ∧ ∃ g n line, [f, g] <:+: stack ∧
      g.latest? = some (.repeatLoop n f.body line) ∧ (left : Int) ≤ n := by
  induction h with
  | nil => cases hf
  | entry hproc _ _ =>
    rw [List.mem_singleton.1 hf, hproc] at hkind
    cases hkind
  | @above top g below _ hopen _ ih =>
    rcases List.mem_cons.1 hf with rfl | hbelow
    · obtain ⟨s, hs, hopens⟩ := hopen
      cases hopens with
      | repeatLoop hbody hpos hle =>
        cases hkind
        exact ⟨hbody, hpos, g, _, _, ⟨[], below, rfl⟩, hs, hle⟩
      | _ => cases hkind
    · obtain ⟨hbody, hpos, g', n, line, hin, hlatest, hle⟩ := ih hbelow
      exact ⟨hbody, hpos, g', n, line, List.infix_cons hin, hlatest, hle⟩

/-- Every call allows for one frame and for as many more as bodies nest. So many frames as bodies
still nest inside of the one on top are left. -/
theorem length_le {levels : Nat} (hentry : entry ∈ p.procedures)
    (hnesting : ∀ q ∈ p.procedures, bodyNesting q.body ≤ levels)
    (h : Stacked p entry (f :: below)) :
    (f :: below).length + bodyNesting f.body ≤ callDepth (f :: below) * (levels + 1) := by
  generalize hstack : f :: below = stack at h
  induction h generalizing f below with
  | nil => cases hstack
  | @entry f hkind hbody _ =>
    cases hstack
    have hcalls : callDepth [f] = 1 := by simp [callDepth, Frame.isCall, hkind]
    have := hnesting entry hentry
    rw [hcalls, hbody, List.length_singleton]
    omega
  | @above f g below _ hopen _ ih =>
    cases hstack
    obtain ⟨s, hs, hopens⟩ := hopen
    have hbelow := ih rfl
    cases hcall : f.isCall with
    | true =>
      obtain ⟨q, hq, hbody⟩ := hopens.body_mem hcall
      have hcalls : callDepth (f :: g :: below) = callDepth (g :: below) + 1 :=
        List.countP_cons_of_pos hcall
      have := hnesting q hq
      rw [hcalls, hbody, List.length_cons, Nat.add_mul]
      omega
    | false =>
      have hcalls : callDepth (f :: g :: below) = callDepth (g :: below) :=
        List.countP_cons_of_neg (by simp [hcall])
      have hinside := hopens.nesting_lt hcall
      have hmem := nesting_le_of_mem (Frame.mem_body_of_latest? hs)
      rw [hcalls, List.length_cons]
      omega

end Stacked

/-! ### Turns and halts -/

/-- A turn keeps a stack in order. -/
theorem Turn.stacked {a b : List Frame} (h : Turn limits p w a b) (ha : Stacked p entry a) :
    Stacked p entry b := by
  cases h with
  | again hrest hend =>
    obtain ⟨hbody, hnext⟩ := Frame.atEnd_body hend
    have hloop := (Frame.isCall_of_again hend).1
    refine ha.replace ?_ hbody ?_ fun _ hopens => hopens.again hend
    · intro hkind
      simp [Frame.isCall, hkind] at hloop
    · rw [hnext, hbody]
  | leave hrest hend => exact ha.tail
  | call hrest hroom hq =>
    rw [← Run.push_true]
    exact ha.push hrest fun _ => .call hq
  | @ifElse top below c t e line rest hrest =>
    refine ha.push hrest fun henter => ?_
    cases hc : c.eval w with
    | true => exact .thenBody (by simpa [hc] using henter)
    | false => exact .elseBody (by simpa [hc] using henter)
  | whileLoop hrest => exact ha.push hrest fun _ => .whileLoop
  | doWhile hrest => exact ha.push hrest fun _ => .doWhile
  | @repeatLoop top below n body line rest hrest =>
    refine ha.push hrest fun henter => ?_
    obtain ⟨hpos, hbody⟩ : 0 < n ∧ ¬ body = [] := by simpa using henter
    exact .repeatLoop hbody (by omega) (by omega)

theorem callDepth_push {kind : FrameKind} (hkind : kind ≠ .procedure) (enter : Bool)
    (body : List Statement) (stack : List Frame) :
    callDepth (Run.push enter kind body stack) = callDepth stack := by
  cases enter with
  | false => rfl
  | true => exact callDepth_enter hkind body stack

/-- No turn goes beyond the bound of open calls. -/
theorem Turn.callDepth_le {a b : List Frame} (h : Turn limits p w a b)
    (ha : callDepth a ≤ limits.callDepth) : callDepth b ≤ limits.callDepth := by
  cases h with
  | @again top next below hrest hend =>
    have hcalls : callDepth (next :: below) = callDepth (top :: below) := by
      simp [callDepth, Frame.isCall_of_again hend]
    rwa [hcalls]
  | leave hrest hend => exact Nat.le_trans (List.sublist_cons_self _ _).countP_le ha
  | @call top below name line rest q hrest hroom hq =>
    have hcalls : callDepth (.enter .procedure q.body :: top.over rest below) =
        callDepth (top :: below) + 1 := List.countP_cons_of_pos rfl
    rw [hcalls]
    exact hroom
  | ifElse hrest => rwa [callDepth_push (by simp)]
  | whileLoop hrest => rwa [callDepth_push (by simp)]
  | doWhile hrest => rwa [callDepth_push (by simp)]
  | repeatLoop hrest => rwa [callDepth_push (by simp)]

/-- What a turn and a halt keep of a stack. -/
structure Bounded (limits : Limits) (p : Program) (entry : Procedure) (stack : List Frame) :
    Prop where
  stacked : Stacked p entry stack
  calls : callDepth stack ≤ limits.callDepth

theorem Bounded.nil : Bounded limits p entry [] where
  stacked := .nil
  calls := Nat.zero_le _

theorem Bounded.length_le {stack : List Frame} {levels : Nat} (h : Bounded limits p entry stack)
    (hentry : entry ∈ p.procedures)
    (hnesting : ∀ q ∈ p.procedures, bodyNesting q.body ≤ levels) :
    stack.length ≤ limits.callDepth * (levels + 1) := by
  cases stack with
  | nil => exact Nat.zero_le _
  | cons f below =>
    have hlength := h.stacked.length_le hentry hnesting
    have hcalls := Nat.mul_le_mul_right (levels + 1) h.calls
    omega

theorem Turn.bounded {a b : List Frame} (h : Turn limits p w a b) (ha : Bounded limits p entry a) :
    Bounded limits p entry b where
  stacked := h.stacked ha.stacked
  calls := h.callDepth_le ha.calls

theorem Halt.stacked {left : Nat} {stack stack' : List Frame}
    {result : Except MissingProcedure StepResult} {after : World}
    (h : Halt limits p w left stack result stack' after) (hs : Stacked p entry stack) :
    Stacked p entry stack' := by
  cases h with
  | acted hrest _ => exact hs.overTop hrest
  | missing hrest _ _ => exact hs.overTop hrest
  | _ => exact .nil

/-- A halt keeps a stack in order, and it leaves frames exactly if the run goes on. -/
theorem Halt.bounded {left : Nat} {stack stack' : List Frame} {x : StepResult} {after : World}
    (h : Halt limits p w left stack (.ok x) stack' after) (hs : Bounded limits p entry stack) :
    Bounded limits p entry stack' ∧ (stack' = [] ↔ x ≠ .continued) := by
  have hstacked := h.stacked hs.stacked
  cases h with
  | acted hrest _ => exact ⟨⟨hstacked, hs.calls⟩, by simp [Frame.over]⟩
  | _ => exact ⟨.nil, by simp [StepResult.faulted]⟩

theorem Advance.bounded {turns : Nat} {stack stack' : List Frame} {x : StepResult}
    {result : Except MissingProcedure StepResult} {after : World}
    (h : Advance limits p w turns stack result stack' after) (hok : result = .ok x)
    (hs : Bounded limits p entry stack) :
    Bounded limits p entry stack' ∧ (stack' = [] ↔ x ≠ .continued) := by
  induction h with
  | halt h =>
    subst hok
    exact h.bounded hs
  | turn h _ ih => exact ih hok (h.bounded hs)

/-! ### Runs -/

namespace Run

/-- What the stack of a run is at all times, and how it goes with the run's state: `levels` is how
far bodies nest in the program. -/
structure Framed (entry : Procedure) (limits : Limits) (levels : Nat) (r : Run) : Prop where
  terminated_iff : r.terminated = true ↔ r.stack = []
  faulted_iff : r.status = .faulted ↔ r.lastFault.isSome
  bottom : r.status = .running →
    ∃ f, r.stack.getLast? = some f ∧ f.kind = .procedure ∧ f.body = entry.body
  index : ∀ f ∈ r.stack, f.index ≤ f.body.length ∧ f.body.drop f.index = f.rest
  opened : r.stack.IsChain (Frame.StandsOn r.program)
  counted : ∀ f ∈ r.stack, ∀ left, f.kind = .repeatLoop left →
    f.body ≠ [] ∧ 1 ≤ left ∧ ∃ g n line, [f, g] <:+: r.stack ∧
      g.latest? = some (.repeatLoop n f.body line) ∧ (left : Int) ≤ n
  calls : callDepth r.stack ≤ limits.callDepth
  frames : r.stack.length ≤ limits.callDepth * (levels + 1)
  /-- The bounds also hold within a step, for every stack that its turns pass through. -/
  within : ∀ w stack, Relation.ReflTransGen (Turn limits r.program w) r.stack stack →
    callDepth stack ≤ limits.callDepth ∧ stack.length ≤ limits.callDepth * (levels + 1)

/-- A run is reached from another by steps, each in a world of its own: between two steps of a run
the world may change. -/
inductive Reaches (limits : Limits) (r : Run) : Run → Prop where
  | refl : Reaches limits r r
  | step {r' : Run} (w : World) (h : Reaches limits r r') : Reaches limits r (r'.step limits w).run

/-- What a step keeps. -/
structure Ordered (entry : Procedure) (limits : Limits) (r : Run) : Prop where
  linked : r.Linked
  entry_mem : entry ∈ r.program.procedures
  bounded : Bounded limits r.program entry r.stack
  ended : r.stack = [] ↔ r.status ≠ .running
  faulted : r.status = .faulted ↔ r.lastFault.isSome

variable {r : Run} {levels : Nat}

theorem Ordered.step (h : r.Ordered entry limits) (w : World) :
    (r.step limits w).run.Ordered entry limits := by
  by_cases hrun : r.status = .running
  · obtain ⟨result, stack', after, hadv, hout⟩ := step_spec limits w hrun
    obtain ⟨⟨x, rfl⟩, hlinked⟩ := hadv.stackLinked h.linked.program h.linked.stack
    obtain ⟨hbounded, hended⟩ := hadv.bounded rfl h.bounded
    rw [hout]
    refine ⟨⟨by simpa using h.linked.program, by simpa using hlinked⟩, by simpa using h.entry_mem,
      by simpa using hbounded, ?_, ?_⟩
    · rw [finishStep_stack, hended]
      cases x <;> simp [finishStep, hrun]
    · have hnone : r.lastFault = none := by simpa [hrun] using h.faulted
      cases x <;> simp [finishStep, hrun, hnone]
  · rw [step_of_ended limits w hrun]
    exact h

theorem Ordered.reaches {r' : Run} (h : r.Ordered entry limits) (hreach : Reaches limits r r') :
    r'.Ordered entry limits := by
  induction hreach with
  | refl => exact h
  | step w _ ih => exact ih.step w

theorem Ordered.framed (h : r.Ordered entry limits) (hp : r.program.Within levels) :
    r.Framed entry limits levels where
  terminated_iff := by simp [terminated, h.ended]
  faulted_iff := h.faulted
  bottom := by
    intro hrun
    have hstacked := h.bounded.stacked
    rcases hstack : r.stack with _ | ⟨f, below⟩
    · exact absurd hrun (h.ended.1 hstack)
    · rw [hstack] at hstacked
      exact hstacked.getLast?_eq
  index := by
    intro f hf
    exact ⟨Nat.sub_le _ _, Frame.drop_index (h.bounded.stacked.rest_suffix f hf)⟩
  opened := h.bounded.stacked.isChain
  counted := fun f hf left hkind => h.bounded.stacked.counted hf hkind
  calls := h.bounded.calls
  frames := h.bounded.length_le h.entry_mem hp.nesting
  within := by
    intro w stack hturns
    have hbounded : Bounded limits r.program entry stack := by
      induction hturns with
      | refl => exact h.bounded
      | tail _ hturn ih => exact hturn.bounded ih
    exact ⟨hbounded.calls, hbounded.length_le h.entry_mem hp.nesting⟩

theorem step_program (r : Run) (limits : Limits) (w : World) :
    (r.step limits w).run.program = r.program := by
  by_cases hrun : r.status = .running
  · obtain ⟨result, stack', after, _, hout⟩ := step_spec limits w hrun
    rw [hout, finishStep_program]
  · rw [step_of_ended limits w hrun]

theorem Reaches.program_eq {r' : Run} (h : Reaches limits r r') : r'.program = r.program := by
  induction h with
  | refl => rfl
  | step w _ ih => rw [step_program, ih]

theorem reaches_after (r : Run) (limits : Limits) (w : World) (n : Nat) :
    Reaches limits r (r.after limits w n).1 := by
  induction n with
  | zero => exact .refl
  | succ n ih =>
    rw [after_succ]
    exact .step _ ih

/-- The body of the entry is the first frame of a run. -/
theorem start?_ordered (hp : p.Linked) :
    ∃ r entry, Run.start? p = some r ∧ p.procedure? p.entry = some entry ∧ r.program = p ∧
      ∀ limits : Limits, 1 ≤ limits.callDepth → r.Ordered entry limits := by
  obtain ⟨entry, hentry, hstart, hlinked⟩ := start?_entry hp
  refine ⟨_, entry, hstart, hentry, rfl, fun limits hlimits => ?_⟩
  exact {
    linked := hlinked
    entry_mem := Program.procedure?_mem hentry
    bounded := ⟨.entry rfl rfl List.suffix_rfl, hlimits⟩
    ended := by simp
    faulted := by simp }

/-- In a compiled program bodies nest within the bound that it was compiled with, and so do
conditions. Whatever a run of it reaches is framed. -/
theorem compiled_framed {limit : Int} {source : String}
    (hcompile : Source.compile limit source = .ok p) :
    p.Within limit.toNat ∧ ∃ r entry, Run.start? p = some r ∧ p.procedure? p.entry = some entry ∧
      ∀ limits : Limits, 1 ≤ limits.callDepth → ∀ r', Reaches limits r r' →
        r'.program = p ∧ r'.Framed entry limits limit.toNat := by
  have hwithin := Source.compile_within hcompile
  obtain ⟨r, entry, hstart, hentry, hprogram, hordered⟩ :=
    start?_ordered (Source.compile_closed hcompile).linked
  refine ⟨hwithin, r, entry, hstart, hentry, ?_⟩
  intro limits hlimits r' hreach
  have hsame : r'.program = p := hreach.program_eq.trans hprogram
  refine ⟨hsame, ((hordered limits hlimits).reaches hreach).framed ?_⟩
  rwa [hsame]

/-- A text with a counted loop inside of a branch. -/
def spinText : String :=
  "if(frontIsClear())\x7brepeat(2)\x7bmove();\x7d\x7d"

/-- The program of that text. -/
def spin : Program :=
  ⟨[⟨"main", [.ifElse (.predicate ⟨.frontClear, true⟩ 1) [.repeatLoop 2 [.action .move 1] 1] [] 1],
    1⟩], "main"⟩

theorem compiled_framed_spin :
    Source.compile 2 spinText = .ok spin ∧ spin.Within 2 ∧
      ∃ r entry, Run.start? spin = some r ∧ spin.procedure? spin.entry = some entry ∧
        ∀ (w : World) (n : Nat), (r.after ⟨1, 5⟩ w n).1.program = spin ∧
          (r.after ⟨1, 5⟩ w n).1.Framed entry ⟨1, 5⟩ 2 := by
  have h : Source.compile 2 spinText = .ok spin := by cbv
  obtain ⟨hwithin, r, entry, hstart, hentry, hframed⟩ := compiled_framed h
  refine ⟨h, hwithin, r, entry, hstart, hentry, ?_⟩
  intro w n
  exact hframed ⟨1, 5⟩ (Nat.le_refl 1) _ (reaches_after r ⟨1, 5⟩ w n)

end Run

end GridRobot

import GridRobot.Proofs.Program.Calls
import GridRobot.Proofs.Run.Blame
import GridRobot.Proofs.Run.Progress
import GridRobot.Proofs.Run.Stopped

/-!
# Runs that come to their end

A run of a program without open loops makes no more actions than its entry counts. What its stack may
still make is counted like the text: what is left of each body, and every further pass of a counted
loop. No turn makes this number greater, and each action makes it less by one.

A turn may leave actions out, where it takes the shorter side of a branch or passes over a body. So the
number bounds a run and need not be reached.

## Main definitions

* `stackActions` is the greatest number of actions that a stack may still make.

## Main statements

* `Turn.stackActions_le`: a turn adds no actions.
* `Run.Counted.step_le`: an action is one of those that were counted.
* `Run.Linked.last_step`: what a run has done when it ends.
* `Run.loopFree_halts`: after so many actions as its entry counts, a run has come to its end.
-/

namespace GridRobot

/-- Number of passes that a loop makes after the present one, if that is known. -/
def FrameKind.laterPasses : FrameKind → Nat
  | .repeatLoop left => left - 1
  | _ => 0

/-- The greatest number of actions that a frame may still make. -/
def Frame.actionsLeft (count : String → Nat) (f : Frame) : Nat :=
  bodyActions count f.rest + f.kind.laterPasses * bodyActions count f.body

/-- The greatest number of actions that a stack may still make. -/
def stackActions (count : String → Nat) (stack : List Frame) : Nat :=
  (stack.map (Frame.actionsLeft count)).sum

variable {limits : Limits} {p : Program} {entry : Procedure} {w : World} {f next : Frame}
  {s : Statement} {rest : List Statement} {stack below stack' : List Frame} {left : Nat}
  {count : String → Nat}

@[simp] theorem stackActions_cons : stackActions count (f :: below) =
    f.actionsLeft count + stackActions count below := by
  simp [stackActions]

theorem Frame.actionsLeft_enter {kind : FrameKind} {body : List Statement} :
    (Frame.enter kind body).actionsLeft count =
      (kind.laterPasses + 1) * bodyActions count body := by
  rw [Nat.succ_mul, Nat.add_comm]
  rfl

/-- A statement that is taken up is no longer counted with its frame. -/
theorem stackActions_over (hrest : f.rest = s :: rest) : stackActions count (f :: below) =
    s.actions count + stackActions count (f.over rest below) := by
  have htop : f.actionsLeft count =
      s.actions count + Frame.actionsLeft count { f with rest := rest } := by
    rw [Frame.actionsLeft, hrest, bodyActions, Nat.add_assoc]
    rfl
  rw [Frame.over, stackActions_cons, stackActions_cons, htop, Nat.add_assoc]

/-- A frame that is put on its statement may make no more actions than this. -/
theorem stackActions_push_le (hrest : f.rest = s :: rest) {enter : Bool} {kind : FrameKind}
    {body : List Statement}
    (h : enter = true → (Frame.enter kind body).actionsLeft count ≤ s.actions count) :
    stackActions count (Run.push enter kind body (f.over rest below)) ≤
      stackActions count (f :: below) := by
  rw [stackActions_over hrest]
  cases enter with
  | false => exact Nat.le_add_left _ _
  | true =>
    rw [Run.push_true, stackActions_cons]
    exact Nat.add_le_add_right (h rfl) _

/-- A loop that comes round makes one of the passes that were counted. -/
theorem Opens.actionsLeft_again (h : Opens p s f) (hclosed : s.isOpenLoop = false)
    (hrest : f.rest = []) (hend : f.atEnd w = some next) :
    next.actionsLeft count = f.actionsLeft count := by
  cases h with
  | call _ => cases hend
  | thenBody _ => cases hend
  | elseBody _ => cases hend
  | whileLoop => cases hclosed
  | doWhile => cases hclosed
  | @repeatLoop n left body rest line hbody hpos hle =>
    obtain ⟨c, hkind | hkind, -⟩ | ⟨n, hkind, hmore, rfl⟩ := Frame.atEnd_cases hend
    · cases hkind
    · cases hkind
    · cases hkind
      obtain ⟨m, rfl⟩ := Nat.exists_eq_add_of_le' hmore
      subst hrest
      show bodyActions count body + m * bodyActions count body =
        0 + (m + 1) * bodyActions count body
      rw [Nat.succ_mul, Nat.zero_add, Nat.add_comm]

/-! ### Code that is reached -/

/-- What is on a stack of a program without open loops is no open loop, and it calls only procedures
that are reached. -/
theorem Stacked.loopFree (h : Stacked p entry stack) (hp : p.LoopFree)
    (hentry : p.procedure? p.entry = some entry) (hf : f ∈ stack) (hs : s ∈ f.body) :
    s.isOpenLoop = false ∧ ∀ name ∈ s.called?, p.Reached name := by
  obtain ⟨q, ⟨name, hreached, hq⟩, hpart⟩ :=
    h.exists_of_part (P := fun q => ∃ name, p.Reached name ∧ p.procedure? name = some q)
      ⟨p.entry, .refl, hentry⟩
      (fun q ⟨name, hreached, hq⟩ s hs name' hname' q' hq' =>
        ⟨name', hreached.tail ⟨q, hq, s, hs, hname'⟩, hq'⟩)
      f hf s (mem_bodyParts_of_mem hs s.mem_parts_self)
  exact ⟨hp name q hreached hq s hpart, fun name' hname' =>
    hreached.tail ⟨q, hq, s, hpart, hname'⟩⟩

theorem Stacked.actionsLeft_again (h : Stacked p entry (f :: below)) (hp : p.LoopFree)
    (hentry : p.procedure? p.entry = some entry) (hrest : f.rest = [])
    (hend : f.atEnd w = some next) : next.actionsLeft count = f.actionsLeft count := by
  obtain ⟨g, hg, s, hs, hopens⟩ := h.exists_of_again hend
  have hclosed := (h.loopFree hp hentry (List.mem_cons_of_mem _ hg) hs).1
  exact hopens.actionsLeft_again hclosed hrest hend

/-! ### Turns and halts -/

/-- A turn adds no actions to those that a stack may make. -/
theorem Turn.stackActions_le (h : Turn limits p w stack stack') (hp : p.LoopFree)
    (hcount : p.CountsActions count) (hentry : p.procedure? p.entry = some entry)
    (hstacked : Stacked p entry stack) : stackActions count stack' ≤ stackActions count stack := by
  -- the statement on top is no open loop, and its name is reached
  have hclosed {top : Frame} {below : List Frame} {s : Statement} {rest : List Statement}
      (hstack : stack = top :: below) (hrest : top.rest = s :: rest) :
      s.isOpenLoop = false ∧ ∀ name ∈ s.called?, p.Reached name := by
    subst hstack
    exact hstacked.loopFree hp hentry List.mem_cons_self (hstacked.mem_body List.mem_cons_self hrest)
  cases h with
  | again hrest hend =>
    rw [stackActions_cons, stackActions_cons, hstacked.actionsLeft_again hp hentry hrest hend]
  | leave hrest hend =>
    rw [stackActions_cons]
    exact Nat.le_add_left _ _
  | @call top below name line rest q hrest hroom hq =>
    rw [← Run.push_true]
    refine stackActions_push_le hrest fun _ => ?_
    have hreached := (hclosed rfl hrest).2 name rfl
    rw [Frame.actionsLeft_enter, Statement.actions, hcount name q hreached hq]
    exact Nat.le_of_eq (Nat.one_mul _)
  | @ifElse top below c t e line rest hrest =>
    refine stackActions_push_le hrest fun _ => ?_
    have honce : FrameKind.block.laterPasses = 0 := rfl
    rw [Frame.actionsLeft_enter, Statement.actions, honce, Nat.zero_add, Nat.one_mul]
    cases c.eval w with
    | true => exact Nat.le_max_left _ _
    | false => exact Nat.le_max_right _ _
  | whileLoop hrest => cases (hclosed rfl hrest).1
  | doWhile hrest => cases (hclosed rfl hrest).1
  | @repeatLoop top below n body line rest hrest =>
    refine stackActions_push_le hrest fun henter => ?_
    obtain ⟨hpos, -⟩ : 0 < n ∧ ¬ body = [] := by simpa using henter
    have hpasses : (FrameKind.repeatLoop n.toNat).laterPasses + 1 = n.toNat := by
      rw [FrameKind.laterPasses]
      omega
    rw [Frame.actionsLeft_enter, Statement.actions, hpasses]

namespace Run

variable {r : Run} {n : Nat}

/-- A run of a program without open loops, where `count` counts the actions of each procedure. -/
structure Counted (count : String → Nat) (entry : Procedure) (r : Run) : Prop where
  loopFree : r.program.LoopFree
  counts : r.program.CountsActions count
  entry_eq : r.program.procedure? r.program.entry = some entry
  stacked : Stacked r.program entry r.stack

/-- Within a step the stack has no more actions than before. -/
theorem Counted.turns (h : r.Counted count entry) {k : Nat}
    (hturns : Turns limits r.program w k r.stack stack) :
    Stacked r.program entry stack ∧ stackActions count stack ≤ stackActions count r.stack :=
  hturns.preserves
    (P := fun stack => Stacked r.program entry stack ∧
      stackActions count stack ≤ stackActions count r.stack)
    (fun hturn hbefore => ⟨hturn.stacked hbefore.1, Nat.le_trans
      (hturn.stackActions_le h.loopFree h.counts h.entry_eq hbefore.1) hbefore.2⟩)
    ⟨h.stacked, Nat.le_refl _⟩

theorem Counted.step (h : r.Counted count entry) (limits : Limits) (w : World) :
    (r.step limits w).run.Counted count entry := by
  by_cases hrun : r.status = .running
  · obtain ⟨k, left, mid, result, stack', after, -, hturns, hhalt, hout⟩ := step_turns limits w hrun
    rw [hout]
    exact {
      loopFree := by simpa using h.loopFree
      counts := by simpa using h.counts
      entry_eq := by simpa using h.entry_eq
      stacked := by simpa using hhalt.stacked (h.turns hturns).1 }
  · rwa [step_of_ended limits w hrun]

/-- A step that goes on has made one of the actions that were counted. -/
theorem Counted.step_le (h : r.Counted count entry) (hrun : r.status = .running)
    (hgo : (r.step limits w).result = .ok .continued) :
    stackActions count (r.step limits w).run.stack + 1 ≤ stackActions count r.stack := by
  obtain ⟨k, left, mid, result, stack', after, -, hturns, hhalt, hout⟩ := step_turns limits w hrun
  rw [hout] at hgo ⊢
  obtain rfl : result = .ok .continued := hgo
  have hmid := (h.turns hturns).2
  cases hhalt with
  | acted hrest _ =>
    rw [stackActions_over hrest, Statement.actions, Nat.add_comm] at hmid
    rw [finishStep_stack]
    exact hmid

theorem Counted.after (h : r.Counted count entry) (limits : Limits) (w : World) (n : Nat) :
    (r.after limits w n).1.Counted count entry := by
  induction n with
  | zero => exact h
  | succ n ih =>
    rw [after_succ]
    exact ih.step limits _

/-- As long as a run goes on, each of its steps has made one of the actions that were counted. -/
theorem Counted.after_le (h : r.Counted count entry) (hr : r.Linked)
    (hrun : (r.after limits w n).1.status = .running) :
    stackActions count (r.after limits w n).1.stack + n ≤ stackActions count r.stack := by
  induction n with
  | zero => exact Nat.le_refl _
  | succ n ih =>
    have hearlier := running_of_le (Nat.le_succ n) hrun
    obtain ⟨x, hx, -, -, hgoes⟩ :=
      (hr.after limits w n).step_running hearlier limits (r.after limits w n).2
    have hbefore := ih hearlier
    rw [after_succ] at hrun ⊢
    obtain rfl := hgoes.1 hrun
    have hless : stackActions count (r.stepAfter limits w n).run.stack + 1 ≤
        stackActions count (r.after limits w n).1.stack := (h.after limits w n).step_le hearlier hx
    show stackActions count (r.stepAfter limits w n).run.stack + (n + 1) ≤ _
    omega

/-- The step with which a run ends: those before it have each made an action, and it makes none. -/
theorem Linked.last_step (hr : r.Linked) (hrun : (r.after limits w n).1.status = .running)
    (hended : (r.after limits w (n + 1)).1.status ≠ .running) :
    (∀ m < n, (r.stepAfter limits w m).result = .ok .continued) ∧
      (∃ x, (r.stepAfter limits w n).result = .ok x ∧ x.isTerminal = true) ∧
      (r.stepAfter limits w n).run.steps = r.steps + n := by
  -- what a step comes to is told by whether the run goes on after it
  have hresult (m : Nat) (hm : m ≤ n) : ∃ x, (r.stepAfter limits w m).result = .ok x ∧
      ((r.after limits w (m + 1)).1.status = .running ↔ x = .continued) := by
    obtain ⟨x, hx, -, -, hgoes⟩ :=
      (hr.after limits w m).step_running (running_of_le hm hrun) limits (r.after limits w m).2
    rw [after_succ]
    exact ⟨x, hx, hgoes⟩
  refine ⟨fun m hm => ?_, ?_⟩
  · obtain ⟨x, hx, hgoes⟩ := hresult m (Nat.le_of_lt hm)
    rwa [hgoes.1 (running_of_le hm hrun)] at hx
  · obtain ⟨x, hx, hgoes⟩ := hresult n (Nat.le_refl n)
    have hstops : x ≠ .continued := fun hgo => hended (hgoes.2 hgo)
    have hsteps : (r.stepAfter limits w n).run.steps =
        (r.after limits w n).1.steps + if goesOn (r.stepAfter limits w n) then 1 else 0 :=
      step_steps hrun
    have hnone : ¬ goesOn (r.stepAfter limits w n) = true := by
      rw [goesOn_iff, hx]
      exact fun heq => hstops (Except.ok.inj heq)
    rw [if_neg hnone, hr.after_steps hrun] at hsteps
    refine ⟨⟨x, hx, ?_⟩, hsteps⟩
    cases x with
    | continued => exact absurd rfl hstops
    | finished => rfl
    | fault f => rfl

/-- A run comes to its end before it would make more actions than it has left. -/
theorem Counted.exists_end (h : r.Counted count entry) (hr : r.Linked) (hrun : r.status = .running)
    (limits : Limits) (w : World) : ∃ n ≤ stackActions count r.stack,
      (r.after limits w n).1.status = .running ∧ (r.after limits w (n + 1)).1.status ≠ .running := by
  obtain ⟨k, hgoing, -, hends⟩ :=
    StopsAt.exists_of_most limits r w (stackActions count r.stack + 1)
  have hended : (r.after limits w k).1.status ≠ .running := by
    intro hrunning
    have hle := h.after_le hr hrunning
    have hmost := hends hrunning
    omega
  cases k with
  | zero => exact absurd hrun hended
  | succ n =>
    have hlast := hgoing n (Nat.lt_succ_self n)
    have hle := h.after_le hr hlast
    exact ⟨n, by omega, hlast, hended⟩

theorem start?_counted (hp : p.Linked) (hloops : p.LoopFree) (hcount : p.CountsActions count) :
    ∃ r entry, Run.start? p = some r ∧ r.Linked ∧ r.Counted count entry ∧ r.status = .running ∧
      r.steps = 0 ∧ stackActions count r.stack = count p.entry := by
  obtain ⟨entry, hentry, hstart, hlinked⟩ := start?_entry hp
  refine ⟨_, entry, hstart, hlinked,
    ⟨hloops, hcount, hentry, .entry rfl rfl List.suffix_rfl⟩, rfl, rfl, ?_⟩
  rw [hcount p.entry entry .refl hentry, stackActions_cons, Frame.actionsLeft_enter]
  exact Nat.one_mul _

/-- A program without open loops halts. Its actions are counted by the recursion along its text and its
calls. Whatever the bounds and the world, its run makes no more actions than its entry counts: it makes
one in every step, until a step comes to an end with nothing done. -/
theorem loopFree_halts (hp : p.Closed) (hloops : p.LoopFree) (hcalls : p.Acyclic) :
    p.CountsActions p.actions ∧ ∃ r, Run.start? p = some r ∧ ∀ (limits : Limits) (w : World),
      ∃ n ≤ p.actions p.entry,
        (∀ m < n, (r.stepAfter limits w m).result = .ok .continued) ∧
        (∃ x, (r.stepAfter limits w n).result = .ok x ∧ x.isTerminal = true) ∧
        (r.stepAfter limits w n).run.steps = n := by
  have hcount := hcalls.countsActions hp.linked
  obtain ⟨r, entry, hstart, hlinked, hcounted, hrun, hzero, hactions⟩ :=
    start?_counted hp.linked hloops hcount
  refine ⟨hcount, r, hstart, fun limits w => ?_⟩
  obtain ⟨n, hn, hlast, hended⟩ := hcounted.exists_end hlinked hrun limits w
  obtain ⟨hgoing, hends, hsteps⟩ := hlinked.last_step hlast hended
  rw [hactions] at hn
  rw [hzero, Nat.zero_add] at hsteps
  exact ⟨n, hn, hgoing, hends, hsteps⟩

/-- A robot that goes around a square and marks each corner where it finds nothing. -/
def square : Program :=
  ⟨[⟨"side", [.repeatLoop 2 [.action .move 1] 1, .action .turnLeft 2], 1⟩,
    ⟨"mark", [.ifElse (.predicate ⟨.beepersPresent, true⟩ 3) [.action .turnRight 3]
      [.action .turnRight 3, .action .putBeeper 3, .action .turnLeft 3] 3], 3⟩,
    ⟨"main", [.repeatLoop 4 [.call "side" 4, .call "mark" 4] 4], 4⟩], "main"⟩

/-- For each corner three actions and at most three more are counted. -/
theorem loopFree_halts_square :
    square.Closed ∧ square.LoopFree ∧ square.Acyclic ∧ square.actions "main" = 24 ∧
      ∃ r, Run.start? square = some r ∧ ∀ (limits : Limits) (w : World), ∃ n ≤ 24,
        (∀ m < n, (r.stepAfter limits w m).result = .ok .continued) ∧
        (∃ x, (r.stepAfter limits w n).result = .ok x ∧ x.isTerminal = true) ∧
        (r.stepAfter limits w n).run.steps = n := by
  have hclosed : square.Closed := by decide
  have hloops : square.LoopFree := Program.loopFree_of_procedures (by decide)
  have hcalls : square.Acyclic :=
    Program.acyclic_of_rank (fun name => if name = "main" then 1 else 0) (by decide)
  have hactions : square.actions "main" = 24 := by decide
  obtain ⟨-, r, hstart, h⟩ := loopFree_halts hclosed hloops hcalls
  exact ⟨hclosed, hloops, hcalls, hactions, r, hstart, hactions ▸ h⟩

end Run

end GridRobot

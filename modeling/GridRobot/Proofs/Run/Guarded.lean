import GridRobot.Proofs.Program.Guarded
import GridRobot.Proofs.Run.Blame
import GridRobot.Proofs.Run.Progress
import GridRobot.Proofs.Run.Stopped

/-!
# Guards protect their actions

In a guarded program an action that may fail is the first statement of its body, and the body is begun
only where the action will succeed. Whenever the body is begun, the same step takes the action up. So
between two steps no frame stands before such an action, and whatever becomes of the world then, no
answer that a guard has given can have become wrong.

## Main definitions

* `Frame.Ready` says that a frame may go on in a world, and `Frame.Secure` that it may go on in any.
* `Watched` says that the frame on top may go on in a world, and that those below may go on in any.
* `StepResult.Unhindered` says that no action has failed.

## Main statements

* `Turn.watched`: a turn keeps a stack watched.
* `Run.step_secure`: between two steps every frame may go on in any world.
* `Run.guarded_unhindered`: no action of a guarded program fails, whatever valid worlds its run is
  stepped in.
-/

namespace GridRobot

/-- The faults of actions that fail. -/
def FaultKind.ofActions : List FaultKind :=
  [.blockedByWall, .noBeeperToPickUp, .noBeeperToPutDown]

/-- The result is not that an action has failed. -/
def StepResult.Unhindered (x : StepResult) : Prop :=
  ∀ kind ∈ FaultKind.ofActions, ∀ line, x ≠ .faulted kind line

/-- No statement that is still to come in a frame needs anything. -/
def Frame.Secure (f : Frame) : Prop :=
  ∀ s ∈ f.rest, s.needs? = none

/-- If the world is valid, the next statement of a frame has what it needs; those after it need
nothing. -/
structure Frame.Ready (w : World) (f : Frame) : Prop where
  next : ∀ s ∈ f.rest.head?, ∀ q ∈ s.needs?, w.Valid → q.eval w = true
  later : ∀ s ∈ f.rest.tail, s.needs? = none

/-- The frame on top may go on in the world, those below it in any. -/
def Watched (w : World) : List Frame → Prop
  | [] => True
  | top :: below => top.Ready w ∧ ∀ f ∈ below, f.Secure

variable {limits : Limits} {p : Program} {entry : Procedure} {w after : World} {f next : Frame}
  {s : Statement} {rest : List Statement} {stack below stack' : List Frame} {left : Nat}
  {x : StepResult}

theorem StepResult.unhindered_faulted {kind : FaultKind} (h : kind ∉ FaultKind.ofActions)
    (line : Option Int) : (faulted kind line).Unhindered := by
  rintro kind' hkind line' heq
  cases heq
  exact h hkind

/-! ### Single frames -/

theorem Frame.Secure.ready (h : f.Secure) : f.Ready w where
  next := by
    intro s hs q hq
    rw [h s (List.mem_of_mem_head? hs)] at hq
    cases hq
  later := fun s hs => h s (List.mem_of_mem_tail hs)

/-- After its next statement a frame may go on in any world. -/
theorem Frame.Ready.secure_over (h : f.Ready w) (hrest : f.rest = s :: rest) :
    Frame.Secure { f with rest := rest } := fun x hx =>
  h.later x (by rw [hrest]; exact hx)

/-- A guarded body is begun where it may go on. -/
theorem Guards.ready {guard : Option Condition} (h : Guards guard f.body) (hrest : f.rest = f.body)
    (hguard : ∀ c ∈ guard, c.eval w = true) : f.Ready w where
  next := by
    rw [hrest]
    intro s hs q hq hw
    obtain ⟨c, hc, hensures⟩ := h.first s hs q hq
    exact hensures w hw (hguard c hc)
  later := by
    rw [hrest]
    exact h.later

/-- A body that is begun under no condition needs nothing. -/
theorem Guards.secure (h : Guards none f.body) (hrest : f.rest = f.body) : f.Secure := by
  intro s hs
  rw [hrest] at hs
  cases hbody : f.body with
  | nil =>
    rw [hbody] at hs
    cases hs
  | cons first rest =>
    rw [hbody] at hs h
    rcases List.mem_cons.1 hs with rfl | hlater
    · refine Option.eq_none_iff_forall_not_mem.2 fun q hq => ?_
      obtain ⟨c, hc, -⟩ := h.first s rfl q hq
      cases hc
    · exact h.later s hlater

theorem Guards.ready_of_none (h : Guards none f.body) (hrest : f.rest = f.body) : f.Ready w :=
  (h.secure hrest).ready

/-- A loop that comes round has asked the condition that guards its body, if it has one. -/
theorem Opens.guard_of_again (h : Opens p s f) (hend : f.atEnd w = some next) :
    ∃ guard, (guard, f.body) ∈ s.bodies ∧ ∀ c ∈ guard, c.eval w = true := by
  cases h with
  | @whileLoop c body rest line =>
    refine ⟨some c, List.mem_singleton_self _, ?_⟩
    obtain ⟨d, hkind, hd, -⟩ | ⟨n, hkind, -⟩ := Frame.atEnd_cases hend
    · obtain rfl : c = d := by simpa using hkind
      rintro _ ⟨⟩
      exact hd
    · cases hkind
  | doWhile => exact ⟨none, List.mem_singleton_self _, nofun⟩
  | repeatLoop _ _ _ => exact ⟨none, List.mem_singleton_self _, nofun⟩
  | call _ => cases hend
  | thenBody _ => cases hend
  | elseBody _ => cases hend

/-! ### Turns and halts -/

/-- What is in a frame of a stack is guarded. -/
theorem Stacked.guards (h : Stacked p entry stack) (hp : p.Guarded) (hentry : entry ∈ p.procedures)
    (hf : f ∈ stack) (hs : s ∈ f.body) : ∀ e ∈ s.bodies, Guards e.1 e.2 := by
  obtain ⟨q, hq, hpart⟩ := h.mem_parts hentry f hf s (mem_bodyParts_of_mem hs s.mem_parts_self)
  exact hp.of_part hq hpart

/-- A loop that comes round on top may go on. -/
theorem Stacked.ready_of_again (h : Stacked p entry (f :: below)) (hp : p.Guarded)
    (hentry : entry ∈ p.procedures) (hend : f.atEnd w = some next) : next.Ready w := by
  obtain ⟨hbody, hrest⟩ := Frame.atEnd_body hend
  obtain ⟨g, hg, s, hs, hopens⟩ := h.exists_of_again hend
  obtain ⟨guard, hguard, hasked⟩ := hopens.guard_of_again hend
  have hguards := h.guards hp hentry (List.mem_cons_of_mem _ hg) hs _ hguard
  exact Guards.ready (hbody ▸ hguards) (hrest.trans hbody.symm) hasked

theorem Watched.over (h : Watched w (f :: below)) (hrest : f.rest = s :: rest) :
    ∀ g ∈ f.over rest below, g.Secure := by
  intro g hg
  rcases List.mem_cons.1 hg with rfl | hbelow
  · exact h.1.secure_over hrest
  · exact h.2 g hbelow

theorem watched_of_secure (h : ∀ f ∈ stack, f.Secure) : Watched w stack := by
  cases stack with
  | nil => trivial
  | cons top below =>
    exact ⟨(h top List.mem_cons_self).ready, fun f hf => h f (List.mem_cons_of_mem _ hf)⟩

/-- A frame that may go on can be opened where its statement was taken up. -/
theorem Watched.push (h : Watched w (f :: below)) (hrest : f.rest = s :: rest) {enter : Bool}
    {kind : FrameKind} {body : List Statement}
    (hready : enter = true → (Frame.enter kind body).Ready w) :
    Watched w (Run.push enter kind body (f.over rest below)) := by
  cases enter with
  | false => exact watched_of_secure (h.over hrest)
  | true => exact ⟨hready rfl, h.over hrest⟩

/-- A turn keeps a stack watched: what it opens or begins once more, it begins where the guard holds. -/
theorem Turn.watched (h : Turn limits p w stack stack') (hp : p.Guarded)
    (hentry : entry ∈ p.procedures) (hstacked : Stacked p entry stack) (hw : Watched w stack) :
    Watched w stack' := by
  -- the bodies of the statement on top are guarded
  have hguards {top : Frame} {below : List Frame} {s : Statement} {rest : List Statement}
      (hstack : stack = top :: below) (hrest : top.rest = s :: rest) :
      ∀ e ∈ s.bodies, Guards e.1 e.2 := by
    subst hstack
    exact hstacked.guards hp hentry List.mem_cons_self (hstacked.mem_body List.mem_cons_self hrest)
  cases h with
  | again hrest hend => exact ⟨hstacked.ready_of_again hp hentry hend, hw.2⟩
  | leave hrest hend => exact watched_of_secure hw.2
  | call hrest hroom hq =>
    rw [← Run.push_true]
    have hbody := hp.of_procedure (Program.procedure?_mem hq)
    exact hw.push hrest fun _ => hbody.ready_of_none rfl
  | @ifElse top below c t e line rest hrest =>
    refine hw.push hrest fun _ => ?_
    cases hc : c.eval w with
    | true => exact (hguards rfl hrest (some c, t) (by simp [Statement.bodies])).ready rfl (by simp [hc])
    | false => exact (hguards rfl hrest (none, e) (by simp [Statement.bodies])).ready_of_none rfl
  | @whileLoop top below c body line rest hrest =>
    have hbody := hguards rfl hrest (some c, body) (List.mem_singleton_self _)
    exact hw.push hrest fun hc => hbody.ready rfl (by simpa using hc)
  | @doWhile top below c body line rest hrest =>
    have hbody := hguards rfl hrest (none, body) (List.mem_singleton_self _)
    exact hw.push hrest fun _ => hbody.ready_of_none rfl
  | @repeatLoop top below n body line rest hrest =>
    have hbody := hguards rfl hrest (none, body) (List.mem_singleton_self _)
    exact hw.push hrest fun _ => hbody.ready_of_none rfl

/-- After a halt every frame may go on in any world. -/
theorem Halt.secure {result : Except MissingProcedure StepResult}
    (h : Halt limits p w left stack result stack' after) (hw : Watched w stack) :
    ∀ f ∈ stack', f.Secure := by
  cases h with
  | acted hrest _ => exact hw.over hrest
  | missing hrest _ _ => exact hw.over hrest
  | _ => exact nofun

/-- In a valid world no action of a watched stack fails. -/
theorem Halt.unhindered (h : Halt limits p w left stack (.ok x) stack' after) (hw : Watched w stack)
    (hvalid : w.Valid) : x.Unhindered := by
  cases h with
  | @failed left top below a line rest kind hrest ha =>
    obtain ⟨after, hafter⟩ := World.perform_isOk_iff.2 fun q hq =>
      hw.1.next (.action a line) (by rw [hrest]; rfl) q hq hvalid
    cases hafter.symm.trans ha
  | finished => exact fun _ _ _ => nofun
  | acted => exact fun _ _ _ => nofun
  | overflow => exact StepResult.unhindered_faulted (by decide) _
  | stalled => exact StepResult.unhindered_faulted (by decide) _

namespace Run

variable {r r' : Run}

/-- Between two steps every frame of a guarded program stands on the one that opened it, and it may go
on in any world. -/
structure Secure (entry : Procedure) (r : Run) : Prop where
  guarded : r.program.Guarded
  entry_mem : entry ∈ r.program.procedures
  stacked : Stacked r.program entry r.stack
  frames : ∀ f ∈ r.stack, f.Secure

/-- Within a step the stack is watched. -/
theorem Secure.turns (h : r.Secure entry) {k : Nat}
    (hturns : Turns limits r.program w k r.stack stack) :
    Stacked r.program entry stack ∧ Watched w stack :=
  hturns.preserves (P := fun stack => Stacked r.program entry stack ∧ Watched w stack)
    (fun hturn hbefore =>
      ⟨hturn.stacked hbefore.1, hturn.watched h.guarded h.entry_mem hbefore.1 hbefore.2⟩)
    ⟨h.stacked, watched_of_secure h.frames⟩

/-- A step leaves every frame so that it may go on in any world, whatever world it was made in. -/
theorem Secure.step (h : r.Secure entry) (limits : Limits) (w : World) :
    (r.step limits w).run.Secure entry := by
  by_cases hrun : r.status = .running
  · obtain ⟨k, left, mid, result, stack', after, -, hturns, hhalt, hout⟩ := step_turns limits w hrun
    obtain ⟨hstacked, hwatched⟩ := h.turns hturns
    rw [hout]
    exact {
      guarded := by simpa using h.guarded
      entry_mem := by simpa using h.entry_mem
      stacked := by simpa using hhalt.stacked hstacked
      frames := by simpa using hhalt.secure hwatched }
  · rwa [step_of_ended limits w hrun]

theorem Secure.reaches (h : r.Secure entry) (hreach : Reaches limits r r') : r'.Secure entry := by
  induction hreach with
  | refl => exact h
  | step w _ ih => exact ih.step limits w

/-- In a valid world no action fails. -/
theorem Secure.unhindered (h : r.Secure entry) (hw : w.Valid)
    (hx : (r.step limits w).result = .ok x) : x.Unhindered := by
  by_cases hrun : r.status = .running
  · obtain ⟨k, left, mid, result, stack', after, -, hturns, hhalt, hout⟩ := step_turns limits w hrun
    rw [hout] at hx
    obtain rfl : result = .ok x := hx
    exact hhalt.unhindered (h.turns hturns).2 hw
  · rw [step_of_ended limits w hrun] at hx
    cases hx
    exact StepResult.unhindered_faulted (by decide) none

theorem start?_secure (hp : p.Linked) (hguarded : p.Guarded) :
    ∃ r entry, Run.start? p = some r ∧ r.Linked ∧ r.Secure entry := by
  obtain ⟨entry, hentry, hstart, hlinked⟩ := start?_entry hp
  have hmem := Program.procedure?_mem hentry
  refine ⟨_, entry, hstart, hlinked, hguarded, hmem, .entry rfl rfl List.suffix_rfl, ?_⟩
  intro f hf
  obtain rfl := List.mem_singleton.1 hf
  exact (hguarded.of_procedure hmem).secure rfl

/-- A run leaves a valid world valid. -/
theorem after_valid (hw : w.Valid) (limits : Limits) (r : Run) (n : Nat) :
    (r.after limits w n).2.Valid := by
  induction n with
  | zero => exact hw
  | succ n ih =>
    rw [after_succ]
    obtain ⟨-, a, ha⟩ | ⟨-, hsame⟩ := step_performs limits (r.after limits w n).1 (r.after limits w n).2
    · exact World.perform_valid ih ha
    · exact hsame.symm ▸ ih

/-- No action of a guarded program fails. Each step of its run comes to a result in every world, and in
a valid world this is no fault of an action, whatever worlds the earlier steps were made in. A run that
begins in a valid world and is left alone stays in valid worlds. -/
theorem guarded_unhindered (hp : p.Closed) (hguarded : p.Guarded) :
    ∃ r, Run.start? p = some r ∧
      (∀ (earlier : Limits) (r' : Run), Reaches earlier r r' → ∀ (limits : Limits) (w : World),
        w.Valid → ∃ x, (r'.step limits w).result = .ok x ∧ x.Unhindered) ∧
      ∀ (limits : Limits) (w : World), w.Valid → ∀ n, (r.after limits w n).2.Valid ∧
        ∃ x, (r.stepAfter limits w n).result = .ok x ∧ x.Unhindered := by
  obtain ⟨r, entry, hstart, hlinked, hsecure⟩ := start?_secure hp.linked hguarded
  have hstep (earlier : Limits) (r' : Run) (hreach : Reaches earlier r r') (limits : Limits)
      (w : World) (hw : w.Valid) : ∃ x, (r'.step limits w).result = .ok x ∧ x.Unhindered := by
    obtain ⟨x, hx⟩ := ((hlinked.reaches hreach).step limits w).1
    exact ⟨x, hx, (hsecure.reaches hreach).unhindered hw hx⟩
  refine ⟨r, hstart, hstep, fun limits w hw n => ?_⟩
  have hvalid := after_valid hw limits r n
  exact ⟨hvalid, hstep limits _ (reaches_after r limits w n) limits _ hvalid⟩

/-- A robot that moves on as long as its way is not blocked and it has beepers. Where it finds beepers it
picks one up and turns, and elsewhere it puts one down, if it has one. -/
def forage : Program :=
  ⟨[⟨"main", [.whileLoop (.and (.not (.predicate ⟨.frontClear, false⟩ 1) 1)
        (.predicate ⟨.beepersInBag, true⟩ 1) 1)
      [.action .move 2, .call "look" 3] 1], 1⟩,
    ⟨"look", [.ifElse (.predicate ⟨.beepersPresent, true⟩ 4)
      [.action .pickBeeper 4, .action .turnLeft 4]
      [.ifElse (.predicate ⟨.beepersInBag, true⟩ 5) [.action .putBeeper 5] [] 5] 4], 4⟩], "main"⟩

/-- Only all of its worlds together tell that a way which is not blocked is clear. -/
theorem forage_guarded : forage.Guarded := by
  have hclear : (Condition.not (.predicate ⟨.frontClear, false⟩ 1) 1).Ensures ⟨.frontClear, true⟩ := by
    intro w _ h
    simpa [Condition.eval, Predicate.eval] using h
  intro e he
  simp only [Program.bodies, forage, bodyParts, Statement.parts, Statement.bodies, List.flatMap_cons,
    List.flatMap_nil, List.append_nil, List.cons_append, List.nil_append, List.mem_cons,
    List.not_mem_nil, or_false] at he
  rcases he with rfl | rfl | rfl | rfl | rfl | rfl | rfl
  · exact .of_free (by simp [Statement.needs?])
  · exact .of_ensures rfl hclear.and_left (by simp [Statement.needs?])
  · exact .of_free (by simp [Statement.needs?])
  · exact .of_ensures rfl Condition.ensures_predicate (by simp [Statement.needs?, Action.needs?])
  · exact .of_free (by simp [Statement.needs?])
  · exact .of_ensures rfl Condition.ensures_predicate (by simp)
  · exact .of_free (by simp)

/-- The corridor with a robot that has three beepers. -/
def lane : World :=
  { corridor with bag := some 3 }

/-- The robot moves in the lane, and then it is put into a closet, where it could not move; it goes on
with what it looks for, and puts a beeper down. -/
theorem guarded_unhindered_forage :
    forage.Closed ∧ forage.Guarded ∧ lane.Valid ∧ closet.Valid ∧
      ∃ r, Run.start? forage = some r ∧ (r.step ⟨2, 9⟩ lane).result = .ok .continued ∧
        ((r.step ⟨2, 9⟩ lane).run.step ⟨2, 9⟩ closet).result = .ok .continued ∧
        (∃ x, ((r.step ⟨2, 9⟩ lane).run.step ⟨2, 9⟩ closet).result = .ok x ∧ x.Unhindered) ∧
        ∀ n, (r.after ⟨2, 9⟩ lane n).2.Valid := by
  have hclosed : forage.Closed := by decide
  have hlane : lane.Valid := World.ofDescription_valid (d := ⟨2, 1, .home, [], [], some 3⟩) rfl
  have hcloset : closet.Valid := World.ofDescription_valid (d := ⟨1, 1, .home, [], [], none⟩) rfl
  obtain ⟨r, hstart, hany, halone⟩ := guarded_unhindered hclosed forage_guarded
  have hlater := hany ⟨2, 9⟩ _ (.step lane .refl) ⟨2, 9⟩ closet hcloset
  have hresult : ((r.step ⟨2, 9⟩ lane).run.step ⟨2, 9⟩ closet).result = .ok .continued := by
    obtain rfl := Option.some.inj hstart
    rfl
  have hfirst : (r.step ⟨2, 9⟩ lane).result = .ok .continued := by
    obtain rfl := Option.some.inj hstart
    rfl
  exact ⟨hclosed, forage_guarded, hlane, hcloset, r, hstart, hfirst, hresult, hlater,
    fun n => (halone ⟨2, 9⟩ lane hlane n).1⟩

end Run

end GridRobot

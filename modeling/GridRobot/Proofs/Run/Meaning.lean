import GridRobot.Run.Machine

/-!
# The meaning of programs

What a program does, by recursion on its statements and without a stack. A body does its statements
in order, a branch one of two bodies, a loop its body again and again, and a call the body of the
procedure with one more activation live.

## Main definitions

* `Course` is what doing some statements comes to: the worlds after each action, and the ending.
* `Statement.course` and `bodyCourse` are the courses of statements, given those of calls.
* `Program.callCourse` is the course of a call, and `Program.course` that of a whole program.
* `Course.observations` is what can be seen of a course, step by step.
* `Course.Begins` orders courses: one is a beginning of another.

## Design notes

A loop that goes on while a condition holds need not come to an end. So every such loop is given a
number of passes, and its course is cut when they are used up. With more passes nothing is seen
otherwise, only more is seen (`Program.course_begins`). Calls need no such number: at most `limit`
activations are live, and a call beyond them is a fault.
-/

namespace GridRobot

/-- How a course ends. -/
inductive Ending where
  /-- Everything is done, and this is the world. -/
  | done (w : World)
  /-- An action or a call meets a fault, in this world. -/
  | fault (f : Fault) (w : World)
  /-- A loop has used up its passes. -/
  | cut
  deriving Repr, DecidableEq

/-- What doing some statements comes to. -/
structure Course where
  /-- The world after each action, in order. -/
  worlds : List World
  ending : Ending
  deriving Repr, DecidableEq

/-- What is seen of one step: its result, and the world after it. -/
structure Observation where
  result : StepResult
  world : World
  deriving Repr, DecidableEq

namespace Course

/-- Nothing is left to do. -/
def done (w : World) : Course :=
  ⟨[], .done w⟩

/-- A fault of some kind, met at a line. -/
def faulted (kind : FaultKind) (line : Int) (w : World) : Course :=
  ⟨[], .fault ⟨kind, some line⟩ w⟩

/-- Nothing more is seen. -/
def cut : Course :=
  ⟨[], .cut⟩

/-- One course after another, which is not begun unless the first one is done. -/
def andThen (c : Course) (next : World → Course) : Course :=
  match c.ending with
  | .done w => ⟨c.worlds ++ (next w).worlds, (next w).ending⟩
  | _ => c

/-- The course of an action. -/
def ofAction (a : Action) (line : Int) (w : World) : Course :=
  match w.perform a with
  | .ok after => ⟨[after], .done after⟩
  | .error kind => faulted kind line w

/-- At most so many passes, as long as a condition holds before each of them. -/
def loop (c : Condition) (pass : World → Course) : Nat → World → Course
  | 0, w => if c.eval w then cut else done w
  | n + 1, w => if c.eval w then (pass w).andThen (loop c pass n) else done w

/-- So many passes. -/
def times (pass : World → Course) : Nat → World → Course
  | 0, w => done w
  | n + 1, w => (pass w).andThen (times pass n)

/-- A course is a beginning of another: it is the same, or it is cut and the other goes on. -/
def Begins (c d : Course) : Prop :=
  c = d ∨ c.ending = .cut ∧ c.worlds <+: d.worlds

/-- What is seen of an ending. -/
def lastObservation : Ending → List Observation
  | .done w => [⟨.finished, w⟩]
  | .fault f w => [⟨.fault f, w⟩]
  | .cut => []

/-- What is seen of a course: one action after the other, then the end, if there is one. -/
def observations (c : Course) : List Observation :=
  c.worlds.map (fun w => ⟨.continued, w⟩) ++ lastObservation c.ending

/-- With this course so many observations are settled: no course that it begins shows others. -/
def Settles (n : Nat) (c : Course) : Prop :=
  n ≤ c.worlds.length ∨ c.ending ≠ .cut

/-! ### One course after another -/

@[simp] theorem done_andThen (w : World) (next : World → Course) :
    (done w).andThen next = next w := by
  simp [done, andThen]

@[simp] theorem faulted_andThen (kind : FaultKind) (line : Int) (w : World)
    (next : World → Course) : (faulted kind line w).andThen next = faulted kind line w := by
  simp [faulted, andThen]

@[simp] theorem andThen_done (c : Course) : c.andThen done = c := by
  obtain ⟨worlds, ending⟩ := c
  cases ending <;> simp [andThen, done]

theorem andThen_assoc (c : Course) (f g : World → Course) :
    (c.andThen f).andThen g = c.andThen fun w => (f w).andThen g := by
  obtain ⟨worlds, ending⟩ := c
  cases ending with
  | done w => cases hf : (f w).ending <;> simp [andThen, hf]
  | fault f w => simp [andThen]
  | cut => simp [andThen]

theorem loop_of_not {c : Condition} {w : World} (h : c.eval w = false) (pass : World → Course)
    (n : Nat) : loop c pass n w = done w := by
  cases n <;> simp [loop, h]

theorem times_done (n : Nat) : times done n = done := by
  induction n with
  | zero => rfl
  | succ n ih => funext w; simp [times, ih]

/-! ### Beginnings -/

namespace Begins

@[refl] theorem refl (c : Course) : c.Begins c := .inl rfl

theorem trans {a b c : Course} (hab : a.Begins b) (hbc : b.Begins c) : a.Begins c := by
  rcases hab with rfl | ⟨hcut, hpre⟩
  · exact hbc
  · rcases hbc with rfl | ⟨_, hpre'⟩
    · exact .inr ⟨hcut, hpre⟩
    · exact .inr ⟨hcut, hpre.trans hpre'⟩

theorem cut (c : Course) : Course.cut.Begins c := .inr ⟨rfl, c.worlds.nil_prefix⟩

/-- Doing one course after another keeps beginnings. -/
theorem andThen {c d : Course} {f g : World → Course} (hcd : c.Begins d)
    (hfg : ∀ w, (f w).Begins (g w)) : (c.andThen f).Begins (d.andThen g) := by
  rcases hcd with rfl | ⟨hcut, hpre⟩
  · obtain ⟨worlds, ending⟩ := c
    cases ending with
    | done w =>
      rcases hfg w with heq | ⟨hcut, hpre⟩
      · left; simp [Course.andThen, heq]
      · right
        exact ⟨hcut, (List.prefix_append_right_inj _).2 hpre⟩
    | fault f w => exact .refl _
    | cut => exact .refl _
  · have hc : c.andThen f = c := by simp [Course.andThen, hcut]
    rw [hc]
    refine .inr ⟨hcut, hpre.trans ?_⟩
    obtain ⟨worlds, ending⟩ := d
    cases ending <;> simp [Course.andThen]

theorem loop {f g : World → Course} (c : Condition) (h : ∀ w, (f w).Begins (g w)) {m n : Nat}
    (hmn : m ≤ n) (w : World) : (Course.loop c f m w).Begins (Course.loop c g n w) := by
  induction m generalizing n w with
  | zero =>
    cases n with
    | zero => exact .refl _
    | succ n =>
      simp only [Course.loop]
      split
      · exact .cut _
      · exact .refl _
  | succ m ih =>
    obtain ⟨n, rfl⟩ : ∃ k, n = k + 1 := ⟨n - 1, by omega⟩
    simp only [Course.loop]
    split
    · exact (h w).andThen fun v => ih (by omega) v
    · exact .refl _

/-- A pass and the passes after it are a beginning of a loop with one pass more. -/
theorem pass {f g : World → Course} {c : Condition} {w : World} (h : ∀ w, (f w).Begins (g w))
    (hc : c.eval w = true) (n : Nat) :
    ((f w).andThen (Course.loop c f n)).Begins (Course.loop c g (n + 1) w) := by
  simp only [Course.loop, hc, if_true]
  exact (h w).andThen fun v => .loop c h (Nat.le_refl n) v

theorem times {f g : World → Course} (h : ∀ w, (f w).Begins (g w)) (n : Nat) (w : World) :
    (Course.times f n w).Begins (Course.times g n w) := by
  induction n generalizing w with
  | zero => exact .refl _
  | succ n ih => exact (h w).andThen ih

/-- What is settled in a beginning is settled in the whole. -/
theorem settles {c d : Course} {n : Nat} (h : c.Begins d) (hc : c.Settles n) : d.Settles n := by
  rcases h with rfl | ⟨hcut, hpre⟩
  · exact hc
  · rcases hc with hn | hne
    · exact .inl (Nat.le_trans hn hpre.length_le)
    · exact absurd hcut hne

/-- Settled observations of a beginning are those of the whole. -/
theorem take_observations {c d : Course} {n : Nat} (h : c.Begins d) (hc : c.Settles n) :
    d.observations.take n = c.observations.take n := by
  rcases h with rfl | ⟨hcut, rest, hrest⟩
  · rfl
  · have hn : n ≤ c.worlds.length := hc.resolve_right (absurd hcut)
    rw [observations, observations, ← hrest, List.map_append, List.append_assoc,
      List.take_append_of_le_length (by simpa using hn),
      List.take_append_of_le_length (by simpa using hn)]

end Begins

end Course

section

variable (call : String → Int → World → Course) (passes : Nat)

mutual

/-- The course of a statement, where `call` is that of a call of a name at a line. -/
def Statement.course : Statement → World → Course
  | .action a line => Course.ofAction a line
  | .call name line => call name line
  | .ifElse c t e _ => fun w => if c.eval w then bodyCourse t w else bodyCourse e w
  | .whileLoop c body _ => Course.loop c (bodyCourse body) passes
  | .doWhile body c _ => fun w => (bodyCourse body w).andThen (Course.loop c (bodyCourse body) passes)
  | .repeatLoop n body _ => Course.times (bodyCourse body) n.toNat

/-- The course of a row of statements. -/
def bodyCourse : List Statement → World → Course
  | [] => Course.done
  | s :: rest => fun w => (s.course w).andThen (bodyCourse rest)

end

variable {call call' : String → Int → World → Course} {m n : Nat}

mutual

theorem Statement.course_begins (hcall : ∀ name line w, (call name line w).Begins (call' name line w))
    (hmn : m ≤ n) : ∀ (s : Statement) (w : World), (s.course call m w).Begins (s.course call' n w)
  | .action _ _, _ => .refl _
  | .call name line, w => hcall name line w
  | .ifElse c t e _, w => by
    simp only [Statement.course]
    split
    · exact bodyCourse_begins hcall hmn t w
    · exact bodyCourse_begins hcall hmn e w
  | .whileLoop c body _, w => .loop c (bodyCourse_begins hcall hmn body) hmn w
  | .doWhile body c _, w =>
    (bodyCourse_begins hcall hmn body w).andThen (.loop c (bodyCourse_begins hcall hmn body) hmn)
  | .repeatLoop k body _, w => .times (bodyCourse_begins hcall hmn body) k.toNat w

/-- With more passes, and calls that show more, a body shows more. -/
theorem bodyCourse_begins (hcall : ∀ name line w, (call name line w).Begins (call' name line w))
    (hmn : m ≤ n) : ∀ (body : List Statement) (w : World),
      (bodyCourse call m body w).Begins (bodyCourse call' n body w)
  | [], _ => .refl _
  | s :: rest, w => (Statement.course_begins hcall hmn s w).andThen
      (bodyCourse_begins hcall hmn rest)

end

end

namespace Program

/-- The course of a call at a line while `live` activations are live, of which there may be no more
than `limit`. -/
def callCourse (p : Program) (limit passes live : Nat) (name : String) (line : Int) (w : World) :
    Course :=
  if limit ≤ live then .faulted .stackOverflow line w
  else match p.procedure? name with
    | none => .cut
    | some q => bodyCourse (fun n l v => p.callCourse limit passes (live + 1) n l v) passes q.body w
termination_by limit - live

/-- The course of a program that begins in a world; its entry is the first activation. -/
def course (p : Program) (limit passes : Nat) (w : World) : Course :=
  match p.procedure? p.entry with
  | none => .cut
  | some entry => bodyCourse (p.callCourse limit passes 1) passes entry.body w

theorem callCourse_full (p : Program) {limit live : Nat} (h : limit ≤ live) (passes : Nat)
    (name : String) (line : Int) (w : World) :
    p.callCourse limit passes live name line w = .faulted .stackOverflow line w := by
  rw [callCourse, if_pos h]

theorem callCourse_room {p : Program} {limit live : Nat} (h : live < limit) {name : String}
    {q : Procedure} (hq : p.procedure? name = some q) (passes : Nat) (line : Int) (w : World) :
    p.callCourse limit passes live name line w =
      bodyCourse (p.callCourse limit passes (live + 1)) passes q.body w := by
  rw [callCourse, if_neg (Nat.not_le_of_lt h), hq]

theorem callCourse_begins (p : Program) (limit : Nat) {m n : Nat} (hmn : m ≤ n) (live : Nat)
    (name : String) (line : Int) (w : World) :
    (p.callCourse limit m live name line w).Begins (p.callCourse limit n live name line w) := by
  induction hk : limit - live generalizing live name line w with
  | zero =>
    rw [callCourse, callCourse, if_pos (by omega), if_pos (by omega)]
  | succ k ih =>
    rw [callCourse, callCourse, if_neg (by omega), if_neg (by omega)]
    cases p.procedure? name with
    | none => exact .refl _
    | some q => exact bodyCourse_begins (fun n l v => ih (live + 1) n l v (by omega)) hmn q.body w

/-- With more passes for its loops a program shows more, and nothing else. -/
theorem course_begins (p : Program) (limit : Nat) {m n : Nat} (hmn : m ≤ n) (w : World) :
    (p.course limit m w).Begins (p.course limit n w) := by
  rw [course, course]
  cases p.procedure? p.entry with
  | none => exact .refl _
  | some entry => exact bodyCourse_begins (p.callCourse_begins limit hmn 1) hmn entry.body w

end Program

end GridRobot

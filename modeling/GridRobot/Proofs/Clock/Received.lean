import GridRobot.Clock.Session
import Mathlib.Algebra.BigOperators.Group.Finset.Basic
import Mathlib.Data.List.Induction
import Mathlib.Data.Nat.Cast.Basic

/-!
# What the subscribers of a clock receive

A clock loses no heartbeat and hands over none twice. Whatever the order in which subscribers come
and go and heartbeats are counted, each of them receives the heartbeats of exactly the batches for
which it was subscribed; and who came first is served first.

## Main definitions

* `Subscriber.Listens` is a subscriber that takes its heartbeats and does nothing else.
* `Clock.Occurrence` is what is done with a clock, `Clock.through` what a row of events comes to.
* `Clock.subscribed`, `Clock.attended` and `Clock.countSinceReset` are what can be told from the
  events alone.
* `Clock.InOrder` says that some subscribers are those of a clock, in the order in which they came.

## Main statements

* `Clock.through_inOrder`: the subscribers of a clock after any events.
* `Clock.batch_listens`: the calls of one batch.
* `Clock.heartbeats_settled`: what was received, in which order, and what was counted.
-/

namespace GridRobot

variable {κ : Type}

/-! ### Subscribers that listen -/

/-- The hook of a call that hands over heartbeats. -/
def Hook.Hands (h : Hook) : Prop :=
  h = .batch ∨ h = .single ∨ h = .heartbeat

/-- A subscriber that takes its heartbeats in one of three ways, never fails, and leaves the clock
alone. -/
structure Subscriber.Listens (s : Subscriber κ) : Prop where
  hands : s.hook.Hands
  removes : s.removes = none
  adds : s.adds = none
  fails : s.fails = false

/-- A batch is handed over whole, at once or one by one. -/
theorem Hook.Hands.sum_calls {h : Hook} (hh : h.Hands) (n : Nat) :
    ((h.calls n).map Call.size).sum = n := by
  rcases hh with rfl | rfl | rfl <;> simp [calls, Call.size]

theorem Subscriber.Listens.actedOn [DecidableEq κ] {s : Subscriber κ} (h : s.Listens)
    (c : Clock κ) : c.actedOn s = c := by
  simp [Clock.actedOn, h.removes, h.adds]

/-- Number of heartbeats that a subscriber received by some calls. -/
def received [DecidableEq κ] (k : κ) (made : List (Made κ)) : Nat :=
  ((made.filter (·.subscriber = k)).map (·.call.size)).sum

section Received

variable [DecidableEq κ] {k : κ}

@[simp] theorem received_nil : received k [] = 0 := rfl

@[simp] theorem received_append (made more : List (Made κ)) :
    received k (made ++ more) = received k made + received k more := by
  simp [received]

/-- By calls of one subscriber nobody else receives anything. -/
theorem received_calls (j : κ) (calls : List Call) (count : Nat) :
    received k (calls.map fun call => ⟨j, call, count⟩) =
      if j = k then (calls.map Call.size).sum else 0 := by
  by_cases h : j = k <;> simp [received, List.filter_map, Function.comp_def, h]

end Received

namespace Clock

/-! ### One batch -/

/-- The calls by which some subscribers are served one after the other. -/
def served (who : κ → Subscriber κ) (order : List κ) (n count : Nat) : List (Made κ) :=
  order.flatMap fun k => ((who k).hook.calls n).map fun call => ⟨k, call, count⟩

variable [DecidableEq κ] {who : κ → Subscriber κ} {c : Clock κ} {k j : κ} {n : Nat}

/-- Who is served once receives the batch once. -/
theorem received_served (hwho : ∀ k, (who k).Listens) {order : List κ} (hnodup : order.Nodup)
    (n count : Nat) : received k (served who order n count) = if k ∈ order then n else 0 := by
  induction order with
  | nil => rfl
  | cons j order ih =>
    obtain ⟨hj, hnodup⟩ := List.nodup_cons.1 hnodup
    have hsplit : served who (j :: order) n count =
        (((who j).hook.calls n).map fun call => ⟨j, call, count⟩) ++ served who order n count := rfl
    rw [hsplit, received_append, received_calls, (hwho j).hands.sum_calls, ih hnodup]
    by_cases hk : j = k
    · subst hk
      simp [hj]
    · simp [hk, Ne.symm hk]

/-- Subscribers that listen get all the calls that are made to them. -/
theorem make_listens (hwho : ∀ k, (who k).Listens) (c : Clock κ) (calls : List (κ × Call)) :
    c.make who calls = (none, c, calls.map fun call => ⟨call.1, call.2, c.beatCount⟩) := by
  induction calls with
  | nil => rfl
  | cons call rest ih =>
    obtain ⟨k, call⟩ := call
    have hhook : (who k).hook ≠ .misfit := by
      rcases (hwho k).hands with h | h | h <;> rw [h] <;> decide
    simp only [make, hhook, (hwho k).fails, (hwho k).actedOn, ih, if_false, Bool.false_eq_true,
      List.map_cons]

/-- A batch is counted, and then every subscriber is served; an empty one is not handed over. -/
theorem batch_listens (hwho : ∀ k, (who k).Listens) (c : Clock κ) (n : Nat) :
    c.batch who n = (none, { c with beatCount := c.beatCount + n },
      if n = 0 then [] else served who c.subscribers n (c.beatCount + n)) := by
  cases n with
  | zero => rfl
  | succ n =>
    have hneg : ¬ ((n + 1 : ℕ) : ℤ) < 0 := by omega
    have hne : ((n + 1 : ℕ) : ℤ) ≠ 0 := by omega
    rw [batch, tick?, if_neg hneg, if_neg hne]
    show make who _ _ = _
    rw [make_listens hwho, if_neg (Nat.succ_ne_zero n)]
    simp [deliveries, served, List.map_flatMap, Function.comp_def]

/-! ### Events -/

/-- What is done with a clock. -/
inductive Occurrence (κ : Type) where
  | subscribe (k : κ)
  | unsubscribe (k : κ)
  | tick (beats : Nat)
  | reset
  deriving Repr, DecidableEq

namespace Occurrence

/-- Number of heartbeats of an event. -/
def beats : Occurrence κ → Nat
  | tick n => n
  | _ => 0

/-- What an event says of whether somebody is to be subscribed, if it says anything. -/
def says? (k : κ) : Occurrence κ → Option Bool
  | subscribe j => if j = k then some true else none
  | unsubscribe j => if j = k then some false else none
  | _ => none

end Occurrence

/-- An event: how it failed, the clock after it, and the calls that were made. -/
def occur (who : κ → Subscriber κ) (c : Clock κ) :
    Occurrence κ → Option (BatchFailure κ) × Clock κ × List (Made κ)
  | .subscribe k => (none, c.subscribe k, [])
  | .unsubscribe k => (none, c.unsubscribe k, [])
  | .tick n => c.batch who n
  | .reset => (none, c.reset, [])

/-- The clock after some events, and all calls that were made. -/
def through (who : κ → Subscriber κ) (c : Clock κ) (history : List (Occurrence κ)) :
    Clock κ × List (Made κ) :=
  history.foldl
    (fun past e => ((past.1.occur who e).2.1, past.2 ++ (past.1.occur who e).2.2)) (c, [])

theorem through_concat (history : List (Occurrence κ)) (e : Occurrence κ) :
    c.through who (history ++ [e]) =
      (((c.through who history).1.occur who e).2.1,
        (c.through who history).2 ++ ((c.through who history).1.occur who e).2.2) := by
  rw [through, List.foldl_append]
  rfl

/-- Is somebody subscribed after some events? The last one that says anything about it decides. -/
def subscribed (history : List (Occurrence κ)) (k : κ) : Bool :=
  (history.filterMap (Occurrence.says? k)).getLast?.getD false

/-- Number of heartbeats that were counted while somebody was subscribed. -/
def attended (history : List (Occurrence κ)) (k : κ) : Nat :=
  ∑ i ∈ Finset.range history.length,
    if subscribed (history.take i) k then (history[i]?.map Occurrence.beats).getD 0 else 0

/-- Number of heartbeats that were counted since the count was last set to zero. -/
def countSinceReset (history : List (Occurrence κ)) : Nat :=
  ((history.reverse.takeWhile (· ≠ .reset)).map Occurrence.beats).sum

/-- Somebody was already subscribed when another one came, and both have stayed since then. -/
def Precedes (history : List (Occurrence κ)) (j k : κ) : Prop :=
  ∃ before after, history = before ++ .subscribe k :: after ∧ subscribed before j = true ∧
    subscribed before k = false ∧ .unsubscribe j ∉ after ∧ .unsubscribe k ∉ after

/-- These are the subscribers after some events, each of them once, in the order in which they
came. -/
structure InOrder (history : List (Occurrence κ)) (order : List κ) : Prop where
  nodup : order.Nodup
  mem_iff : ∀ k, k ∈ order ↔ subscribed history k = true
  precedes : order.Pairwise (Precedes history)

section History

variable {history : List (Occurrence κ)} {order : List κ} {e : Occurrence κ}

theorem subscribed_concat (history : List (Occurrence κ)) (e : Occurrence κ) (k : κ) :
    subscribed (history ++ [e]) k = (e.says? k).getD (subscribed history k) := by
  unfold subscribed
  rw [List.filterMap_append]
  cases h : e.says? k <;> simp [h]

theorem attended_concat (history : List (Occurrence κ)) (e : Occurrence κ) (k : κ) :
    attended (history ++ [e]) k =
      attended history k + if subscribed history k then e.beats else 0 := by
  unfold attended
  rw [List.length_append, List.length_singleton, Finset.sum_range_succ]
  congr 1
  · refine Finset.sum_congr rfl fun i hi => ?_
    have hlt : i < history.length := Finset.mem_range.1 hi
    rw [List.take_append_of_le_length hlt.le, List.getElem?_append_left hlt]
  · simp

theorem countSinceReset_concat (history : List (Occurrence κ)) (e : Occurrence κ) :
    countSinceReset (history ++ [e]) =
      if e = .reset then 0 else countSinceReset history + e.beats := by
  unfold countSinceReset
  by_cases h : e = .reset <;> simp [h, Nat.add_comm]

/-- Who came first stays first as long as both stay. -/
theorem Precedes.concat (h : Precedes history j k) (hj : e ≠ .unsubscribe j)
    (hk : e ≠ .unsubscribe k) : Precedes (history ++ [e]) j k := by
  obtain ⟨before, after, rfl, hbefore, hcame, hstays, hstays'⟩ := h
  refine ⟨before, after ++ [e], by simp, hbefore, hcame, ?_, ?_⟩
  · simp [hstays, Ne.symm hj]
  · simp [hstays', Ne.symm hk]

/-! ### The subscribers of a clock -/

/-- An event that is about nobody leaves the subscribers as they are. -/
theorem InOrder.concat_silent (h : InOrder history order) (he : ∀ k, e.says? k = none) :
    InOrder (history ++ [e]) order where
  nodup := h.nodup
  mem_iff k := by rw [h.mem_iff, subscribed_concat, he, Option.getD_none]
  precedes := by
    have hnot (k : κ) : e ≠ .unsubscribe k := by
      rintro rfl
      simpa [Occurrence.says?] using he k
    exact h.precedes.imp fun hjk => hjk.concat (hnot _) (hnot _)

/-- Who comes anew is last; who is there already keeps the old place. -/
theorem InOrder.subscribe (h : InOrder history c.subscribers) (k : κ) :
    InOrder (history ++ [.subscribe k]) (c.subscribe k).subscribers := by
  have hpairs : c.subscribers.Pairwise (Precedes (history ++ [.subscribe k])) :=
    h.precedes.imp fun hjk => hjk.concat nofun nofun
  have htold (i : κ) :
      subscribed (history ++ [.subscribe k]) i = true ↔ k = i ∨ i ∈ c.subscribers := by
    rw [subscribed_concat, h.mem_iff]
    by_cases hi : k = i <;> simp [Occurrence.says?, hi]
  unfold Clock.subscribe
  split
  · next hmem =>
    refine ⟨h.nodup, fun i => ?_, hpairs⟩
    rw [htold]
    exact ⟨.inr, fun hi => hi.elim (fun hki => hki ▸ hmem) id⟩
  · next hmem =>
    refine ⟨?_, fun i => ?_, ?_⟩
    · exact List.nodup_append.2 ⟨h.nodup, List.nodup_singleton k, fun i hi j hj hij =>
        hmem (List.mem_singleton.1 hj ▸ hij ▸ hi)⟩
    · rw [htold, List.mem_append, List.mem_singleton, or_comm, eq_comm]
    · refine List.pairwise_append.2 ⟨hpairs, List.pairwise_singleton _ k, fun i hi j hj => ?_⟩
      obtain rfl := List.mem_singleton.1 hj
      have habsent : subscribed history j = false := by
        rw [← Bool.not_eq_true, ← h.mem_iff]
        exact hmem
      exact ⟨history, [], rfl, (h.mem_iff i).1 hi, habsent, List.not_mem_nil, List.not_mem_nil⟩

/-- Who goes is left out, and the others keep their order. -/
theorem InOrder.unsubscribe (h : InOrder history c.subscribers) (k : κ) :
    InOrder (history ++ [.unsubscribe k]) (c.unsubscribe k).subscribers := by
  have hmem (i : κ) : i ∈ c.subscribers.erase k ↔ i ≠ k ∧ i ∈ c.subscribers := h.nodup.mem_erase_iff
  refine ⟨h.nodup.erase k, fun i => ?_, ?_⟩
  · show i ∈ c.subscribers.erase k ↔ _
    rw [hmem, subscribed_concat, h.mem_iff]
    by_cases hi : k = i
    · simp [Occurrence.says?, hi]
    · simp [Occurrence.says?, hi, Ne.symm hi]
  · refine (h.precedes.sublist List.erase_sublist).imp_of_mem fun hj hi hjk => hjk.concat ?_ ?_
    · rintro ⟨⟩
      exact ((hmem _).1 hj).1 rfl
    · rintro ⟨⟩
      exact ((hmem _).1 hi).1 rfl

/-- The subscribers of a clock, after any events. -/
theorem through_inOrder (hc : c.subscribers = []) (hwho : ∀ k, (who k).Listens)
    (history : List (Occurrence κ)) : InOrder history (c.through who history).1.subscribers := by
  induction history using List.reverseRecOn with
  | nil =>
    show InOrder [] c.subscribers
    rw [hc]
    exact ⟨List.nodup_nil, fun k => by simp [subscribed], List.Pairwise.nil⟩
  | append_singleton history e ih =>
    rw [through_concat]
    cases e with
    | subscribe k => exact ih.subscribe k
    | unsubscribe k => exact ih.unsubscribe k
    | tick n =>
      show InOrder _ ((c.through who history).1.batch who n).2.1.subscribers
      rw [batch_listens hwho]
      exact ih.concat_silent fun _ => rfl
    | reset => exact ih.concat_silent fun _ => rfl

end History

/-! ### The accounts -/

theorem through_beatCount (hc : c.beatCount = 0) (hwho : ∀ k, (who k).Listens)
    (history : List (Occurrence κ)) :
    (c.through who history).1.beatCount = countSinceReset history := by
  induction history using List.reverseRecOn with
  | nil => exact hc
  | append_singleton history e ih =>
    rw [through_concat, countSinceReset_concat]
    cases e with
    | subscribe k =>
      show ((c.through who history).1.subscribe k).beatCount = _
      unfold Clock.subscribe
      split <;> exact ih
    | unsubscribe k => exact ih
    | tick n =>
      show ((c.through who history).1.batch who n).2.1.beatCount = _
      rw [batch_listens hwho, ih]
      rfl
    | reset => rfl

/-- Every subscriber has received the heartbeats that were counted while it was subscribed. -/
theorem received_through (hc : c.subscribers = []) (hwho : ∀ k, (who k).Listens)
    (history : List (Occurrence κ)) (k : κ) :
    received k (c.through who history).2 = attended history k := by
  induction history using List.reverseRecOn with
  | nil => rfl
  | append_singleton history e ih =>
    rw [through_concat, received_append, attended_concat, ih]
    congr 1
    cases e with
    | tick n =>
      have horder := through_inOrder hc hwho history
      show received k ((c.through who history).1.batch who n).2.2 = if _ then n else 0
      rw [batch_listens hwho]
      by_cases hn : n = 0
      · simp [hn]
      · simp only [hn, if_false, received_served hwho horder.nodup, horder.mem_iff]
    | _ => simp [occur, Occurrence.beats]

/-- A new clock has counted, after any events, the heartbeats since its count was last set to zero.
Whatever has come and gone meanwhile, each subscriber has received the heartbeats that were counted
while it was subscribed, however often it was put on the clock in a row. No event fails; and in a
batch all who are subscribed are served, each of them once, in the order in which they came. -/
theorem heartbeats_settled {milliseconds : Int} (hc : ofInterval? milliseconds = some c)
    (hwho : ∀ k, (who k).Listens) (history : List (Occurrence κ)) :
    (c.through who history).1.beatCount = countSinceReset history ∧
      (∀ k, received k (c.through who history).2 = attended history k) ∧
      ∀ before e after, history = before ++ e :: after →
        let now := (c.through who before).1
        (now.occur who e).1 = none ∧
          ∀ n, e = .tick n → ∃ order, InOrder before order ∧ (now.occur who e).2.2 =
            if n = 0 then [] else served who order n (now.beatCount + n) := by
  obtain ⟨hcount, hnobody⟩ : c.beatCount = 0 ∧ c.subscribers = [] := by
    unfold ofInterval? at hc
    split at hc <;> cases hc
    exact ⟨rfl, rfl⟩
  refine ⟨through_beatCount hcount hwho history, received_through hnobody hwho history, ?_⟩
  rintro before e after - now
  refine ⟨?_, ?_⟩
  · cases e with
    | tick n => exact congrArg Prod.fst (batch_listens hwho now n)
    | _ => rfl
  · rintro n rfl
    exact ⟨now.subscribers, through_inOrder hnobody hwho before,
      congrArg (·.2.2) (batch_listens hwho now n)⟩

/-- One subscriber takes batches, one is called for each heartbeat though it could take a number,
and the others take single heartbeats only. -/
def threeWays (k : Nat) : Subscriber Nat :=
  ⟨if k = 0 then .batch else if k = 1 then .single else .heartbeat, none, none, false⟩

/-- The third subscriber is put on the clock twice, taken off once and put on again; it gets the
heartbeats of the first and of the last batch, and in the last one it comes after the others. -/
theorem heartbeats_settled_threeWays :
    let c : Clock Nat := ⟨8, 0, []⟩
    let before : List (Occurrence Nat) := [.subscribe 2, .subscribe 0, .subscribe 2, .tick 3,
      .unsubscribe 2, .tick 4, .reset, .subscribe 1, .subscribe 2]
    let history := before ++ [.tick 2]
    ofInterval? 8 = some c ∧ (∀ k, (threeWays k).Listens) ∧
      (c.through threeWays history).1.beatCount = 2 ∧
      received 0 (c.through threeWays history).2 = 9 ∧
      received 2 (c.through threeWays history).2 = 5 ∧
      ∃ order, InOrder before order ∧
        ((c.through threeWays before).1.occur threeWays (.tick 2)).2.2 =
          served threeWays order 2 2 := by
  intro c before history
  have hwho (k : Nat) : (threeWays k).Listens := by
    refine ⟨?_, rfl, rfl, rfl⟩
    unfold threeWays Hook.Hands
    grind
  have hc : ofInterval? 8 = some c := rfl
  obtain ⟨hcount, hreceived, hserved⟩ := heartbeats_settled hc hwho history
  refine ⟨hc, hwho, hcount.trans (by decide), (hreceived 0).trans (by decide),
    (hreceived 2).trans (by decide), ?_⟩
  obtain ⟨order, horder, hcalls⟩ := (hserved before (.tick 2) [] rfl).2 2 rfl
  have hnow : (c.through threeWays before).1.beatCount = 0 := by decide
  rw [if_neg (by decide), hnow] at hcalls
  exact ⟨order, horder, hcalls⟩

end Clock

end GridRobot

import Mathlib.Data.List.Basic
import CropLedger.Proofs.Report.FailedJobs

/-!
# The waits of a consumer that reconnects

A consumer waits after every miss: an attempt to set up that fails, and a connection that is lost.
How long it waits depends on the number of misses since it was last set up, or since it started, and
on nothing else. The waits double from the shortest one for as many misses as a schedule has waits;
from then on each is the longest one, which is not where the doubling would have come to.

* `Consumer.missesInRow`: the misses since the last set-up, read off a history;
* `Backoff.waitAfter`: the wait after some misses in a row;
* `Consumer.used_after`: how far the schedule has been used up by a history;
* `Consumer.waits_double_three_times`: the waits of a row of misses.
-/

namespace CropLedger

/-- The wait of a consumer that has missed a number of times before in the same row. -/
def Backoff.waitAfter (misses : Nat) : Nat :=
  if misses < maxTimes then shortest * 2 ^ misses else longest

theorem Backoff.next_of_used {b : Backoff} {misses : Nat} (h : b.used = min misses maxTimes) :
    b.next = (waitAfter misses, ⟨min (misses + 1) maxTimes⟩) := by
  obtain ⟨used⟩ := b
  obtain rfl : used = min misses maxTimes := h
  unfold next waitAfter
  by_cases hm : misses < maxTimes
  · have hused : min misses maxTimes = misses := Nat.min_eq_left hm.le
    have hcap : ∀ k, k < maxTimes → shortest * 2 ^ k ≤ longest := by decide
    rw [hused, if_pos hm, if_pos hm, Nat.pow_eq, Nat.min_eq_left (hcap misses hm),
      Nat.min_eq_left hm]
  · have hused : min misses maxTimes = maxTimes := Nat.min_eq_right (Nat.not_lt.1 hm)
    rw [hused, if_neg (lt_irrefl _), if_neg hm,
      Nat.min_eq_right (Nat.le_succ_of_le (Nat.not_lt.1 hm))]

namespace Consumer

/-- Whether a consumer has to set itself up again, and to wait before it does. -/
def isMiss : ConsumerEvent → Bool
  | .setupFailed | .deliveryFailed | .ended => true
  | .setUp | .delivery _ => false

/-- The number of misses since the last set-up that worked, or since the start. -/
def missesInRow (events : List ConsumerEvent) : Nat :=
  (events.reverse.takeWhile fun e => e ≠ .setUp).countP isMiss

/-! ### Histories and their last event -/

section Histories

variable {c : Consumer} {events later : List ConsumerEvent} {e : ConsumerEvent}

theorem run_cons (c : Consumer) (e : ConsumerEvent) (events : List ConsumerEvent) :
    c.run (e :: events) = (c.step e).1 ++ (c.step e).2.run events := rfl

theorem run_append (c : Consumer) (events later : List ConsumerEvent) :
    c.run (events ++ later) = c.run events ++ (c.after events).run later := by
  induction events generalizing c with
  | nil => rfl
  | cons e events ih =>
    rw [List.cons_append, run_cons, run_cons, ih, List.append_assoc]
    rfl

theorem run_concat (c : Consumer) (events : List ConsumerEvent) (e : ConsumerEvent) :
    c.run (events ++ [e]) = c.run events ++ ((c.after events).step e).1 := by
  rw [run_append, run_cons, run, List.append_nil]

theorem sees_append : c.Sees (events ++ later) ↔ c.Sees events ∧ (c.after events).Sees later := by
  induction events generalizing c with
  | nil => exact (true_and _).symm.to_iff
  | cons e events ih =>
    rw [List.cons_append, Sees, Sees, ih, and_assoc]
    rfl

theorem sees_concat : c.Sees (events ++ [e]) ↔ c.Sees events ∧ (c.after events).CanSee e := by
  rw [sees_append]
  exact and_congr_right fun _ => (and_true _).to_iff

theorem after_concat : c.after (events ++ [e]) = ((c.after events).step e).2 := by
  rw [after, List.foldl_append]
  rfl

theorem missesInRow_setUp : missesInRow (events ++ [.setUp]) = 0 := by
  simp [missesInRow]

theorem missesInRow_delivery {payload : Bytes} :
    missesInRow (events ++ [.delivery payload]) = missesInRow events := by
  simp [missesInRow, isMiss]

theorem missesInRow_miss (he : isMiss e) :
    missesInRow (events ++ [e]) = missesInRow events + 1 := by
  cases e with
  | setUp | delivery _ => cases he
  | setupFailed | deliveryFailed | ended => simp [missesInRow, List.countP_cons, isMiss]

end Histories

/-! ### The schedule along a history -/

/-- What a consumer does about a miss: it waits, and is no longer set up. -/
theorem step_of_isMiss {c : Consumer} {e : ConsumerEvent} (hc : c.CanSee e) (he : isMiss e) :
    c.step e = c.pause := by
  cases e with
  | setupFailed => exact if_neg (Bool.eq_false_iff.1 hc)
  | deliveryFailed | ended => exact if_pos (show c.isSetUp = true from hc)
  | setUp | delivery _ => cases he

/-- **How far the schedule has been used up is told by the misses since the last set-up.** -/
theorem used_after {events : List ConsumerEvent} (h : start.Sees events) :
    (start.after events).backoff.used = min (missesInRow events) Backoff.maxTimes := by
  induction events using List.reverseRecOn with
  | nil => rfl
  | append_singleton events e ih =>
    obtain ⟨hseen, hcan⟩ := sees_concat.1 h
    have ih := ih hseen
    rw [after_concat]
    cases e with
    | setUp =>
      rw [missesInRow_setUp, step, if_neg (Bool.eq_false_iff.1 hcan)]
      rfl
    | delivery payload =>
      rw [missesInRow_delivery]
      exact ih
    | setupFailed | deliveryFailed | ended =>
      rw [step_of_isMiss hcan rfl, missesInRow_miss rfl, pause, Backoff.next_of_used ih]

/-- **The wait after a miss** depends on the misses in the same row alone. -/
theorem run_concat_miss {events : List ConsumerEvent} {e : ConsumerEvent}
    (h : start.Sees (events ++ [e])) (he : isMiss e) :
    start.run (events ++ [e]) =
      start.run events ++ [.wait (Backoff.waitAfter (missesInRow events))] := by
  obtain ⟨hseen, hcan⟩ := sees_concat.1 h
  rw [run_concat, step_of_isMiss hcan he, pause, Backoff.next_of_used (used_after hseen)]

theorem missesInRow_failures (before : List ConsumerEvent) (n : Nat) :
    missesInRow (before ++ List.replicate n .setupFailed) = missesInRow before + n := by
  induction n with
  | zero => simp
  | succ n ih => rw [List.replicate_succ', ← List.append_assoc, missesInRow_miss rfl, ih]; rfl

/-- The waits after set-ups that fail one after another. -/
theorem run_append_failures {before : List ConsumerEvent} {n : Nat}
    (h : start.Sees (before ++ List.replicate n .setupFailed)) :
    start.run (before ++ List.replicate n .setupFailed) =
      start.run before ++
        (List.range n).map fun i => .wait (Backoff.waitAfter (missesInRow before + i)) := by
  induction n with
  | zero => simp
  | succ n ih =>
    rw [List.replicate_succ', ← List.append_assoc] at h ⊢
    rw [run_concat_miss h rfl, ih (sees_concat.1 h).1, missesInRow_failures, List.range_succ,
      List.map_append, List.append_assoc]
    rfl

/-! ### Connections -/

section Connections

variable {earlier : List ConsumerEvent} {payloads : List Bytes} {lost : ConsumerEvent}

theorem missesInRow_connected :
    missesInRow (earlier ++ .setUp :: payloads.map .delivery) = 0 := by
  induction payloads using List.reverseRecOn with
  | nil => exact missesInRow_setUp
  | append_singleton payloads payload ih =>
    rw [List.map_append, ← List.cons_append, ← List.append_assoc]
    exact missesInRow_delivery.trans ih

/-- A connection hands on what it is sent. -/
theorem run_connected (h : start.Sees (earlier ++ .setUp :: payloads.map .delivery)) :
    start.run (earlier ++ .setUp :: payloads.map .delivery) =
      start.run earlier ++ payloads.map .handle := by
  induction payloads using List.reverseRecOn with
  | nil =>
    rw [List.map_nil, List.map_nil, run_concat]
    rfl
  | append_singleton payloads payload ih =>
    rw [List.map_append, ← List.cons_append, ← List.append_assoc] at h ⊢
    obtain ⟨hseen, hcan⟩ := sees_concat.1 h
    have hup : (start.after (earlier ++ .setUp :: payloads.map .delivery)).isSetUp = true := hcan
    rw [List.map_singleton, run_concat, ih hseen, List.map_append, List.append_assoc, step,
      if_pos hup]
    rfl

end Connections

/-! ### The waits of a row -/

/-- **The waits of a consumer in a row of misses.** However the history before went, set-ups that
fail one after another are waited after by the number of misses of the row. The row starts with the
consumer, or with the loss of a connection, which is waited after as the first miss of its row. The
first three waits of a row double from the shortest one; all later ones are the longest. -/
theorem waits_double_three_times {before : List ConsumerEvent} {n : Nat}
    (h : start.Sees (before ++ List.replicate n .setupFailed)) :
    start.run (before ++ List.replicate n .setupFailed) =
        start.run before ++
          (List.range n).map (fun i => .wait (Backoff.waitAfter (missesInRow before + i))) ∧
      (before = [] → missesInRow before = 0) ∧
      (∀ (earlier : List ConsumerEvent) (payloads : List Bytes) (lost : ConsumerEvent),
        before = earlier ++ .setUp :: payloads.map .delivery ++ [lost] →
        isMiss lost = true →
        missesInRow before = 1 ∧
          start.run before =
            start.run earlier ++ payloads.map .handle ++ [.wait (Backoff.waitAfter 0)]) ∧
      (∀ misses < 3, Backoff.waitAfter misses = min (100 * 2 ^ misses) 30000) ∧
      ∀ misses, 3 ≤ misses → Backoff.waitAfter misses = 30000 := by
  refine ⟨run_append_failures h, ?_, ?_, by decide, fun misses hm => if_neg (Nat.not_lt.2 hm)⟩
  · rintro rfl
    rfl
  · rintro earlier payloads lost rfl hlost
    have hseen := (sees_append.1 h).1
    rw [run_concat_miss hseen hlost, run_connected (sees_concat.1 hseen).1, missesInRow_miss hlost,
      missesInRow_connected]
    exact ⟨rfl, rfl⟩

theorem waits_double_three_times_sample :
    start.Sees ([.setupFailed, .setUp, .delivery [65], .ended] ++ List.replicate 3 .setupFailed) ∧
      start.run ([.setupFailed, .setUp, .delivery [65], .ended] ++ List.replicate 3 .setupFailed) =
        [.wait 100, .handle [65], .wait 100, .wait 200, .wait 400, .wait 30000] := by
  have hseen : start.Sees
      ([.setupFailed, .setUp, .delivery [65], .ended] ++ List.replicate 3 .setupFailed) :=
    ⟨rfl, rfl, rfl, rfl, rfl, rfl, rfl, trivial⟩
  refine ⟨hseen, ?_⟩
  rw [(waits_double_three_times hseen).1]
  decide

/-- The fourth wait of a row is not twice the third one, but the longest. -/
theorem fourth_wait_jumps :
    start.Sees (List.replicate 4 .setupFailed) ∧
      start.run (List.replicate 4 .setupFailed) =
        [.wait 100, .wait 200, .wait 400, .wait 30000] ∧
      min (100 * 2 ^ 3) 30000 ≠ 30000 :=
  ⟨⟨rfl, rfl, rfl, rfl, trivial⟩, by decide, by decide⟩

end Consumer

end CropLedger

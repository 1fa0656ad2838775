import Sp1Tee.Foundation.Machine

/-!
# A worker and its pace

A worker does the same work again and again. It pauses before the first time and after
work that failed. After work that succeeded it waits for the next tick of an interval.
The first tick is due when the first pause is over, and each further one a period after
the one before, no matter when that one was taken: ticks that were missed are made up
for without a wait.

`Paced` bounds from above how often a worker can have succeeded and failed by now, and
`Fresh` bounds the time since it last succeeded. The second needs a worker that is
`Prompt`: nobody can bound the work, or how late a wait is noticed to be over.
-/

namespace Foundation

inductive Pacer.Stage
  /-- It pauses for the first time. -/
  | starting
  | working
  /-- It pauses after work that failed. -/
  | pausing
  /-- It waits for a tick. -/
  | ticking
deriving DecidableEq

structure Pacer where
  now : ℕ
  stage : Pacer.Stage
  /-- When it got to its stage. -/
  since : ℕ
  /-- When the next tick is due. -/
  deadline : ℕ

namespace Pacer

inductive Action
  | elapse (time : ℕ)
  /-- A wait is over. -/
  | wake
  | finish (ok : Bool)

def start : Pacer where
  now := 0
  stage := .starting
  since := 0
  deadline := 0

variable (pause period : ℕ)

def due (s : Pacer) : Option ℕ :=
  match s.stage with
  | .working => none
  | .starting | .pausing => some (s.since + pause)
  | .ticking => some s.deadline

def wake (s : Pacer) : Pacer where
  now := s.now
  stage := .working
  since := s.now
  deadline :=
    match s.stage with
    | .starting => s.now
    | .ticking => s.deadline + period
    | _ => s.deadline

def finish (s : Pacer) (ok : Bool) : Pacer where
  now := s.now
  stage := if ok then .ticking else .pausing
  since := s.now
  deadline := s.deadline

/-- The events say when work was finished, and whether it succeeded. -/
def machine : Machine Pacer Action (ℕ × Bool) where
  step s a :=
    match a with
    | .elapse time => some ({ s with now := s.now + time }, [])
    | .wake =>
      match s.due pause with
      | none => none
      | some time => if time ≤ s.now then some (s.wake period, []) else none
    | .finish ok =>
      if s.stage = .working then some (s.finish ok, [(s.now, ok)]) else none

def succeeded (es : List (ℕ × Bool)) : ℕ := es.countP fun e => e.2

def failed (es : List (ℕ × Bool)) : ℕ := es.countP fun e => !e.2

variable {pause period} {s s' : Pacer} {a : Action} {past es : List (ℕ × Bool)}

theorem step_cases (hstep : (machine pause period).step s a = some (s', es)) :
    (∃ time, a = .elapse time ∧ s' = { s with now := s.now + time } ∧ es = []) ∨
      (∃ time, a = .wake ∧ s.due pause = some time ∧ time ≤ s.now ∧ s' = s.wake period ∧
        es = []) ∨
      ∃ ok, a = .finish ok ∧ s.stage = .working ∧ s' = s.finish ok ∧ es = [(s.now, ok)] := by
  cases a with
  | elapse time =>
      cases hstep
      exact Or.inl ⟨time, rfl, rfl, rfl⟩
  | wake =>
      simp only [machine] at hstep
      split at hstep
      · cases hstep
      · next time hdue =>
        split at hstep
        · next hle =>
          cases hstep
          exact Or.inr (Or.inl ⟨time, rfl, hdue, hle, rfl, rfl⟩)
        · cases hstep
  | finish ok =>
      simp only [machine] at hstep
      split at hstep
      · next hworking =>
        cases hstep
        exact Or.inr (Or.inr ⟨ok, rfl, hworking, rfl, rfl⟩)
      · cases hstep

/-! ## How often -/

/-- The pauses that are over, after `n` times of failing. -/
def pausesAfter (n : ℕ) : Stage → ℕ
  | .starting | .pausing => n
  | .working | .ticking => n + 1

/-- The ticks that were taken, after `n` times of succeeding. -/
def ticksAfter (n : ℕ) : Stage → ℕ
  | .ticking => n - 1
  | _ => n

/-- Each failure has cost a pause, and each success but the last two a period. -/
structure Paced (pause period : ℕ) (s : Pacer) (past : List (ℕ × Bool)) : Prop where
  since : s.since ≤ s.now
  pauses : pause * pausesAfter (failed past) s.stage ≤ s.since
  starting : s.stage = .starting → past = []
  ticking : s.stage = .ticking → 0 < succeeded past
  deadline : s.stage ≠ .starting → ∃ first, pause ≤ first ∧ first ≤ s.since ∧
    s.deadline = first + period * ticksAfter (succeeded past) s.stage ∧
    s.deadline ≤ s.since + period

theorem succeeded_append (es es' : List (ℕ × Bool)) :
    succeeded (es ++ es') = succeeded es + succeeded es' :=
  List.countP_append

theorem failed_append (es es' : List (ℕ × Bool)) : failed (es ++ es') = failed es + failed es' :=
  List.countP_append

theorem paced_start : Paced pause period start [] where
  since := Nat.le_refl 0
  pauses := Nat.le_refl 0
  starting _ := rfl
  ticking := nofun
  deadline h := absurd rfl h

theorem Paced.elapse (h : Paced pause period s past) (time : ℕ) :
    Paced pause period { s with now := s.now + time } past where
  since := Nat.le_trans h.since (Nat.le_add_right _ _)
  pauses := h.pauses
  starting := h.starting
  ticking := h.ticking
  deadline := h.deadline

theorem Paced.wake (h : Paced pause period s past) {time : ℕ} (hdue : s.due pause = some time)
    (hle : time ≤ s.now) : Paced pause period (s.wake period) past := by
  have hpauses := h.pauses
  have hsince := h.since
  refine ⟨Nat.le_refl _, ?_, nofun, nofun, fun _ => ?_⟩
  · show pause * (failed past + 1) ≤ s.now
    cases hstage : s.stage with
    | working => simp [due, hstage] at hdue
    | ticking =>
        rw [hstage] at hpauses
        exact Nat.le_trans hpauses hsince
    | starting | pausing =>
        rw [hstage] at hpauses
        simp only [due, hstage, Option.some.injEq] at hdue
        simp only [pausesAfter] at hpauses
        rw [Nat.mul_succ]
        omega
  · cases hstage : s.stage with
    | working => simp [due, hstage] at hdue
    | starting =>
        simp only [due, hstage, Option.some.injEq] at hdue
        refine ⟨s.now, by omega, Nat.le_refl _, ?_, ?_⟩
        · simp [Pacer.wake, hstage, ticksAfter, h.starting hstage, succeeded]
        · simp [Pacer.wake, hstage]
    | pausing =>
        obtain ⟨first, hfirst, hstart, heq, hsoon⟩ := h.deadline (by simp [hstage])
        refine ⟨first, hfirst, Nat.le_trans hstart hsince, ?_, ?_⟩
        · simpa [Pacer.wake, hstage, ticksAfter] using heq
        · simp only [Pacer.wake, hstage]
          omega
    | ticking =>
        obtain ⟨first, hfirst, hstart, heq, -⟩ := h.deadline (by simp [hstage])
        have hsucceeded := h.ticking hstage
        simp only [due, hstage, Option.some.injEq] at hdue
        refine ⟨first, hfirst, Nat.le_trans hstart hsince, ?_, ?_⟩
        · obtain ⟨n, hn⟩ := Nat.exists_eq_add_of_lt hsucceeded
          rw [Nat.zero_add] at hn
          simp only [hstage, ticksAfter, hn, Nat.add_sub_cancel] at heq
          simp only [Pacer.wake, hstage, ticksAfter, hn, heq, Nat.mul_succ, Nat.add_assoc]
        · simp only [Pacer.wake, hstage]
          omega

theorem Paced.finish (h : Paced pause period s past) (hworking : s.stage = .working) (ok : Bool) :
    Paced pause period (s.finish ok) (past ++ [(s.now, ok)]) := by
  have hpauses := h.pauses
  have hsince := h.since
  obtain ⟨first, hfirst, hstart, heq, hsoon⟩ := h.deadline (by simp [hworking])
  simp only [hworking, pausesAfter, ticksAfter] at hpauses heq
  refine ⟨Nat.le_refl _, ?_, ?_, ?_, fun _ => ⟨first, hfirst, Nat.le_trans hstart hsince, ?_, ?_⟩⟩
  · cases ok with
    | false =>
        show pause * failed (past ++ [(s.now, false)]) ≤ s.now
        rw [failed_append]
        exact Nat.le_trans hpauses hsince
    | true =>
        show pause * (failed (past ++ [(s.now, true)]) + 1) ≤ s.now
        rw [failed_append]
        exact Nat.le_trans hpauses hsince
  · cases ok <;> nofun
  · cases ok with
    | false => nofun
    | true =>
        intro _
        rw [succeeded_append]
        exact Nat.succ_pos _
  · rw [succeeded_append]
    cases ok <;> exact heq
  · exact Nat.le_trans hsoon (Nat.add_le_add_right hsince _)

theorem paced_of_step (h : Paced pause period s past)
    (hstep : (machine pause period).step s a = some (s', es)) :
    Paced pause period s' (past ++ es) := by
  rcases step_cases hstep with
    ⟨time, -, rfl, rfl⟩ | ⟨time, -, hdue, hle, rfl, rfl⟩ | ⟨ok, -, hworking, rfl, rfl⟩
  · rw [List.append_nil]
    exact h.elapse time
  · rw [List.append_nil]
    exact h.wake hdue hle
  · exact h.finish hworking ok

theorem paced_of_run {as : List Action}
    (hrun : (machine pause period).run start as = some (s, es)) : Paced pause period s es :=
  Machine.run_invariant paced_of_step paced_start hrun

theorem Paced.failed_le (h : Paced pause period s past) : pause * failed past ≤ s.now := by
  refine Nat.le_trans (Nat.mul_le_mul_left pause ?_) (Nat.le_trans h.pauses h.since)
  cases s.stage <;> simp [pausesAfter]

/-- How often it can have succeeded by now: twice at once, and then once a period. -/
theorem Paced.succeeded_le (h : Paced pause period s past) (hpos : 0 < period) :
    succeeded past ≤ (s.now - pause) / period + 2 := by
  have hsince := h.since
  by_cases hstarting : s.stage = .starting
  · simp [h.starting hstarting, succeeded]
  · obtain ⟨first, hfirst, hstart, heq, hsoon⟩ := h.deadline hstarting
    have hticks : ticksAfter (succeeded past) s.stage ≤ (s.now - pause) / period + 1 := by
      rw [← Nat.add_div_right _ hpos, Nat.le_div_iff_mul_le hpos, Nat.mul_comm]
      omega
    refine Nat.le_trans ?_ (Nat.add_le_add_right hticks 1)
    cases s.stage <;> simp only [ticksAfter] <;> omega

/-- Every wait ends: after at most a pause or a period it is over. -/
theorem Paced.exists_wake (h : Paced pause period s past) (hwaiting : s.stage ≠ .working) :
    ∃ time ≤ max pause period, ∃ s', (machine pause period).run s [.elapse time, .wake] =
      some (s', []) ∧ s'.stage = .working := by
  obtain ⟨time, hdue, hle⟩ : ∃ time, s.due pause = some time ∧ time ≤ s.now + max pause period := by
    have hsince := h.since
    cases hstage : s.stage with
    | working => exact absurd hstage hwaiting
    | starting | pausing => exact ⟨s.since + pause, by simp [due, hstage], by omega⟩
    | ticking =>
        obtain ⟨first, -, -, -, hsoon⟩ := h.deadline (by simp [hstage])
        exact ⟨s.deadline, by simp [due, hstage], by omega⟩
  refine ⟨time - s.now, by omega, ({ s with now := s.now + (time - s.now) } : Pacer).wake period,
    ?_, rfl⟩
  have hdue' : ({ s with now := s.now + (time - s.now) } : Pacer).due pause = some time := hdue
  have hover : time ≤ s.now + (time - s.now) := by omega
  simp [Machine.run, machine, hdue', hover]

/-! ## How long ago -/

section Prompt

variable (pause period work lag : ℕ)

/-- It works for at most `work`, and notices within `lag` that a wait is over. -/
def Prompt (s : Pacer) : Prop :=
  match s.due pause with
  | none => s.now ≤ s.since + work
  | some time => s.now ≤ max s.since time + lag

instance : DecidablePred (Prompt pause work lag) := fun s =>
  match h : s.due pause with
  | none => decidable_of_iff (s.now ≤ s.since + work) (by simp [Prompt, h])
  | some time => decidable_of_iff (s.now ≤ max s.since time + lag) (by simp [Prompt, h])

/-- What its work and the pause after it take, once the work has failed. -/
def setback : ℕ := work + pause + lag

/-- It has gone back to work by `base`, and has failed `n` times since then. -/
def Within (base n : ℕ) (s : Pacer) : Prop :=
  match s.stage with
  | .starting => s.since + pause + lag ≤ base
  | .working => s.since ≤ base + n * setback pause work lag
  | .pausing => s.since + pause + lag ≤ base + n * setback pause work lag
  | .ticking => s.since + period + lag ≤ base ∧ s.deadline ≤ s.since + period

/-- What was finished since the last success, and when it had to go back to work then. -/
def Ongoing (past rest : List (ℕ × Bool)) (base : ℕ) : Prop :=
  (∀ e ∈ rest, e.2 = false) ∧
    ((past = rest ∧ base = pause + lag) ∨
      ∃ before time, past = before ++ (time, true) :: rest ∧ base = time + period + lag)

end Prompt

variable {work lag base n : ℕ} {rest : List (ℕ × Bool)}

theorem Within.wake (h : Within pause period work lag base n s)
    (hprompt : Prompt pause work lag s) {time : ℕ} (hdue : s.due pause = some time) :
    Within pause period work lag base n (s.wake period) := by
  show s.now ≤ base + n * setback pause work lag
  rw [Prompt, hdue] at hprompt
  cases hstage : s.stage with
  | working => simp [due, hstage] at hdue
  | starting | pausing | ticking =>
      simp only [due, hstage, Option.some.injEq] at hdue
      simp only [Within, hstage] at h
      omega

theorem Within.fail (h : Within pause period work lag base n s) (hprompt : Prompt pause work lag s)
    (hworking : s.stage = .working) :
    Within pause period work lag base (n + 1) (s.finish false) := by
  show s.now + pause + lag ≤ base + (n + 1) * setback pause work lag
  simp only [Prompt, due, hworking] at hprompt
  simp only [Within, hworking] at h
  have hsetback : setback pause work lag = work + pause + lag := rfl
  rw [Nat.succ_mul]
  omega

theorem Within.now_le (h : Within pause period work lag base n s)
    (hprompt : Prompt pause work lag s) :
    s.now ≤ base + n * setback pause work lag + work := by
  cases hstage : s.stage <;> simp only [Prompt, due, hstage] at hprompt <;>
    simp only [Within, hstage] at h <;> omega

theorem Ongoing.fail (h : Ongoing pause period lag past rest base) (time : ℕ) :
    Ongoing pause period lag (past ++ [(time, false)]) (rest ++ [(time, false)]) base := by
  refine ⟨fun e he => ?_, ?_⟩
  · rcases List.mem_append.mp he with hold | hnew
    · exact h.1 e hold
    · cases List.mem_singleton.mp hnew
      rfl
  · rcases h.2 with ⟨rfl, hbase⟩ | ⟨before, last, rfl, hbase⟩
    · exact Or.inl ⟨rfl, hbase⟩
    · exact Or.inr ⟨before, last, by simp, hbase⟩

theorem ongoing_of_step (hpaced : Paced pause period s past) (hprompt : Prompt pause work lag s)
    (hongoing : Ongoing pause period lag past rest base)
    (hwithin : Within pause period work lag base rest.length s)
    (hstep : (machine pause period).step s a = some (s', es)) :
    ∃ rest base, Ongoing pause period lag (past ++ es) rest base ∧
      Within pause period work lag base rest.length s' := by
  rcases step_cases hstep with
    ⟨time, -, rfl, rfl⟩ | ⟨time, -, hdue, hle, rfl, rfl⟩ | ⟨ok, -, hworking, rfl, rfl⟩
  · exact ⟨rest, base, by rwa [List.append_nil], hwithin⟩
  · exact ⟨rest, base, by rwa [List.append_nil], hwithin.wake hprompt hdue⟩
  · cases ok with
    | false =>
        refine ⟨rest ++ [(s.now, false)], base, hongoing.fail s.now, ?_⟩
        rw [List.length_append]
        exact hwithin.fail hprompt hworking
    | true =>
        obtain ⟨-, -, -, -, hsoon⟩ := hpaced.deadline (by simp [hworking])
        exact ⟨[], s.now + period + lag, ⟨List.forall_mem_nil _, Or.inr ⟨past, s.now, rfl, rfl⟩⟩,
          Nat.le_refl _, Nat.le_trans hsoon (Nat.add_le_add_right hpaced.since _)⟩

/-- A prompt worker has succeeded lately, if it has not failed too often since then. -/
theorem ongoing_of_run {as : List Action}
    (hprompt : (machine pause period).Throughout (Prompt pause work lag) start as)
    (hrun : (machine pause period).run start as = some (s, es)) :
    ∃ rest base, Ongoing pause period lag es rest base ∧
      s.now ≤ base + rest.length * setback pause work lag + work := by
  have hinv := Machine.run_invariant_of_throughout (I := fun s past =>
      Paced pause period s past ∧ ∃ rest base, Ongoing pause period lag past rest base ∧
        Within pause period work lag base rest.length s)
    (fun {s s' a past es} h hs hstep => by
      obtain ⟨hpaced, rest, base, hongoing, hwithin⟩ := h
      exact ⟨paced_of_step hpaced hstep, ongoing_of_step hpaced hs hongoing hwithin hstep⟩)
    ⟨paced_start, [], pause + lag, ⟨List.forall_mem_nil _, Or.inl ⟨rfl, rfl⟩⟩, by
      simp [Within, start]⟩ hprompt hrun
  obtain ⟨-, rest, base, hongoing, hwithin⟩ := hinv
  exact ⟨rest, base, hongoing, hwithin.now_le (hprompt.last hrun)⟩

end Pacer

end Foundation

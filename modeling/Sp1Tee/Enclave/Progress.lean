import Mathlib.Data.Set.Finite.Basic
import Sp1Tee.Enclave.History
import Sp1Tee.Foundation.Drain

/-!
# The enclave comes to rest

Between two messages a connection makes at most seven steps, and it waits for nothing
but the execution guard, whose holder can always go on. So an enclave that receives
nothing new stops after a bounded number of steps, and from every reachable state it can
answer whatever it has been asked: no execution that fails or panics, and no connection
that breaks, is in the way of the others.
-/

namespace Sp1Tee

open Foundation Foundation.Solidity

namespace Enclave

variable {K Stdin : Type}

def Phase.pending : Phase Stdin → Option (EnclaveRequest Stdin)
  | .blocked _ job _ => some job.request
  | .replying request _ => some request
  | _ => none

/-- The request that the connection `c` has received and not answered yet. -/
def pending (s : Enclave K Stdin) (c : ℕ) : Option (EnclaveRequest Stdin) :=
  (s.connections c).bind Phase.pending

/-- The steps that a stage is away from the response, at most. -/
def Stage.rank : Stage → ℕ
  | .started => 7
  | .waiting => 6
  | .guarded => 5
  | .ready _ => 4
  | .executed _ _ => 3
  | .returned _ => 2

def Phase.rank : Phase Stdin → ℕ
  | .blocked _ _ stage => stage.rank
  | .replying _ _ => 1
  | _ => 0

def rankOf (connection : Option (Phase Stdin)) : ℕ := connection.elim 0 Phase.rank

/-- Nothing arrives. -/
def Input.Silent : Input Stdin → Prop
  | .recv _ => False
  | _ => True

/-- Nothing arrives, and what is written goes out. -/
def Input.Healthy : Input Stdin → Prop
  | .recv _ => False
  | .reply (.error _) => False
  | _ => True

def Action.Silent : Action Stdin → Prop
  | .accept _ => False
  | .on _ input => input.Silent

def Action.Healthy : Action Stdin → Prop
  | .accept _ => False
  | .on _ input => input.Healthy

/-- What is asked of a security module is asked of this one. -/
def Input.Asks (nsm : Nsm) : Input Stdin → Prop
  | .attest nsm' => nsm' = nsm
  | _ => True

def Action.Asks (nsm : Nsm) : Action Stdin → Prop
  | .accept _ => True
  | .on _ input => input.Asks nsm

/-- Only an execution gets beyond the start of its blocking task before it returns. -/
def Phase.Staged : Phase Stdin → Prop
  | .blocked _ .attestSigningKey stage => stage = .started ∨ ∃ result, stage = .returned result
  | _ => True

variable {deps : Deps K} {debugMode : Bool}

theorem Stage.rank_le (stage : Stage) : stage.rank ≤ 7 := by
  cases stage <;> simp [Stage.rank]

theorem Phase.rank_le_of_pending {phase : Phase Stdin} :
    phase.rank ≤ if phase.pending.isSome then 7 else 0 := by
  cases phase with
  | receiving | closed => exact le_rfl
  | blocked task job stage => exact stage.rank_le
  | replying request response => exact Nat.le_add_left 1 6

/-! ## What a step without a message does -/

theorem rank_of_progresses {server : Server K} {fresh : TaskId} {phase : Phase Stdin}
    {input : Input Stdin} {p : Progress Stdin} (hsilent : input.Silent)
    (hp : Progresses deps debugMode server fresh phase input p) : p.phase.rank < phase.rank := by
  cases hp with
  | failedRecv | skipped | answering | spawned | closing => exact hsilent.elim
  | _ => simp [Phase.rank, Stage.rank, keep, release]

theorem staged_of_progresses {server : Server K} {fresh : TaskId} {phase : Phase Stdin}
    {input : Input Stdin} {p : Progress Stdin} (h : phase.Staged)
    (hp : Progresses deps debugMode server fresh phase input p) : p.phase.Staged := by
  cases hp with
  | spawned message job hmessage =>
      cases job with
      | attestSigningKey => exact Or.inl rfl
      | execute => trivial
  | attested task nsm => exact Or.inr ⟨_, rfl⟩
  | _ => trivial

/-- What is possible next for a connection that works on a request, and is not kept
waiting: it stays with the request, or it answers it. -/
structure GoesOn (deps : Deps K) (debugMode : Bool) (prover : Prover Stdin) (nsm : Nsm)
    (server : Server K) (fresh : TaskId) (phase : Phase Stdin) (input : Input Stdin)
    (p : Progress Stdin) : Prop where
  progress : progress deps debugMode server fresh phase input = some p
  healthy : input.Healthy
  asks : input.Asks nsm
  conforms : ∀ e ∈ p.events, e.ConformsTo prover
  pending : p.phase.pending = phase.pending ∨
    ∃ request response, phase.pending = some request ∧ .answered request response ∈ p.events

theorem exists_goesOn_execute (prover : Prover Stdin) (nsm : Nsm) (server : Server K)
    (fresh : TaskId) {task : TaskId} {stdin : Stdin} {program : Bytes} {cycle_limit : UInt64}
    {stage : Stage}
    (hfree : stage = .waiting → server.execution_guard = none)
    (hreturned : ∀ result, stage ≠ .returned result) :
    ∃ input p, GoesOn deps debugMode prover nsm server fresh
      (.blocked task (.execute stdin program cycle_limit) stage) input p := by
  cases stage with
  | started =>
      by_cases hlimit : cycle_limit > MAX_ALLOWED_CYCLES
      · exact ⟨.proceed, _, if_pos hlimit, trivial, trivial, List.forall_mem_nil _, Or.inl rfl⟩
      · exact ⟨.proceed, _, if_neg hlimit, trivial, trivial, List.forall_mem_nil _, Or.inl rfl⟩
  | waiting =>
      have hlock : Enclave.progress deps debugMode server fresh
          (.blocked task (.execute stdin program cycle_limit) .waiting) .proceed =
            some { keep server (.blocked task (.execute stdin program cycle_limit) .guarded) [] with
              execution_guard := some task } := by
        simp only [Enclave.progress, hfree rfl]
      exact ⟨.proceed, _, hlock, trivial, trivial, List.forall_mem_nil _, Or.inl rfl⟩
  | guarded =>
      cases hsetup : prover.setup program with
      | ok vk =>
          exact ⟨.setup (.ok vk), _, rfl, trivial, trivial, List.forall_mem_singleton.mpr hsetup,
            Or.inl rfl⟩
      | error payload =>
          exact ⟨.setup (.error payload), _, rfl, trivial, trivial,
            List.forall_mem_singleton.mpr hsetup, Or.inl rfl⟩
  | ready vk =>
      cases hrun : prover.run program stdin cycle_limit with
      | error payload =>
          exact ⟨.run (.error payload), _, rfl, trivial, trivial,
            List.forall_mem_singleton.mpr hrun, Or.inl rfl⟩
      | ok result =>
          cases result with
          | ok public_values =>
              exact ⟨.run (.ok (.ok public_values)), _, rfl, trivial, trivial,
                List.forall_mem_singleton.mpr hrun, Or.inl rfl⟩
          | error e =>
              exact ⟨.run (.ok (.error e)), _, rfl, trivial, trivial,
                List.forall_mem_singleton.mpr hrun, Or.inl rfl⟩
  | executed vk public_values =>
      refine ⟨.proceed, _, rfl, trivial, trivial, fun e he => ?_, Or.inl rfl⟩
      obtain ⟨rfl, -⟩ := mem_signedEvents he
      trivial
  | returned result => exact absurd rfl (hreturned result)

/-- A connection with a request can go on, unless it waits for the guard. -/
theorem exists_goesOn (prover : Prover Stdin) (nsm : Nsm) (server : Server K) (fresh : TaskId)
    {phase : Phase Stdin} (hstaged : phase.Staged) (hpending : phase.pending.isSome)
    (hfree : ∀ task job, phase = .blocked task job .waiting → server.execution_guard = none) :
    ∃ input p, GoesOn deps debugMode prover nsm server fresh phase input p := by
  have hjoin : ∀ task job result, phase = .blocked task job (.returned result) →
      ∃ input p, GoesOn deps debugMode prover nsm server fresh phase input p := by
    rintro task job result rfl
    cases job with
    | attestSigningKey =>
        exact ⟨.join, _, rfl, trivial, trivial, List.forall_mem_nil _, Or.inl rfl⟩
    | execute => exact ⟨.join, _, rfl, trivial, trivial, List.forall_mem_nil _, Or.inl rfl⟩
  cases phase with
  | receiving | closed => cases hpending
  | replying request response =>
      exact ⟨.reply (.ok ()), _, rfl, trivial, trivial, List.forall_mem_singleton.mpr trivial,
        Or.inr ⟨request, response, rfl, List.mem_singleton_self _⟩⟩
  | blocked task job stage =>
      cases job with
      | attestSigningKey =>
          rcases hstaged with rfl | ⟨result, rfl⟩
          · exact ⟨.attest nsm, _, rfl, trivial, rfl, List.forall_mem_nil _, Or.inl rfl⟩
          · exact hjoin task .attestSigningKey result rfl
      | execute stdin program cycle_limit =>
          by_cases hreturned : ∃ result, stage = .returned result
          · obtain ⟨result, rfl⟩ := hreturned
            exact hjoin task (.execute stdin program cycle_limit) result rfl
          · exact exists_goesOn_execute prover nsm server fresh
              (fun hstage => hfree task (.execute stdin program cycle_limit) (hstage ▸ rfl))
              (not_exists.mp hreturned)

/-! ## All connections -/

/-- The steps that the connections in `cs` are away from rest, at most. -/
def rank (cs : Finset ℕ) (s : Enclave K Stdin) : ℕ := ∑ c ∈ cs, rankOf (s.connections c)

def advance (s : Enclave K Stdin) (c : ℕ) (p : Progress Stdin) : Enclave K Stdin where
  server := { s.server with execution_guard := p.execution_guard }
  connections := Function.update s.connections c (some p.phase)
  nextTask := s.nextTask + p.spawned

theorem connections_advance (s : Enclave K Stdin) (c : ℕ) (p : Progress Stdin) :
    (s.advance c p).connections = Function.update s.connections c (some p.phase) := rfl

variable {s s' : Enclave K Stdin} {cs : Finset ℕ}

theorem step_of_progress {c : ℕ} {phase : Phase Stdin} {input : Input Stdin} {p : Progress Stdin}
    (hc : s.connections c = some phase)
    (hp : progress deps debugMode s.server s.nextTask phase input = some p) :
    (machine deps debugMode).step s (.on c input) =
      some (s.advance c p, p.events.map fun e => (c, e)) := by
  simp only [machine, hc, hp, advance]

theorem rank_advance_lt {c : ℕ} {phase : Phase Stdin} {p : Progress Stdin} (hc : c ∈ cs)
    (hphase : s.connections c = some phase) (h : p.phase.rank < phase.rank) :
    rank cs (s.advance c p) < rank cs s :=
  sum_update_lt hc (by rwa [hphase])

theorem pending_advance_self (s : Enclave K Stdin) (c : ℕ) (p : Progress Stdin) :
    (s.advance c p).pending c = p.phase.pending := by
  rw [pending, connections_advance, Function.update_self, Option.bind_some]

theorem pending_advance_of_ne {c d : ℕ} (p : Progress Stdin) (h : d ≠ c) :
    (s.advance c p).pending d = s.pending d := by
  rw [pending, connections_advance, Function.update_of_ne h, pending]

theorem step_on_advance {c : ℕ} {input : Input Stdin} {es : List (ℕ × Event Stdin)}
    (hstep : (machine deps debugMode).step s (.on c input) = some (s', es)) :
    ∃ phase p, s.connections c = some phase ∧
      Progresses deps debugMode s.server s.nextTask phase input p ∧
      es = p.events.map (fun e => (c, e)) ∧ s' = s.advance c p :=
  step_on hstep

theorem step_silent {a : Action Stdin} {es : List (ℕ × Event Stdin)} (ha : a.Silent)
    (hstep : (machine deps debugMode).step s a = some (s', es)) :
    ∃ c input phase p, input.Silent ∧ s.connections c = some phase ∧
      Progresses deps debugMode s.server s.nextTask phase input p ∧ s' = s.advance c p := by
  cases a with
  | accept c => exact ha.elim
  | on c input =>
      obtain ⟨phase, p, hc, hp, -, hs'⟩ := step_on_advance hstep
      exact ⟨c, input, phase, p, ha, hc, hp, hs'⟩

theorem rank_le (s : Enclave K Stdin) (cs : Finset ℕ) :
    rank cs s ≤ 7 * (cs.filter fun c => (s.pending c).isSome).card := by
  calc rank cs s ≤ ∑ c ∈ cs, if (s.pending c).isSome then 7 else 0 := by
        refine Finset.sum_le_sum fun c _ => ?_
        cases hc : s.connections c with
        | none => simp [rankOf]
        | some phase =>
            rw [pending, hc, Option.bind_some]
            exact phase.rank_le_of_pending
    _ = 7 * (cs.filter fun c => (s.pending c).isSome).card := by
        rw [← Finset.sum_filter, Finset.sum_const_nat (fun _ _ => rfl), Nat.mul_comm]

/-- Without a message, the enclave makes seven steps for each request at most. -/
theorem length_le_of_silent {as : List (Action Stdin)} {es : List (ℕ × Event Stdin)}
    (hcs : ∀ c, (s.pending c).isSome → c ∈ cs) (has : ∀ a ∈ as, a.Silent)
    (hrun : (machine deps debugMode).run s as = some (s', es)) :
    as.length ≤ 7 * (cs.filter fun c => (s.pending c).isSome).card := by
  have hstep : ∀ {s s' : Enclave K Stdin} {a : Action Stdin} {es : List (ℕ × Event Stdin)},
      (∀ c, (s.pending c).isSome → c ∈ cs) → a.Silent →
      (machine deps debugMode).step s a = some (s', es) →
      (∀ c, (s'.pending c).isSome → c ∈ cs) ∧ rank cs s' < rank cs s := by
    intro s s' a es hcs ha hstep
    obtain ⟨c, input, phase, p, hsilent, hc, hp, rfl⟩ := step_silent ha hstep
    have hlt := rank_of_progresses hsilent hp
    have hbusy : phase.pending.isSome := by
      have hle := phase.rank_le_of_pending
      by_contra hidle
      rw [if_neg hidle] at hle
      omega
    have hmem : c ∈ cs := hcs c (by rwa [pending, hc])
    refine ⟨fun d hd => ?_, rank_advance_lt hmem hc hlt⟩
    by_cases hdc : d = c
    · rwa [hdc]
    · rw [pending_advance_of_ne p hdc] at hd
      exact hcs d hd
  have hlength := Machine.length_add_rank_le hstep hcs has hrun
  exact ((Nat.le_add_right _ _).trans hlength).trans (rank_le s cs)

/-! ## Answering everything -/

/-- What is kept while the enclave works off what it was asked in the state `s₀`. -/
structure Draining (s₀ : Enclave K Stdin) (prover : Prover Stdin) (cs : Finset ℕ)
    (s : Enclave K Stdin) (past : List (ℕ × Event Stdin)) : Prop where
  guarded : Guarded s.holder s.server.execution_guard
  staged : ∀ {c phase}, s.connections c = some phase → phase.Staged
  within : ∀ {c}, (s.pending c).isSome → c ∈ cs
  conforms : Conforms prover past
  owed : ∀ {c request}, s₀.pending c = some request → s.pending c = some request ∨
    ∃ response, (c, .answered request response) ∈ past

variable {s₀ : Enclave K Stdin} {prover : Prover Stdin} {past : List (ℕ × Event Stdin)}

theorem Draining.advance (h : Draining s₀ prover cs s past) {nsm : Nsm} {c : ℕ}
    {phase : Phase Stdin} {input : Input Stdin} {p : Progress Stdin}
    (hc : s.connections c = some phase)
    (hp : GoesOn deps debugMode prover nsm s.server s.nextTask phase input p)
    (hbusy : phase.pending.isSome) :
    Draining s₀ prover cs (s.advance c p) (past ++ p.events.map fun e => (c, e)) := by
  have hpending : s.pending c = phase.pending := by rw [pending, hc, Option.bind_some]
  have hprogresses := progresses_of_progress hp.progress
  refine ⟨guarded_of_step h.guarded (step_of_progress hc hp.progress), fun {d phase'} hd => ?_,
    fun {d} hd => ?_, fun e he => ?_, fun {d request} hd => ?_⟩
  · rcases eq_or_eq_of_update hd with ⟨rfl, rfl⟩ | hd
    · exact staged_of_progresses (h.staged hc) hprogresses
    · exact h.staged hd
  · by_cases hdc : d = c
    · rw [hdc]
      exact h.within (by rwa [hpending])
    · rw [pending_advance_of_ne p hdc] at hd
      exact h.within hd
  · rcases List.mem_append.mp he with hold | hnew
    · exact h.conforms e hold
    · obtain ⟨e', he', rfl⟩ := List.mem_map.mp hnew
      exact hp.conforms e' he'
  · rcases h.owed hd with hwaiting | ⟨response, hanswered⟩
    · by_cases hdc : d = c
      · subst hdc
        rw [pending_advance_self, ← hwaiting, hpending]
        rcases hp.pending with hsame | ⟨request', response, hrequest, hanswered⟩
        · exact Or.inl hsame
        · rw [← hpending, hwaiting] at hrequest
          cases hrequest
          exact Or.inr ⟨response, List.mem_append_right _ (List.mem_map_of_mem hanswered)⟩
      · rw [pending_advance_of_ne p hdc]
        exact Or.inl hwaiting
    · exact Or.inr ⟨response, List.mem_append_left _ hanswered⟩

theorem pending_of_holder {phase : Phase Stdin} {task : TaskId} (h : phase.holder = some task) :
    phase.pending.isSome ∧ ∀ task job, phase ≠ .blocked task job .waiting := by
  cases phase with
  | receiving | replying | closed => cases h
  | blocked task' job stage =>
      refine ⟨rfl, ?_⟩
      rintro task job heq
      cases heq
      cases h

theorem Draining.exists_step (h : Draining s₀ prover cs s past) (deps : Deps K)
    (debugMode : Bool) (nsm : Nsm) {c : ℕ} (hc : (s.pending c).isSome) :
    ∃ a s' es, (a.Healthy ∧ a.Asks nsm) ∧ (machine deps debugMode).step s a = some (s', es) ∧
      Draining s₀ prover cs s' (past ++ es) ∧ rank cs s' < rank cs s := by
  have hgo : ∀ {d phase}, s.connections d = some phase → phase.pending.isSome →
      (∀ task job, phase = .blocked task job .waiting → s.server.execution_guard = none) →
      ∃ a s' es, (a.Healthy ∧ a.Asks nsm) ∧ (machine deps debugMode).step s a = some (s', es) ∧
        Draining s₀ prover cs s' (past ++ es) ∧ rank cs s' < rank cs s := by
    intro d phase hd hbusy hfree
    have hgoes : ∃ input p, GoesOn deps debugMode prover nsm s.server s.nextTask phase input p :=
      exists_goesOn prover nsm s.server s.nextTask (h.staged hd) hbusy hfree
    obtain ⟨input, p, hp⟩ := hgoes
    have hsilent : input.Silent := by
      have hhealthy := hp.healthy
      cases input with
      | recv => exact hhealthy
      | _ => trivial
    have hmem : d ∈ cs := h.within (by rwa [pending, hd])
    exact ⟨.on d input, s.advance d p, _, ⟨hp.healthy, hp.asks⟩, step_of_progress hd hp.progress,
      h.advance hd hp hbusy, rank_advance_lt hmem hd
        (rank_of_progresses hsilent (progresses_of_progress hp.progress))⟩
  obtain ⟨phase, hphase⟩ : ∃ phase, s.connections c = some phase := by
    cases hphase : s.connections c with
    | none => simp [pending, hphase] at hc
    | some phase => exact ⟨phase, rfl⟩
  have hbusy : phase.pending.isSome := by rwa [pending, hphase] at hc
  cases hguard : s.server.execution_guard with
  | none => exact hgo hphase hbusy fun _ _ _ => hguard
  | some task =>
      -- the guard is taken: its holder goes on
      have hguarded := h.guarded
      rw [hguard] at hguarded
      obtain ⟨d, hd⟩ := hguarded.exists_holder rfl
      obtain ⟨phase', hphase', hholder⟩ := Option.bind_eq_some_iff.mp hd
      obtain ⟨hbusy', hwaiting⟩ := pending_of_holder hholder
      exact hgo hphase' hbusy' fun task job heq => absurd heq (hwaiting task job)

/-- Only finitely many connections have been accepted, and attestations do not wait. -/
theorem finite_of_run {key : K} {task : TaskId} {as : List (Action Stdin)}
    {es : List (ℕ × Event Stdin)}
    (hrun : (machine deps debugMode).run (start key task) as = some (s, es)) :
    {c | (s.connections c).isSome}.Finite ∧
      ∀ {c phase}, s.connections c = some phase → phase.Staged := by
  refine Machine.run_preserves (I := fun s => {c | (s.connections c).isSome}.Finite ∧
    ∀ {c phase}, s.connections c = some phase → phase.Staged)
    (fun {s s' a es} h hstep => ?_) ⟨by simp [start], fun hc => by cases hc⟩ hrun
  obtain ⟨hfinite, hstaged⟩ := h
  have hinsert : ∀ (c : ℕ) (phase : Phase Stdin),
      {d | (Function.update s.connections c (some phase) d).isSome}.Finite := by
    intro c phase
    refine (hfinite.insert c).subset fun d hd => ?_
    by_cases hdc : d = c
    · exact Set.mem_insert_iff.mpr (Or.inl hdc)
    · rw [Set.mem_ofPred_eq, Function.update_of_ne hdc] at hd
      exact Set.mem_insert_of_mem c hd
  rcases step_cases hstep with ⟨c, -, -, rfl⟩ | ⟨c, input, phase, p, hc, hp, -, rfl⟩
  · refine ⟨hinsert c _, fun hd => ?_⟩
    rcases eq_or_eq_of_update hd with ⟨-, rfl⟩ | hd
    · trivial
    · exact hstaged hd
  · refine ⟨hinsert c _, fun hd => ?_⟩
    rcases eq_or_eq_of_update hd with ⟨-, rfl⟩ | hd
    · exact staged_of_progresses (hstaged hc) hp
    · exact hstaged hd

/-- In every reachable state, the enclave makes at most seven more steps for each request
that it works on unless something arrives; and with any prover and security module, it can
go on without another message until each of these requests is answered and the guard is
free. -/
theorem drains_of_run {key : K} {task : TaskId} {as : List (Action Stdin)}
    {es : List (ℕ × Event Stdin)}
    (hrun : (machine deps debugMode).run (start key task) as = some (s, es))
    (prover : Prover Stdin) (nsm : Nsm) :
    (∃ busy : Finset ℕ, (∀ c, c ∈ busy ↔ (s.pending c).isSome) ∧
      ∀ as' s' es', (∀ a ∈ as', a.Silent) →
        (machine deps debugMode).run s as' = some (s', es') → as'.length ≤ 7 * busy.card) ∧
    ∃ as' s' es', (∀ a ∈ as', a.Healthy ∧ a.Asks nsm) ∧
      (machine deps debugMode).run s as' = some (s', es') ∧ Conforms prover es' ∧
      (∀ c, s'.pending c = none) ∧ s'.server.execution_guard = none ∧
      ∀ c request, s.pending c = some request →
        ∃ response, (c, .answered request response) ∈ es' := by
  obtain ⟨hfinite, hstaged⟩ := finite_of_run hrun
  have hcs : ∀ c, (s.pending c).isSome → c ∈ hfinite.toFinset := by
    intro c hc
    rw [Set.Finite.mem_toFinset, Set.mem_ofPred_eq]
    cases hphase : s.connections c with
    | none => simp [pending, hphase] at hc
    | some phase => rfl
  refine ⟨⟨hfinite.toFinset.filter fun c => (s.pending c).isSome, fun c => ?_,
    fun as' s' es' has' hrun' => length_le_of_silent hcs has' hrun'⟩, ?_⟩
  · rw [Finset.mem_filter]
    exact ⟨And.right, fun hc => ⟨hcs c hc, hc⟩⟩
  · have hdraining : Draining s prover hfinite.toFinset s [] :=
      ⟨guarded_of_run hrun, hstaged, fun {c} hc => hcs c hc, List.forall_mem_nil _,
        fun hc => Or.inl hc⟩
    obtain ⟨as', s', es', has', hrun', hdrained, hdone⟩ := Machine.exists_drain
      (D := fun s' => ∀ c, s'.pending c = none)
      (fun {t past} ht hbusy => by
        obtain ⟨c, hc⟩ := not_forall.mp hbusy
        exact ht.exists_step deps debugMode nsm (Option.isSome_iff_ne_none.mpr hc)) hdraining
    refine ⟨as', s', es', has', hrun', hdrained.conforms, hdone, ?_, fun c request hc => ?_⟩
    · cases hguard : s'.server.execution_guard with
      | none => rfl
      | some task =>
          have hguarded := hdrained.guarded
          rw [hguard] at hguarded
          obtain ⟨d, hd⟩ := hguarded.exists_holder rfl
          obtain ⟨phase, hphase, hholder⟩ := Option.bind_eq_some_iff.mp hd
          have hbusy := (pending_of_holder hholder).1
          have hidle := hdone d
          rw [pending, hphase, Option.bind_some] at hidle
          rw [hidle] at hbusy
          cases hbusy
    · rcases hdrained.owed hc with hwaiting | hanswered
      · rw [hdone c] at hwaiting
        cases hwaiting
      · exact hanswered

/-- Two executions, of which one waits for the other. -/
def twoExecutions : List (Action Unit) :=
  [.accept 0, .accept 1, .on 0 (.recv (.ok (.Execute () [] 7))), .on 0 .proceed, .on 0 .proceed,
    .on 1 (.recv (.ok (.Execute () [1] 7))), .on 1 .proceed]

theorem run_twoExecutions :
    ∃ s es, (machine (.standard (fun _ _ => none) 1) false).run (start 1 1) twoExecutions =
        some (s, es) ∧ s.server.execution_guard = some 3 ∧
      s.pending 1 = some (.Execute () [1] 7) :=
  ⟨_, _, rfl, rfl, rfl⟩

/-- The execution that waits is answered, though the prover panics. -/
theorem drains_of_run_twoExecutions :
    ∃ s es as' s' es' response,
      (machine (.standard (fun _ _ => none) 1) false).run (start 1 1) twoExecutions =
        some (s, es) ∧
      (machine (.standard (fun _ _ => none) 1) false).run s as' = some (s', es') ∧
      s'.server.execution_guard = none ∧
      (1, .answered (.Execute () [1] 7) response) ∈ es' := by
  obtain ⟨s, es, hrun, -, hpending⟩ := run_twoExecutions
  obtain ⟨-, as', s', es', -, hrun', -, -, hfree, hanswered⟩ := drains_of_run hrun
    ⟨fun _ => .error none, fun _ _ _ => .error none⟩ default
  obtain ⟨response, hresponse⟩ := hanswered 1 _ hpending
  exact ⟨s, es, as', s', es', response, hrun, hrun', hfree, hresponse⟩

end Enclave

end Sp1Tee

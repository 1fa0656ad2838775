import Sp1Tee.Enclave.Progress

/-!
# What a run of the enclave looks like from outside

The execution guard makes executions atomic: the calls into the prover, and the
signatures, of all connections together form a sequence of uninterrupted blocks, one for
each execution. And whatever the other connections do, each connection answers what it
has received, in order and once.
-/

namespace Sp1Tee

open Foundation Foundation.Solidity

namespace Enclave

variable {K Stdin : Type}

/-! ## Executions one after another -/

def Event.isCall : Event Stdin → Bool
  | .answered _ _ => false
  | _ => true

def callsOf (es : List (ℕ × Event Stdin)) : List (ℕ × Event Stdin) := es.filter fun e => e.2.isCall

/-- The calls of one execution, from its first to its last. -/
inductive Execution (deps : Deps K) (key : K) : TaskId → List (ℕ × Event Stdin) → Prop
  | setupPanicked (c : ℕ) (task : TaskId) (program : Bytes) (payload : Panic) :
      Execution deps key task [(c, .setup task program (.error payload))]
  | failed (c : ℕ) (task : TaskId) (program : Bytes) (stdin : Stdin) (cycle_limit : UInt64)
      (vk : Bytes32) (outcome : Except Panic (Except String Bytes))
      (hlimit : cycle_limit ≤ MAX_ALLOWED_CYCLES)
      (houtcome : ∀ public_values, outcome ≠ .ok (.ok public_values)) :
      Execution deps key task
        [(c, .setup task program (.ok vk)), (c, .run task program stdin cycle_limit outcome)]
  | succeeded (c : ℕ) (task : TaskId) (program : Bytes) (stdin : Stdin) (cycle_limit : UInt64)
      (vk : Bytes32) (public_values : Bytes) (hlimit : cycle_limit ≤ MAX_ALLOWED_CYCLES) :
      Execution deps key task
        (List.map (fun e => (c, e))
          (.setup task program (.ok vk) ::
            .run task program stdin cycle_limit (.ok (.ok public_values)) ::
            signedEvents deps (.new key) task (Server.digest deps vk public_values)))

/-- The calls that the execution of a connection has made so far. -/
def Phase.calls : Phase Stdin → List (Event Stdin)
  | .blocked task (.execute _ program _) (.ready vk) => [.setup task program (.ok vk)]
  | .blocked task (.execute stdin program cycle_limit) (.executed vk public_values) =>
      [.setup task program (.ok vk), .run task program stdin cycle_limit (.ok (.ok public_values))]
  | _ => []

/-- The blocking task that has not returned yet. -/
def Phase.task : Phase Stdin → Option TaskId
  | .blocked _ _ (.returned _) => none
  | .blocked task _ _ => some task
  | _ => none

variable {deps : Deps K} {debugMode : Bool} {key : K}

/-- A step outside of the section makes no call. One in the section continues the calls
of its execution, or ends them. -/
theorem calls_of_progresses {past : List (ℕ × Event Stdin)} {c : ℕ} {server : Server K}
    {fresh : TaskId} {phase : Phase Stdin} {input : Input Stdin} {p : Progress Stdin}
    (hkey : server.signing_key = key) (hphase : phase.Explained deps debugMode key past c)
    (hp : Progresses deps debugMode server fresh phase input p) :
    (phase.holder = none ∧ p.events.filter Event.isCall = [] ∧ p.phase.calls = []) ∨
    (phase.holder.isSome ∧ p.phase.holder = phase.holder ∧
      p.phase.calls = phase.calls ++ p.events.filter Event.isCall) ∨
    ∃ task, phase.holder = some task ∧ phase.task = some task ∧ p.phase.holder = none ∧
      p.phase.task = none ∧ Execution deps key task
        ((phase.calls ++ p.events.filter Event.isCall).map fun e => (c, e)) := by
  cases hp with
  | setupDone => exact Or.inr (Or.inl ⟨rfl, rfl, rfl⟩)
  | runDone => exact Or.inr (Or.inl ⟨rfl, rfl, rfl⟩)
  | setupPanicked task stdin program cycle_limit payload =>
      exact Or.inr (Or.inr ⟨task, rfl, rfl, rfl, rfl, .setupPanicked c task program payload⟩)
  | runFailed task stdin program cycle_limit vk e =>
      exact Or.inr (Or.inr ⟨task, rfl, rfl, rfl, rfl,
        .failed c task program stdin cycle_limit vk (.ok (.error e)) hphase.1 nofun⟩)
  | runPanicked task stdin program cycle_limit vk payload =>
      exact Or.inr (Or.inr ⟨task, rfl, rfl, rfl, rfl,
        .failed c task program stdin cycle_limit vk (.error payload) hphase.1 nofun⟩)
  | signed task stdin program cycle_limit vk public_values =>
      have hexecuted : ExecutedBy past c task stdin program cycle_limit vk public_values := hphase
      have hcalls : (signedEvents deps server task (Server.digest deps vk public_values) :
          List (Event Stdin)).filter Event.isCall =
            signedEvents deps (.new key) task (Server.digest deps vk public_values) := by
        rw [signedEvents, signedEvents, hkey]
        split
        · next hsign =>
          simp only [Server.new, hsign]
          rfl
        · next hsign =>
          simp only [Server.new, hsign]
          rfl
      refine Or.inr (Or.inr ⟨task, rfl, rfl, rfl, rfl, ?_⟩)
      rw [release, hcalls]
      exact .succeeded c task program stdin cycle_limit vk public_values hexecuted.le_max
  | spawned message job =>
      refine Or.inl ⟨rfl, rfl, ?_⟩
      cases job with
      | attestSigningKey => rfl
      | execute => rfl
  | _ => exact Or.inl ⟨rfl, rfl, rfl⟩

theorem task_of_progresses {server : Server K} {fresh : TaskId} {phase : Phase Stdin}
    {input : Input Stdin} {p : Progress Stdin}
    (hp : Progresses deps debugMode server fresh phase input p) {task : TaskId}
    (htask : p.phase.task = some task) :
    phase.task = some task ∨ (task = fresh ∧ p.spawned = 1) := by
  cases hp with
  | spawned message job =>
      cases htask
      exact Or.inr ⟨rfl, rfl⟩
  | admitted | locked | setupDone | runDone => exact Or.inl htask
  | _ => cases htask

/-- The calls so far are those of the executions that are over, and those of the one in
the section of the guard. No task executes twice. -/
structure Serialized (deps : Deps K) (key : K) (s : Enclave K Stdin)
    (past : List (ℕ × Event Stdin)) (owners : List TaskId)
    (done current : List (ℕ × Event Stdin)) : Prop where
  blocks : Blocks (Execution deps key) owners done
  calls : callsOf past = done ++ current
  free : s.server.execution_guard = none → current = []
  held : ∀ {c phase}, s.connections c = some phase → phase.holder.isSome →
    current = phase.calls.map fun e => (c, e)
  fresh : ∀ task ∈ owners, task < s.nextTask
  task : ∀ {c phase task}, s.connections c = some phase → phase.task = some task →
    task < s.nextTask ∧ task ∉ owners
  unique : ∀ {c d phase phase' task}, s.connections c = some phase →
    s.connections d = some phase' → phase.task = some task → phase'.task = some task → c = d

theorem callsOf_map (c : ℕ) (es : List (Event Stdin)) :
    callsOf (es.map fun e => (c, e)) = (es.filter Event.isCall).map fun e => (c, e) := by
  rw [callsOf, List.filter_map]
  rfl

variable {s s' : Enclave K Stdin} {past : List (ℕ × Event Stdin)} {owners : List TaskId}
  {done current : List (ℕ × Event Stdin)}

theorem serialized_start (key : K) (task : TaskId) :
    Serialized deps key (start key task : Enclave K Stdin) [] [] [] [] where
  blocks := .nil
  calls := rfl
  free _ := rfl
  held hc := by cases hc
  fresh _ h := by cases h
  task hc := by cases hc
  unique hc := by cases hc

theorem update_cases {connections : ℕ → Option (Phase Stdin)} {c d : ℕ}
    {phase phase' : Phase Stdin}
    (h : Function.update connections c (some phase) d = some phase') :
    (d = c ∧ phase = phase') ∨ (d ≠ c ∧ connections d = some phase') := by
  by_cases hd : d = c
  · rw [hd, Function.update_self] at h
    exact Or.inl ⟨hd, Option.some.inj h⟩
  · rw [Function.update_of_ne hd] at h
    exact Or.inr ⟨hd, h⟩

section Steps

variable {c : ℕ} {phase : Phase Stdin} {input : Input Stdin} {p : Progress Stdin}

theorem Serialized.tasks (h : Serialized deps key s past owners done current)
    {phase' : Phase Stdin} {n : ℕ}
    (htask : ∀ task, phase'.task = some task →
      (∃ phase, s.connections c = some phase ∧ phase.task = some task) ∨
        (task = s.nextTask ∧ s.nextTask < n))
    (hn : s.nextTask ≤ n) :
    (∀ {d phase task}, Function.update s.connections c (some phase') d = some phase →
      phase.task = some task → task < n ∧ task ∉ owners) ∧
    ∀ {d d' phase phase'' task}, Function.update s.connections c (some phase') d = some phase →
      Function.update s.connections c (some phase') d' = some phase'' →
      phase.task = some task → phase''.task = some task → d = d' := by
  have hold : ∀ {d phase task}, s.connections d = some phase → phase.task = some task →
      task < n ∧ task ∉ owners := by
    intro d phase task hd ht
    obtain ⟨hlt, hnot⟩ := h.task hd ht
    exact ⟨hlt.trans_le hn, hnot⟩
  have hnew : ∀ {d phase task}, d ≠ c → s.connections d = some phase →
      phase.task = some task → phase'.task ≠ some task := by
    intro d phase task hdc hd ht ht'
    rcases htask task ht' with ⟨phase₀, hc, ht₀⟩ | ⟨rfl, -⟩
    · exact hdc (h.unique hd hc ht ht₀)
    · exact Nat.lt_irrefl _ (h.task hd ht).1
  refine ⟨fun {d phase task} hd ht => ?_, fun {d d' phase phase'' task} hd hd' ht ht' => ?_⟩
  · rcases update_cases hd with ⟨-, rfl⟩ | ⟨-, hd⟩
    · rcases htask task ht with ⟨phase₀, hc, ht₀⟩ | ⟨rfl, hlt⟩
      · exact hold hc ht₀
      · exact ⟨hlt, fun hmem => Nat.lt_irrefl _ (h.fresh _ hmem)⟩
    · exact hold hd ht
  · rcases update_cases hd with ⟨hdc, rfl⟩ | ⟨hdc, hd⟩
    · rcases update_cases hd' with ⟨hdc', -⟩ | ⟨hdc', hd'⟩
      · rw [hdc, hdc']
      · exact absurd ht (hnew hdc' hd' ht')
    · rcases update_cases hd' with ⟨-, rfl⟩ | ⟨-, hd'⟩
      · exact absurd ht' (hnew hdc hd ht)
      · exact h.unique hd hd' ht ht'

theorem Serialized.tasks_advance (h : Serialized deps key s past owners done current)
    (hc : s.connections c = some phase)
    (hp : Progresses deps debugMode s.server s.nextTask phase input p) :
    (∀ {d phase' task}, (s.advance c p).connections d = some phase' → phase'.task = some task →
      task < (s.advance c p).nextTask ∧ task ∉ owners) ∧
    ∀ {d d' phase' phase'' task}, (s.advance c p).connections d = some phase' →
      (s.advance c p).connections d' = some phase'' →
      phase'.task = some task → phase''.task = some task → d = d' :=
  h.tasks (fun task ht => by
    rcases task_of_progresses hp ht with hsame | ⟨rfl, hspawned⟩
    · exact Or.inl ⟨phase, hc, hsame⟩
    · exact Or.inr ⟨rfl, Nat.lt_add_of_pos_right (hspawned ▸ Nat.one_pos)⟩)
    (Nat.le_add_right _ _)

theorem Serialized.fresh_advance (h : Serialized deps key s past owners done current)
    (p : Progress Stdin) : ∀ task ∈ owners, task < (s.advance c p).nextTask :=
  fun task ht => (h.fresh task ht).trans_le (Nat.le_add_right _ _)

theorem Serialized.callsOf_append (h : Serialized deps key s past owners done current)
    (es : List (Event Stdin)) :
    callsOf (past ++ es.map fun e => (c, e)) =
      done ++ (current ++ (es.filter Event.isCall).map fun e => (c, e)) := by
  rw [callsOf, List.filter_append, ← callsOf, ← callsOf, h.calls, callsOf_map, List.append_assoc]

theorem holder_eq (hc : s.connections c = some phase) : s.holder c = phase.holder := by
  rw [holder, hc, Option.bind_some]

theorem not_holder_of_ne (hguarded : Guarded s.holder s.server.execution_guard)
    (hc : s.connections c = some phase) (hin : phase.holder.isSome) {d : ℕ}
    {phase' : Phase Stdin} (hdc : d ≠ c) (hd : s.connections d = some phase') :
    ¬ phase'.holder.isSome := by
  intro hin'
  obtain ⟨t, ht⟩ := Option.isSome_iff_exists.mp hin
  obtain ⟨t', ht'⟩ := Option.isSome_iff_exists.mp hin'
  exact hdc (hguarded.holder_unique ((holder_eq hd).trans ht') ((holder_eq hc).trans ht))

theorem Serialized.outside (h : Serialized deps key s past owners done current)
    (hc : s.connections c = some phase)
    (hp : Progresses deps debugMode s.server s.nextTask phase input p)
    (hout : phase.holder = none) (hnone : p.events.filter Event.isCall = [])
    (hempty : p.phase.calls = []) :
    Serialized deps key (s.advance c p) (past ++ p.events.map fun e => (c, e)) owners done
      current := by
  obtain ⟨htask, hunique⟩ := h.tasks_advance hc hp
  have hguard : (p.phase.holder = none ∧ p.execution_guard = s.server.execution_guard) ∨
      (s.server.execution_guard = none ∧ p.execution_guard.isSome) := by
    rcases guard_of_progresses hp with
      ⟨-, hout', hsame⟩ | ⟨-, hfree, -, htaken⟩ | ⟨hin, -⟩ | ⟨hin, -⟩
    · exact Or.inl ⟨hout', hsame⟩
    · exact Or.inr ⟨hfree, htaken⟩
    · rw [hout] at hin
      cases hin
    · rw [hout] at hin
      cases hin
  refine ⟨h.blocks, ?_, fun hfree => ?_, fun hd hin => ?_, h.fresh_advance p, htask, hunique⟩
  · rw [h.callsOf_append, hnone, List.map_nil, List.append_nil]
  · rcases hguard with ⟨-, hsame⟩ | ⟨hfree', -⟩
    · exact h.free (hsame ▸ hfree)
    · exact h.free hfree'
  · rcases update_cases hd with ⟨-, rfl⟩ | ⟨-, hd⟩
    · rcases hguard with ⟨hout', -⟩ | ⟨hfree, -⟩
      · rw [hout'] at hin
        cases hin
      · rw [h.free hfree, hempty, List.map_nil]
    · exact h.held hd hin

theorem Serialized.inside (h : Serialized deps key s past owners done current)
    (hguarded : Guarded s.holder s.server.execution_guard) (hc : s.connections c = some phase)
    (hp : Progresses deps debugMode s.server s.nextTask phase input p)
    (hin : phase.holder.isSome) (hstay : p.phase.holder = phase.holder)
    (hmore : p.phase.calls = phase.calls ++ p.events.filter Event.isCall) :
    Serialized deps key (s.advance c p) (past ++ p.events.map fun e => (c, e)) owners done
      (p.phase.calls.map fun e => (c, e)) := by
  obtain ⟨htask, hunique⟩ := h.tasks_advance hc hp
  refine ⟨h.blocks, ?_, fun hfree => ?_, fun hd hin' => ?_, h.fresh_advance p, htask, hunique⟩
  · rw [h.callsOf_append, h.held hc hin, ← List.map_append, ← hmore]
  · have hguarded' : Guarded (s.advance c p).holder (s.advance c p).server.execution_guard := by
      rw [advance, holder_update, hstay, ← holder_eq hc]
      rcases guard_of_progresses hp with ⟨hout, -⟩ | ⟨hout, -⟩ | ⟨-, -, hsame⟩ | ⟨-, hout, -⟩
      · rw [hout] at hin
        cases hin
      · rw [hout] at hin
        cases hin
      · rw [hsame]
        exact hguarded.stay c
      · rw [← hstay, hout] at hin
        cases hin
    rw [hfree] at hguarded'
    have hnone := hguarded'.holder_eq_none c
    rw [advance, holder_update, Function.update_self, hstay] at hnone
    rw [hnone] at hin
    cases hin
  · rcases update_cases hd with ⟨rfl, rfl⟩ | ⟨hdc, hd⟩
    · rfl
    · exact absurd hin' (not_holder_of_ne hguarded hc hin hdc hd)

theorem Serialized.leave (h : Serialized deps key s past owners done current)
    (hguarded : Guarded s.holder s.server.execution_guard) (hc : s.connections c = some phase)
    (hp : Progresses deps debugMode s.server s.nextTask phase input p) {task : TaskId}
    (hin : phase.holder = some task) (ht : phase.task = some task)
    (hleave : p.phase.holder = none) (hreturned : p.phase.task = none)
    (hwhole : Execution deps key task
      ((phase.calls ++ p.events.filter Event.isCall).map fun e => (c, e))) :
    Serialized deps key (s.advance c p) (past ++ p.events.map fun e => (c, e))
      (owners ++ [task])
      (done ++ (phase.calls ++ p.events.filter Event.isCall).map fun e => (c, e)) [] := by
  obtain ⟨htask, hunique⟩ := h.tasks_advance hc hp
  obtain ⟨hlt, hnot⟩ := h.task hc ht
  have hin' : phase.holder.isSome := by rw [hin]; rfl
  refine ⟨h.blocks.snoc hwhole hnot, ?_, fun _ => rfl, fun hd hin'' => ?_, fun t hmem => ?_,
    fun hd ht' => ⟨(htask hd ht').1, fun hmem => ?_⟩, hunique⟩
  · rw [h.callsOf_append, h.held hc hin', ← List.map_append, List.append_nil]
  · rcases update_cases hd with ⟨-, rfl⟩ | ⟨hdc, hd⟩
    · rw [hleave] at hin''
      cases hin''
    · exact absurd hin'' (not_holder_of_ne hguarded hc hin' hdc hd)
  · rcases List.mem_append.mp hmem with hold | hlast
    · exact h.fresh_advance p t hold
    · rw [List.mem_singleton.mp hlast]
      exact hlt.trans_le (Nat.le_add_right _ _)
  · rcases List.mem_append.mp hmem with hold | hlast
    · exact (htask hd ht').2 hold
    · -- the task of another connection is another one
      rw [List.mem_singleton.mp hlast] at ht'
      rcases update_cases hd with ⟨-, rfl⟩ | ⟨hdc, hd⟩
      · rw [hreturned] at ht'
        cases ht'
      · exact hdc (h.unique hd hc ht' ht)

end Steps

theorem serialized_of_step (h : Serialized deps key s past owners done current)
    (hguarded : Guarded s.holder s.server.execution_guard)
    (hexplained : Explained deps debugMode key past s) {a : Action Stdin}
    {es : List (ℕ × Event Stdin)}
    (hstep : (machine deps debugMode).step s a = some (s', es)) :
    ∃ owners done current, Serialized deps key s' (past ++ es) owners done current := by
  rcases step_cases hstep with ⟨c, -, rfl, rfl⟩ | ⟨c, input, phase, p, hc, hp, rfl, rfl⟩
  · obtain ⟨htask, hunique⟩ := h.tasks (c := c) (n := s.nextTask + 1)
      (fun task (ht : Phase.receiving.task = some task) => by cases ht) (Nat.le_succ _)
    refine ⟨owners, done, current, h.blocks, by rw [List.append_nil, h.calls], h.free,
      fun hd hin => ?_, fun task ht => (h.fresh task ht).trans (Nat.lt_succ_self _), htask,
      hunique⟩
    rcases update_cases hd with ⟨-, rfl⟩ | ⟨-, hd⟩
    · cases hin
    · exact h.held hd hin
  · rcases calls_of_progresses hexplained.signing_key (hexplained.phase hc) hp with
      ⟨hout, hnone, hempty⟩ | ⟨hin, hstay, hmore⟩ | ⟨task, hin, ht, hleave, hreturned, hwhole⟩
    · exact ⟨_, _, _, h.outside hc hp hout hnone hempty⟩
    · exact ⟨_, _, _, h.inside hguarded hc hp hin hstay hmore⟩
    · exact ⟨_, _, _, h.leave hguarded hc hp hin ht hleave hreturned hwhole⟩

theorem task_of_holder {phase : Phase Stdin} {task : TaskId} (h : phase.holder = some task) :
    phase.task = some task := by
  cases phase with
  | receiving | replying | closed => cases h
  | blocked task' job stage =>
      cases stage with
      | started | waiting | returned => cases h
      | guarded | ready | executed => exact h

/-- In every run, the calls into the prover and the signatures are those of whole
executions, one after another and each of a task of its own, followed by those of the
execution that holds the guard, if one does, whose task is a further one. -/
theorem serialized_of_run {task : TaskId} {as : List (Action Stdin)}
    {es : List (ℕ × Event Stdin)}
    (hrun : (machine deps debugMode).run (start key task) as = some (s, es)) :
    ∃ owners done current, Blocks (Execution deps key) owners done ∧
      callsOf es = done ++ current ∧
      (s.server.execution_guard = none → current = []) ∧
      (∀ c phase, s.connections c = some phase → phase.holder.isSome →
        current = phase.calls.map fun e => (c, e)) ∧
      ∀ owner, s.server.execution_guard = some owner → owner ∉ owners ∧
        ∃ c phase, s.connections c = some phase ∧ phase.holder = some owner := by
  have hinv := Machine.run_invariant (I := fun s past =>
      Guarded s.holder s.server.execution_guard ∧ Explained deps debugMode key past s ∧
        ∃ owners done current, Serialized deps key s past owners done current)
    (fun {s s' a past es} h hstep => by
      obtain ⟨hguarded, hexplained, owners, done, current, hserialized⟩ := h
      exact ⟨guarded_of_step hguarded hstep, explained_of_step hexplained hstep,
        serialized_of_step hserialized hguarded hexplained hstep⟩)
    ⟨guarded_start key task, explained_start key task, [], [], [], serialized_start key task⟩ hrun
  obtain ⟨hguarded, -, owners, done, current, hserialized⟩ := hinv
  refine ⟨owners, done, current, hserialized.blocks, hserialized.calls, hserialized.free,
    fun c phase hc hin => hserialized.held hc hin, fun owner howner => ?_⟩
  obtain ⟨c, hc⟩ := hguarded.exists_holder howner
  obtain ⟨phase, hphase, hholder⟩ := Option.bind_eq_some_iff.mp hc
  exact ⟨(hserialized.task hphase (task_of_holder hholder)).2, c, phase, hphase, hholder⟩

/-- One execution after another: the second is in its section. -/
def executions : List (Action Unit) :=
  [.accept 0, .accept 1, .on 0 (.recv (.ok (.Execute () [] 7))), .on 0 .proceed, .on 0 .proceed,
    .on 1 (.recv (.ok (.Execute () [1] 7))), .on 1 .proceed, .on 0 (.setup (.ok 0)),
    .on 0 (.run (.ok (.error "halted"))), .on 1 .proceed, .on 1 (.setup (.ok 0))]

theorem run_executions :
    ∃ s es, (machine (.standard (fun _ _ => none) 1) false).run (start 1 1) executions =
        some (s, es) ∧ callsOf es = es ∧
      s.connections 1 = some (.blocked 4 (.execute () [1] 7) (.ready 0)) ∧
      s.server.execution_guard = some 4 :=
  ⟨_, _, rfl, rfl, rfl, rfl⟩

theorem serialized_of_run_executions :
    ∃ s es, (machine (.standard (fun _ _ => none) 1) false).run (start 1 1) executions =
        some (s, es) ∧
      ∃ owners done, Blocks (Execution (.standard (fun _ _ => none) 1) 1) owners done ∧
        4 ∉ owners ∧ es = done ++ [(1, .setup 4 [1] (.ok 0))] := by
  obtain ⟨s, es, hrun, hcalls, hready, hguard⟩ := run_executions
  obtain ⟨owners, done, current, hblocks, hsplit, -, hheld, htaken⟩ := serialized_of_run hrun
  refine ⟨s, es, hrun, owners, done, hblocks, (htaken 4 hguard).1, ?_⟩
  rw [hcalls, hheld 1 _ hready rfl] at hsplit
  exact hsplit

/-! ## Requests and responses of one connection -/

/-- A debug build does not answer a print, and nothing answers the end of a session. -/
def Answerable (debugMode : Bool) : EnclaveRequest Stdin → Bool
  | .Print _ => !debugMode
  | .CloseSession => false
  | _ => true

def Input.requests (debugMode : Bool) : Input Stdin → List (EnclaveRequest Stdin)
  | .recv (.ok message) => if Answerable debugMode message then [message] else []
  | _ => []

def Action.requests (debugMode : Bool) (c : ℕ) : Action Stdin → List (EnclaveRequest Stdin)
  | .accept _ => []
  | .on d input => if d = c then input.requests debugMode else []

/-- The requests that the connection `c` has received and that have to be answered. -/
def requests (debugMode : Bool) (c : ℕ) (as : List (Action Stdin)) : List (EnclaveRequest Stdin) :=
  as.flatMap (Action.requests debugMode c)

def Event.answer : Event Stdin → Option (EnclaveRequest Stdin × EnclaveResponse)
  | .answered request response => some (request, response)
  | _ => none

/-- The requests that the connection `c` has answered, with the responses. -/
def answers (c : ℕ) (es : List (ℕ × Event Stdin)) :
    List (EnclaveRequest Stdin × EnclaveResponse) :=
  (es.filterMap (Machine.ofIndex c)).filterMap Event.answer

theorem answers_map (c d : ℕ) (es : List (Event Stdin)) :
    answers c (es.map fun e => (d, e)) = if d = c then es.filterMap Event.answer else [] := by
  rw [answers, Machine.filterMap_ofIndex_map]
  split
  · rfl
  · rfl

theorem answers_append (c : ℕ) (es es' : List (ℕ × Event Stdin)) :
    answers c (es ++ es') = answers c es ++ answers c es' := by
  rw [answers, List.filterMap_append, List.filterMap_append, answers, answers]

theorem answers_attestSigningKey {server : Server K} {nsm : Nsm} {response : EnclaveResponse}
    (h : server.attestSigningKey deps nsm = .ok response) :
    Answers (.AttestSigningKey : EnclaveRequest Stdin) response := by
  let calls : Calls Stdin := ⟨0, ⟨fun _ => .error none, fun _ _ _ => .error none⟩, nsm⟩
  have hanswers : Answers (.AttestSigningKey : EnclaveRequest Stdin)
      (server.blockingResponse deps calls .attestSigningKey) :=
    Server.answers_blockingResponse_attest calls
  rwa [Server.blockingResponse, Server.runJob, h] at hanswers

theorem answers_of_send {server : Server K} {message : EnclaveRequest Stdin}
    {response : EnclaveResponse}
    (h : Server.handleMessage deps debugMode server message = .send response) :
    Answers message response := by
  have hreply : server.reply deps debugMode
      ⟨0, ⟨fun _ => .error none, fun _ _ _ => .error none⟩, default⟩ message = some response := by
    rw [Server.reply, h]
  exact Server.answers_of_reply hreply

end Enclave

end Sp1Tee

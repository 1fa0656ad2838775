import Sp1Tee.EndToEnd.Bucket
import Sp1Tee.Host.AttestationTask

/-!
# How old a saved attestation gets

Attestations expire, so a host has to save a new one from time to time. The sessions of
its task write attestations of the enclave's own key, as sessions do in every run. Here
they are put on the clock: if no session takes longer than `work`, and no wait goes
unnoticed for longer than `lag`, then the last attestation that was saved is not older
than an interval, beside what the sessions have cost that failed since then. Whether a
document has expired at that age is for its certificates to say, and is left out.
-/

namespace Sp1Tee

open Foundation Foundation.Solidity Host

namespace AttestationTask

variable {K Stdin : Type} {deps : Deps K} {debugMode : Bool} {libs : Libraries} {key : K}
  {pcrs : ℕ → Option Bytes} {interval : ℕ} {s s' : AttestationTask K Stdin}
  {past es : List (Event Stdin)}

def Action.Genuine (genuine : Nsm → Prop) : Action Stdin → Prop
  | .saving a => a.Genuine genuine
  | _ => True

/-- At this time the store confirmed that it has a valid attestation of the enclave, under
the enclave's address. -/
def SavedAt (libs : Libraries) (deps : Deps K) (key : K) (pcrs : ℕ → Option Bytes) (time : ℕ)
    (es : List (Event Stdin)) : Prop :=
  ∃ i object_key body, (time, .inr (i, .put object_key body)) ∈ es ∧
    (time, .inr (i, .returned (.ok ()))) ∈ es ∧
    Fleet.Certifies libs (fun _ : Unit => deps) (fun _ => key) (fun _ => pcrs) () object_key body

/-- What holds of every run whose security modules are genuine. -/
structure Sound (libs : Libraries) (deps : Deps K) (key : K) (pcrs : ℕ → Option Bytes)
    (s : AttestationTask K Stdin) (past : List (Event Stdin)) : Prop where
  saving : Saving.Sound deps libs.keccak256 (Faithful libs pcrs) key s.saving (past.map Prod.snd)
  saved : ∀ time i, (time, .inr (i, .returned (.ok ()))) ∈ past →
    SavedAt libs deps key pcrs time past

theorem saving_of_step {a : Action Stdin}
    (hstep : (machine deps debugMode libs.keccak256 interval).step s a = some (s', es)) :
    (s'.saving = s.saving ∧ es = []) ∨
      ∃ a' es', a = .saving a' ∧
        (Saving.machine deps debugMode libs.keccak256).step s.saving a' = some (s'.saving, es') ∧
        es = es'.map fun e => (s.pacer.now, e) := by
  cases a with
  | elapse time =>
      cases hstep
      exact Or.inl ⟨rfl, rfl⟩
  | wake =>
      simp only [machine] at hstep
      split at hstep
      · cases hstep
      · cases hstep
        exact Or.inl ⟨rfl, rfl⟩
  | saving a =>
      simp only [machine] at hstep
      split at hstep
      · split at hstep
        · cases hstep
        · next saving es' hsaving =>
          refine Or.inr ⟨a, es', rfl, ?_⟩
          split at hstep
          · cases hstep
            exact ⟨hsaving, rfl⟩
          · split at hstep
            · cases hstep
            · cases hstep
              exact ⟨hsaving, rfl⟩
      · cases hstep

theorem SavedAt.mono {time : ℕ} (h : SavedAt libs deps key pcrs time past)
    (es : List (Event Stdin)) :
    SavedAt libs deps key pcrs time (past ++ es) := by
  obtain ⟨i, object_key, body, hput, hreturned, hcertifies⟩ := h
  exact ⟨i, object_key, body, List.mem_append_left _ hput, List.mem_append_left _ hreturned,
    hcertifies⟩

/-- A session that returns without an error has just written its attestation. -/
theorem savedAt_of_returned_ok (time : ℕ) {i : ℕ} {saving : Saving K Stdin}
    {a : Saving.Action Stdin} {earlier es : List (Saving.Event Stdin)}
    (h : Saving.Sound deps libs.keccak256 (Faithful libs pcrs) key s.saving earlier)
    (hstep : (Saving.machine deps debugMode libs.keccak256).step s.saving a = some (saving, es))
    (hmem : .inr (i, .returned (.ok ())) ∈ es) :
    SavedAt libs deps key pcrs time (es.map fun e => (time, e)) := by
  obtain ⟨c, object_key, attestation, hstage, rfl⟩ := Saving.put_of_returned_ok hstep hmem
  have hput : .inr (i, .put object_key attestation) ∈ es := by
    simp only [Saving.machine, hstage, Deployment.saveAttestation] at hstep
    cases hstep
    exact List.mem_cons_self
  exact ⟨i, object_key, attestation, List.mem_map_of_mem hput, List.mem_map_of_mem hmem,
    Fleet.certifies_of_saving h hstage⟩

theorem sound_of_step {a : Action Stdin} (h : Sound libs deps key pcrs s past)
    (ha : a.Genuine (Faithful libs pcrs))
    (hstep : (machine deps debugMode libs.keccak256 interval).step s a = some (s', es)) :
    Sound libs deps key pcrs s' (past ++ es) := by
  rcases saving_of_step hstep with ⟨hsaving, rfl⟩ | ⟨a', es', rfl, hsaving, rfl⟩
  · rw [List.append_nil]
    exact ⟨hsaving ▸ h.saving, h.saved⟩
  · refine ⟨?_, fun time i hmem => ?_⟩
    · rw [List.map_append, List.map_map]
      simpa [Function.comp_def] using Saving.sound_of_step h.saving ha hsaving
    · rcases List.mem_append.mp hmem with hold | hnew
      · exact (h.saved time i hold).mono _
      · obtain ⟨e, he, heq⟩ := List.mem_map.mp hnew
        obtain ⟨rfl, rfl⟩ := Prod.mk.inj heq
        obtain ⟨j, object_key, body, hput, hreturned, hcertifies⟩ :=
          savedAt_of_returned_ok s.pacer.now h.saving hsaving he
        exact ⟨j, object_key, body, List.mem_append_right _ hput,
          List.mem_append_right _ hreturned, hcertifies⟩

theorem sound_start (task : TaskId) :
    Sound libs deps key pcrs (start key task : AttestationTask K Stdin) [] where
  saving := Saving.sound_start task
  saved _ _ h := by cases h

theorem sound_of_run {task : TaskId} {as : List (Action Stdin)}
    (hgenuine : ∀ a ∈ as, a.Genuine (Faithful libs pcrs))
    (hrun : (machine deps debugMode libs.keccak256 interval).run (start key task) as =
      some (s, es)) :
    Sound libs deps key pcrs s es :=
  Machine.run_invariant_of_forall (I := fun s past => Sound libs deps key pcrs s past)
    sound_of_step (sound_start task) hgenuine hrun

theorem exists_returned_of_mem_attempts {time : ℕ} (h : (time, true) ∈ attempts es) :
    ∃ i, (time, .inr (i, .returned (.ok ()))) ∈ es := by
  obtain ⟨⟨t, e⟩, he, hattempt⟩ := List.mem_filterMap.mp h
  rcases e with e | ⟨i, e⟩
  · cases hattempt
  · cases e with
    | returned result =>
        cases result with
        | ok _ =>
            cases hattempt
            exact ⟨i, he⟩
        | error e => cases hattempt
    | _ => cases hattempt

/-- In every run whose security modules are genuine and that is prompt, the store has lately
confirmed a valid attestation of the enclave under its address. How lately depends on the
sessions alone that have failed since then, or since the start, if none has succeeded. -/
theorem fresh_of_run (libs : Libraries) (deps : Deps K) (debugMode : Bool) (key : K)
    (pcrs : ℕ → Option Bytes) (interval : ℕ) (task : TaskId) {as : List (Action Stdin)}
    {work lag : ℕ} (hgenuine : ∀ a ∈ as, a.Genuine (Faithful libs pcrs))
    (hprompt : (machine deps debugMode libs.keccak256 interval).Throughout
      (fun s => Pacer.Prompt TRY_AGAIN_INTERVAL work lag s.pacer) (start key task) as)
    (hrun : (machine deps debugMode libs.keccak256 interval).run (start key task) as =
      some (s, es)) :
    ∃ failures : List (ℕ × Bool), (∀ e ∈ failures, e.2 = false) ∧
      ((attempts es = failures ∧
          s.pacer.now ≤ TRY_AGAIN_INTERVAL + lag +
            failures.length * Pacer.setback TRY_AGAIN_INTERVAL work lag + work) ∨
        ∃ before time, attempts es = before ++ (time, true) :: failures ∧
          s.pacer.now ≤ time + interval + lag +
            failures.length * Pacer.setback TRY_AGAIN_INTERVAL work lag + work ∧
          SavedAt libs deps key pcrs time es) := by
  have hsound := sound_of_run hgenuine hrun
  obtain ⟨as', hrun', hprompt'⟩ : ∃ as', (Pacer.machine TRY_AGAIN_INTERVAL interval).run .start
      as' = some (s.pacer, attempts es) ∧ (Pacer.machine TRY_AGAIN_INTERVAL interval).Throughout
        (Pacer.Prompt TRY_AGAIN_INTERVAL work lag) .start as' :=
    Machine.run_project_throughout AttestationTask.pacer _
      (fun hstep => pacer_of_steps (steps_of_step hstep)) hprompt hrun
  obtain ⟨failures, base, ⟨hfailures, hsplit⟩, hnow⟩ := Pacer.ongoing_of_run hprompt' hrun'
  refine ⟨failures, hfailures, ?_⟩
  rcases hsplit with ⟨hattempts, rfl⟩ | ⟨before, time, hattempts, rfl⟩
  · exact Or.inl ⟨hattempts, hnow⟩
  · have hmem : (time, true) ∈ attempts es := by
      rw [hattempts]
      exact List.mem_append_right _ List.mem_cons_self
    obtain ⟨i, hreturned⟩ := exists_returned_of_mem_attempts hmem
    exact Or.inr ⟨before, time, hattempts, hnow, hsound.saved time i hreturned⟩

/-- The first session saves the attestation. The task then waits for the next tick. -/
def freshActions : List (Action Unit) :=
  [.elapse TRY_AGAIN_INTERVAL, .wake, .elapse 1000000000] ++
    SavedSession.savingActions.map .saving ++ [.wake, .elapse 1000000000]

open SavedSession in
theorem run_freshActions :
    ∃ s es, (machine savingDeps false savingLibs.keccak256 ATTESTATION_INTERVAL).run (start 1 1)
        freshActions = some (s, es) ∧
      (machine savingDeps false savingLibs.keccak256 ATTESTATION_INTERVAL).Throughout
        (fun s => Pacer.Prompt TRY_AGAIN_INTERVAL 2000000000 0 s.pacer) (start 1 1)
        freshActions ∧
      attempts es = [(6000000000, true)] := by
  have hrun : ((machine savingDeps false savingLibs.keccak256 ATTESTATION_INTERVAL).run (start 1 1)
      freshActions).map (fun r => decide (attempts r.2 = [(6000000000, true)])) = some true := by
    decide +kernel
  obtain ⟨⟨s, es⟩, hs, hattempts⟩ := Option.map_eq_some_iff.mp hrun
  exact ⟨s, es, hs, by decide +kernel, of_decide_eq_true hattempts⟩

open SavedSession in
theorem fresh_of_run_session :
    ∃ s es, (machine savingDeps false savingLibs.keccak256 ATTESTATION_INTERVAL).run (start 1 1)
        freshActions = some (s, es) ∧
      SavedAt savingLibs savingDeps 1 savingPcrs 6000000000 es := by
  obtain ⟨s, es, hrun, hprompt, hattempts⟩ := run_freshActions
  have hgenuine : ∀ a ∈ freshActions, a.Genuine (Faithful savingLibs savingPcrs) := by
    simp [freshActions, savingActions, Action.Genuine, Saving.Action.Genuine,
      Deployment.Action.Genuine, Enclave.Input.Genuine, faithful_savingNsm]
  obtain ⟨failures, hfailures, ⟨hnone, -⟩ | ⟨before, time, hsplit, -, hsaved⟩⟩ :=
    fresh_of_run savingLibs savingDeps false 1 savingPcrs ATTESTATION_INTERVAL 1 hgenuine hprompt
      hrun
  · rw [hattempts] at hnone
    cases hfailures _ (hnone ▸ List.mem_singleton_self _)
  · have hmem : (time, true) ∈ attempts es := by
      rw [hsplit]
      exact List.mem_append_right _ List.mem_cons_self
    rw [hattempts] at hmem
    obtain rfl : time = 6000000000 := by simpa using hmem
    exact ⟨s, es, hrun, hsaved⟩

end AttestationTask

end Sp1Tee

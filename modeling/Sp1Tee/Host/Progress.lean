import Mathlib.Algebra.BigOperators.Finprod
import Mathlib.Data.Prod.Lex
import Sp1Tee.Host.Delivery

/-!
# No client waits in vain

A handler waits for the mutex, for the enclave to accept a connection, or for a response.
None of these is ever withheld for good: from every reachable state, with clients that have
gone away, executions that nobody waits for any more and strangers on other connections, the
host and its enclave can go on until every handler has told its client an outcome and the
mutex is free. `Attended` says what becomes of a handler's request.
-/

namespace Sp1Tee

open Foundation Foundation.Solidity Host

namespace Host

/-- The client stays, and the handler's calls do not fail on this side. -/
def HandlerInput.Healthy : HandlerInput → Prop
  | .lock | .connect (some _) | .send (.ok _) | .recv _ => True
  | _ => False

/-- The messages that are known to be on a line. -/
def Line.queued {Stdin : Type} : Line Stdin → ℕ
  | .messages queue => queue.length
  | .arbitrary => 0

/-- The steps that a stage is away from its end, at most, if nothing else is in the way. -/
def HandlerStage.rank (queued : ℕ → ℕ) : HandlerStage → ℕ
  | .waiting => 5
  | .connecting => 4
  | .connected _ => 3
  | .awaiting c => 1 + queued c
  | .ended => 0

end Host

namespace Enclave

variable {K Stdin : Type} {deps : Deps K} {debugMode : Bool}

/-- A step without a new message: a connection that waits for one is closed, any other one
goes on with its request, answers it or is closed. -/
theorem phase_of_progresses {server : Server K} {fresh : TaskId} {phase : Phase Stdin}
    {input : Input Stdin} {p : Progress Stdin} (hinput : ∀ message, input ≠ .recv (.ok message))
    (hp : Progresses deps debugMode server fresh phase input p) :
    p.phase = .closed ∨ ∃ request, phase.pending = some request ∧
      (p.phase.pending = some request ∨ ∃ response, .answered request response ∈ p.events) := by
  cases hp with
  | failedRecv | failedReply => exact Or.inl rfl
  | skipped message | answering message | spawned message | closing message =>
      exact absurd rfl (hinput message)
  | answered request response =>
      exact Or.inr ⟨request, rfl, Or.inr ⟨response, List.mem_singleton_self _⟩⟩
  | _ => exact Or.inr ⟨_, rfl, Or.inl rfl⟩

theorem pending_of_recv {server : Server K} {fresh : TaskId} {phase : Phase Stdin}
    {request : ClientRequest Stdin} {p : Progress Stdin}
    (hp : Progresses deps debugMode server fresh phase (.recv (.ok request.toEnclave)) p) :
    phase = .receiving ∧ p.phase.pending = some request.toEnclave := by
  cases hp with
  | skipped message h | closing message h => cases request <;> cases h
  | answering message response h => exact ⟨rfl, rfl⟩
  | spawned message job h => exact ⟨rfl, by rw [← Server.request_of_handleMessage h]; rfl⟩

theorem exists_recv (deps : Deps K) (debugMode : Bool) (server : Server K) (fresh : TaskId)
    (request : ClientRequest Stdin) :
    ∃ p, progress deps debugMode server fresh .receiving (.recv (.ok request.toEnclave)) = some p ∧
      p.events = [] ∧ p.phase ≠ .closed := by
  cases request with
  | execute => exact ⟨_, rfl, rfl, nofun⟩
  | getAddress => exact ⟨_, rfl, rfl, nofun⟩

variable {s s' : Enclave K Stdin} {a : Action Stdin} {es : List (ℕ × Event Stdin)}

theorem isSome_of_pending {c : ℕ} (h : (s.pending c).isSome) : (s.connections c).isSome := by
  obtain ⟨message, hmessage⟩ := Option.isSome_iff_exists.mp h
  exact accepted_of_pending hmessage

theorem closed_of_healthy (hstep : (machine deps debugMode).step s a = some (s', es))
    (ha : a.Healthy) {c : ℕ} (hclosed : s'.connections c = some .closed) :
    s.connections c = some .closed := by
  cases a with
  | accept d => exact ha.elim
  | on d input =>
      obtain ⟨phase, p, hd, hp, -, rfl⟩ := step_on_advance hstep
      rcases eq_or_eq_of_update hclosed with ⟨rfl, hphase⟩ | hold
      · cases hp with
        | failedRecv | skipped | answering | spawned | closing | failedReply => exact ha.elim
        | _ => cases hphase
      · exact hold

theorem finsum_rankOf {cs : Finset ℕ} (hcs : ∀ {c}, (s.pending c).isSome → c ∈ cs) :
    ∑ᶠ c, rankOf (s.connections c) = rank cs s := by
  refine finsum_eq_sum_of_support_subset _ fun c hc => hcs ?_
  by_contra hidle
  refine hc ?_
  change rankOf (s.connections c) = 0
  cases hphase : s.connections c with
  | none => rfl
  | some phase =>
      rw [pending, hphase, Option.bind_some] at hidle
      have hle := phase.rank_le_of_pending
      rw [if_neg hidle] at hle
      exact Nat.le_zero.mp hle

end Enclave

namespace Deployment

variable {K Stdin : Type} {deps : Deps K} {debugMode : Bool} {d d' : Deployment K Stdin}
  {past : List (ℕ × Enclave.Event Stdin)} {outcomes : List (HostEvent Stdin)}
  {opened : ℕ → Option ℕ}

/-- What becomes of a handler's request on the connection `c`: it is not sent yet, or it is
on its way, is being worked on or has been answered, unless the enclave has closed the
connection. -/
def Attended (d : Deployment K Stdin) (request : EnclaveRequest Stdin) (c : ℕ) :
    HandlerStage → Prop
  | .connected _ => d.lines c = .messages [] ∧
      (d.enclave.connections c = some .receiving ∨ d.enclave.connections c = some .closed)
  | .awaiting _ => d.enclave.connections c = some .closed ∨
      (d.enclave.connections c = some .receiving ∧ d.lines c = .messages [request]) ∨
      d.enclave.pending c = some request ∨ d.responses c ≠ []
  | _ => True

def Served (d : Deployment K Stdin) : Prop :=
  ∀ h request stage c, d.handlers h = some (request, stage) → stage.connection = some c →
    d.Attended request.toEnclave c stage

theorem Attended.of_same {request : EnclaveRequest Stdin} {c : ℕ} {stage : HandlerStage}
    (h : d.Attended request c stage)
    (hphase : d'.enclave.connections c = d.enclave.connections c)
    (hline : d'.lines c = d.lines c) (hresponses : d'.responses c = d.responses c) :
    d'.Attended request c stage := by
  cases stage with
  | connected c' => exact ⟨hline.trans h.1, hphase ▸ h.2⟩
  | awaiting c' =>
      rw [Attended, Enclave.pending] at h ⊢
      rwa [hphase, hline, hresponses]
  | _ => trivial

theorem lines_leave_of_ne {c : ℕ} {stage : HandlerStage} (hc : stage.connection ≠ some c)
    (h : ℕ) (request : ClientRequest Stdin) : (d.leave h request stage).lines c = d.lines c := by
  have hhang : (d.hangUp stage).lines c = d.lines c := by
    cases stage with
    | connected c' | awaiting c' =>
        have hne : c ≠ c' := fun heq => hc (by rw [heq]; rfl)
        exact Function.update_of_ne hne _ _
    | _ => rfl
  rw [← hhang, leave]
  split <;> rfl

theorem handlers_leave (h : ℕ) (request : ClientRequest Stdin) (stage : HandlerStage) :
    (d.leave h request stage).handlers =
      Function.update d.handlers h (some (request, .ended)) := by
  rw [leave]
  split <;> cases stage <;> rfl

theorem served_start (key : K) (task : TaskId) : (start key task : Deployment K Stdin).Served := by
  intro h request stage c hh
  cases hh

theorem Served.of_handler (hs : d.Served) (hd : Delivered deps d past outcomes opened) {h : ℕ}
    {request : ClientRequest Stdin} {stage stage' : HandlerStage}
    (hh : d.handlers h = some (request, stage))
    (hhandlers : d'.handlers = Function.update d.handlers h (some (request, stage')))
    (helse : ∀ c, (d.enclave.connections c).isSome → stage.connection ≠ some c →
      d'.enclave.connections c = d.enclave.connections c ∧ d'.lines c = d.lines c ∧
        d'.responses c = d.responses c)
    (hown : ∀ c, stage'.connection = some c → d'.Attended request.toEnclave c stage') :
    d'.Served := by
  intro h' request' stage'' c hh' hc
  rw [hhandlers] at hh'
  by_cases hne : h' = h
  · rw [hne, Function.update_self] at hh'
    cases hh'
    exact hown c hc
  · rw [Function.update_of_ne hne] at hh'
    have hopened := (hd.belongs hh' hc).1
    obtain ⟨hphase, hline, hresponses⟩ := helse c (hd.accepted hopened) fun hstage =>
      hne (hd.injective hopened (hd.belongs hh hstage).1)
    exact (hs h' request' stage'' c hh' hc).of_same hphase hline hresponses

theorem Served.of_connection (hs : d.Served) (hd : Delivered deps d past outcomes opened) (c : ℕ)
    (hhandlers : d'.handlers = d.handlers)
    (helse : ∀ c', (d.enclave.connections c').isSome → c' ≠ c →
      d'.enclave.connections c' = d.enclave.connections c' ∧ d'.lines c' = d.lines c' ∧
        d'.responses c' = d.responses c')
    (hown : ∀ {h request stage}, d.handlers h = some (request, stage) →
      stage.connection = some c → d.Attended request.toEnclave c stage →
      d'.Attended request.toEnclave c stage) : d'.Served := by
  intro h request stage c' hh hc
  rw [hhandlers] at hh
  have hattended := hs h request stage c' hh hc
  by_cases hne : c' = c
  · subst hne
    exact hown hh hc hattended
  · obtain ⟨hphase, hline, hresponses⟩ := helse c' (hd.accepted (hd.belongs hh hc).1) hne
    exact hattended.of_same hphase hline hresponses

theorem served_of_handle (hs : d.Served) (hd : Delivered deps d past outcomes opened) {h : ℕ}
    {request : ClientRequest Stdin} {stage : HandlerStage} {input : HandlerInput}
    {outcomes' : List (HostEvent Stdin)} (hh : d.handlers h = some (request, stage))
    (hstep : d.handle deps h request stage input = some (d', outcomes', none)) : d'.Served := by
  have hleave : ∀ c, stage.connection ≠ some c →
      (d.leave h request stage).enclave.connections c = d.enclave.connections c ∧
        (d.leave h request stage).lines c = d.lines c ∧
        (d.leave h request stage).responses c = d.responses c := fun c hc =>
    ⟨by rw [leave_enclave], lines_leave_of_ne hc h request, by rw [leave_responses]⟩
  cases handles_of_handle hstep with
  | locked =>
      exact hs.of_handler hd hh (handlers_put d h request .connecting)
        (fun c _ _ => ⟨rfl, rfl, rfl⟩) nofun
  | sent c =>
      refine hs.of_handler hd hh (handlers_put d h request (.awaiting c)) (fun c' _ hc' => ?_)
        fun c' hc' => ?_
      · have hne : c' ≠ c := fun heq => hc' (by rw [heq]; rfl)
        exact ⟨rfl, Function.update_of_ne hne _ _, rfl⟩
      · cases hc'
        obtain ⟨-, hreceiving | hclosed⟩ := hs h request _ c hh rfl
        · exact Or.inr (Or.inl ⟨hreceiving, Function.update_self _ _ _⟩)
        · exact Or.inl hclosed
  | received c response rest =>
      refine hs.of_handler hd hh (handlers_leave h request (.awaiting c)) (fun c' _ hc' => ?_) nofun
      have hne : c' ≠ c := fun heq => hc' (by rw [heq]; rfl)
      obtain ⟨hphase, hline, -⟩ := hleave c' hc'
      exact ⟨hphase, hline, Function.update_of_ne hne _ _⟩
  | failed | dropped =>
      exact hs.of_handler hd hh (handlers_leave h request stage) (fun c _ hc => hleave c hc) nofun

theorem answeredOn_self {c : ℕ} {es : List (ℕ × Enclave.Event Stdin)}
    {request : EnclaveRequest Stdin} {response : EnclaveResponse}
    (h : (c, .answered request response) ∈ es) : es.filterMap (answeredOn c) ≠ [] :=
  List.ne_nil_of_mem (List.mem_filterMap.mpr ⟨_, h, if_pos rfl⟩)

theorem answeredOn_of_ne {c c' : ℕ} (h : c' ≠ c) (es : List (Enclave.Event Stdin)) :
    (es.map fun e => (c, e)).filterMap (answeredOn c') = [] := by
  rw [List.filterMap_eq_nil_iff]
  rintro ⟨i, e⟩ he
  obtain ⟨e', -, heq⟩ := List.mem_map.mp he
  obtain ⟨rfl, rfl⟩ := Prod.mk.inj heq
  cases e' with
  | answered => exact if_neg (Ne.symm h)
  | _ => rfl

theorem else_of_advance (d : Deployment K Stdin) {c c' : ℕ} (hne : c' ≠ c)
    (p : Enclave.Progress Stdin) (line : Line Stdin) :
    (d.enclave.advance c p).connections c' = d.enclave.connections c' ∧
      Function.update d.lines c line c' = d.lines c' ∧
      d.responses c' ++ (p.events.map fun e => (c, e)).filterMap (answeredOn c') =
        d.responses c' := by
  refine ⟨?_, Function.update_of_ne hne _ _, ?_⟩
  · rw [Enclave.connections_advance, Function.update_of_ne hne]
  · rw [answeredOn_of_ne hne, List.append_nil]

theorem Attended.deliver {request : ClientRequest Stdin} {c : ℕ} {stage : HandlerStage}
    {queue : List (EnclaveRequest Stdin)} {p : Enclave.Progress Stdin} {phase : Enclave.Phase Stdin}
    (h : d.Attended request.toEnclave c stage)
    (hline : d.lines c = .messages (request.toEnclave :: queue))
    (hp : Enclave.Progresses deps debugMode d.enclave.server d.enclave.nextTask phase
      (.recv (.ok request.toEnclave)) p)
    (henclave : d'.enclave = d.enclave.advance c p) :
    d'.Attended request.toEnclave c stage := by
  have hpending := Enclave.pending_advance_self d.enclave c p
  rw [(Enclave.pending_of_recv hp).2, ← henclave] at hpending
  cases stage with
  | connected c' =>
      rw [h.1] at hline
      cases hline
  | awaiting c' => exact Or.inr (Or.inr (Or.inl hpending))
  | _ => trivial

theorem Attended.advance {request : EnclaveRequest Stdin} {c : ℕ} {stage : HandlerStage}
    {p : Enclave.Progress Stdin} {phase : Enclave.Phase Stdin} {input : Enclave.Input Stdin}
    (h : d.Attended request c stage) (hc : d.enclave.connections c = some phase)
    (hinput : ∀ message, input ≠ .recv (.ok message))
    (hp : Enclave.Progresses deps debugMode d.enclave.server d.enclave.nextTask phase input p)
    (henclave : d'.enclave = d.enclave.advance c p) (hline : d'.lines c = d.lines c)
    (hresponses : d'.responses c =
      d.responses c ++ (p.events.map fun e => (c, e)).filterMap (answeredOn c)) :
    d'.Attended request c stage := by
  have hphase : d'.enclave.connections c = some p.phase := by
    rw [henclave, Enclave.connections_advance, Function.update_self]
  have hopen : phase ≠ .closed := by
    rintro rfl
    cases hp
  have hcases := Enclave.phase_of_progresses hinput hp
  -- a connection on which nothing has arrived can only be closed
  have hreceiving : phase = .receiving → p.phase = .closed := by
    rintro rfl
    rcases hcases with hclosed | ⟨request', hpending, -⟩
    · exact hclosed
    · cases hpending
  cases stage with
  | connected c' =>
      obtain ⟨hlines, hreceive | hclosed⟩ := h
      · rw [hc] at hreceive
        exact ⟨hline.trans hlines, Or.inr (by rw [hphase, hreceiving (Option.some.inj hreceive)])⟩
      · rw [hc] at hclosed
        exact absurd (Option.some.inj hclosed) hopen
  | awaiting c' =>
      rcases h with hclosed | ⟨hreceive, -⟩ | hpending | hanswered
      · rw [hc] at hclosed
        exact absurd (Option.some.inj hclosed) hopen
      · rw [hc] at hreceive
        exact Or.inl (by rw [hphase, hreceiving (Option.some.inj hreceive)])
      · rw [Enclave.pending, hc, Option.bind_some] at hpending
        rcases hcases with hclosed | ⟨request', hrequest, hstay | ⟨response, hanswered⟩⟩
        · exact Or.inl (by rw [hphase, hclosed])
        · rw [hpending] at hrequest
          refine Or.inr (Or.inr (Or.inl ?_))
          rw [Enclave.pending, hphase, Option.bind_some, hstay, ← hrequest]
        · refine Or.inr (Or.inr (Or.inr ?_))
          rw [hresponses]
          exact List.append_ne_nil_of_right_ne_nil _
            (answeredOn_self (List.mem_map_of_mem hanswered))
      · refine Or.inr (Or.inr (Or.inr ?_))
        rw [hresponses]
        exact List.append_ne_nil_of_left_ne_nil hanswered _
  | _ => trivial

theorem served_of_enclave {a : Action Stdin} {outcomes' : List (HostEvent Stdin)}
    {a' : Enclave.Action Stdin} {enclave : Enclave K Stdin} {es : List (ℕ × Enclave.Event Stdin)}
    (hs : d.Served) (hd : Delivered deps d past outcomes opened)
    (hmove : d.move deps a = some (d', outcomes', some a'))
    (hstep : (Enclave.machine deps debugMode).step d'.enclave a' = some (enclave, es)) :
    Served { d' with
      enclave := enclave
      responses := fun c => d'.responses c ++ es.filterMap (answeredOn c) } := by
  cases a with
  | arrive h request =>
      simp only [move] at hmove
      split at hmove
      · cases hmove
      · cases hmove
  | handler h input =>
      simp only [move] at hmove
      split at hmove
      · cases hmove
      · next request stage hh =>
        obtain ⟨c, rfl, rfl, rfl, rfl, rfl⟩ := accept_of_handle hmove
        obtain ⟨hc, rfl, rfl⟩ := Enclave.step_accept hstep
        refine hs.of_handler hd hh (handlers_put d h request (.connected c)) (fun c' hc' _ => ?_)
          fun c' hc' => ?_
        · have hne : c' ≠ c := by
            rintro rfl
            rw [show d.enclave.connections c' = none from hc] at hc'
            cases hc'
          exact ⟨Function.update_of_ne hne _ _, Function.update_of_ne hne _ _, List.append_nil _⟩
        · cases hc'
          exact ⟨Function.update_self _ _ _, Or.inl (Function.update_self _ _ _)⟩
  | stranger c =>
      cases hmove
      obtain ⟨hc, rfl, rfl⟩ := Enclave.step_accept hstep
      refine hs.of_connection hd c rfl (fun c' _ hne => ?_) fun hh hc' => ?_
      · exact ⟨Function.update_of_ne hne _ _, Function.update_of_ne hne _ _, List.append_nil _⟩
      · have hsome := hd.accepted (hd.belongs hh hc').1
        rw [show d.enclave.connections c = none from hc] at hsome
        cases hsome
  | deliver c =>
      simp only [move] at hmove
      split at hmove
      · next message queue hline =>
        cases hmove
        obtain ⟨phase, p, hc, hp, rfl, rfl⟩ := Enclave.step_on_advance hstep
        refine hs.of_connection hd c rfl (fun c' _ hne => else_of_advance d hne p _)
          fun {h request stage} hh hc' hattended => ?_
        obtain ⟨queue', hlines, hall⟩ := (hd.belongs hh hc').2.line
        cases hline.symm.trans hlines
        obtain rfl := (List.forall_mem_cons.mp hall).1
        exact hattended.deliver hline hp rfl
      · cases hmove
  | enclave c input =>
      simp only [move] at hmove
      split at hmove
      · cases hmove
      · next hinput =>
        cases hmove
        obtain ⟨phase, p, hc, hp, rfl, rfl⟩ := Enclave.step_on_advance hstep
        refine hs.of_connection hd c rfl (fun c' _ hne => ?_)
          fun {h request stage} hh hc' hattended => ?_
        · obtain ⟨hphase, -, hresponses⟩ := else_of_advance d hne p (d.lines c)
          exact ⟨hphase, rfl, hresponses⟩
        · refine hattended.advance hc ?_ hp rfl rfl rfl
          rintro message rfl
          obtain ⟨queue, hlines, -⟩ := (hd.belongs hh hc').2.line
          exact (hinput message queue rfl hlines).elim

theorem served_of_step {a : Action Stdin}
    {es : List ((ℕ × Enclave.Event Stdin) ⊕ HostEvent Stdin)}
    (hs : d.Served) (hd : Delivered deps d past outcomes opened)
    (hstep : (machine deps debugMode).step d a = some (d', es)) : d'.Served := by
  obtain ⟨d₁, outcomes', action, hmove, hes⟩ := step_cases hstep
  obtain ⟨rfl, rfl, -⟩ | ⟨a', enclave, es', rfl, hstep', rfl, -⟩ := hes
  · cases a with
    | arrive h request =>
        simp only [move] at hmove
        split at hmove
        · cases hmove
          intro h' request' stage c hh hc
          rw [handlers_put] at hh
          by_cases hne : h' = h
          · rw [hne, Function.update_self] at hh
            cases hh
            cases request <;> cases hc
          · rw [Function.update_of_ne hne] at hh
            exact (hs h' request' stage c hh hc).of_same rfl rfl rfl
        · cases hmove
    | handler h input =>
        simp only [move] at hmove
        split at hmove
        · cases hmove
        · next request stage hh => exact served_of_handle hs hd hh hmove
    | stranger c => cases hmove
    | deliver c | enclave c input =>
        simp only [move] at hmove
        split at hmove
        · cases hmove
        · cases hmove
  · exact served_of_enclave hs hd hmove hstep'

/-! ## Reachable states -/

def Reached (deps : Deps K) (debugMode : Bool) (d : Deployment K Stdin) : Prop :=
  ∃ key task as es, (machine deps debugMode).run (start key task) as = some (d, es)

theorem Reached.step (h : Reached deps debugMode d) {a : Action Stdin}
    {es : List ((ℕ × Enclave.Event Stdin) ⊕ HostEvent Stdin)}
    (hstep : (machine deps debugMode).step d a = some (d', es)) : Reached deps debugMode d' := by
  obtain ⟨key, task, as, es', hrun⟩ := h
  have hone : (machine deps debugMode).run d [a] = some (d', es ++ []) :=
    Machine.run_cons_eq_some.mpr ⟨d', es, [], hstep, rfl, rfl⟩
  exact ⟨key, task, as ++ [a], es' ++ (es ++ []),
    Machine.run_append_eq_some.mpr ⟨d, es', es ++ [], hrun, hone, rfl⟩⟩

theorem Reached.delivered (h : Reached deps debugMode d) :
    ∃ past outcomes opened, Delivered deps d past outcomes opened ∧ d.Served := by
  obtain ⟨key, task, as, es, hrun⟩ := h
  have hinv := Machine.run_preserves
    (I := fun d => ∃ past outcomes opened, Delivered deps d past outcomes opened ∧ d.Served)
    (fun {d d' a es} h hstep => ?_) ⟨_, _, _, delivered_start key task, served_start key task⟩ hrun
  · exact hinv
  · obtain ⟨past, outcomes, opened, hd, hs⟩ := h
    obtain ⟨opened', hd', -⟩ := delivered_of_step hd hstep
    exact ⟨_, _, _, hd', served_of_step hs hd hstep⟩

theorem Reached.enclave (h : Reached deps debugMode d) :
    ∃ key task as es, (Enclave.machine deps debugMode).run (.start key task) as =
      some (d.enclave, es) := by
  obtain ⟨key, task, as, es, hrun⟩ := h
  obtain ⟨as', hrun'⟩ := run_enclave hrun
  exact ⟨key, task, as', _, hrun'⟩

theorem Reached.guarded (h : Reached deps debugMode d) :
    Guarded d.holder d.execution_mutex := by
  obtain ⟨key, task, as, es, hrun⟩ := h
  exact guarded_of_run hrun

theorem Reached.finite (h : Reached deps debugMode d) : {h | (d.requestOf h).isSome}.Finite := by
  obtain ⟨key, task, as, es, hrun⟩ := h
  refine Machine.run_preserves (I := fun d => {h | (d.requestOf h).isSome}.Finite)
    (fun {d d' a es} hfinite hstep => ?_) (by simp [start, requestOf]) hrun
  rcases requestOf_of_step hstep with hsame | ⟨i, request, -, -, hupdate⟩
  · rwa [hsame]
  · rw [hupdate]
    refine (hfinite.insert i).subset fun h hh => ?_
    by_cases hi : h = i
    · exact Set.mem_insert_iff.mpr (Or.inl hi)
    · rw [Set.mem_ofPred_eq, Function.update_of_ne hi] at hh
      exact Set.mem_insert_of_mem i hh

/-! ## Steps of goodwill -/

/-- No client arrives or goes away, and what is written goes out. -/
def Action.Healthy : Action Stdin → Prop
  | .handler _ input => input.Healthy
  | .deliver _ => True
  | .enclave _ input => input.Healthy
  | .arrive _ _ | .stranger _ => False

/-- What is asked of the security module is asked of this one. -/
def Action.Asks (nsm : Nsm) : Action Stdin → Prop
  | .enclave _ input => input.Asks nsm
  | _ => True

def Cut (d : Deployment K Stdin) (stage : HandlerStage) : Prop :=
  ∃ c, stage.connection = some c ∧ d.enclave.connections c = some .closed

/-- What becomes of a handler: it goes on, or it has told its client an outcome. Where the
connection has not been closed, this is the enclave's answer. -/
inductive Kept (deps : Deps K) (d d' : Deployment K Stdin)
    (es : List ((ℕ × Enclave.Event Stdin) ⊕ HostEvent Stdin)) (h : ℕ)
    (request : ClientRequest Stdin) (stage : HandlerStage) : Prop
  | waiting (stage' : HandlerStage) (hh : d'.handlers h = some (request, stage'))
      (hstage : stage' ≠ .ended) (hopen : ¬ d.Cut stage → ¬ d'.Cut stage')
  | told (outcome : Outcome) (hh : d'.handlers h = some (request, .ended))
      (hmem : (h, request, outcome) ∈ es.filterMap Sum.getRight?)
      (hanswer : ¬ d.Cut stage → ∃ response, outcome = request.outcome deps.keccak256 response)

noncomputable def rank (hs : Finset ℕ) (d : Deployment K Stdin) : ℕ ×ₗ ℕ :=
  toLex (∑ h ∈ hs, (d.handlers h).elim 0 fun handler => handler.2.rank fun c => (d.lines c).queued,
    ∑ᶠ c, Enclave.rankOf (d.enclave.connections c))

/-- A step of goodwill. -/
structure GoesOn (deps : Deps K) (prover : Prover Stdin) (hs : Finset ℕ)
    (d d' : Deployment K Stdin) (es : List ((ℕ × Enclave.Event Stdin) ⊕ HostEvent Stdin)) :
    Prop where
  conforms : Enclave.Conforms prover (es.filterMap Sum.getLeft?)
  kept : ∀ {h request stage}, d.handlers h = some (request, stage) → stage ≠ .ended →
    Kept deps d d' es h request stage
  ended : ∀ {h request}, d.handlers h = some (request, .ended) →
    d'.handlers h = some (request, .ended)
  rank : d'.rank hs < d.rank hs

theorem GoesOn.of_handler {prover : Prover Stdin} {hs : Finset ℕ}
    {es : List ((ℕ × Enclave.Event Stdin) ⊕ HostEvent Stdin)}
    (hd : Delivered deps d past outcomes opened) {i : ℕ} {request : ClientRequest Stdin}
    {stage stage' : HandlerStage} (hi : i ∈ hs) (hh : d.handlers i = some (request, stage))
    (hhandlers : d'.handlers = Function.update d.handlers i (some (request, stage')))
    (helse : ∀ c, (d.enclave.connections c).isSome → stage.connection ≠ some c →
      d'.enclave.connections c = d.enclave.connections c ∧ d'.lines c = d.lines c)
    (hrank : (stage'.rank fun c => (d'.lines c).queued) < stage.rank fun c => (d.lines c).queued)
    (hconforms : es.filterMap Sum.getLeft? = []) (hkept : Kept deps d d' es i request stage) :
    GoesOn deps prover hs d d' es := by
  have hother : ∀ {h request' stage''}, h ≠ i → d.handlers h = some (request', stage'') →
      d'.handlers h = some (request', stage'') ∧ ∀ c, stage''.connection = some c →
        d'.enclave.connections c = d.enclave.connections c ∧ d'.lines c = d.lines c := by
    intro h request' stage'' hne hh'
    refine ⟨by rwa [hhandlers, Function.update_of_ne hne], fun c hc => ?_⟩
    have hopened := (hd.belongs hh' hc).1
    exact helse c (hd.accepted hopened) fun hstage =>
      hne (hd.injective hopened (hd.belongs hh hstage).1)
  refine ⟨by rw [hconforms]; exact List.forall_mem_nil _,
    fun {h request' stage''} hh' hstage' => ?_, fun {h request'} hh' => ?_, ?_⟩
  · by_cases hne : h = i
    · subst hne
      cases hh.symm.trans hh'
      exact hkept
    · obtain ⟨hsame, hconnection⟩ := hother hne hh'
      refine .waiting stage'' hsame hstage' fun hopen hcut => hopen ?_
      obtain ⟨c, hc, hclosed⟩ := hcut
      exact ⟨c, hc, (hconnection c hc).1 ▸ hclosed⟩
  · have hne : h ≠ i := by
      rintro rfl
      cases hh.symm.trans hh'
      exact Nat.not_lt_zero _ hrank
    exact (hother hne hh').1
  · refine Prod.Lex.toLex_lt_toLex.mpr (Or.inl (Finset.sum_lt_sum (fun h _ => ?_) ⟨i, hi, ?_⟩))
    · by_cases hne : h = i
      · rw [hne, hhandlers, Function.update_self, hh]
        exact hrank.le
      · cases hh' : d.handlers h with
        | none =>
            rw [hhandlers, Function.update_of_ne hne, hh']
            exact le_rfl
        | some handler =>
            obtain ⟨request', stage''⟩ := handler
            obtain ⟨hsame, hconnection⟩ := hother hne hh'
            rw [hsame]
            cases stage'' with
            | awaiting c =>
                simp only [Option.elim_some, HandlerStage.rank]
                rw [(hconnection c rfl).2]
            | _ => exact le_rfl
    · rw [hhandlers, Function.update_self, hh]
      exact hrank

theorem step_of_handle {h : ℕ} {request : ClientRequest Stdin} {stage : HandlerStage}
    {input : HandlerInput} {outcomes' : List (HostEvent Stdin)}
    (hh : d.handlers h = some (request, stage))
    (hstep : d.handle deps h request stage input = some (d', outcomes', none)) :
    (machine deps debugMode).step d (.handler h input) = some (d', outcomes'.map .inr) := by
  simp only [machine, move, hh, hstep]

theorem step_of_move {a : Action Stdin} {outcomes' : List (HostEvent Stdin)}
    {a' : Enclave.Action Stdin} {enclave : Enclave K Stdin} {es : List (ℕ × Enclave.Event Stdin)}
    (hmove : d.move deps a = some (d', outcomes', some a'))
    (hstep : (Enclave.machine deps debugMode).step d'.enclave a' = some (enclave, es)) :
    (machine deps debugMode).step d a = some ({ d' with
        enclave := enclave
        responses := fun c => d'.responses c ++ es.filterMap (answeredOn c) },
      outcomes'.map .inr ++ es.map .inl) := by
  simp only [machine, hmove, hstep]

theorem Reached.execute (h : Reached deps debugMode d) {i : ℕ} {request : ClientRequest Stdin}
    (hh : d.handlers i = some (request, .waiting)) :
    ∃ stdin program cycle_limit, request = .execute stdin program cycle_limit := by
  obtain ⟨key, task, as, es, hrun⟩ := h
  refine Machine.run_preserves (I := fun d => ∀ i request, d.handlers i = some (request, .waiting) →
      ∃ stdin program cycle_limit, request = .execute stdin program cycle_limit)
    (fun {d d' a es} hwaiting hstep i request hh => ?_) (fun i request hh => by cases hh) hrun i
    request hh
  obtain ⟨d₁, outcomes', action, hmove, hes⟩ := step_cases hstep
  have hh₁ : d₁.handlers i = some (request, .waiting) := by
    rcases hes with ⟨-, rfl, -⟩ | ⟨a', enclave, es', -, -, rfl, -⟩
    · exact hh
    · exact hh
  have hupdate : ∀ (stage : HandlerStage) {j : ℕ} {request' : ClientRequest Stdin},
      stage ≠ .waiting →
      Function.update d.handlers j (some (request', stage)) i = some (request, .waiting) →
      ∃ stdin program cycle_limit, request = .execute stdin program cycle_limit := by
    intro stage j request' hstage hj
    by_cases hij : i = j
    · rw [hij, Function.update_self] at hj
      cases hj
      exact absurd rfl hstage
    · rw [Function.update_of_ne hij] at hj
      exact hwaiting i request hj
  rcases move_cases hmove with
    ⟨j, request', -, -, rfl⟩ | ⟨j, request', stage, -, hhandles⟩ | ⟨lines, rfl⟩
  · cases request' with
    | execute stdin program cycle_limit =>
        rw [handlers_put] at hh₁
        by_cases hij : i = j
        · rw [hij, Function.update_self] at hh₁
          cases hh₁
          exact ⟨stdin, program, cycle_limit, rfl⟩
        · rw [Function.update_of_ne hij] at hh₁
          exact hwaiting i request hh₁
    | getAddress => exact hupdate .connecting nofun hh₁
  · cases hhandles with
    | locked => exact hupdate .connecting nofun hh₁
    | connecting c => exact hupdate (.connected c) nofun hh₁
    | sent c => exact hupdate (.awaiting c) nofun hh₁
    | received | failed | dropped =>
        exact hupdate .ended nofun ((congrFun (handlers_leave j request' _) i).symm.trans hh₁)
  · exact hwaiting i request hh₁

theorem not_cut_of_connection {stage : HandlerStage} (h : stage.connection = none) :
    ¬ d.Cut stage := by
  rintro ⟨c, hc, -⟩
  rw [h] at hc
  cases hc

section Handler

variable {prover : Prover Stdin} {nsm : Nsm} {hs : Finset ℕ} {i : ℕ}
  {request : ClientRequest Stdin}

def CanGoOn (deps : Deps K) (debugMode : Bool) (prover : Prover Stdin) (nsm : Nsm)
    (hs : Finset ℕ) (d : Deployment K Stdin) : Prop :=
  ∃ a d' es, (a.Healthy ∧ a.Asks nsm) ∧ (machine deps debugMode).step d a = some (d', es) ∧
    GoesOn deps prover hs d d' es

theorem canGoOn_waiting (hd : Delivered deps d past outcomes opened) (hi : i ∈ hs)
    {stdin : Stdin} {program : Bytes} {cycle_limit : UInt64}
    (hh : d.handlers i = some (.execute stdin program cycle_limit, .waiting))
    (hfree : d.execution_mutex = none) : CanGoOn deps debugMode prover nsm hs d := by
  have hstep : d.handle deps i (.execute stdin program cycle_limit) .waiting .lock =
      some ({ d.put i (.execute stdin program cycle_limit) .connecting with
        execution_mutex := some i }, [], none) := by
    simp only [handle, hfree]
  refine ⟨.handler i .lock, _, _, ⟨trivial, trivial⟩, step_of_handle hh hstep, .of_handler hd hi hh
    (handlers_put d i _ .connecting) (fun c _ _ => ⟨rfl, rfl⟩) (Nat.lt_succ_self 4) rfl ?_⟩
  exact .waiting .connecting (Function.update_self _ _ _) (by simp) fun _ =>
    not_cut_of_connection rfl

theorem canGoOn_connecting (hd : Delivered deps d past outcomes opened) (hi : i ∈ hs)
    (hh : d.handlers i = some (request, .connecting))
    (hfinite : {c | (d.enclave.connections c).isSome}.Finite) :
    CanGoOn deps debugMode prover nsm hs d := by
  obtain ⟨c, hc⟩ := hfinite.exists_notMem
  have hnone : d.enclave.connections c = none := Option.not_isSome_iff_eq_none.mp hc
  have haccept : (Enclave.machine deps debugMode).step d.enclave (.accept c) =
      some ({ d.enclave with
        connections := Function.update d.enclave.connections c (some .receiving)
        nextTask := d.enclave.nextTask + 1 }, []) := by
    simp only [Enclave.machine, hnone]
  have hmove : d.move deps (.handler i (.connect (some c))) =
      some ((d.put i request (.connected c)).setLine c (.messages []), [], some (.accept c)) := by
    simp only [move, hh, handle]
  refine ⟨.handler i (.connect (some c)), _, _, ⟨trivial, trivial⟩, step_of_move hmove haccept,
    .of_handler hd hi hh (handlers_put d i _ (.connected c)) (fun c' hc' _ => ?_)
    (Nat.lt_succ_self 3) rfl ?_⟩
  · have hne : c' ≠ c := by
      rintro rfl
      exact hc hc'
    exact ⟨Function.update_of_ne hne _ _, Function.update_of_ne hne _ _⟩
  · refine .waiting (.connected c) (Function.update_self _ _ _) (by simp) fun _ hcut => ?_
    obtain ⟨c', hc', hclosed⟩ := hcut
    cases hc'
    change Function.update d.enclave.connections c (some .receiving) c = _ at hclosed
    rw [Function.update_self] at hclosed
    cases hclosed

theorem canGoOn_connected (hd : Delivered deps d past outcomes opened) (hi : i ∈ hs) {c : ℕ}
    (hh : d.handlers i = some (request, .connected c)) :
    CanGoOn deps debugMode prover nsm hs d := by
  have hstep : d.handle deps i request (.connected c) (.send (.ok ())) =
      some ((d.put i request (.awaiting c)).setLine c (.messages [request.toEnclave]), [], none) :=
    rfl
  refine ⟨.handler i (.send (.ok ())), _, _, ⟨trivial, trivial⟩, step_of_handle hh hstep,
    .of_handler hd hi hh (handlers_put d i _ (.awaiting c)) (fun c' _ hc' => ⟨rfl, ?_⟩) ?_ rfl
    ?_⟩
  · have hne : c' ≠ c := fun heq => hc' (by rw [heq]; rfl)
    exact Function.update_of_ne hne _ _
  · have hline : ((d.put i request (.awaiting c)).setLine c
        (.messages [request.toEnclave])).lines c = .messages [request.toEnclave] :=
      Function.update_self _ _ _
    simp only [HandlerStage.rank, hline]
    exact Nat.lt_succ_self 2
  · refine .waiting (.awaiting c) (Function.update_self _ _ _) (by simp) fun hopen hcut => hopen ?_
    obtain ⟨c', hc', hclosed⟩ := hcut
    cases hc'
    exact ⟨c, rfl, hclosed⟩

theorem canGoOn_reading (hd : Delivered deps d past outcomes opened) (hi : i ∈ hs) {c : ℕ}
    (hh : d.handlers i = some (request, .awaiting c))
    (hread : d.enclave.connections c = some .closed ∨ d.responses c ≠ []) :
    CanGoOn deps debugMode prover nsm hs d := by
  have helse : ∀ c', HandlerStage.connection (.awaiting c) ≠ some c' →
      (d.leave i request (.awaiting c)).enclave.connections c' = d.enclave.connections c' ∧
        (d.leave i request (.awaiting c)).lines c' = d.lines c' := fun c' hc' =>
    ⟨by rw [leave_enclave], lines_leave_of_ne hc' i request⟩
  have hended : (d.leave i request (.awaiting c)).handlers i = some (request, .ended) := by
    rw [handlers_leave, Function.update_self]
  have hrank : (0 : ℕ) < 1 + (d.lines c).queued := Nat.add_pos_left Nat.one_pos _
  match hresponses : d.responses c with
  | response :: rest =>
      have hstep : d.handle deps i request (.awaiting c) (.recv (.ok ())) =
          some ({ d.leave i request (.awaiting c) with
            responses := Function.update d.responses c rest },
            [(i, request, request.outcome deps.keccak256 response)], none) := by
        simp only [handle, hresponses]
      exact ⟨.handler i (.recv (.ok ())), _, _, ⟨trivial, trivial⟩, step_of_handle hh hstep,
        .of_handler hd hi hh (handlers_leave i request (.awaiting c))
          (fun c' _ hc' => helse c' hc') hrank rfl
          (.told _ hended (List.mem_singleton_self _) fun _ => ⟨response, rfl⟩)⟩
  | [] =>
      have hclosed := hread.resolve_right fun hne => hne hresponses
      have hstep : d.handle deps i request (.awaiting c) (.recv (.error (.Io .unexpectedEof))) =
          some (d.leave i request (.awaiting c),
            [(i, request, request.failure .FailedToReceiveResponseFromEnclave)], none) := rfl
      exact ⟨.handler i (.recv (.error (.Io .unexpectedEof))), _, _, ⟨trivial, trivial⟩,
        step_of_handle hh hstep, .of_handler hd hi hh (handlers_leave i request (.awaiting c))
          (fun c' _ hc' => helse c' hc') hrank rfl
          (.told _ hended (List.mem_singleton_self _) fun hopen => absurd ⟨c, rfl, hclosed⟩ hopen)⟩

theorem canGoOn_deliver (hd : Delivered deps d past outcomes opened) (hi : i ∈ hs) {c : ℕ}
    (hh : d.handlers i = some (request, .awaiting c))
    (hreceiving : d.enclave.connections c = some .receiving)
    (hline : d.lines c = .messages [request.toEnclave]) :
    CanGoOn deps debugMode prover nsm hs d := by
  obtain ⟨p, hp, hevents, hopen⟩ :=
    Enclave.exists_recv deps debugMode d.enclave.server d.enclave.nextTask request
  have hmove : d.move deps (.deliver c) =
      some (d.setLine c (.messages []), [], some (.on c (.recv (.ok request.toEnclave)))) := by
    simp only [move, hline]
  have hphase : (d.enclave.advance c p).connections c = some p.phase := by
    rw [Enclave.connections_advance, Function.update_self]
  refine ⟨.deliver c, _, _, ⟨trivial, trivial⟩,
    step_of_move hmove (Enclave.step_of_progress hreceiving hp),
    .of_handler hd hi hh (Function.update_eq_self_iff.mpr hh.symm).symm
      (fun c' _ hc' => ?_) ?_ (by simp [hevents]) ?_⟩
  · have hne : c' ≠ c := fun heq => hc' (by rw [heq]; rfl)
    obtain ⟨hsame, hlines, -⟩ := else_of_advance d hne p (.messages [])
    exact ⟨hsame, hlines⟩
  · have hlines : (d.setLine c (.messages [])).lines c = .messages [] := Function.update_self _ _ _
    simp only [HandlerStage.rank, hline, hlines]
    exact Nat.lt_succ_self 1
  · refine .waiting (.awaiting c) hh (by simp) fun _ hcut => ?_
    obtain ⟨c', hc', hclosed⟩ := hcut
    cases hc'
    exact hopen (Option.some.inj (hphase.symm.trans hclosed))

/-- A handler that does not wait for the mutex can go on, once the enclave is idle. -/
theorem canGoOn_of_idle (hd : Delivered deps d past outcomes opened) (hserved : d.Served)
    (hi : i ∈ hs) {stage : HandlerStage} (hh : d.handlers i = some (request, stage))
    (hstage : stage ≠ .ended) (hwaiting : stage ≠ .waiting)
    (hfinite : {c | (d.enclave.connections c).isSome}.Finite)
    (hidle : ∀ c, d.enclave.pending c = none) : CanGoOn deps debugMode prover nsm hs d := by
  cases stage with
  | waiting => exact absurd rfl hwaiting
  | ended => exact absurd rfl hstage
  | connecting => exact canGoOn_connecting hd hi hh hfinite
  | connected c => exact canGoOn_connected hd hi hh
  | awaiting c =>
      rcases hserved i request _ c hh rfl with hclosed | ⟨hreceiving, hline⟩ | hpending | hanswered
      · exact canGoOn_reading hd hi hh (Or.inl hclosed)
      · exact canGoOn_deliver hd hi hh hreceiving hline
      · rw [hidle c] at hpending
        cases hpending
      · exact canGoOn_reading hd hi hh (Or.inr hanswered)

theorem canGoOn_of_pending (hreach : Reached deps debugMode d) {c : ℕ}
    (hc : (d.enclave.pending c).isSome) : CanGoOn deps debugMode prover nsm hs d := by
  obtain ⟨key, task, as, es, hrun⟩ := hreach.enclave
  obtain ⟨hfinite, hstaged⟩ := Enclave.finite_of_run hrun
  have hwithin : ∀ {c}, (d.enclave.pending c).isSome → c ∈ hfinite.toFinset := fun hc => by
    rw [Set.Finite.mem_toFinset]
    exact Enclave.isSome_of_pending hc
  have hdraining : Enclave.Draining d.enclave prover hfinite.toFinset d.enclave [] :=
    ⟨Enclave.guarded_of_run hrun, hstaged, hwithin, List.forall_mem_nil _, fun hc => Or.inl hc⟩
  obtain ⟨a, enclave, es', ha, hstep, hdraining', hlt⟩ :=
    hdraining.exists_step deps debugMode nsm hc
  cases a with
  | accept c' => exact ha.1.elim
  | on c' input =>
      have hmove : d.move deps (.enclave c' input) = some (d, [], some (.on c' input)) := by
        cases input with
        | recv => exact ha.1.elim
        | _ => rfl
      refine ⟨.enclave c' input, _, _, ha, step_of_move hmove hstep, ?_, fun hh hstage =>
        .waiting _ hh hstage fun hopen hcut => hopen ?_, fun hh => hh, ?_⟩
      · simpa [List.filterMap_map, Function.comp_def] using hdraining'.conforms
      · obtain ⟨c'', hc'', hclosed⟩ := hcut
        exact ⟨c'', hc'', Enclave.closed_of_healthy hstep ha.1 hclosed⟩
      · refine Prod.Lex.toLex_lt_toLex.mpr (Or.inr ⟨rfl, ?_⟩)
        change ∑ᶠ c, Enclave.rankOf (enclave.connections c) < _
        rwa [Enclave.finsum_rankOf hdraining'.within, Enclave.finsum_rankOf hwithin]

/-- As long as a client waits, some step of goodwill is possible. -/
theorem exists_goesOn (hreach : Reached deps debugMode d)
    (hhs : ∀ h, (d.requestOf h).isSome → h ∈ hs) {stage : HandlerStage}
    (hh : d.handlers i = some (request, stage)) (hstage : stage ≠ .ended) :
    CanGoOn deps debugMode prover nsm hs d := by
  by_cases hbusy : ∃ c, (d.enclave.pending c).isSome
  · obtain ⟨c, hc⟩ := hbusy
    exact canGoOn_of_pending hreach hc
  · obtain ⟨past, outcomes, opened, hd, hserved⟩ := hreach.delivered
    obtain ⟨key, task, as, es, hrun⟩ := hreach.enclave
    have hfinite := (Enclave.finite_of_run hrun).1
    have hidle : ∀ c, d.enclave.pending c = none := fun c =>
      Option.not_isSome_iff_eq_none.mp fun hc => hbusy ⟨c, hc⟩
    have hmem : ∀ {j handler}, d.handlers j = some handler → j ∈ hs := fun {j handler} hj =>
      hhs j (by rw [requestOf, hj]; rfl)
    by_cases hwaiting : stage = .waiting
    · subst hwaiting
      obtain ⟨stdin, program, cycle_limit, rfl⟩ := hreach.execute hh
      cases hmutex : d.execution_mutex with
      | none => exact canGoOn_waiting hd (hmem hh) hh hmutex
      | some token =>
          -- the mutex is taken: its holder goes on
          have hguarded := hreach.guarded
          rw [hmutex] at hguarded
          obtain ⟨j, hj⟩ := hguarded.exists_holder rfl
          obtain ⟨⟨request', stage'⟩, hj', hholder⟩ := Option.bind_eq_some_iff.mp hj
          have hinside : stage' ≠ .ended ∧ stage' ≠ .waiting := by
            constructor
            · rintro rfl
              cases request' <;> cases hholder
            · rintro rfl
              cases request' <;> cases hholder
          exact canGoOn_of_idle hd hserved (hmem hj') hj' hinside.1 hinside.2 hfinite hidle
    · exact canGoOn_of_idle hd hserved (hmem hh) hh hstage hwaiting hfinite hidle

end Handler

/-! ## All clients are served -/

theorem Kept.trans {d₁ d₂ : Deployment K Stdin}
    {es₁ es₂ : List ((ℕ × Enclave.Event Stdin) ⊕ HostEvent Stdin)} {h : ℕ}
    {request : ClientRequest Stdin} {stage : HandlerStage}
    (hkept : Kept deps d d₁ es₁ h request stage)
    (hgo : ∀ {stage'}, d₁.handlers h = some (request, stage') → stage' ≠ .ended →
      Kept deps d₁ d₂ es₂ h request stage')
    (hended : d₁.handlers h = some (request, .ended) → d₂.handlers h = some (request, .ended)) :
    Kept deps d d₂ (es₁ ++ es₂) h request stage := by
  cases hkept with
  | waiting stage' hh hstage hopen =>
      cases hgo hh hstage with
      | waiting stage'' hh' hstage' hopen' =>
          exact .waiting stage'' hh' hstage' fun hcut => hopen' (hopen hcut)
      | told outcome hh' hmem hanswer =>
          refine .told outcome hh' ?_ fun hcut => hanswer (hopen hcut)
          rw [List.filterMap_append]
          exact List.mem_append_right _ hmem
  | told outcome hh hmem hanswer =>
      refine .told outcome (hended hh) ?_ hanswer
      rw [List.filterMap_append]
      exact List.mem_append_left _ hmem

/-- What is kept while the clients of the state `d₀` are served. -/
structure Serving (deps : Deps K) (debugMode : Bool) (prover : Prover Stdin) (hs : Finset ℕ)
    (d₀ d : Deployment K Stdin) (past : List ((ℕ × Enclave.Event Stdin) ⊕ HostEvent Stdin)) :
    Prop where
  reached : Reached deps debugMode d
  within : ∀ h, (d.requestOf h).isSome → h ∈ hs
  conforms : Enclave.Conforms prover (past.filterMap Sum.getLeft?)
  kept : ∀ {h request stage}, d₀.handlers h = some (request, stage) → stage ≠ .ended →
    Kept deps d₀ d past h request stage

theorem Serving.exists_step {prover : Prover Stdin} {hs : Finset ℕ} {d₀ : Deployment K Stdin}
    {past : List ((ℕ × Enclave.Event Stdin) ⊕ HostEvent Stdin)}
    (hserving : Serving deps debugMode prover hs d₀ d past) (nsm : Nsm) {h : ℕ}
    {request : ClientRequest Stdin} {stage : HandlerStage}
    (hh : d.handlers h = some (request, stage)) (hstage : stage ≠ .ended) :
    ∃ a d' es, (a.Healthy ∧ a.Asks nsm) ∧ (machine deps debugMode).step d a = some (d', es) ∧
      Serving deps debugMode prover hs d₀ d' (past ++ es) ∧ d'.rank hs < d.rank hs := by
  have hcan : CanGoOn deps debugMode prover nsm hs d :=
    exists_goesOn hserving.reached hserving.within hh hstage
  obtain ⟨a, d', es, ha, hstep, hgo⟩ := hcan
  refine ⟨a, d', es, ha, hstep, ⟨hserving.reached.step hstep, fun h' hh' => ?_, ?_,
    fun hh₀ hstage₀ => ?_⟩, hgo.rank⟩
  · obtain ⟨request', hrequest⟩ := Option.isSome_iff_exists.mp hh'
    rcases requestOf_new hstep hrequest with hold | rfl
    · exact hserving.within h' (Option.isSome_iff_exists.mpr ⟨request', hold⟩)
    · exact ha.1.elim
  · rw [List.filterMap_append]
    exact List.forall_mem_append.mpr ⟨hserving.conforms, hgo.conforms⟩
  · exact (hserving.kept hh₀ hstage₀).trans hgo.kept hgo.ended

/-- What clients have been told in a run, on connections that their handlers have opened
in it. -/
theorem delivered_of_run {key : K} {task : TaskId} {as : List (Action Stdin)}
    {es : List ((ℕ × Enclave.Event Stdin) ⊕ HostEvent Stdin)}
    (hrun : (machine deps debugMode).run (start key task) as = some (d, es)) :
    ∃ opened, Delivered deps d (es.filterMap Sum.getLeft?) (es.filterMap Sum.getRight?) opened ∧
      ∀ h c, opened h = some c → .handler h (.connect (some c)) ∈ as := by
  let I (d : Deployment K Stdin) (past : List ((ℕ × Enclave.Event Stdin) ⊕ HostEvent Stdin)) :=
    ∃ opened, Delivered deps d (past.filterMap Sum.getLeft?) (past.filterMap Sum.getRight?)
      opened ∧ ∀ h c, opened h = some c → .handler h (.connect (some c)) ∈ as
  have hstart : I (start key task) [] := ⟨fun _ => none, delivered_start key task, nofun⟩
  refine Machine.run_invariant_of_forall (I := I) (P := (· ∈ as))
    (fun {d d' a past es} hpast ha hstep => ?_) hstart (fun _ ha => ha) hrun
  obtain ⟨opened, hd, hconnected⟩ := hpast
  obtain ⟨opened', hd', hopened⟩ := delivered_of_step hd hstep
  rw [← List.filterMap_append, ← List.filterMap_append] at hd'
  refine ⟨opened', hd', fun h c hc => ?_⟩
  rcases hopened h c hc with hold | ⟨rfl, -⟩
  · exact hconnected h c hold
  · exact ha

/-- An answer of the enclave is not taken for an error of the transport. -/
theorem outcome_ne_failure (keccak256 : Bytes → Bytes32) (request : ClientRequest Stdin)
    (response : EnclaveResponse) {e : ServerError} (he : e ∈ transportErrors) :
    request.outcome keccak256 response ≠ request.failure e := by
  have herror : e = .FailedToConnectToEnclave ∨ e = .FailedToSendRequestToEnclave ∨
      e = .FailedToReceiveResponseFromEnclave := by simpa [transportErrors] using he
  cases request with
  | execute stdin program cycle_limit =>
      intro heq
      have hexecute : executeInner response = .error e := Outcome.execute.inj heq
      cases response with
      | SignedPublicValues => cases hexecute
      | _ => rcases herror with rfl | rfl | rfl <;> cases hexecute
  | getAddress =>
      intro heq
      have hget : Host.getAddress keccak256 response = .error e := Outcome.getAddress.inj heq
      cases response with
      | PublicKey point =>
          rw [Host.getAddress] at hget
          split at hget
          · cases hget
          · rcases herror with rfl | rfl | rfl <;> cases hget
      | _ => rcases herror with rfl | rfl | rfl <;> cases hget

/-- From every reachable state, with any prover and any security module, the host and its
enclave can go on without a new client until the mutex is free and every handler that was at
work has told its client an outcome. Unless the enclave had closed the handler's connection
before, the outcome is what the enclave has answered to this request, on a connection that
this handler has opened. -/
theorem serves_of_run {key : K} {task : TaskId} {as : List (Action Stdin)}
    {es : List ((ℕ × Enclave.Event Stdin) ⊕ HostEvent Stdin)}
    (hrun : (machine deps debugMode).run (start key task) as = some (d, es))
    (prover : Prover Stdin) (nsm : Nsm) :
    ∃ as' d' es', (∀ a ∈ as', a.Healthy ∧ a.Asks nsm) ∧
      (machine deps debugMode).run d as' = some (d', es') ∧
      Enclave.Conforms prover (es'.filterMap Sum.getLeft?) ∧ d'.execution_mutex = none ∧
      ∀ h request stage, d.handlers h = some (request, stage) → stage ≠ .ended →
        d'.handlers h = some (request, .ended) ∧
        ∃ outcome, (h, request, outcome) ∈ es'.filterMap Sum.getRight? ∧
          (¬ d.Cut stage → ∃ c response, .handler h (.connect (some c)) ∈ as ++ as' ∧
            (c, .answered request.toEnclave response) ∈ (es ++ es').filterMap Sum.getLeft? ∧
            outcome = request.outcome deps.keccak256 response) := by
  have hreach : Reached deps debugMode d := ⟨key, task, as, es, hrun⟩
  have hserving : Serving deps debugMode prover hreach.finite.toFinset d d [] := by
    refine ⟨hreach, fun h hh => ?_, List.forall_mem_nil _,
      fun hh hstage => .waiting _ hh hstage fun hcut => hcut⟩
    rwa [Set.Finite.mem_toFinset]
  have hnext : ∀ {d' past}, Serving deps debugMode prover hreach.finite.toFinset d d' past →
      ¬ (∀ h request stage, d'.handlers h = some (request, stage) → stage = .ended) →
      ∃ a d'' es, (a.Healthy ∧ a.Asks nsm) ∧ (machine deps debugMode).step d' a = some (d'', es) ∧
        Serving deps debugMode prover hreach.finite.toFinset d d'' (past ++ es) ∧
        d''.rank hreach.finite.toFinset < d'.rank hreach.finite.toFinset := by
    intro d' past hd' hbusy
    push Not at hbusy
    obtain ⟨h, request, stage, hh, hstage⟩ := hbusy
    exact hd'.exists_step nsm hh hstage
  obtain ⟨as', d', es', has', hrun', hserved, hdone⟩ := Machine.exists_drain hnext hserving
  refine ⟨as', d', es', has', hrun', hserved.conforms, ?_, fun h request stage hh hstage => ?_⟩
  · cases hmutex : d'.execution_mutex with
    | none => rfl
    | some token =>
        -- nobody is left who could hold it
        have hguarded := hserved.reached.guarded
        rw [hmutex] at hguarded
        obtain ⟨j, hj⟩ := hguarded.exists_holder rfl
        obtain ⟨⟨request, stage⟩, hj', hholder⟩ := Option.bind_eq_some_iff.mp hj
        obtain rfl := hdone j request stage hj'
        cases request <;> cases hholder
  · cases hserved.kept hh hstage with
    | waiting stage' hh' hstage' => exact absurd (hdone h request stage' hh') hstage'
    | told outcome hh' hmem hanswer =>
        refine ⟨hh', outcome, hmem, fun hopen => ?_⟩
        obtain ⟨response, rfl⟩ := hanswer hopen
        obtain ⟨opened, hd, hconnected⟩ :=
          delivered_of_run (Machine.run_append_eq_some.mpr ⟨d, es, es', hrun, hrun', rfl⟩)
        have htold := (hd.outcome (by
          rw [List.filterMap_append]
          exact List.mem_append_right _ hmem)).2
        rcases htold with ⟨e, he, heq⟩ | ⟨c, response', hc, hanswered, heq⟩
        · exact absurd heq (outcome_ne_failure _ request response he)
        · exact ⟨c, response', hconnected h c hc, hanswered, heq⟩

/-- A client has gone away in the middle of its execution, which the enclave is still busy
with, and the next one waits for the enclave. -/
def abandoned : List (Action Unit) :=
  [.arrive 0 (.execute () [] 7), .handler 0 .lock, .handler 0 (.connect (some 0)),
    .handler 0 (.send (.ok ())), .deliver 0, .enclave 0 .proceed, .enclave 0 .proceed,
    .handler 0 .drop, .arrive 1 (.execute () [1] 7), .handler 1 .lock,
    .handler 1 (.connect (some 1)), .handler 1 (.send (.ok ()))]

theorem run_abandoned :
    ∃ d es, (machine (.standard (fun _ _ => none) 1) false).run (start 1 1) abandoned =
        some (d, es) ∧ d.handlers 1 = some (.execute () [1] 7, .awaiting 1) ∧
      d.enclave.connections 1 = some .receiving :=
  ⟨_, _, rfl, rfl, rfl⟩

/-- The client that waits gets the enclave's answer. -/
theorem serves_of_run_abandoned :
    ∃ d es as' d' es' c response,
      (machine (.standard (fun _ _ => none) 1) false).run (start 1 1) abandoned = some (d, es) ∧
      (machine (.standard (fun _ _ => none) 1) false).run d as' = some (d', es') ∧
      d'.execution_mutex = none ∧
      (1, .execute () [1] 7, .execute (executeInner response)) ∈ es'.filterMap Sum.getRight? ∧
      (c, .answered (.Execute () [1] 7) response) ∈ (es ++ es').filterMap Sum.getLeft? := by
  obtain ⟨d, es, hrun, hh, hreceiving⟩ := run_abandoned
  obtain ⟨as', d', es', -, hrun', -, hfree, htold⟩ := serves_of_run hrun
    ⟨fun _ => .error none, fun _ _ _ => .error none⟩ default
  obtain ⟨-, outcome, hmem, hanswer⟩ := htold 1 _ _ hh nofun
  obtain ⟨c, response, -, hanswered, rfl⟩ := hanswer (by
    rintro ⟨c, hc, hclosed⟩
    cases hc
    rw [hreceiving] at hclosed
    cases hclosed)
  exact ⟨d, es, as', d', es', c, response, hrun, hrun', hfree, hmem, hanswered⟩

end Deployment

end Sp1Tee

import Sp1Tee.Enclave.Traces
import Sp1Tee.Host.SaveAttestation

/-!
# Whose response is whose

A handler opens a connection of its own, on which it sends its one request. So whatever
it reads there answers this request, whoever else talks to the enclave meanwhile and
however many handlers were abandoned. `Belongs` says this of a connection, `Delivered` of
all handlers together with what their clients have been told.
-/

namespace Sp1Tee

open Foundation Foundation.Solidity

/-! ## What the enclave does to the requests it works on -/

namespace Enclave

variable {K Stdin : Type} {deps : Deps K} {debugMode : Bool} {s s' : Enclave K Stdin}
  {a : Action Stdin} {es : List (ℕ × Event Stdin)}

theorem pending_of_progresses {server : Server K} {fresh : TaskId} {phase : Phase Stdin}
    {input : Input Stdin} {p : Progress Stdin} {message : EnclaveRequest Stdin}
    (hp : Progresses deps debugMode server fresh phase input p)
    (hmessage : p.phase.pending = some message) :
    phase.pending = some message ∨ input = .recv (.ok message) := by
  cases hp with
  | answering message' response h =>
      cases hmessage
      exact Or.inr rfl
  | spawned message' job h =>
      cases hmessage
      exact Or.inr (by rw [Server.request_of_handleMessage h])
  | failedRecv | skipped | closing | answered | failedReply => cases hmessage
  | _ => exact Or.inl hmessage

theorem pending_of_mem_events {server : Server K} {fresh : TaskId} {phase : Phase Stdin}
    {input : Input Stdin} {p : Progress Stdin} {request : EnclaveRequest Stdin}
    {response : EnclaveResponse} (hp : Progresses deps debugMode server fresh phase input p)
    (hanswered : .answered request response ∈ p.events) : phase.pending = some request := by
  cases hp with
  | answered request' response' =>
      cases List.mem_singleton.mp hanswered
      rfl
  | signed =>
      obtain ⟨hsigned, -⟩ := mem_signedEvents hanswered
      cases hsigned
  | setupDone | setupPanicked | runDone | runFailed | runPanicked =>
      cases List.mem_singleton.mp hanswered
  | _ => cases hanswered

theorem pending_of_step (hstep : (machine deps debugMode).step s a = some (s', es)) {c : ℕ}
    {message : EnclaveRequest Stdin} (hmessage : s'.pending c = some message) :
    s.pending c = some message ∨ a = .on c (.recv (.ok message)) := by
  cases a with
  | accept d =>
      obtain ⟨-, -, rfl⟩ := step_accept hstep
      change (Function.update s.connections d (some .receiving) c).bind _ = _ at hmessage
      by_cases hcd : c = d
      · rw [hcd, Function.update_self] at hmessage
        cases hmessage
      · rw [Function.update_of_ne hcd] at hmessage
        exact Or.inl hmessage
  | on d input =>
      obtain ⟨phase, p, hd, hp, -, rfl⟩ := step_on_advance hstep
      by_cases hcd : c = d
      · subst hcd
        rw [pending_advance_self] at hmessage
        rcases pending_of_progresses hp hmessage with hold | rfl
        · exact Or.inl (by rw [pending, hd, Option.bind_some, hold])
        · exact Or.inr rfl
      · rw [pending_advance_of_ne p hcd] at hmessage
        exact Or.inl hmessage

theorem pending_of_answered (hstep : (machine deps debugMode).step s a = some (s', es)) {c : ℕ}
    {request : EnclaveRequest Stdin} {response : EnclaveResponse}
    (hanswered : (c, .answered request response) ∈ es) : s.pending c = some request := by
  rcases step_cases hstep with ⟨d, -, rfl, -⟩ | ⟨d, input, phase, p, hd, hp, rfl, -⟩
  · cases hanswered
  · obtain ⟨e, he, heq⟩ := List.mem_map.mp hanswered
    obtain ⟨rfl, rfl⟩ := Prod.mk.inj heq
    rw [pending, hd, Option.bind_some, pending_of_mem_events hp he]

theorem accepted_of_pending {c : ℕ} {message : EnclaveRequest Stdin}
    (h : s.pending c = some message) : (s.connections c).isSome := by
  obtain ⟨phase, hphase, -⟩ := Option.bind_eq_some_iff.mp h
  rw [hphase]
  rfl

theorem accepted_of_step (hstep : (machine deps debugMode).step s a = some (s', es)) {c : ℕ}
    (hc : (s.connections c).isSome) : (s'.connections c).isSome := by
  have hupdate : ∀ (d : ℕ) (phase : Phase Stdin),
      (Function.update s.connections d (some phase) c).isSome := by
    intro d phase
    by_cases hcd : c = d
    · rw [hcd, Function.update_self]
      rfl
    · rwa [Function.update_of_ne hcd]
  rcases step_cases hstep with ⟨d, -, -, rfl⟩ | ⟨d, input, phase, p, -, -, -, rfl⟩
  · exact hupdate d _
  · exact hupdate d _

end Enclave

namespace Host

def HandlerStage.connection : HandlerStage → Option ℕ
  | .connected c => some c
  | .awaiting c => some c
  | _ => none

def SaveStage.connection : SaveStage → Option ℕ
  | .connected c | .requested c | .awaitingAttestation c => some c
  | .awaitingPublicKey c _ | .saving c _ _ => some c
  | .connecting | .ended => none

/-- The errors of a handler that did not get a response. -/
def transportErrors : List ServerError :=
  [.FailedToConnectToEnclave, .FailedToSendRequestToEnclave, .FailedToReceiveResponseFromEnclave]

end Host

open Host

namespace Deployment

variable {K Stdin : Type}

/-- What is on the connection `c`, in either direction, is about `request`. -/
structure Belongs (d : Deployment K Stdin) (past : List (ℕ × Enclave.Event Stdin)) (c : ℕ)
    (request : EnclaveRequest Stdin) : Prop where
  line : ∃ queue, d.lines c = .messages queue ∧ ∀ message ∈ queue, message = request
  pending : ∀ {message}, d.enclave.pending c = some message → message = request
  response : ∀ response ∈ d.responses c, (c, .answered request response) ∈ past

/-- A client is told that its request has failed, or what the enclave has answered to it on
the handler's connection. -/
def Told (deps : Deps K) (past : List (ℕ × Enclave.Event Stdin)) (connection : Option ℕ)
    (request : ClientRequest Stdin) (outcome : Outcome) : Prop :=
  (∃ e ∈ transportErrors, outcome = request.failure e) ∨
    ∃ c response, connection = some c ∧ (c, .answered request.toEnclave response) ∈ past ∧
      outcome = request.outcome deps.keccak256 response

/-- What clients have been told so far. `opened` are the connections that the handlers have
opened. -/
structure Delivered (deps : Deps K) (d : Deployment K Stdin)
    (past : List (ℕ × Enclave.Event Stdin)) (outcomes : List (HostEvent Stdin))
    (opened : ℕ → Option ℕ) : Prop where
  belongs : ∀ {h request stage c}, d.handlers h = some (request, stage) →
    stage.connection = some c → opened h = some c ∧ d.Belongs past c request.toEnclave
  injective : ∀ {h h' c}, opened h = some c → opened h' = some c → h = h'
  accepted : ∀ {h c}, opened h = some c → (d.enclave.connections c).isSome
  fresh : ∀ {c}, d.enclave.connections c = none → d.responses c = []
  outcome : ∀ {h request outcome}, (h, request, outcome) ∈ outcomes →
    d.handlers h = some (request, .ended) ∧ Told deps past (opened h) request outcome
  once : ∀ h, (outcomes.filterMap (Machine.ofIndex h)).length ≤ 1

variable {deps : Deps K} {debugMode : Bool} {d d' : Deployment K Stdin}
  {past past' : List (ℕ × Enclave.Event Stdin)} {outcomes : List (HostEvent Stdin)}
  {opened : ℕ → Option ℕ}

theorem exists_of_answeredOn {c : ℕ} {e : ℕ × Enclave.Event Stdin} {response : EnclaveResponse}
    (h : answeredOn c e = some response) : ∃ request, e = (c, .answered request response) := by
  obtain ⟨c', e⟩ := e
  cases e with
  | answered request response' =>
      simp only [answeredOn, Option.ite_none_right_eq_some, Option.some.injEq] at h
      obtain ⟨rfl, rfl⟩ := h
      exact ⟨request, rfl⟩
  | _ => cases h

theorem Told.mono (hsub : past ⊆ past') {connection : Option ℕ} {request : ClientRequest Stdin}
    {outcome : Outcome} (h : Told deps past connection request outcome) :
    Told deps past' connection request outcome := by
  rcases h with hfailed | ⟨c, response, hc, hanswered, houtcome⟩
  · exact Or.inl hfailed
  · exact Or.inr ⟨c, response, hc, hsub hanswered, houtcome⟩

theorem delivered_start (key : K) (task : TaskId) :
    Delivered deps (start key task : Deployment K Stdin) [] [] fun _ => none where
  belongs hh := by cases hh
  injective hc := by cases hc
  accepted hc := by cases hc
  fresh _ := rfl
  outcome h := by cases h
  once _ := Nat.zero_le 1

/-! ## The host's part -/

theorem handlers_put (d : Deployment K Stdin) (h : ℕ) (request : ClientRequest Stdin)
    (stage : HandlerStage) :
    (d.put h request stage).handlers = Function.update d.handlers h (some (request, stage)) := rfl

theorem Delivered.setLine (hd : Delivered deps d past outcomes opened) {c : ℕ}
    {line : Line Stdin}
    (hline : ∀ {h request stage}, d.handlers h = some (request, stage) →
      stage.connection = some c →
      ∃ queue, line = .messages queue ∧ ∀ message ∈ queue, message = request.toEnclave) :
    Delivered deps (d.setLine c line) past outcomes opened where
  belongs {h request stage c'} hh hstage := by
    obtain ⟨hopened, hbelongs⟩ := hd.belongs hh hstage
    refine ⟨hopened, ?_, hbelongs.pending, hbelongs.response⟩
    by_cases hc : c' = c
    · subst hc
      obtain ⟨queue, rfl, hqueue⟩ := hline hh hstage
      exact ⟨queue, Function.update_self _ _ _, hqueue⟩
    · obtain ⟨queue, hlines, hqueue⟩ := hbelongs.line
      exact ⟨queue, (Function.update_of_ne hc _ _).trans hlines, hqueue⟩
  injective := hd.injective
  accepted := hd.accepted
  fresh := hd.fresh
  outcome := hd.outcome
  once := hd.once

theorem Delivered.put (hd : Delivered deps d past outcomes opened) {h : ℕ}
    {request : ClientRequest Stdin} {stage : HandlerStage}
    (hnone : ∀ request outcome, (h, request, outcome) ∉ outcomes)
    (hstage : ∀ {c}, stage.connection = some c →
      opened h = some c ∧ d.Belongs past c request.toEnclave) :
    Delivered deps (d.put h request stage) past outcomes opened where
  belongs {h' request' stage' c} hh hc := by
    rw [handlers_put] at hh
    by_cases hne : h' = h
    · rw [hne, Function.update_self] at hh
      cases hh
      obtain ⟨hopened, hbelongs⟩ := hstage hc
      exact ⟨hne ▸ hopened, hbelongs.line, hbelongs.pending, hbelongs.response⟩
    · rw [Function.update_of_ne hne] at hh
      obtain ⟨hopened, hbelongs⟩ := hd.belongs hh hc
      exact ⟨hopened, hbelongs.line, hbelongs.pending, hbelongs.response⟩
  injective := hd.injective
  accepted := hd.accepted
  fresh := hd.fresh
  outcome {h' request' outcome} hmem := by
    have hne : h' ≠ h := by
      rintro rfl
      exact hnone request' outcome hmem
    obtain ⟨hended, htold⟩ := hd.outcome hmem
    exact ⟨(Function.update_of_ne hne _ _).trans hended, htold⟩
  once := hd.once

theorem hangUp_put (d : Deployment K Stdin) (h : ℕ) (request : ClientRequest Stdin)
    (stage stage' : HandlerStage) :
    (d.hangUp stage).put h request stage' = (d.put h request stage').hangUp stage := by
  cases stage <;> rfl

theorem Delivered.hangUp (hd : Delivered deps d past outcomes opened) {stage : HandlerStage}
    (hnone : ∀ {c h request stage'}, stage.connection = some c →
      d.handlers h = some (request, stage') → stage'.connection ≠ some c) :
    Delivered deps (d.hangUp stage) past outcomes opened := by
  cases stage with
  | connected c | awaiting c => exact hd.setLine fun hh hc => absurd hc (hnone rfl hh)
  | waiting | connecting | ended => exact hd

theorem Delivered.setMutex (hd : Delivered deps d past outcomes opened) (mutex : Option ℕ) :
    Delivered deps { d with execution_mutex := mutex } past outcomes opened where
  belongs hh hc :=
    have ⟨hopened, hbelongs⟩ := hd.belongs hh hc
    ⟨hopened, hbelongs.line, hbelongs.pending, hbelongs.response⟩
  injective := hd.injective
  accepted := hd.accepted
  fresh := hd.fresh
  outcome := hd.outcome
  once := hd.once

theorem Delivered.read (hd : Delivered deps d past outcomes opened) {c : ℕ}
    {response : EnclaveResponse} {rest : List EnclaveResponse}
    (hresponses : d.responses c = response :: rest) :
    Delivered deps { d with responses := Function.update d.responses c rest } past outcomes
      opened where
  belongs hh hc :=
    have ⟨hopened, hbelongs⟩ := hd.belongs hh hc
    ⟨hopened, hbelongs.line, hbelongs.pending, fun response' hmem =>
      hbelongs.response response' (update_subset hresponses _ hmem)⟩
  injective := hd.injective
  accepted := hd.accepted
  fresh {c'} hc' := by
    have hsub := update_subset hresponses c'
    rw [hd.fresh hc'] at hsub
    exact List.subset_nil.mp hsub
  outcome := hd.outcome
  once := hd.once

theorem Delivered.not_mem (hd : Delivered deps d past outcomes opened) {h : ℕ}
    {request : ClientRequest Stdin} {stage : HandlerStage}
    (hh : d.handlers h = some (request, stage)) (hstage : stage ≠ .ended)
    (request' : ClientRequest Stdin) (outcome : Outcome) : (h, request', outcome) ∉ outcomes := by
  intro hmem
  have hended := (hd.outcome hmem).1
  rw [hh] at hended
  cases hended
  exact hstage rfl

theorem Delivered.leave (hd : Delivered deps d past outcomes opened) {h : ℕ}
    {request : ClientRequest Stdin} {stage : HandlerStage}
    (hh : d.handlers h = some (request, stage)) (hstage : stage ≠ .ended) :
    Delivered deps (d.leave h request stage) past outcomes opened := by
  have hput : Delivered deps (d.put h request .ended) past outcomes opened :=
    hd.put (hd.not_mem hh hstage) nofun
  have hhang : Delivered deps ((d.hangUp stage).put h request .ended) past outcomes opened := by
    rw [hangUp_put]
    refine hput.hangUp fun {c h' request' stage'} hc hh' hc' => ?_
    rw [handlers_put] at hh'
    by_cases hne : h' = h
    · rw [hne, Function.update_self] at hh'
      cases hh'
      cases hc'
    · -- a connection has one handler
      rw [Function.update_of_ne hne] at hh'
      exact hne (hd.injective (hd.belongs hh' hc').1 (hd.belongs hh hc).1)
  rw [Deployment.leave]
  split
  · exact hhang.setMutex none
  · exact hhang

theorem Delivered.tell (hd : Delivered deps d past outcomes opened) {h : ℕ}
    {request : ClientRequest Stdin} {outcome : Outcome}
    (hended : d.handlers h = some (request, .ended))
    (hnone : ∀ request outcome, (h, request, outcome) ∉ outcomes)
    (htold : Told deps past (opened h) request outcome) :
    Delivered deps d past (outcomes ++ [(h, request, outcome)]) opened where
  belongs := hd.belongs
  injective := hd.injective
  accepted := hd.accepted
  fresh := hd.fresh
  outcome {h' request' outcome'} hmem := by
    rcases List.mem_append.mp hmem with hold | hnew
    · exact hd.outcome hold
    · cases List.mem_singleton.mp hnew
      exact ⟨hended, htold⟩
  once h' := by
    rw [List.filterMap_append, List.length_append]
    have hold := hd.once h'
    by_cases hne : h = h'
    · have hnil : outcomes.filterMap (Machine.ofIndex h') = [] := by
        rw [List.filterMap_eq_nil_iff]
        rintro ⟨i, request', outcome'⟩ hmem
        refine if_neg fun hi : i = h' => ?_
        rw [hi, ← hne] at hmem
        exact hnone request' outcome' hmem
      rw [hnil, List.length_nil, Nat.zero_add]
      exact List.length_filterMap_le _ [(h, request, outcome)]
    · simpa [Machine.ofIndex, hne] using hold

/-! ## The enclave's part -/

/-- The enclave makes a step. What it receives on a handler's connection is the handler's
request. -/
theorem Delivered.enclave (hd : Delivered deps d past outcomes opened)
    {a : Enclave.Action Stdin} {enclave : Enclave K Stdin} {es : List (ℕ × Enclave.Event Stdin)}
    (hstep : (Enclave.machine deps debugMode).step d.enclave a = some (enclave, es))
    (hreceived : ∀ {c message h request stage}, a = .on c (.recv (.ok message)) →
      d.handlers h = some (request, stage) → stage.connection = some c →
      message = request.toEnclave) :
    Delivered deps { d with
      enclave := enclave
      responses := fun c => d.responses c ++ es.filterMap (answeredOn c) }
      (past ++ es) outcomes opened where
  belongs {h request stage c} hh hc := by
    obtain ⟨hopened, hbelongs⟩ := hd.belongs hh hc
    refine ⟨hopened, hbelongs.line, fun hmessage => ?_, fun response hmem => ?_⟩
    · rcases Enclave.pending_of_step hstep hmessage with hold | hnew
      · exact hbelongs.pending hold
      · exact hreceived hnew hh hc
    · rcases List.mem_append.mp hmem with hold | hnew
      · exact List.mem_append_left _ (hbelongs.response response hold)
      · obtain ⟨e, he, hanswered⟩ := List.mem_filterMap.mp hnew
        obtain ⟨request', rfl⟩ := exists_of_answeredOn hanswered
        have hrequest := hbelongs.pending (Enclave.pending_of_answered hstep he)
        exact List.mem_append_right _ (hrequest ▸ he)
  injective := hd.injective
  accepted hopened := Enclave.accepted_of_step hstep (hd.accepted hopened)
  fresh {c} hc := by
    have hnot : ¬ (d.enclave.connections c).isSome := by
      intro hsome
      have hsome' := Enclave.accepted_of_step hstep hsome
      rw [hc] at hsome'
      cases hsome'
    have hnil : es.filterMap (answeredOn c) = [] := by
      rw [List.filterMap_eq_nil_iff]
      intro e he
      by_contra hsome
      obtain ⟨response, hanswered⟩ := Option.ne_none_iff_exists'.mp hsome
      obtain ⟨request', rfl⟩ := exists_of_answeredOn hanswered
      exact hnot (Enclave.accepted_of_pending (Enclave.pending_of_answered hstep he))
    change d.responses c ++ es.filterMap (answeredOn c) = []
    rw [hnil, List.append_nil]
    exact hd.fresh (Option.not_isSome_iff_eq_none.mp hnot)
  outcome hmem :=
    have ⟨hended, htold⟩ := hd.outcome hmem
    ⟨hended, htold.mono (List.subset_append_left _ _)⟩
  once := hd.once

theorem Delivered.open (hd : Delivered deps d past outcomes opened) {h c : ℕ}
    {request : ClientRequest Stdin} (hh : d.handlers h = some (request, .connecting))
    (hfresh : ∀ h', opened h' ≠ some c) (haccepted : d.enclave.connections c = some .receiving)
    (hresponses : d.responses c = []) :
    Delivered deps ((d.put h request (.connected c)).setLine c (.messages [])) past outcomes
      (Function.update opened h (some c)) := by
  have hnone := hd.not_mem hh nofun
  have hsetLine : Delivered deps (d.setLine c (.messages [])) past outcomes opened :=
    hd.setLine fun _ _ => ⟨[], rfl, List.forall_mem_nil _⟩
  have hother : ∀ {h' c'}, Function.update opened h (some c) h' = some c' →
      (h' = h ∧ c' = c) ∨ (h' ≠ h ∧ c' ≠ c ∧ opened h' = some c') := by
    intro h' c' hopened
    by_cases hne : h' = h
    · rw [hne, Function.update_self] at hopened
      exact Or.inl ⟨hne, (Option.some.inj hopened).symm⟩
    · rw [Function.update_of_ne hne] at hopened
      exact Or.inr ⟨hne, (by rintro rfl; exact hfresh h' hopened), hopened⟩
  have hreopen : Delivered deps (d.setLine c (.messages [])) past outcomes
      (Function.update opened h (some c)) :=
    { belongs := fun {h' request' stage c'} hh' hc' => by
        have hne : h' ≠ h := by
          rintro rfl
          cases hh.symm.trans hh'
          cases hc'
        rw [Function.update_of_ne hne]
        exact hsetLine.belongs hh' hc'
      injective := fun {h₁ h₂ c'} h₁' h₂' => by
        rcases hother h₁' with ⟨rfl, rfl⟩ | ⟨-, hc₁, h₁'⟩
        · rcases hother h₂' with ⟨rfl, -⟩ | ⟨-, hc₂, -⟩
          · rfl
          · exact absurd rfl hc₂
        · rcases hother h₂' with ⟨-, rfl⟩ | ⟨-, -, h₂'⟩
          · exact absurd rfl hc₁
          · exact hd.injective h₁' h₂'
      accepted := fun {h' c'} hopened => by
        rcases hother hopened with ⟨-, rfl⟩ | ⟨-, -, hopened⟩
        · exact Option.isSome_iff_exists.mpr ⟨_, haccepted⟩
        · exact hd.accepted hopened
      fresh := hd.fresh
      outcome := fun {h' request' outcome} hmem => by
        have hne : h' ≠ h := by
          rintro rfl
          exact hnone request' outcome hmem
        rw [Function.update_of_ne hne]
        exact hd.outcome hmem
      once := hd.once }
  refine hreopen.put hnone fun {c'} hc' => ?_
  cases hc'
  refine ⟨Function.update_self _ _ _, ⟨[], Function.update_self _ _ _, List.forall_mem_nil _⟩,
    fun hmessage => ?_, fun response hmem => ?_⟩
  · change (d.enclave.connections c).bind _ = _ at hmessage
    rw [haccepted] at hmessage
    cases hmessage
  · change response ∈ d.responses c at hmem
    rw [hresponses] at hmem
    cases hmem

/-! ## Steps and runs -/

theorem ne_ended_of_handle {h : ℕ} {request : ClientRequest Stdin} {stage : HandlerStage}
    {input : HandlerInput} {outcomes' : List (HostEvent Stdin)}
    {action : Option (Enclave.Action Stdin)}
    (hstep : d.handle deps h request stage input = some (d', outcomes', action)) :
    stage ≠ .ended := by
  rintro rfl
  cases hstep

theorem told_of_handle (hd : Delivered deps d past outcomes opened) {h : ℕ}
    {request : ClientRequest Stdin} {stage : HandlerStage} {input : HandlerInput}
    {outcomes' : List (HostEvent Stdin)} {action : Option (Enclave.Action Stdin)}
    (hh : d.handlers h = some (request, stage))
    (hstep : d.handle deps h request stage input = some (d', outcomes', action)) :
    ∀ o ∈ outcomes', Told deps past (opened h) request o.2.2 := by
  have hfailed : ∀ e ∈ transportErrors, ∀ o ∈ [(h, request, request.failure e)],
      Told deps past (opened h) request o.2.2 := by
    rintro e he o ho
    cases List.mem_singleton.mp ho
    exact Or.inl ⟨e, he, rfl⟩
  unfold handle at hstep
  split at hstep
  · split at hstep
    · cases hstep
      exact List.forall_mem_nil _
    · cases hstep
  · cases hstep
    exact hfailed _ (by simp [transportErrors])
  · cases hstep
    exact List.forall_mem_nil _
  · cases hstep
    exact List.forall_mem_nil _
  · cases hstep
    exact hfailed _ (by simp [transportErrors])
  · next c =>
    split at hstep
    · cases hstep
    · next response rest hresponses =>
      cases hstep
      intro o ho
      cases List.mem_singleton.mp ho
      obtain ⟨hopened, hbelongs⟩ := hd.belongs hh rfl
      have hanswered := hbelongs.response response (by rw [hresponses]; exact List.mem_cons_self)
      exact Or.inr ⟨c, response, hopened, hanswered, rfl⟩
  · cases hstep
    exact hfailed _ (by simp [transportErrors])
  · cases hstep
  · cases hstep
    exact List.forall_mem_nil _
  · cases hstep

theorem delivered_of_handle (hd : Delivered deps d past outcomes opened) {h : ℕ}
    {request : ClientRequest Stdin} {stage : HandlerStage} {input : HandlerInput}
    {outcomes' : List (HostEvent Stdin)} (hh : d.handlers h = some (request, stage))
    (hstep : d.handle deps h request stage input = some (d', outcomes', none)) :
    Delivered deps d' past (outcomes ++ outcomes') opened := by
  have hended := ne_ended_of_handle hstep
  have hnone := hd.not_mem hh hended
  have htold := told_of_handle hd hh hstep
  have hleave := hd.leave hh hended
  have hleft : (d.leave h request stage).handlers h = some (request, .ended) := by
    have hleave' : (d.leave h request stage).handlers =
        ((d.hangUp stage).put h request .ended).handlers := by
      rw [Deployment.leave]
      split <;> rfl
    rw [hleave', handlers_put, Function.update_self]
  cases handles_of_handle hstep with
  | locked =>
      rw [List.append_nil]
      have hput : Delivered deps (d.put h request .connecting) past outcomes opened :=
        hd.put hnone fun hc => by cases hc
      exact hput.setMutex (some h)
  | sent c =>
      rw [List.append_nil]
      obtain ⟨hopened, hbelongs⟩ := hd.belongs hh rfl
      have hline : Delivered deps (d.setLine c (.messages [request.toEnclave])) past outcomes
          opened := by
        refine hd.setLine fun {h' request' stage'} hh' hc' => ?_
        have hsame := hd.injective (hd.belongs hh' hc').1 hopened
        subst hsame
        cases hh.symm.trans hh'
        exact ⟨_, rfl, List.forall_mem_singleton.mpr rfl⟩
      refine hline.put hnone fun {c'} hc' => ?_
      cases hc'
      exact hline.belongs hh rfl
  | received c response rest hresponses =>
      have hleft' : (d.leave h request (.awaiting c)).responses c = response :: rest := by
        rw [leave_responses, hresponses]
      have hread := hleave.read hleft'
      rw [leave_responses] at hread
      exact hread.tell hleft hnone (htold _ (List.mem_singleton_self _))
  | failed stage e => exact hleave.tell hleft hnone (htold _ (List.mem_singleton_self _))
  | dropped stage =>
      rw [List.append_nil]
      exact hleave

theorem accept_of_handle {h : ℕ} {request : ClientRequest Stdin} {stage : HandlerStage}
    {input : HandlerInput} {outcomes' : List (HostEvent Stdin)} {action : Enclave.Action Stdin}
    (hstep : d.handle deps h request stage input = some (d', outcomes', some action)) :
    ∃ c, stage = .connecting ∧ input = .connect (some c) ∧ action = .accept c ∧ outcomes' = [] ∧
      d' = (d.put h request (.connected c)).setLine c (.messages []) := by
  unfold handle at hstep
  split at hstep
  case h_3 =>
    cases hstep
    exact ⟨_, rfl, rfl, rfl, rfl, rfl⟩
  case h_1 | h_6 =>
    split at hstep
    · cases hstep
    · cases hstep
  all_goals cases hstep

theorem delivered_of_move {a : Action Stdin} {outcomes' : List (HostEvent Stdin)}
    (hd : Delivered deps d past outcomes opened)
    (hmove : d.move deps a = some (d', outcomes', none)) :
    Delivered deps d' past (outcomes ++ outcomes') opened := by
  cases a with
  | arrive h request =>
      simp only [move] at hmove
      split at hmove
      · next hnew =>
        cases hmove
        rw [List.append_nil]
        refine hd.put (fun request' outcome hmem => ?_) fun hc => ?_
        · have hended := (hd.outcome hmem).1
          rw [hnew] at hended
          cases hended
        · cases request <;> cases hc
      · cases hmove
  | handler h input =>
      simp only [move] at hmove
      split at hmove
      · cases hmove
      · next request stage hh => exact delivered_of_handle hd hh hmove
  | stranger c => cases hmove
  | deliver c =>
      simp only [move] at hmove
      split at hmove
      · cases hmove
      · cases hmove
  | enclave c input =>
      simp only [move] at hmove
      split at hmove
      · cases hmove
      · cases hmove

/-- A step of the host, with the step of the enclave that comes of it. It opens at most one
connection, which is new. -/
theorem delivered_of_enclave {a : Action Stdin} {outcomes' : List (HostEvent Stdin)}
    {a' : Enclave.Action Stdin} {enclave : Enclave K Stdin} {es : List (ℕ × Enclave.Event Stdin)}
    (hd : Delivered deps d past outcomes opened)
    (hmove : d.move deps a = some (d', outcomes', some a'))
    (hstep : (Enclave.machine deps debugMode).step d'.enclave a' = some (enclave, es)) :
    outcomes' = [] ∧ ∃ opened', Delivered deps { d' with
        enclave := enclave
        responses := fun c => d'.responses c ++ es.filterMap (answeredOn c) }
      (past ++ es) outcomes opened' ∧
      ∀ h c, opened' h = some c → opened h = some c ∨
        (a = .handler h (.connect (some c)) ∧ d.enclave.connections c = none) := by
  cases a with
  | arrive h request =>
      simp only [move] at hmove
      split at hmove
      · cases hmove
      · cases hmove
  | handler h input =>
      simp only [move] at hmove
      split at hmove
      · cases hmove
      · next request stage hh =>
        obtain ⟨c, rfl, rfl, rfl, rfl, rfl⟩ := accept_of_handle hmove
        obtain ⟨hc, rfl, rfl⟩ := Enclave.step_accept hstep
        have hfresh : ∀ h', opened h' ≠ some c := by
          intro h' hopened
          have hsome := hd.accepted hopened
          rw [show d.enclave.connections c = none from hc] at hsome
          cases hsome
        have hresponses : d.responses c ++ [] = [] := (List.append_nil _).trans (hd.fresh hc)
        have haccepted := hd.enclave hstep fun ha => by cases ha
        refine ⟨rfl, _, haccepted.open hh hfresh (Function.update_self _ _ _) hresponses,
          fun h' c' hc' => ?_⟩
        by_cases hne : h' = h
        · subst hne
          rw [Function.update_self] at hc'
          cases hc'
          exact Or.inr ⟨rfl, hc⟩
        · rw [Function.update_of_ne hne] at hc'
          exact Or.inl hc'
  | stranger c =>
      cases hmove
      obtain ⟨hc, -⟩ := Enclave.step_accept hstep
      refine ⟨rfl, opened, (hd.enclave hstep fun ha => by cases ha).setLine fun hh hc' => ?_,
        fun h c hc => Or.inl hc⟩
      have hsome := hd.accepted (hd.belongs hh hc').1
      rw [show d.enclave.connections c = none from hc] at hsome
      cases hsome
  | deliver c =>
      simp only [move] at hmove
      split at hmove
      · next message queue hline =>
        cases hmove
        have hqueue : ∀ {h request stage}, d.handlers h = some (request, stage) →
            stage.connection = some c →
            message = request.toEnclave ∧ ∀ message' ∈ queue, message' = request.toEnclave := by
          intro h request stage hh hc
          obtain ⟨queue', hlines, hall⟩ := (hd.belongs hh hc).2.line
          cases hline.symm.trans hlines
          exact List.forall_mem_cons.mp hall
        refine ⟨rfl, opened, Delivered.setLine (hd.enclave hstep ?_)
          fun hh hc => ⟨queue, rfl, (hqueue hh hc).2⟩, fun h c hc => Or.inl hc⟩
        rintro c' message' h request stage ha hh hc
        cases ha
        exact (hqueue hh hc).1
      · cases hmove
  | enclave c input =>
      simp only [move] at hmove
      split at hmove
      · cases hmove
      · next hinput =>
        cases hmove
        refine ⟨rfl, opened, hd.enclave hstep ?_, fun h c hc => Or.inl hc⟩
        rintro c' message' h request stage ha hh hc
        cases ha
        obtain ⟨queue, hlines, -⟩ := (hd.belongs hh hc).2.line
        exact (hinput message' queue rfl hlines).elim

theorem delivered_of_step {a : Action Stdin}
    {es : List ((ℕ × Enclave.Event Stdin) ⊕ HostEvent Stdin)}
    (hd : Delivered deps d past outcomes opened)
    (hstep : (machine deps debugMode).step d a = some (d', es)) :
    ∃ opened', Delivered deps d' (past ++ es.filterMap Sum.getLeft?)
        (outcomes ++ es.filterMap Sum.getRight?) opened' ∧
      ∀ h c, opened' h = some c → opened h = some c ∨
        (a = .handler h (.connect (some c)) ∧ d.enclave.connections c = none) := by
  obtain ⟨d₁, outcomes', action, hmove, hes⟩ := step_cases hstep
  obtain ⟨rfl, rfl, rfl⟩ | ⟨a', enclave, es', rfl, hstep', rfl, rfl⟩ := hes
  · refine ⟨opened, ?_, fun h c hc => Or.inl hc⟩
    simpa [List.filterMap_map, Function.comp_def] using delivered_of_move hd hmove
  · obtain ⟨rfl, opened', hd', hopened⟩ := delivered_of_enclave hd hmove hstep'
    refine ⟨opened', ?_, hopened⟩
    simpa [List.filterMap_map, Function.comp_def] using hd'

/-! ## The sessions of `save_attestation` -/

theorem Delivered.nextResponse (hd : Delivered deps d past outcomes opened) {c : ℕ}
    {response : EnclaveResponse} (h : d.nextResponse c = some (response, d')) :
    Delivered deps d' past outcomes opened := by
  rw [Deployment.nextResponse] at h
  split at h
  · cases h
  · next hresponses =>
    cases h
    exact hd.read hresponses

theorem enclave_of_nextResponse {c : ℕ} {response : EnclaveResponse}
    (h : d.nextResponse c = some (response, d')) : d'.enclave = d.enclave := by
  rw [Deployment.nextResponse] at h
  split at h
  · cases h
  · cases h
    rfl

theorem enclave_hangUpSession (d : Deployment K Stdin) (stage : SaveStage) :
    (d.hangUpSession stage).enclave = d.enclave := by
  cases stage <;> rfl

theorem Delivered.hangUpSession (hd : Delivered deps d past outcomes opened) {stage : SaveStage}
    (hstage : ∀ {c}, stage.connection = some c → ∀ h, opened h ≠ some c) :
    Delivered deps (d.hangUpSession stage) past outcomes opened := by
  cases stage with
  | connecting | ended => exact hd
  | _ => exact hd.setLine fun hh hc => absurd (hd.belongs hh hc).1 (hstage rfl _)

theorem Delivered.accept (hd : Delivered deps d past outcomes opened) {c : ℕ}
    {enclave : Enclave K Stdin} {es : List (ℕ × Enclave.Event Stdin)}
    (hstep : (Enclave.machine deps debugMode).step d.enclave (.accept c) = some (enclave, es)) :
    Delivered deps { d with enclave := enclave } past outcomes opened := by
  obtain ⟨-, rfl, -⟩ := Enclave.step_accept hstep
  simpa using hd.enclave hstep nofun

theorem delivered_of_saves {keccak256 : Bytes → Bytes32} {stage stage' : SaveStage}
    {es : List SaveEvent} (hd : Delivered deps d past outcomes opened)
    (hstage : ∀ {c}, stage.connection = some c → ∀ h, opened h ≠ some c)
    (hsaves : Saves deps debugMode keccak256 d stage d' stage' es) :
    Delivered deps d' past outcomes opened := by
  cases hsaves with
  | connected c enclave es' haccept =>
      refine (hd.accept haccept).setLine fun hh hc => ?_
      have hsome := hd.accepted (hd.belongs hh hc).1
      rw [(Enclave.step_accept haccept).1] at hsome
      cases hsome
  | requested c line | pipelined c line =>
      exact hd.setLine fun hh hc => absurd (hd.belongs hh hc).1 (hstage rfl _)
  | attested c attestation d₁ hnext => exact hd.nextResponse hnext
  | identified c attestation public_key address d₁ hnext => exact hd.nextResponse hnext
  | refused stage c response e d₁ hnext =>
      exact (hd.nextResponse hnext).hangUpSession hstage
  | saved | failed | dropped => exact hd.hangUpSession hstage

theorem enclave_of_saves {keccak256 : Bytes → Bytes32} {stage stage' : SaveStage}
    {es : List SaveEvent} (hsaves : Saves deps debugMode keccak256 d stage d' stage' es) :
    d'.enclave = d.enclave ∨
      ∃ a', (Enclave.machine deps debugMode).step d.enclave a' = some (d'.enclave, []) := by
  cases hsaves with
  | connected c enclave es' haccept =>
      obtain ⟨-, rfl, -⟩ := Enclave.step_accept haccept
      exact Or.inr ⟨_, haccept⟩
  | requested | pipelined => exact Or.inl rfl
  | attested c attestation d₁ hnext => exact Or.inl (enclave_of_nextResponse hnext)
  | identified c attestation public_key address d₁ hnext =>
      exact Or.inl (enclave_of_nextResponse hnext)
  | refused stage c response e d₁ hnext =>
      exact Or.inl ((enclave_hangUpSession d₁ stage).trans (enclave_of_nextResponse hnext))
  | saved | failed | dropped => exact Or.inl (enclave_hangUpSession d _)

theorem accepted_of_saves {keccak256 : Bytes → Bytes32} {stage stage' : SaveStage}
    {es : List SaveEvent} (hsaves : Saves deps debugMode keccak256 d stage d' stage' es) :
    (∀ c, (d.enclave.connections c).isSome → (d'.enclave.connections c).isSome) ∧
      ∀ c, stage'.connection = some c → stage.connection = some c ∨
        (d.enclave.connections c = none ∧ (d'.enclave.connections c).isSome) := by
  cases hsaves with
  | connected c enclave es' haccept =>
      refine ⟨fun c' hc' => Enclave.accepted_of_step haccept hc', fun c' hc' => ?_⟩
      cases hc'
      obtain ⟨hc, -, rfl⟩ := Enclave.step_accept haccept
      refine Or.inr ⟨hc, ?_⟩
      change (Function.update d.enclave.connections c (some .receiving) c).isSome
      rw [Function.update_self]
      rfl
  | requested | pipelined => exact ⟨fun c hc => hc, fun c hc => Or.inl hc⟩
  | attested c attestation d₁ hnext =>
      rw [enclave_of_nextResponse hnext]
      exact ⟨fun c hc => hc, fun c hc => Or.inl hc⟩
  | identified c attestation public_key address d₁ hnext =>
      rw [enclave_of_nextResponse hnext]
      exact ⟨fun c hc => hc, fun c hc => Or.inl hc⟩
  | refused stage c response e d₁ hnext =>
      rw [enclave_hangUpSession, enclave_of_nextResponse hnext]
      exact ⟨fun c hc => hc, nofun⟩
  | saved | failed | dropped =>
      rw [enclave_hangUpSession]
      exact ⟨fun c hc => hc, nofun⟩

theorem accepted_of_step {a : Action Stdin}
    {es : List ((ℕ × Enclave.Event Stdin) ⊕ HostEvent Stdin)}
    (hstep : (machine deps debugMode).step d a = some (d', es)) {c : ℕ}
    (hc : (d.enclave.connections c).isSome) : (d'.enclave.connections c).isSome := by
  obtain ⟨d₁, outcomes', action, hmove, hes⟩ := step_cases hstep
  rw [← move_enclave hmove] at hc
  obtain ⟨-, rfl, -⟩ | ⟨a', enclave, es', -, hstep', rfl, -⟩ := hes
  · exact hc
  · exact Enclave.accepted_of_step hstep' hc

end Deployment

namespace Saving

variable {K Stdin : Type} {deps : Deps K} {debugMode : Bool} {keccak256 : Bytes → Bytes32}
  {s s' : Saving K Stdin}

def enclaveEvents (es : List (Event Stdin)) : List (ℕ × Enclave.Event Stdin) :=
  (es.filterMap Sum.getLeft?).filterMap Sum.getLeft?

def outcomes (es : List (Event Stdin)) : List (Deployment.HostEvent Stdin) :=
  (es.filterMap Sum.getLeft?).filterMap Sum.getRight?

theorem enclaveEvents_append (es es' : List (Event Stdin)) :
    enclaveEvents (es ++ es') = enclaveEvents es ++ enclaveEvents es' := by
  simp [enclaveEvents]

theorem outcomes_append (es es' : List (Event Stdin)) :
    outcomes (es ++ es') = outcomes es ++ outcomes es' := by
  simp [outcomes]

theorem run_enclave {as : List (Action Stdin)} {es : List (Event Stdin)}
    (hrun : (machine deps debugMode keccak256).run s as = some (s', es)) :
    ∃ as', (Enclave.machine deps debugMode).run s.deployment.enclave as' =
      some (s'.deployment.enclave, enclaveEvents es) := by
  rw [enclaveEvents, List.filterMap_filterMap]
  refine Machine.run_project (fun s : Saving K Stdin => s.deployment.enclave) _
    (fun {s s' a es} hstep => ?_) hrun
  rcases step_cases hstep with
    ⟨a', d, es', rfl, hstep', rfl, rfl⟩ | ⟨i, d, stage, es', hsaves, rfl, rfl⟩
  · simpa [List.filterMap_map, Function.comp_def] using Deployment.enclave_of_step hstep'
  · have hnone : (es'.map fun e => (.inr (i, e) : Event Stdin)).filterMap
        (fun e => e.getLeft?.bind Sum.getLeft?) = [] := by
      simp [List.filterMap_map, Function.comp_def]
    rw [hnone]
    simpa using Deployment.enclave_of_saves hsaves

/-- What has been told in a run with the actions in `as`, beside sessions that have
connections of their own. -/
structure Delivered (deps : Deps K) (as : List (Action Stdin)) (s : Saving K Stdin)
    (past : List (Event Stdin)) (opened : ℕ → Option ℕ) : Prop where
  deployment : Deployment.Delivered deps s.deployment (enclaveEvents past) (outcomes past) opened
  connected : ∀ {h c}, opened h = some c → .deployment (.handler h (.connect (some c))) ∈ as
  session : ∀ {i c}, (s.sessions i).connection = some c →
    (s.deployment.enclave.connections c).isSome ∧ ∀ h, opened h ≠ some c

theorem delivered_of_step {as : List (Action Stdin)} {a : Action Stdin}
    {past es : List (Event Stdin)} {opened : ℕ → Option ℕ}
    (hd : Delivered deps as s past opened) (ha : a ∈ as)
    (hstep : (machine deps debugMode keccak256).step s a = some (s', es)) :
    ∃ opened', Delivered deps as s' (past ++ es) opened' := by
  rcases step_cases hstep with
    ⟨a', d, es', rfl, hstep', rfl, rfl⟩ | ⟨i, d, stage, es', hsaves, rfl, rfl⟩
  · obtain ⟨opened', hd', hopened⟩ := Deployment.delivered_of_step hd.deployment hstep'
    refine ⟨opened', ?_, fun {h c} hc => ?_, fun {i c} hc => ?_⟩
    · rw [enclaveEvents_append, outcomes_append]
      simpa [enclaveEvents, outcomes, List.filterMap_map, Function.comp_def] using hd'
    · rcases hopened h c hc with hold | ⟨rfl, -⟩
      · exact hd.connected hold
      · exact ha
    · obtain ⟨haccepted, hnone⟩ := hd.session hc
      refine ⟨Deployment.accepted_of_step hstep' haccepted, fun h hc' => ?_⟩
      rcases hopened h c hc' with hold | ⟨-, hnew⟩
      · exact hnone h hold
      · rw [hnew] at haccepted
        cases haccepted
  · obtain ⟨hmono, hnew⟩ := Deployment.accepted_of_saves hsaves
    refine ⟨opened, ?_, hd.connected, fun {j c} hc => ?_⟩
    · rw [enclaveEvents_append, outcomes_append]
      have hd' := Deployment.delivered_of_saves hd.deployment (fun hc => (hd.session hc).2) hsaves
      simpa [enclaveEvents, outcomes, List.filterMap_map, Function.comp_def] using hd'
    · have hold : ∀ {j}, (s.sessions j).connection = some c →
          (d.enclave.connections c).isSome ∧ ∀ h, opened h ≠ some c :=
        fun hc => have ⟨haccepted, hnone⟩ := hd.session hc
        ⟨hmono c haccepted, hnone⟩
      change (Function.update s.sessions i stage j).connection = some c at hc
      by_cases hij : j = i
      · rw [hij, Function.update_self] at hc
        rcases hnew c hc with hc | ⟨hnone, hsome⟩
        · exact hold hc
        · refine ⟨hsome, fun h hopened => ?_⟩
          have haccepted := hd.deployment.accepted hopened
          rw [hnone] at haccepted
          cases haccepted
      · rw [Function.update_of_ne hij] at hc
        exact hold hc

theorem delivered_of_run {key : K} {task : TaskId} {as : List (Action Stdin)}
    {es : List (Event Stdin)}
    (hrun : (machine deps debugMode keccak256).run (start key task) as = some (s, es)) :
    ∃ opened, Delivered deps as s es opened := by
  have hstart : ∃ opened, Delivered deps as (start key task : Saving K Stdin) [] opened :=
    ⟨fun _ => none, Deployment.delivered_start key task, nofun, nofun⟩
  refine Machine.run_invariant_of_forall (P := (· ∈ as))
    (I := fun s past => ∃ opened, Delivered deps as s past opened)
    (fun {s s' a past es} h ha hstep => ?_) hstart (fun _ ha => ha) hrun
  obtain ⟨opened, hd⟩ := h
  exact delivered_of_step hd ha hstep

end Saving

end Sp1Tee

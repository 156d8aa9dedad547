import Highp.Chat.Steps

/-! Completions of a finished connection. Completion key and overlapped are addresses inside the
slot, so a late completion is handled on whatever connection has the slot by then. -/

namespace Highp.Chat
open Highp.Lib Highp.Network

/-- The connection whose receive a worker is handling. -/
def WorkerPc.handling : WorkerPc → Option Conn
  | .kickDisconnected conn => some conn
  | .removeByClient conn => some conn
  | .closeClient conn => some conn
  | .append conn _ => some conn
  | .assemble conn => some conn
  | .consume conn _ => some conn
  | .postNextRecv conn => some conn
  | .resetSocket conn next => if next = .setupClient then none else some conn
  | _ => none

/-- The slot of `conn` is in the hands of another connection. -/
def State.succeeded (s : State) (conn : Conn) : Bool :=
  conn.epoch != s.epoch conn.client && (s.pool conn.client).isConnected

/-- No slot is assigned while a receive of it is being handled, and a receive that is completed
after its slot has found a new connection is completed with the abort code. -/
def SparesSuccessor (s : State) (l : Label) : Prop :=
  (match l with
  | .worker w _ =>
    match s.workers[w]? with
    | some (.assignSocket _ client) => s.workers.all fun pc =>
        pc.handling.all fun conn => conn.client != client
    | _ => true
  | .recvDone _ conn result => !s.succeeded conn || result.aborted
  | _ => true) = true

instance (s : State) (l : Label) : Decidable (SparesSuccessor s l) :=
  inferInstanceAs (Decidable (_ = true))

variable {cfg : Config} {fb : FlatBuffers} {s t : State} {conn : Conn}

theorem handling_onRecvDequeued {result : IoResult} {c : Conn}
    (h : (onRecvDequeued conn result).handling = some c) : result.aborted = false ∧ c = conn := by
  rcases onRecvDequeued_cases conn result with ⟨-, he⟩ | ⟨ha, he | ⟨data, he⟩⟩
  · simp [he, WorkerPc.handling] at h
  · rw [he] at h
    exact ⟨ha, (Option.some.inj h).symm⟩
  · rw [he] at h
    exact ⟨ha, (Option.some.inj h).symm⟩

theorem handling_onSendDequeued {result : IoResult} :
    (onSendDequeued conn result).handling = none := by
  rcases onSendDequeued_cases conn result with he | he
  · rw [he]
    rfl
  · rw [he]
    rfl

theorem handling_behindClose {next : AfterClose} {c : Conn}
    (h : (s.behindClose conn next).handling = some c) : next ≠ .setupClient ∧ c = conn := by
  unfold State.behindClose at h
  cases next with
  | setupClient => split at h <;> simp [WorkerPc.handling, AfterClose.pc] at h
  | handleRecv =>
    split at h
    · exact ⟨nofun, (Option.some.inj h).symm⟩
    · cases h
  | postNextRecv | consume _ =>
    split at h
    · exact ⟨nofun, (Option.some.inj h).symm⟩
    · exact ⟨nofun, (Option.some.inj h).symm⟩

/-- A worker goes on handling the receive that it dequeued. -/
theorem WorkerStep.handling {ok : Bool} {pc pc' : WorkerPc} (h : WorkerStep cfg fb s ok pc t pc')
    {c : Conn} (hc : pc'.handling = some c) : pc.handling = some c := by
  cases h with
  | kick | remove | close | append | incomplete | command | consume | nextRecvFailed => exact hc
  | overflow | tooLarge | invalid => exact congrArg some (handling_behindClose hc).2.symm
  | associateFailed | firstRecvFailed => exact absurd rfl (handling_behindClose hc).1
  | @reset conn next =>
    cases next with
    | setupClient | handleRecv => cases hc
    | postNextRecv | consume _ => exact hc
  | _ => simp [WorkerPc.handling] at hc

/-- Nobody handles a receive whose slot has a successor. -/
def HandlesOwn (s : State) : Prop :=
  ∀ pc ∈ s.workers, ∀ c, pc.handling = some c → s.succeeded c = false

theorem NoNewSocket.succeeded (h : NoNewSocket s t) {c : Conn} (hc : s.succeeded c = false) :
    t.succeeded c = false := by
  rw [← Bool.not_eq_true] at hc ⊢
  intro ht
  simp only [State.succeeded, Bool.and_eq_true] at hc ht
  exact hc ⟨h.epoch ▸ ht.1, h.isConnected ht.2⟩

theorem HandlesOwn.assign {w : Nat} {k : SocketHandle} {client : Slot} {ok : Bool}
    (h : HandlesOwn s) (hw : s.workers[w]? = some (.assignSocket k client))
    (hok : SparesSuccessor s (.worker w ok)) (hs : s.step cfg fb (.worker w ok) = some t) :
    HandlesOwn t := by
  obtain ⟨pc, u, pc', hpc, hstep, rfl⟩ := step_worker hs
  rw [hw] at hpc
  cases hpc
  cases hstep
  simp only [SparesSuccessor, hw, List.all_eq_true, Option.all_eq_true, bne_iff_ne] at hok
  intro pc hm c hc
  rcases List.mem_or_eq_of_mem_set hm with hm | rfl
  · have hne : c.client ≠ client := by simpa using hok pc hm c hc
    simpa [State.succeeded, hne] using h pc hm c hc
  · simp [WorkerPc.handling] at hc

theorem HandlesOwn.step {l : Label} (h : HandlesOwn s) (hok : SparesSuccessor s l)
    (hs : s.step cfg fb l = some t) : HandlesOwn t := by
  cases l with
  | accepted w acceptSocket =>
    obtain ⟨-, -, rfl⟩ := step_accepted hs
    intro pc hm c hc
    rcases List.mem_or_eq_of_mem_set hm with hm | rfl
    · exact h pc hm c hc
    · simp [WorkerPc.handling] at hc
  | arrive conn data =>
    obtain ⟨-, -, -, rfl⟩ := step_arrive hs
    exact h
  | recvDone w conn result =>
    obtain ⟨-, -, rfl⟩ := step_recvDone hs
    intro pc hm c hc
    rcases List.mem_or_eq_of_mem_set hm with hm | rfl
    · exact h pc hm c hc
    · obtain ⟨hresult, rfl⟩ := handling_onRecvDequeued hc
      simp only [SparesSuccessor, hresult, Bool.or_false, Bool.not_eq_true'] at hok
      exact hok
  | sendDone w conn result =>
    obtain ⟨-, -, rfl⟩ := step_sendDone hs
    intro pc hm c hc
    rcases List.mem_or_eq_of_mem_set hm with hm | rfl
    · exact h pc hm c hc
    · simp [handling_onSendDequeued] at hc
  | worker w ok =>
    by_cases hassign : ∃ k client, s.workers[w]? = some (.assignSocket k client)
    · obtain ⟨k, client, hw⟩ := hassign
      exact h.assign hw hok hs
    · obtain ⟨pc, u, pc', hpc, hstep, rfl⟩ := step_worker hs
      have hnew := hstep.noNewSocket fun k client he => hassign ⟨k, client, he ▸ hpc⟩
      intro pc'' hm c hc
      show u.succeeded c = false
      apply hnew.succeeded
      rcases List.mem_or_eq_of_mem_set hm with hm | rfl
      · exact h pc'' hm c hc
      · exact h pc (List.mem_of_getElem? hpc) c (hstep.handling hc)
  | tick =>
    obtain ⟨-, -, rfl⟩ := step_tick hs
    exact h
  | logic choice =>
    have hl := logicStep_inv hs
    intro pc hm c hc
    exact hl.noNewSocket.succeeded (h pc (hl.network.1 ▸ hm) c hc)

theorem handlesOwn_of_reach (h : (chatServer cfg fb).Reach SparesSuccessor s) : HandlesOwn s := by
  refine h.invariant (I := HandlesOwn) ?_ fun _ hi hok hs => hi.step hok hs
  intro pc hm c hc
  rw [List.eq_of_mem_replicate hm] at hc
  simp [WorkerPc.handling] at hc

/-- The step deals with a completion that `conn` issued. -/
def Handles (s : State) (conn : Conn) : Label → Prop
  | .recvDone _ c _ => c = conn
  | .sendDone _ c _ => c = conn
  | .worker w _ => ∃ pc, s.workers[w]? = some pc ∧ pc.handling = some conn
  | _ => False

/-- The step neither closes the connection in the slot nor feeds its frame buffer, posts no
receive, and calls neither `OnDisconnect` nor any other callback. -/
structure Spares (s t : State) (client : Slot) : Prop where
  client : t.pool client = s.pool client
  recvs : t.recvs.Sublist s.recvs
  log : t.log = s.log

/-- **Completions of a finished connection leave its successor alone**, in every run that meets
the condition, whatever else is completed, closed and reused in between. -/
theorem completion_spares_successor (cfg : Config) (fb : FlatBuffers) {s t : State} {l : Label}
    (conn : Conn) (h : (chatServer cfg fb).Reach SparesSuccessor s)
    (hs : s.step cfg fb l = some t) (hl : Handles s conn l) (hsucc : s.succeeded conn = true) :
    Spares s t conn.client := by
  cases l with
  | recvDone w c result =>
    obtain ⟨-, -, rfl⟩ := step_recvDone hs
    exact ⟨rfl, List.erase_sublist, rfl⟩
  | sendDone w c result =>
    obtain ⟨-, -, rfl⟩ := step_sendDone hs
    exact ⟨rfl, List.Sublist.refl _, rfl⟩
  | worker w ok =>
    obtain ⟨pc, hpc, hc⟩ := hl
    have hno := handlesOwn_of_reach h pc (List.mem_of_getElem? hpc) conn hc
    simp [hsucc] at hno
  | accepted => exact absurd hl id
  | arrive => exact absurd hl id
  | tick => exact absurd hl id
  | logic => exact absurd hl id

/-- The peer of a slot's first connection has gone, and the logic thread has closed it for a
packet without a handler while its next receive was pending. -/
def rejectedClient : List Label :=
  accepts 0 4 ++ receives 0 ⟨0, 1⟩ (frameBytes joinedBytes) 1 ++ ticks 2

/-- The slot has been reused when the old receive comes in with the abort code. -/
theorem completion_spares_successor_aborted :
    ∃ s t, (chatServer smallServer sample).Reach SparesSuccessor s ∧
      s.succeeded ⟨0, 1⟩ = true ∧
      s.step smallServer sample (.recvDone 1 ⟨0, 1⟩ (.failed ERROR_OPERATION_ABORTED)) = some t ∧
      Spares s t 0 := by
  obtain ⟨s, hr, hp⟩ := System.reach_of_exec (chatServer smallServer sample) SparesSuccessor
    (rejectedClient ++ accepts 0 5)
    (fun s => s.succeeded ⟨0, 1⟩ &&
      (s.step smallServer sample (.recvDone 1 ⟨0, 1⟩ (.failed ERROR_OPERATION_ABORTED))).isSome)
    (by decide +kernel)
  simp only [Bool.and_eq_true, Option.isSome_iff_exists] at hp
  obtain ⟨hsucc, t, hs⟩ := hp
  exact ⟨s, t, hr, hsucc, hs,
    completion_spares_successor smallServer sample ⟨0, 1⟩ hr hs rfl hsucc⟩

/-- The same with `ERROR_NETNAME_DELETED`: handling the old receive closes the new connection. -/
theorem late_completion_closes_successor :
    ∃ s t, (chatServer smallServer sample).Reach System.always s ∧
      Handles s ⟨0, 1⟩ (.worker 1 true) ∧ s.succeeded ⟨0, 1⟩ = true ∧
      s.step smallServer sample (.worker 1 true) = some t ∧
      (s.pool 0).socket = some 5 ∧ (t.pool 0).socket = none ∧ ¬ Spares s t 0 := by
  obtain ⟨s, hr, hp⟩ := System.reach_of_exec (chatServer smallServer sample) System.always
    (rejectedClient ++ accepts 0 5 ++
      .recvDone 1 ⟨0, 1⟩ (.failed 64) :: List.replicate 3 (.worker 1 true))
    (fun s => s.workers[1]? == some (.resetSocket ⟨0, 1⟩ .handleRecv) && s.succeeded ⟨0, 1⟩ &&
      (s.pool 0).socket == some 5 && (s.step smallServer sample (.worker 1 true)).any fun t =>
        (t.pool 0).socket == none) (by decide +kernel)
  simp only [Bool.and_eq_true, beq_iff_eq, Option.any_eq_true] at hp
  obtain ⟨⟨⟨hw, hsucc⟩, hsock⟩, t, hs, hnone⟩ := hp
  refine ⟨s, t, hr, ⟨_, hw, rfl⟩, hsucc, hs, hsock, hnone, fun h => ?_⟩
  have he : (t.pool 0).socket = (s.pool 0).socket := congrArg Client.socket h.client
  rw [hsock, hnone] at he
  cases he

end Highp.Chat

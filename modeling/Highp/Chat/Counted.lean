import Highp.Chat.Steps

/-! Which clients have to be closed or reported. A client that is connected has been counted by
`MarkConnectionEstablished`, unless a worker is still on its way there or somebody is in the middle
of closing it. -/

namespace Highp.Chat
open Highp.Lib Highp.Network

/-- Something is left to be closed or reported. -/
def live (c : Client) : Bool := c.isConnected || c.emitsDisconnected

/-- The slot that a worker has taken and not yet marked. -/
def WorkerPc.settingUp : WorkerPc → Option Slot
  | .assignSocket _ client => some client
  | .associateSocket conn => some conn.client
  | .postFirstRecv conn => some conn.client
  | .markConnectionEstablished conn => some conn.client
  | _ => none

/-- The slot that a worker has closed but for the last line of `Close`. -/
def WorkerPc.resetting : WorkerPc → Option Slot
  | .resetSocket conn _ => some conn.client
  | _ => none

def HandlerPc.resetting : HandlerPc → Option Slot
  | .resetSocket cmd => some cmd.client
  | _ => none

/-- Somebody is about to reset the socket of a slot. -/
def State.resetting (s : State) (client : Slot) : Prop :=
  (∃ pc ∈ s.workers, pc.resetting = some client) ∨ s.handler.resetting = some client

/-- A connected client is counted, or will be by the worker that is setting it up, or is being
closed; and all of this happens inside the pool. -/
structure Counted (cfg : Config) (s : State) : Prop where
  counted : ∀ i, (s.pool i).isConnected = true →
    (s.pool i).emitsDisconnected = true ∨ (∃ pc ∈ s.workers, pc.settingUp = some i) ∨ s.resetting i
  live_lt : ∀ i, live (s.pool i) = true → i < cfg.maxClients
  settingUp_lt : ∀ pc ∈ s.workers, ∀ i, pc.settingUp = some i → i < cfg.maxClients

section
variable {cfg : Config} {fb : FlatBuffers} {s t : State} {ok : Bool} {pc pc' : WorkerPc} {w : Nat}
  {client i : Slot}

/-- A worker that moves on leaves those who are being closed to whoever closes them. -/
theorem resetting_setWorker (hw : s.workers[w]? = some pc)
    (hworkers : t.workers = s.workers.set w pc') (hhandler : t.handler = s.handler)
    (hkeep : pc.resetting = some i → pc'.resetting = some i)
    (h : s.resetting i) : t.resetting i := by
  rw [State.resetting, hworkers, hhandler]
  refine h.imp ?_ id
  rintro ⟨q, hq, hqi⟩
  by_cases hqp : q = pc
  · subst hqp
    exact ⟨pc', mem_set_self hw, hkeep hqi⟩
  · exact ⟨q, mem_set_of_ne hw hq hqp, hqi⟩

/-- What a step does to a client as far as being connected and counted goes. -/
structure SameConnection (c c' : Client) : Prop where
  isConnected : c'.isConnected = c.isConnected
  emitsDisconnected : c'.emitsDisconnected = c.emitsDisconnected

theorem live_of_same {c c' : Client} (h : SameConnection c c') : live c' = live c := by
  rw [live, live, h.isConnected, h.emitsDisconnected]

theorem same_update (pool : Pool) {client : Slot} {c : Client}
    (hc : SameConnection (pool client) c) (i : Slot) :
    SameConnection (pool i) (Function.update pool client c i) := by
  by_cases hi : i = client
  · subst hi
    simpa using hc
  · rw [Function.update_of_ne hi]
    exact ⟨rfl, rfl⟩

theorem same_of_ne (pool : Pool) {client i : Slot} (c : Client) (hi : i ≠ client) :
    SameConnection (pool i) (Function.update pool client c i) := by
  rw [Function.update_of_ne hi]
  exact ⟨rfl, rfl⟩

theorem live_closeSocket (h : live ((s.closeSocket client).pool client) = true) :
    live (s.pool client) = true := by
  simp only [State.closeSocket, live, Function.update_self, Client.isConnected,
    Client.emitsDisconnected, Client.emitDisconnectedEvent, Bool.and_self, Bool.or_false] at h
  simp [live, Client.isConnected, h]

theorem live_resetSocket (h : live ((s.resetSocket client).pool client) = true) :
    live (s.pool client) = true := by
  simp only [State.resetSocket, live, Function.update_self, Client.isConnected,
    Client.resetSocket_socket, Option.isSome_none, Bool.false_or] at h
  have hemits : (s.pool client).emitsDisconnected = true := h
  simp [live, hemits]

theorem isConnected_closeSocket :
    ((s.closeSocket client).pool client).isConnected = (s.pool client).isConnected := by
  simp [State.closeSocket, Client.isConnected]

theorem isConnected_resetSocket :
    ((s.resetSocket client).pool client).isConnected = false := by
  simp [State.resetSocket, Client.isConnected]

/-- How a step can leave a client: as it was, in the middle of being closed or without a socket,
or taken or marked by the thread that set it up. -/
inductive Moves (c c' : Client) (settingUp settingUp' resetting resetting' : Prop) : Prop
  | same : SameConnection c c' → (settingUp → settingUp') → (resetting → resetting') →
      Moves c c' settingUp settingUp' resetting resetting'
  | closing : (live c' = true → live c = true) → (c'.isConnected = true → resetting') →
      Moves c c' settingUp settingUp' resetting resetting'
  | setup : settingUp → c'.emitsDisconnected = true ∨ settingUp' →
      Moves c c' settingUp settingUp' resetting resetting'

/-- A client after a step of a worker. -/
theorem WorkerStep.movesClient (h : WorkerStep cfg fb s ok pc t pc') (i : Slot) :
    Moves (s.pool i) (t.pool i) (pc.settingUp = some i) (pc'.settingUp = some i)
      (pc.resetting = some i) (pc'.resetting = some i) := by
  have hclosing : ∀ client, (∀ j, pc.settingUp = some j → j = client) → pc.resetting = none →
      ((s.pool client).isConnected = true → pc'.resetting = some client) →
      Moves (s.pool i) ((s.closeSocket client).pool i) (pc.settingUp = some i)
        (pc'.settingUp = some i) (pc.resetting = some i) (pc'.resetting = some i) := by
    intro client hset hno hreset
    by_cases hi : i = client
    · subst hi
      exact .closing live_closeSocket fun hc => hreset (isConnected_closeSocket ▸ hc)
    · exact .same (same_of_ne s.pool _ hi) (fun he => absurd (hset i he) hi) (by simp [hno])
  have hbehind : ∀ conn next, (s.pool conn.client).isConnected = true →
      (s.behindClose conn next).resetting = some conn.client := by
    intro conn next hc
    rw [State.behindClose, if_pos hc]
    rfl
  cases h with
  | @assign k client =>
    by_cases hi : i = client
    · subst hi
      exact .setup rfl (.inr rfl)
    · exact .same (same_of_ne s.pool _ hi) (fun he => absurd (Option.some.inj he).symm hi) id
  | @mark conn =>
    by_cases hi : i = conn.client
    · subst hi
      refine .setup rfl (.inl ?_)
      simp [Client.emitsDisconnected, Client.markConnectionEstablished]
    · exact .same (same_of_ne s.pool _ hi) (fun he => absurd (Option.some.inj he).symm hi) id
  | associate => exact .same ⟨rfl, rfl⟩ id id
  | firstRecv => exact .same ⟨rfl, rfl⟩ id id
  | @associateFailed conn _ | @firstRecvFailed conn _ =>
    exact hclosing conn.client (fun _ he => (Option.some.inj he).symm) rfl (hbehind conn _)
  | @overflow conn _ _ | @tooLarge conn _ | @invalid conn _ _ =>
    exact hclosing conn.client (by simp [WorkerPc.settingUp]) rfl (hbehind conn _)
  | @close conn _ | @nextRecvFailed conn _ =>
    exact hclosing conn.client (by simp [WorkerPc.settingUp]) rfl fun _ => rfl
  | @reset conn next =>
    by_cases hi : i = conn.client
    · subst hi
      exact .closing live_resetSocket (by simp [isConnected_resetSocket])
    · exact .same (same_of_ne s.pool _ hi) (by simp [WorkerPc.settingUp])
        fun he => absurd (Option.some.inj he).symm hi
  | @append conn _ frameBuf _ =>
    have hsame : SameConnection (s.pool conn.client)
      ((s.pool conn.client).setFrameBuf frameBuf) := ⟨rfl, rfl⟩
    exact .same (same_update s.pool hsame i) (by simp [WorkerPc.settingUp]) id
  | @command conn _ _ frameSize _ | @consume conn frameSize =>
    have hsame : SameConnection (s.pool conn.client) ((s.pool conn.client).setFrameBuf
      ((s.pool conn.client).frameBuf.consume frameSize)) := ⟨rfl, rfl⟩
    exact .same (same_update s.pool hsame i) (by simp [WorkerPc.settingUp]) id
  | _ => exact .same ⟨rfl, rfl⟩ (by simp [WorkerPc.settingUp]) (by simp [WorkerPc.resetting])

/-- A client after a step of the logic thread. -/
theorem LogicStep.movesClient {choice : Choice} (h : LogicStep s choice t) (i : Slot) :
    Moves (s.pool i) (t.pool i) False False (s.handler.resetting = some i)
      (t.handler.resetting = some i) := by
  have hsent : ∀ {pool evs}, Sent s pool evs → s.handler.resetting = none →
      Moves (s.pool i) (pool i) False False (s.handler.resetting = some i)
        (t.handler.resetting = some i) := by
    intro pool evs hsent hno
    refine .same ⟨?_, hsent.emitsDisconnected i⟩ id (by simp [hno])
    rw [Client.isConnected, Client.isConnected, hsent.socket i]
  cases h with
  | @reject cmd batch hpc _ _ =>
    by_cases hi : i = cmd.client
    · subst hi
      exact .closing live_closeSocket fun _ => rfl
    · exact .same (same_of_ne s.pool _ hi) id (by simp [hpc, HandlerPc.resetting])
  | @rejectClosed cmd batch hpc _ hclosed =>
    by_cases hi : i = cmd.client
    · subst hi
      refine .closing live_closeSocket fun hc => ?_
      rw [isConnected_closeSocket, hclosed] at hc
      cases hc
    · exact .same (same_of_ne s.pool _ hi) id (by simp [hpc, HandlerPc.resetting])
  | @reset cmd hpc =>
    by_cases hi : i = cmd.client
    · subst hi
      exact .closing live_resetSocket (by simp [isConnected_resetSocket])
    · refine .same (same_of_ne s.pool _ hi) id fun he => ?_
      rw [hpc] at he
      exact absurd (Option.some.inj he).symm hi
  | joinEnter hpc hs => exact hsent hs (by rw [hpc]; rfl)
  | joinReply hpc hs => exact hsent hs (by rw [hpc]; rfl)
  | leaveRoom hpc _ _ hs => exact hsent hs (by rw [hpc]; rfl)
  | leaveReply hpc hs => exact hsent hs (by rw [hpc]; rfl)
  | chatSend hpc hs => exact hsent hs (by rw [hpc]; rfl)
  | skip hpc _ | startJoin _ _ hpc _ | startLeave _ hpc _ | startChat _ _ hpc _ | joinRoom hpc
  | joinNoSession hpc | joinSession hpc _ | joinExists hpc _ | joinUser hpc _ _ | leaveNobody hpc _
  | leaveFind hpc _ | leaveFault hpc _ | leaveMissing hpc _ _ | leaveRemove hpc | chatNobody hpc _
  | chatFind hpc _ | chatNoRoom hpc =>
    exact .same ⟨rfl, rfl⟩ id (by simp [hpc, HandlerPc.resetting])

theorem settingUp_pc (conn : Conn) (next : AfterClose) : (next.pc conn).settingUp = none := by
  cases next <;> rfl

theorem settingUp_behindClose (s : State) (conn : Conn) (next : AfterClose) :
    (s.behindClose conn next).settingUp = none := by
  rcases behindClose_cases s conn next with he | he
  · rw [he]
    rfl
  · rw [he, settingUp_pc]

/-- `FindAvailableClient` stays inside the pool. -/
theorem WorkerStep.settingUp (h : WorkerStep cfg fb s ok pc t pc') {i : Slot}
    (hi : pc'.settingUp = some i) : pc.settingUp = some i ∨ i < cfg.maxClients := by
  cases h with
  | found hf =>
    cases hi
    exact Or.inr (List.mem_range.mp (List.mem_of_find?_eq_some hf))
  | assign => exact Or.inl hi
  | associate => exact Or.inl hi
  | firstRecv => exact Or.inl hi
  | associateFailed | firstRecvFailed | overflow | tooLarge | invalid =>
    rw [settingUp_behindClose] at hi
    cases hi
  | reset =>
    rw [settingUp_pc] at hi
    cases hi
  | _ => simp [WorkerPc.settingUp] at hi

theorem Counted.worker (h : Counted cfg s) (hw : s.workers[w]? = some pc)
    (hs : WorkerStep cfg fb s ok pc t pc') :
    Counted cfg { t with workers := s.workers.set w pc' } := by
  have hpc := h.settingUp_lt pc (List.mem_of_getElem? hw)
  have hhandler : t.handler = s.handler := hs.registry.2.1
  refine ⟨fun i hi => ?_, fun i hi => ?_, fun q hq i hqi => ?_⟩
  · cases hs.movesClient i with
    | same hsame hset hreset =>
      rcases h.counted i (hsame.isConnected ▸ hi) with hc | ⟨q, hq, hqi⟩ | hreset'
      · exact .inl (hsame.emitsDisconnected.trans hc)
      · by_cases hqp : q = pc
        · subst hqp
          exact .inr (.inl ⟨pc', mem_set_self hw, hset hqi⟩)
        · exact .inr (.inl ⟨q, mem_set_of_ne hw hq hqp, hqi⟩)
      · exact .inr (.inr (resetting_setWorker hw rfl hhandler hreset hreset'))
    | closing _ hreset => exact .inr (.inr (.inl ⟨pc', mem_set_self hw, hreset hi⟩))
    | setup _ hset =>
      exact hset.imp id fun hset => .inl ⟨pc', mem_set_self hw, hset⟩
  · cases hs.movesClient i with
    | same hsame _ _ => exact h.live_lt i (live_of_same hsame ▸ hi)
    | closing hlive _ => exact h.live_lt i (hlive hi)
    | setup hset _ => exact hpc i hset
  · rcases List.mem_or_eq_of_mem_set hq with hq | rfl
    · exact h.settingUp_lt q hq i hqi
    · exact (hs.settingUp hqi).elim (hpc i) id

theorem Counted.logic {choice : Choice} (h : Counted cfg s) (hs : LogicStep s choice t) :
    Counted cfg t := by
  have hworkers : t.workers = s.workers := hs.network.1
  refine ⟨fun i hi => ?_, fun i hi => ?_, hworkers ▸ h.settingUp_lt⟩
  · rw [State.resetting, hworkers]
    cases hs.movesClient i with
    | same hsame _ hreset =>
      rw [hsame.emitsDisconnected]
      exact (h.counted i (hsame.isConnected ▸ hi)).imp id (Or.imp id (Or.imp id hreset))
    | closing _ hreset => exact .inr (.inr (.inr (hreset hi)))
    | setup hset _ => exact hset.elim
  · cases hs.movesClient i with
    | same hsame _ _ => exact h.live_lt i (live_of_same hsame ▸ hi)
    | closing hlive _ => exact h.live_lt i (hlive hi)
    | setup hset _ => exact hset.elim

/-- A worker that takes up a completion is not setting up a client yet. -/
theorem Counted.dequeue (h : Counted cfg s) (hw : s.workers[w]? = some .idle)
    (hpc : pc'.settingUp = none) (hpool : t.pool = s.pool) (hhandler : t.handler = s.handler)
    (hworkers : t.workers = s.workers.set w pc') : Counted cfg t := by
  refine ⟨fun i hi => ?_, hpool ▸ h.live_lt, fun q hq i hqi => ?_⟩
  · rw [hpool] at hi ⊢
    refine (h.counted i hi).imp id (Or.imp ?_ ?_)
    · rintro ⟨q, hq, hqi⟩
      rw [hworkers]
      exact ⟨q, mem_set_of_ne hw hq (by rintro rfl; simp [WorkerPc.settingUp] at hqi), hqi⟩
    · exact resetting_setWorker hw hworkers hhandler (by simp [WorkerPc.resetting])
  · rw [hworkers] at hq
    rcases List.mem_or_eq_of_mem_set hq with hq | rfl
    · exact h.settingUp_lt q hq i hqi
    · rw [hpc] at hqi
      cases hqi

theorem settingUp_onRecvDequeued (conn : Conn) (result : IoResult) :
    (onRecvDequeued conn result).settingUp = none := by
  rcases onRecvDequeued_cases conn result with ⟨-, he⟩ | ⟨-, he | ⟨data, he⟩⟩
  · rw [he]
    rfl
  · rw [he]
    rfl
  · rw [he]
    rfl

theorem settingUp_onSendDequeued (conn : Conn) (result : IoResult) :
    (onSendDequeued conn result).settingUp = none := by
  rcases onSendDequeued_cases conn result with he | he
  · rw [he]
    rfl
  · rw [he]
    rfl

theorem Counted.step {l : Label} (h : Counted cfg s) (hs : s.step cfg fb l = some t) :
    Counted cfg t := by
  cases l with
  | accepted w k =>
    obtain ⟨hw, -, rfl⟩ := step_accepted hs
    exact h.dequeue hw rfl rfl rfl rfl
  | arrive conn data =>
    obtain ⟨-, -, -, rfl⟩ := step_arrive hs
    exact ⟨h.counted, h.live_lt, h.settingUp_lt⟩
  | recvDone w conn result =>
    obtain ⟨hw, -, rfl⟩ := step_recvDone hs
    exact h.dequeue hw (settingUp_onRecvDequeued conn result) rfl rfl rfl
  | sendDone w conn result =>
    obtain ⟨hw, -, rfl⟩ := step_sendDone hs
    exact h.dequeue hw (settingUp_onSendDequeued conn result) rfl rfl rfl
  | worker w ok =>
    obtain ⟨pc, u, pc', hw, hstep, rfl⟩ := step_worker hs
    exact h.worker hw hstep
  | tick =>
    obtain ⟨-, -, rfl⟩ := step_tick hs
    exact ⟨h.counted, h.live_lt, h.settingUp_lt⟩
  | logic choice => exact h.logic (logicStep_inv hs)

theorem counted_of_reach (h : (chatServer cfg fb).Reach System.always s) : Counted cfg s := by
  refine h.invariant ⟨fun i hi => ?_, fun i hi => ?_, fun pc hm i hi => ?_⟩
    fun _ hi _ hs => hi.step hs
  · cases hi
  · cases hi
  · rw [List.eq_of_mem_replicate hm] at hi
    cases hi

end

end Highp.Chat

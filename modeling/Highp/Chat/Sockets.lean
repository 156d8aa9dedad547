import Highp.Lib.Ownership
import Highp.Chat.Counted

/-! Who holds which socket. `Close` gives a handle back before its slot forgets it, and only as
long as the system does not give it out again meanwhile no two slots name the same one: then
comparing sockets tells clients apart that have any. -/

namespace Highp.Chat
open Highp.Lib Highp.Network

/-- The socket that a worker has dequeued and not yet put into a slot. -/
def WorkerPc.acceptSocket : WorkerPc → Option SocketHandle
  | .findAvailableClient h => some h
  | .assignSocket h _ => some h
  | _ => none

/-- What a slot or a worker holds. -/
def State.holds (s : State) : Slot ⊕ Nat → Option SocketHandle
  | .inl client => (s.pool client).socket
  | .inr w => s.workers[w]?.bind WorkerPc.acceptSocket

/-- The handle is in use, or a slot still names it that is just being closed. -/
def State.named (s : State) (h : SocketHandle) : Prop :=
  h ∈ s.sockets ∨ ∃ client, s.resetting client ∧ (s.pool client).socket = some h

/-- Every handle that is in use or still named has one holder. -/
def SocketsOwned (s : State) : Prop := Exclusive s.holds s.named

/-- No slot names this handle that somebody is about to reset. -/
def State.forgotten (s : State) (h : SocketHandle) : Bool :=
  s.workers.all (fun pc => pc.resetting.all fun client => (s.pool client).socket != some h) &&
    s.handler.resetting.all fun client => (s.pool client).socket != some h

/-- The system gives out no handle that a slot still names. -/
def FreshSockets (s : State) : Label → Bool
  | .accepted _ acceptSocket => s.forgotten acceptSocket
  | _ => true

variable {cfg : Config} {fb : FlatBuffers} {s t : State} {w : Nat} {ok : Bool}
  {pc pc' : WorkerPc}

theorem holds_setWorker_other {v : Nat} (hv : v ≠ w)
    (hw : t.workers = s.workers.set w pc') : t.holds (.inr v) = s.holds (.inr v) := by
  rw [State.holds, State.holds, hw, List.getElem?_set_ne (Ne.symm hv)]

theorem holds_setWorker_self (hpc : s.workers[w]? = some pc)
    (hw : t.workers = s.workers.set w pc') : t.holds (.inr w) = pc'.acceptSocket := by
  have hlt := (List.getElem?_eq_some_iff.mp hpc).1
  rw [State.holds, hw, List.getElem?_set_self hlt]
  rfl

/-- A worker that moves on with as much as it held before. -/
theorem holds_setWorker (hpc : s.workers[w]? = some pc) (hw : t.workers = s.workers.set w pc')
    (hsame : pc'.acceptSocket = pc.acceptSocket) (v : Nat) :
    t.holds (.inr v) = s.holds (.inr v) := by
  by_cases hv : v = w
  · subst hv
    rw [holds_setWorker_self hpc hw, hsame, State.holds, hpc]
    rfl
  · exact holds_setWorker_other hv hw

theorem State.forgotten.ne {h : SocketHandle} {client : Slot} (hf : s.forgotten h = true)
    (hr : s.resetting client) : (s.pool client).socket ≠ some h := by
  simp only [State.forgotten, Bool.and_eq_true, List.all_eq_true, Option.all_eq_true,
    bne_iff_ne] at hf
  rcases hr with ⟨pc, hm, hc⟩ | hc
  · exact hf.1 pc hm client hc
  · exact hf.2 client hc

/-- Writing a client back with its socket kept. -/
theorem update_same_socket (pool : Pool) (client : Slot) (c : Client)
    (h : c.socket = (pool client).socket) (i : Slot) :
    (Function.update pool client c i).socket = (pool i).socket := by
  by_cases hi : i = client
  · subst hi
    simpa using h
  · simp [hi]

/-- What most steps do to the sockets of the slots: nothing, or one of the two parts of a `Close`.
Between them the handle is back with the system, and the slot is noted as being closed. -/
inductive SocketEffect (s t : State) : Prop
  | kept (hpool : ∀ i, (t.pool i).socket = (s.pool i).socket) (hsockets : t.sockets = s.sockets)
      (hreset : ∀ i, s.resetting i → t.resetting i)
  | closing (client : Slot) (hpool : ∀ i, (t.pool i).socket = (s.pool i).socket)
      (hsockets : t.sockets = (s.closeSocket client).sockets)
      (hreset : ∀ i, s.resetting i → t.resetting i)
      (hclient : (s.pool client).isConnected = true → t.resetting client)
  | reset (client : Slot) (hpool : ∀ i, (t.pool i).socket = ((s.resetSocket client).pool i).socket)
      (hsockets : t.sockets = s.sockets) (hreset : ∀ i, i ≠ client → s.resetting i → t.resetting i)

/-- A handle that is named stays so while the slots keep their sockets. -/
theorem named_mono {h : SocketHandle} (hpool : ∀ i, (t.pool i).socket = (s.pool i).socket)
    (hsockets : h ∈ s.sockets → h ∈ t.sockets) (hreset : ∀ i, s.resetting i → t.resetting i)
    (hn : s.named h) : t.named h := by
  refine hn.imp hsockets ?_
  rintro ⟨client, hr, hc⟩
  exact ⟨client, hreset client hr, (hpool client).trans hc⟩

theorem SocketsOwned.effect (h : SocketsOwned s) (heffect : SocketEffect s t)
    (hworkers : ∀ v, t.holds (.inr v) = s.holds (.inr v)) : SocketsOwned t := by
  have hsame : (∀ i, (t.pool i).socket = (s.pool i).socket) → t.holds = s.holds := by
    intro hpool
    funext x
    cases x with
    | inl i => exact hpool i
    | inr v => exact hworkers v
  cases heffect with
  | kept hpool hsockets hreset =>
    rw [SocketsOwned, hsame hpool]
    exact h.mono fun hk => named_mono hpool (by rw [hsockets]; exact id) hreset (h.live hk)
  | closing client hpool hsockets hreset hclient =>
    rw [SocketsOwned, hsame hpool]
    refine h.mono fun {x k} hk => ?_
    by_cases hclosed : (s.pool client).socket = some k
    · exact .inr ⟨client, hclient (by simp [Client.isConnected, hclosed]),
        (hpool client).trans hclosed⟩
    · refine named_mono hpool (fun hm => ?_) hreset (h.live hk)
      rw [hsockets]
      exact List.mem_filter.mpr ⟨hm, by simpa using hclosed⟩
  | reset client hpool hsockets hreset =>
    refine h.release (i := .inl client) ?_ ?_ ?_
    · rw [State.holds, hpool]
      simp [State.resetSocket]
    · intro x hx
      cases x with
      | inl i =>
        have hi : i ≠ client := fun he => hx (he ▸ rfl)
        rw [State.holds, State.holds, hpool]
        simp [State.resetSocket, hi]
      | inr v => exact hworkers v
    · rintro k hk hne
      refine hk.imp (by rw [hsockets]; exact id) ?_
      rintro ⟨i, hr, hi⟩
      have hother : i ≠ client := fun he => hne (he ▸ hi)
      refine ⟨i, hreset i hother hr, ?_⟩
      rw [hpool]
      simpa [State.resetSocket, hother] using hi

theorem resetting_logic (hworkers : t.workers = s.workers) (hnone : s.handler.resetting = none)
    (i : Slot) (h : s.resetting i) : t.resetting i := by
  rcases h with h | h
  · exact .inl (by rw [hworkers]; exact h)
  · rw [hnone] at h
    cases h

theorem LogicStep.socketEffect {choice : Choice} (h : LogicStep s choice t) : SocketEffect s t := by
  have hkeep : ∀ {pc}, s.handler = pc → pc.resetting = none → ∀ i, s.resetting i → t.resetting i :=
    fun he hnone => resetting_logic h.network.1 (he ▸ hnone)
  cases h with
  | @reject cmd batch hh _ _ =>
    exact .closing cmd.client (update_same_socket s.pool _ _ rfl) rfl (hkeep hh rfl)
      fun _ => .inr rfl
  | @rejectClosed cmd batch hh _ hc =>
    refine .closing cmd.client (update_same_socket s.pool _ _ rfl) rfl (fun _ hr => hr) fun ho => ?_
    rw [hc] at ho
    cases ho
  | @reset cmd hh =>
    refine .reset cmd.client (fun _ => rfl) rfl fun i hi hr => hr.imp id fun hr => ?_
    rw [hh] at hr
    exact absurd (Option.some.inj hr).symm hi
  | joinEnter hh hsent => exact .kept hsent.socket rfl (hkeep hh rfl)
  | joinReply hh hsent => exact .kept hsent.socket rfl (hkeep hh rfl)
  | leaveRoom hh _ _ hsent => exact .kept hsent.socket rfl (hkeep hh rfl)
  | leaveReply hh hsent => exact .kept hsent.socket rfl (hkeep hh rfl)
  | chatSend hh hsent => exact .kept hsent.socket rfl (hkeep hh rfl)
  | skip hh _ | startJoin _ _ hh _ | startLeave _ hh _ | startChat _ _ hh _ | joinRoom hh
  | joinNoSession hh | joinSession hh _ | joinExists hh _ | joinUser hh _ _ | leaveNobody hh _
  | leaveFind hh _ | leaveFault hh _ | leaveMissing hh _ _ | leaveRemove hh | chatNobody hh _
  | chatFind hh _ | chatNoRoom hh => exact .kept (fun _ => rfl) rfl (hkeep hh rfl)

theorem acceptSocket_pc (conn : Conn) (next : AfterClose) : (next.pc conn).acceptSocket = none := by
  cases next <;> rfl

theorem acceptSocket_behindClose (s : State) (conn : Conn) (next : AfterClose) :
    (s.behindClose conn next).acceptSocket = none := by
  rcases behindClose_cases s conn next with he | he
  · rw [he]
    rfl
  · rw [he, acceptSocket_pc]

theorem resetting_behindClose {conn : Conn} (next : AfterClose)
    (hc : (s.pool conn.client).isConnected = true) :
    (s.behindClose conn next).resetting = some conn.client := by
  rw [State.behindClose, if_pos hc]
  rfl

/-- A worker past `SetupClient`'s first two steps holds nothing itself. -/
theorem WorkerStep.socketEffect (h : WorkerStep cfg fb s ok pc t pc')
    (hw : s.workers[w]? = some pc) (hpc : pc.acceptSocket = none) :
    SocketEffect s { t with workers := s.workers.set w pc' } ∧ pc'.acceptSocket = none := by
  have hhandler : t.handler = s.handler := h.registry.2.1
  have hset : ∀ i, (pc.resetting = some i → pc'.resetting = some i) → s.resetting i →
      State.resetting { t with workers := s.workers.set w pc' } i :=
    fun i => resetting_setWorker hw rfl hhandler
  have hkeep : pc.resetting = none → ∀ i, s.resetting i →
      State.resetting { t with workers := s.workers.set w pc' } i :=
    fun hnone i => hset i (by simp [hnone])
  have hself : ∀ {i}, pc'.resetting = some i →
      State.resetting { t with workers := s.workers.set w pc' } i :=
    fun hi => .inl ⟨pc', mem_set_self hw, hi⟩
  cases h with
  | found | full | assign => simp [WorkerPc.acceptSocket] at hpc
  | @associateFailed conn _ | @firstRecvFailed conn _ | @overflow conn _ _ | @tooLarge conn _
  | @invalid conn _ _ =>
    exact ⟨.closing conn.client (update_same_socket s.pool _ _ rfl) rfl (hkeep rfl)
      fun hc => hself (resetting_behindClose _ hc), acceptSocket_behindClose s conn _⟩
  | @close conn _ | @nextRecvFailed conn _ =>
    exact ⟨.closing conn.client (update_same_socket s.pool _ _ rfl) rfl (hkeep rfl)
      fun _ => hself rfl, rfl⟩
  | @reset conn next =>
    refine ⟨.reset conn.client (fun _ => rfl) rfl fun i hi => hset i fun he => ?_,
      acceptSocket_pc conn next⟩
    exact absurd (Option.some.inj he).symm hi
  | mark | append | command | consume =>
    exact ⟨.kept (update_same_socket s.pool _ _ rfl) rfl (hkeep rfl), rfl⟩
  | _ => exact ⟨.kept (fun _ => rfl) rfl (hkeep rfl), rfl⟩

theorem SocketsOwned.worker (h : SocketsOwned s) (hpc : s.workers[w]? = some pc)
    (hs : WorkerStep cfg fb s ok pc t pc') :
    SocketsOwned { t with workers := s.workers.set w pc' } := by
  have hself := holds_setWorker_self (t := { t with workers := s.workers.set w pc' }) hpc rfl
  have hbystander : ∀ v, v ≠ w →
      State.holds { t with workers := s.workers.set w pc' } (.inr v) = s.holds (.inr v) :=
    fun v hv => holds_setWorker_other hv rfl
  have hhandler : t.handler = s.handler := hs.registry.2.1
  have hkeep : pc.resetting = none → ∀ i, s.resetting i →
      State.resetting { t with workers := s.workers.set w pc' } i :=
    fun hnone i => resetting_setWorker hpc rfl hhandler (by simp [hnone])
  cases hacc : pc.acceptSocket with
  | none =>
    obtain ⟨heffect, hacc'⟩ := hs.socketEffect hpc hacc
    exact h.effect heffect (holds_setWorker hpc rfl (hacc'.trans hacc.symm))
  | some k =>
    have hheld : s.holds (.inr w) = some k := by
      rw [State.holds, hpc]
      exact hacc
    cases hs with
    | found => exact h.effect (.kept (fun _ => rfl) rfl (hkeep rfl)) (holds_setWorker hpc rfl rfl)
    | @full k' =>
      -- no slot is free: `SetupClient` closes the socket it was given
      have hk : k' = k := Option.some.inj hacc
      refine h.release (i := .inr w) hself ?_ ?_
      · intro x hx
        cases x with
        | inl i => rfl
        | inr v => exact hbystander v fun he => hx (he ▸ rfl)
      · intro b hb hne
        refine named_mono (s := s) (fun _ => rfl) (fun hb => ?_) (hkeep rfl) hb
        refine List.mem_filter.mpr ⟨hb, bne_iff_ne.mpr fun he => hne ?_⟩
        rw [hheld, he, hk]
    | @assign k' client =>
      have hk : k' = k := Option.some.inj hacc
      refine h.move (i := .inr w) (j := .inl client) hself ?_ ?_ fun {x} b hx hb => ?_
      · rw [hheld]
        simp [State.holds, hk]
      · intro x hx hx'
        cases x with
        | inl i =>
          have hi : i ≠ client := fun he => hx' (he ▸ rfl)
          simp [State.holds, hi]
        | inr v => exact hbystander v fun he => hx (he ▸ rfl)
      · refine (h.live hb).imp id ?_
        rintro ⟨i, hr, hi⟩
        -- the slot that still names it is its holder, so it is not the one that is taken
        have hown : .inl i = x := h.unique hi hb
        have hne : i ≠ client := fun he => hx (he ▸ hown.symm)
        exact ⟨i, hkeep rfl i hr, by simpa [hne] using hi⟩
    | _ => simp [WorkerPc.acceptSocket] at hacc

theorem acceptSocket_onRecvDequeued (conn : Conn) (result : IoResult) :
    (onRecvDequeued conn result).acceptSocket = none := by
  rcases onRecvDequeued_cases conn result with ⟨-, he⟩ | ⟨-, he | ⟨data, he⟩⟩
  · rw [he]
    rfl
  · rw [he]
    rfl
  · rw [he]
    rfl

theorem acceptSocket_onSendDequeued (conn : Conn) (result : IoResult) :
    (onSendDequeued conn result).acceptSocket = none := by
  rcases onSendDequeued_cases conn result with he | he
  · rw [he]
    rfl
  · rw [he]
    rfl

theorem SocketsOwned.step {l : Label} (h : SocketsOwned s) (hok : FreshSockets s l = true)
    (hs : s.step cfg fb l = some t) : SocketsOwned t := by
  have hidle : ∀ {w : Nat} {pc' : WorkerPc} {u : State}, s.workers[w]? = some .idle →
      u.workers = s.workers.set w pc' → u.handler = s.handler →
        ∀ i, s.resetting i → u.resetting i :=
    fun hw hworkers hhandler i =>
      resetting_setWorker hw hworkers hhandler (by simp [WorkerPc.resetting])
  cases l with
  | accepted w k =>
    obtain ⟨hw, hfresh, rfl⟩ := step_accepted hs
    have hnamed : ¬ s.named k := by
      rintro (hm | ⟨client, hr, hc⟩)
      · exact hfresh hm
      · exact State.forgotten.ne hok hr hc
    refine h.take (i := .inr w) hnamed ((holds_setWorker_self hw rfl).trans rfl) ?_
      (.inl List.mem_cons_self)
      fun b hb => named_mono (s := s) (fun _ => rfl) (List.mem_cons_of_mem k)
        (hidle hw rfl rfl) hb
    intro x hx
    cases x with
    | inl i => rfl
    | inr v => exact holds_setWorker_other (fun he => hx (he ▸ rfl)) rfl
  | arrive conn data =>
    obtain ⟨-, -, -, rfl⟩ := step_arrive hs
    exact h
  | recvDone w conn result =>
    obtain ⟨hw, -, rfl⟩ := step_recvDone hs
    exact h.effect (.kept (fun _ => rfl) rfl (hidle hw rfl rfl))
      (holds_setWorker hw rfl (acceptSocket_onRecvDequeued conn result))
  | sendDone w conn result =>
    obtain ⟨hw, -, rfl⟩ := step_sendDone hs
    exact h.effect (.kept (fun _ => rfl) rfl (hidle hw rfl rfl))
      (holds_setWorker hw rfl (acceptSocket_onSendDequeued conn result))
  | worker w ok =>
    obtain ⟨pc, u, pc', hpc, hstep, rfl⟩ := step_worker hs
    exact h.worker hpc hstep
  | tick =>
    obtain ⟨-, -, rfl⟩ := step_tick hs
    exact h
  | logic choice =>
    have hl := logicStep_inv hs
    refine h.effect hl.socketEffect fun v => ?_
    rw [State.holds, State.holds, hl.network.1]

/-- **No socket has two holders** in a run in which handles are fresh, whatever the workers, the
logic thread and the kernel do. -/
theorem socketsOwned_of_reach {ok : State → Label → Prop}
    (hfresh : ∀ s l, ok s l → FreshSockets s l = true) (h : (chatServer cfg fb).Reach ok s) :
    SocketsOwned s := by
  refine h.invariant (I := SocketsOwned) (Exclusive.of_empty fun x => ?_)
    fun _ hi hok hs => hi.step (hfresh _ _ hok) hs
  cases x with
  | inl i => rfl
  | inr v =>
    simp only [State.holds, chatServer, State.new, List.getElem?_replicate]
    split
    · rfl
    · rfl

/-- A session is the same as a client because it is on its slot, or because neither has a
socket. -/
theorem SocketsOwned.isSameSession_cases {session : Session} {client : Slot} (h : SocketsOwned s)
    (hsame : session.isSameSession s.pool client = true) :
    session.tcpClient = client ∨
      (s.pool client).isConnected = false ∧ (s.pool session.tcpClient).isConnected = false := by
  simp only [Session.isSameSession, beq_iff_eq] at hsame
  cases hc : (s.pool client).socket with
  | none =>
    rw [hc] at hsame
    exact Or.inr ⟨by simp [Client.isConnected, hc], by simp [Client.isConnected, hsame]⟩
  | some k =>
    rw [hc] at hsame
    have he := h.unique (i := .inl session.tcpClient) (j := .inl client) hsame hc
    exact Or.inl (Sum.inl.inj he)

end Highp.Chat

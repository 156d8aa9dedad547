import Highp.Chat.Steps

/-! `Receive` in the server is taken apart into steps between which other threads may run. A
worker that nobody interrupts has the effect of the function in one piece. -/

namespace Highp.Chat
open Highp.Lib Highp.Network

/-- What `Receive` works on. -/
def State.inbox (s : State) (client : Slot) : Inbox := ⟨s.pool client, s.queue⟩

/-- Worker `w` takes `n` steps by itself. -/
def runsAlone (cfg : Config) (fb : FlatBuffers) (w n : Nat) (s : State) : Option State :=
  (chatServer cfg fb).exec System.always s (List.replicate n (.worker w true))

variable {cfg : Config} {fb : FlatBuffers} {s t : State} {w : Nat} {conn : Conn}

theorem runsAlone_succ (n : Nat) :
    runsAlone cfg fb w (n + 1) s =
      (s.step cfg fb (.worker w true)).bind (runsAlone cfg fb w n) := rfl

theorem step_worker_eq {pc : WorkerPc} {ok : Bool} (hw : s.workers[w]? = some pc)
    (hidle : pc ≠ .idle) (hleft : pc ≠ .left) :
    s.step cfg fb (.worker w ok) =
      some ((s.workerStep cfg fb ok pc).1.setWorker w (s.workerStep cfg fb ok pc).2) := by
  simp only [State.step, hw]

theorem runsAlone_one {pc : WorkerPc} (hw : s.workers[w]? = some pc) (hidle : pc ≠ .idle)
    (hleft : pc ≠ .left) : runsAlone cfg fb w 1 s =
      some ((s.workerStep cfg fb true pc).1.setWorker w (s.workerStep cfg fb true pc).2) := by
  rw [runsAlone_succ, step_worker_eq hw hidle hleft]
  rfl

theorem runsAlone_add {u : State} {m n : Nat} (hm : runsAlone cfg fb w m s = some t)
    (hn : runsAlone cfg fb w n t = some u) : runsAlone cfg fb w (m + n) s = some u := by
  induction m generalizing s with
  | zero =>
    obtain rfl : s = t := Option.some.inj hm
    rwa [Nat.zero_add]
  | succ m ih =>
    rw [runsAlone_succ] at hm
    obtain ⟨v, hv, hm⟩ := Option.bind_eq_some_iff.mp hm
    rw [Nat.succ_add, runsAlone_succ, hv]
    exact ih hm

/-- A `Close` in two steps, or in one where there is no socket, is `Close` in one piece. -/
theorem behindClose_runs (cfg : Config) (fb : FlatBuffers) {next : AfterClose}
    (hw : t.workers[w]? = some (s.behindClose conn next))
    (hclient : t.pool conn.client = (s.pool conn.client).emitDisconnectedEvent) :
    ∃ n u, runsAlone cfg fb w n t = some u ∧ u.workers[w]? = some (next.pc conn) ∧
      u.inbox conn.client = ⟨(s.pool conn.client).close, t.queue⟩ := by
  have hlt := (List.getElem?_eq_some_iff.mp hw).1
  unfold State.behindClose at hw
  split at hw
  · refine ⟨1, _, runsAlone_one hw (by simp) (by simp), List.getElem?_set_self hlt, ?_⟩
    simp [State.inbox, State.workerStep, State.setWorker, State.resetSocket, hclient, Client.close]
  · rename_i hclosed
    refine ⟨0, t, rfl, hw, ?_⟩
    have hnone : (s.pool conn.client).socket = none := by
      simpa [Client.isConnected] using hclosed
    rw [State.inbox, hclient]
    simp [Client.close, Client.resetSocket, Client.emitDisconnectedEvent, hnone]

/-- One round of the loop, with the `Close` and the `Consume` that end it. -/
theorem assemble_round (hw : s.workers[w]? = some (.assemble conn)) :
    ∃ n t, runsAlone cfg fb w n s = some t ∧
      t.inbox conn.client = ((s.inbox conn.client).round fb conn).2 ∧
      t.workers[w]? = some (if ((s.inbox conn.client).round fb conn).1 then .assemble conn
        else .postNextRecv conn) := by
  have hlt := (List.getElem?_eq_some_iff.mp hw).1
  have hone := @runsAlone_one cfg fb s w _ hw (by simp) (by simp)
  unfold State.workerStep at hone
  unfold Inbox.round
  cases hi : inspect fb (s.pool conn.client).frameBuf.data with
  | incomplete =>
    simp only [State.inbox, hi] at hone ⊢
    exact ⟨1, _, hone, rfl, List.getElem?_set_self hlt⟩
  | tooLarge =>
    simp only [State.inbox, hi] at hone ⊢
    have hclosing : ((s.closeSocket conn.client).setWorker w
        (s.behindClose conn .postNextRecv)).workers[w]? = some (s.behindClose conn .postNextRecv) :=
      List.getElem?_set_self hlt
    obtain ⟨n, u, hu, hpc, hinbox⟩ := behindClose_runs cfg fb hclosing
      (by simp [State.setWorker, State.closeSocket])
    exact ⟨1 + n, u, runsAlone_add hone hu, hinbox, hpc⟩
  | invalid frameSize =>
    simp only [State.inbox, hi] at hone ⊢
    have hclosing : ((s.closeSocket conn.client).setWorker w
        (s.behindClose conn (.consume frameSize))).workers[w]? =
          some (s.behindClose conn (.consume frameSize)) := List.getElem?_set_self hlt
    obtain ⟨n, u, hu, hpc, hinbox⟩ := behindClose_runs cfg fb hclosing
      (by simp [State.setWorker, State.closeSocket])
    have hlt' := (List.getElem?_eq_some_iff.mp hpc).1
    have hconsume := @runsAlone_one cfg fb u w _ hpc (by simp [AfterClose.pc])
      (by simp [AfterClose.pc])
    obtain ⟨hpool, hqueue⟩ := Inbox.mk.injEq .. ▸ hinbox
    refine ⟨1 + n + 1, _, runsAlone_add (runsAlone_add hone hu) hconsume, ?_,
      List.getElem?_set_self hlt'⟩
    simp [State.workerStep, AfterClose.pc, State.setWorker, State.setClient, hpool, hqueue,
      State.closeSocket]
  | command payloadType payload frameSize =>
    simp only [State.inbox, hi] at hone ⊢
    exact ⟨1, _, hone, by simp [State.setWorker, State.setClient], List.getElem?_set_self hlt⟩

/-- The assembly loop, by induction on its rounds. -/
theorem assemble_rounds (cfg : Config) (fb : FlatBuffers) (fuel : Nat) {y : Inbox}
    (hw : s.workers[w]? = some (.assemble conn))
    (h : (s.inbox conn.client).rounds fb conn fuel = some y) :
    ∃ n t, runsAlone cfg fb w n s = some t ∧ t.workers[w]? = some (.postNextRecv conn) ∧
      t.inbox conn.client = y := by
  induction fuel generalizing s with
  | zero => simp [Inbox.rounds] at h
  | succ fuel ih =>
    obtain ⟨m, t, ht, hinbox, hpc⟩ := @assemble_round cfg fb s w conn hw
    rw [Inbox.rounds] at h
    cases hr : (s.inbox conn.client).round fb conn with
    | mk go z =>
      rw [hr] at h hinbox hpc
      cases go with
      | false => exact ⟨m, t, ht, hpc, hinbox.trans (Option.some.inj h)⟩
      | true =>
        obtain ⟨n, u, hu, hpc', hy⟩ := ih hpc (by rw [hinbox]; exact h)
        exact ⟨m + n, u, runsAlone_add ht hu, hpc', hy⟩

/-- **Uninterrupted, the steps are `Receive`** of the bytes in the buffer. -/
theorem append_receives (cfg : Config) (fb : FlatBuffers) (bytesTransferred : Nat)
    (hw : s.workers[w]? = some (.append conn bytesTransferred)) :
    ∃ n t, runsAlone cfg fb w n s = some t ∧ t.workers[w]? = some (.postNextRecv conn) ∧
      t.inbox conn.client =
        (s.inbox conn.client).receive fb conn (s.received conn.client bytesTransferred) := by
  have hlt := (List.getElem?_eq_some_iff.mp hw).1
  have hreceive := receiveWithin_eq fb conn (s.inbox conn.client)
    (s.received conn.client bytesTransferred) (Nat.lt_succ_self maxFrameSize)
  have hone := @runsAlone_one cfg fb s w _ hw (by simp) (by simp)
  unfold State.workerStep at hone
  rw [Inbox.receiveWithin] at hreceive
  cases ha : (s.pool conn.client).frameBuf.append (s.received conn.client bytesTransferred) with
  | mk fit frameBuf =>
    rw [show (s.inbox conn.client).client.frameBuf.append
      (s.received conn.client bytesTransferred) = (fit, frameBuf) from ha] at hreceive
    cases fit with
    | false =>
      simp only [ha] at hone
      have hclosing : (State.setWorker { s.closeSocket conn.client with
          log := s.log ++ [.onRecv conn] } w (s.behindClose conn .postNextRecv)).workers[w]? =
            some (s.behindClose conn .postNextRecv) := List.getElem?_set_self hlt
      obtain ⟨n, u, hu, hpc, hinbox⟩ := behindClose_runs cfg fb hclosing
        (by simp [State.setWorker, State.closeSocket])
      exact ⟨1 + n, u, runsAlone_add hone hu, hpc, hinbox.trans (Option.some.inj hreceive)⟩
    | true =>
      simp only [ha] at hone
      have happended : (State.setWorker { s.setClient conn.client
          ((s.pool conn.client).setFrameBuf frameBuf) with log := s.log ++ [.onRecv conn] } w
            (.assemble conn)).workers[w]? = some (.assemble conn) := List.getElem?_set_self hlt
      obtain ⟨n, u, hu, hpc, hy⟩ := assemble_rounds cfg fb (maxFrameSize + 1) happended
        (by simpa [State.inbox, State.setWorker, State.setClient] using hreceive)
      exact ⟨1 + n, u, runsAlone_add hone hu, hpc, hy⟩

end Highp.Chat

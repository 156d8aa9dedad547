import Highp.Chat.AcceptFirst
import Highp.Chat.Sockets

/-! Who has a session. `GameLoop::Connect` makes one for every client that `SetupClient` brings to
its end, and only `RemoveByClient` takes it away, behind which the same worker closes the client. -/

namespace Highp.Chat
open Highp.Lib Highp.Network

/-- The slot that a worker has not yet announced, or that it is just closing. -/
def WorkerPc.unenrolled : WorkerPc → Option Slot
  | .associateSocket conn => some conn.client
  | .postFirstRecv conn => some conn.client
  | .markConnectionEstablished conn => some conn.client
  | .onAccept conn => some conn.client
  | .closeClient conn => some conn.client
  | .resetSocket conn _ => some conn.client
  | _ => none

/-- A client has a session. -/
def State.hasSession (s : State) (client : Slot) : Prop :=
  ∃ session ∈ s.sessions.sessions, session.tcpClient = client

/-- A connected client has a session, unless a worker is about to make it one or to close it. -/
def Enrolled (s : State) : Prop :=
  ∀ i, (s.pool i).isConnected = true →
    s.hasSession i ∨ ∃ pc ∈ s.workers, pc.unenrolled = some i

section
variable {cfg : Config} {fb : FlatBuffers} {s t : State} {ok : Bool} {pc pc' : WorkerPc} {w : Nat}
  {removals : List Removal} {i : Slot}

/-- The log only grows, and with it the number of sessions that were made. -/
theorem announcements_le {l : Label} (hs : s.step cfg fb l = some t) :
    announcements s.log ≤ announcements t.log := by
  have hgrown : ∀ {evs}, t.log = s.log ++ evs → announcements s.log ≤ announcements t.log := by
    intro evs hlog
    rw [hlog, announcements, announcements, List.countP_append]
    exact Nat.le_add_right _ _
  cases l with
  | accepted w k =>
    obtain ⟨-, -, rfl⟩ := step_accepted hs
    exact le_rfl
  | arrive conn data =>
    obtain ⟨-, -, -, rfl⟩ := step_arrive hs
    exact le_rfl
  | recvDone w conn result =>
    obtain ⟨-, -, rfl⟩ := step_recvDone hs
    exact le_rfl
  | sendDone w conn result =>
    obtain ⟨-, -, rfl⟩ := step_sendDone hs
    exact le_rfl
  | worker w ok =>
    obtain ⟨pc, u, pc', -, hw, rfl⟩ := step_worker hs
    rcases hw.log with hlog | ⟨_, e, -, -, hlog⟩ | ⟨c, -, hlog⟩
    · exact hgrown (hlog.trans (List.append_nil _).symm)
    · exact hgrown hlog
    · exact hgrown hlog
  | tick =>
    obtain ⟨-, -, rfl⟩ := step_tick hs
    exact le_rfl
  | logic choice =>
    obtain ⟨evs, hlog, -⟩ := (logicStep_inv hs).log
    exact hgrown hlog

/-- A session stays when another one is made, as long as the counter has not come round. -/
theorem SessionsKept.createSession (h : SessionsKept s removals) (conn : Conn)
    (hle : announcements s.log < 2 ^ 64) (hi : s.hasSession i) :
    ∃ session ∈ (s.sessions.createSession conn).sessions, session.tcpClient = i := by
  obtain ⟨session, hm, hslot⟩ := hi
  refine ⟨session, List.mem_append_left _ (List.mem_filter.mpr ⟨hm, ?_⟩), hslot⟩
  obtain ⟨j, hj, hid⟩ := h.ids session hm
  rw [bne_iff_ne, hid, h.counter]
  omega

/-- The worker that has a connected client on its hands goes on with it or makes it a session. -/
theorem WorkerStep.unenrolled (h : WorkerStep cfg fb s ok pc t pc') (hi : pc.unenrolled = some i)
    (hc : (t.pool i).isConnected = true) : t.hasSession i ∨ pc'.unenrolled = some i := by
  have hbehind : ∀ (conn : Conn) (next : AfterClose), conn.client = i →
      ((s.closeSocket conn.client).pool i).isConnected = true →
      (s.behindClose conn next).unenrolled = some i := by
    rintro conn next rfl hopen
    rw [isConnected_closeSocket] at hopen
    rw [State.behindClose, if_pos hopen]
    rfl
  cases h with
  | associate => exact .inr hi
  | associateFailed | firstRecvFailed => exact .inr (hbehind _ _ (Option.some.inj hi) hc)
  | firstRecv => exact .inr hi
  | mark => exact .inr hi
  | onAccept =>
    cases hi
    exact .inl ⟨_, List.mem_append_right _ (List.mem_singleton_self _), rfl⟩
  | close => exact .inr hi
  | alreadyClosed hclosed =>
    cases hi
    rw [hclosed] at hc
    cases hc
  | reset =>
    cases hi
    rw [isConnected_resetSocket] at hc
    cases hc
  | _ => simp [WorkerPc.unenrolled] at hi

/-- A connected client keeps its session, unless the worker takes it to close the client. -/
theorem SocketsOwned.worker_session (howned : SocketsOwned s) (hkept : SessionsKept s removals)
    (h : WorkerStep cfg fb s ok pc t pc') (hle : announcements t.log ≤ 2 ^ 64)
    (hc : (s.pool i).isConnected = true) (hi : s.hasSession i) :
    t.hasSession i ∨ pc'.unenrolled = some i := by
  cases h with
  | @onAccept conn =>
    have hcount : announcements (s.log ++ [.onAccept conn]) = announcements s.log + 1 := by
      simp [announcements, Event.isAccept]
    exact .inl (hkept.createSession conn (by simp only [hcount] at hle; omega) hi)
  | @remove conn =>
    obtain ⟨session, hm, rfl⟩ := hi
    cases hsame : session.isSameSession s.pool conn.client with
    | false => exact .inl ⟨session, List.mem_filter.mpr ⟨hm, by simp [hsame]⟩, rfl⟩
    | true =>
      rcases howned.isSameSession_cases hsame with he | ⟨-, hclosed⟩
      · exact .inr (congrArg some he.symm)
      · rw [hclosed] at hc
        cases hc
  | _ => exact .inl hi

theorem Enrolled.worker (h : Enrolled s) (howned : SocketsOwned s) (hkept : SessionsKept s removals)
    (hw : s.workers[w]? = some pc) (hs : WorkerStep cfg fb s ok pc t pc')
    (hle : announcements t.log ≤ 2 ^ 64) : Enrolled { t with workers := s.workers.set w pc' } := by
  have hworker : ∀ {i}, t.hasSession i ∨ pc'.unenrolled = some i →
      State.hasSession { t with workers := s.workers.set w pc' } i ∨
        ∃ q ∈ s.workers.set w pc', q.unenrolled = some i :=
    fun hi => hi.imp id fun he => ⟨pc', mem_set_self hw, he⟩
  have hold : ∀ {i}, (s.pool i).isConnected = true → (t.pool i).isConnected = true →
      t.hasSession i ∨ ∃ q ∈ s.workers.set w pc', q.unenrolled = some i := by
    intro i hbefore hc
    rcases h i hbefore with hsession | ⟨q, hq, hqi⟩
    · exact hworker (howned.worker_session hkept hs hle hbefore hsession)
    · by_cases hqp : q = pc
      · subst hqp
        exact hworker (hs.unenrolled hqi hc)
      · exact .inr ⟨q, mem_set_of_ne hw hq hqp, hqi⟩
  intro i hc
  by_cases hassign : ∃ k, pc = .assignSocket k i
  · -- the slot is taken by this worker
    obtain ⟨k, rfl⟩ := hassign
    cases hs
    exact hworker (.inr rfl)
  · refine hold ?_ hc
    by_cases hother : ∃ k client, pc = .assignSocket k client
    · obtain ⟨k, client, rfl⟩ := hother
      have hne : i ≠ client := fun he => hassign ⟨k, he ▸ rfl⟩
      cases hs
      simpa [Function.update_of_ne hne] using hc
    · exact (hs.noNewSocket fun k client he => hother ⟨k, client, he⟩).isConnected hc

theorem Enrolled.dequeue (h : Enrolled s) (hw : s.workers[w]? = some .idle)
    (hpool : t.pool = s.pool) (hsessions : t.sessions = s.sessions)
    (hworkers : t.workers = s.workers.set w pc') : Enrolled t := by
  intro i hi
  rw [hpool] at hi
  rw [State.hasSession, hsessions, hworkers]
  refine (h i hi).imp id ?_
  rintro ⟨q, hq, hqi⟩
  exact ⟨q, mem_set_of_ne hw hq (by rintro rfl; simp [WorkerPc.unenrolled] at hqi), hqi⟩

theorem Enrolled.step {l : Label} (h : Enrolled s) (howned : SocketsOwned s)
    (hkept : SessionsKept s removals) (hs : s.step cfg fb l = some t)
    (hle : announcements t.log ≤ 2 ^ 64) : Enrolled t := by
  cases l with
  | accepted w k =>
    obtain ⟨hw, -, rfl⟩ := step_accepted hs
    exact h.dequeue hw rfl rfl rfl
  | arrive conn data =>
    obtain ⟨-, -, -, rfl⟩ := step_arrive hs
    exact h
  | recvDone w conn result =>
    obtain ⟨hw, -, rfl⟩ := step_recvDone hs
    exact h.dequeue hw rfl rfl rfl
  | sendDone w conn result =>
    obtain ⟨hw, -, rfl⟩ := step_sendDone hs
    exact h.dequeue hw rfl rfl rfl
  | worker w ok =>
    obtain ⟨pc, u, pc', hw, hstep, rfl⟩ := step_worker hs
    exact h.worker howned hkept hw hstep hle
  | tick =>
    obtain ⟨-, -, rfl⟩ := step_tick hs
    exact h
  | logic choice =>
    have hl := logicStep_inv hs
    intro i hi
    rw [State.hasSession, hl.sessions, hl.network.1]
    exact h i (hl.noNewSocket.isConnected hi)

/-- **Everybody who is connected has a session** when no worker is at it, in a run in which handles
are fresh and the session counter has not come round. -/
theorem enrolled_of_reach (h : (chatServer cfg fb).Reach (fun s l => FreshSockets s l = true) s)
    (hle : announcements s.log ≤ 2 ^ 64) : Enrolled s := by
  refine h.invariant (I := fun s => announcements s.log ≤ 2 ^ 64 → Enrolled s) ?_ ?_ hle
  · intro _ i hi
    cases hi
  · intro s t l hr hi _ hs hle
    obtain ⟨removals, hrec⟩ := hr.record [] Removal.note
    have howned := socketsOwned_of_reach (fun _ _ hok => hok) hr
    have henrolled := hi ((announcements_le hs).trans hle)
    exact henrolled.step howned (sessionsKept_of_reach hrec) hs hle

end

end Highp.Chat

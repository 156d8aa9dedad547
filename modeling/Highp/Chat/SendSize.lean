import Highp.Chat.Steps
import Highp.Echo.Server

/-! The bound that `PostSend` leaves to its callers. The chat server's `Session::Send` tests the
size of the frame; the echo server sends back whatever a receive has brought. -/

namespace Highp.Chat
open Highp.Lib Highp.Network

/-- Every `PostSend` so far was given no more than the buffer holds, and so is the length that was
copied last into each slot. -/
def State.SendsFit (fb : FlatBuffers) (s : State) : Prop :=
  (∀ conn packet accepted, .posted conn packet accepted ∈ s.log →
      (frameBytes (fb.build packet)).length ≤ sendBufferSize) ∧
    ∀ i, (s.pool i).sendOverlapped.len ≤ sendBufferSize

section
variable {cfg : Config} {fb : FlatBuffers} {s t : State}

/-- Events other than sends, and clients whose send buffers are left alone. -/
theorem State.SendsFit.keep (h : s.SendsFit fb) {evs : List Event} (hlog : t.log = s.log ++ evs)
    (hevs : ∀ conn packet accepted, .posted conn packet accepted ∉ evs)
    (hpool : ∀ i, (t.pool i).sendOverlapped = (s.pool i).sendOverlapped) : t.SendsFit fb := by
  refine ⟨fun conn packet accepted hm => ?_, fun i => ?_⟩
  · rw [hlog] at hm
    rcases List.mem_append.mp hm with hm | hm
    · exact h.1 conn packet accepted hm
    · exact absurd hm (hevs conn packet accepted)
  · rw [hpool i]
    exact h.2 i

theorem State.SendsFit.send (h : s.SendsFit fb) (session : Session) (packet : ServerPacket)
    (accepted : Bool) : (s.send fb session packet accepted).SendsFit fb := by
  unfold State.send
  split
  · exact h
  · split
    · exact h
    · split
      · exact h
      · rename_i hfit
        have hlen : (frameBytes (fb.build packet)).length ≤ sendBufferSize := by
          rw [length_frameBytes]
          omega
        refine ⟨fun conn p acc hm => ?_, fun i => ?_⟩
        · rcases List.mem_append.mp hm with hm | hm
          · exact h.1 conn p acc hm
          · cases List.mem_singleton.mp hm
            exact hlen
        · by_cases hi : i = session.tcpClient
          · subst hi
            have hmod : (frameBytes (fb.build packet)).length % 2 ^ 32 ≤
                (frameBytes (fb.build packet)).length := Nat.mod_le _ _
            simp only [State.postSend, Function.update_self, Client.fillSend]
            omega
          · simpa [State.postSend, hi] using h.2 i

theorem State.SendsFit.sendAll (packet : ServerPacket) (refused : List Nat) (users : List User)
    (h : s.SendsFit fb) (k : Nat) : (s.sendAll fb packet refused k users).SendsFit fb := by
  induction users generalizing s k with
  | nil => exact h
  | cons user users ih => exact ih (h.send user.session packet _) (k + 1)

/-- Writing a client back with its send buffer as it was. -/
theorem update_sendOverlapped (pool : Pool) (client : Slot) (c : Client)
    (h : c.sendOverlapped = (pool client).sendOverlapped) (i : Slot) :
    (Function.update pool client c i).sendOverlapped = (pool i).sendOverlapped := by
  by_cases hi : i = client
  · subst hi
    simpa using h
  · simp [hi]

/-- The workers send nothing. -/
theorem State.SendsFit.worker {ok : Bool} {pc pc' : WorkerPc} (h : s.SendsFit fb)
    (hs : WorkerStep cfg fb s ok pc t pc') : t.SendsFit fb := by
  cases hs with
  | assign | associateFailed | firstRecvFailed | mark | close | tooLarge | invalid | consume
  | command | nextRecvFailed | reset =>
    exact h.keep (List.append_nil _).symm (fun _ _ _ => List.not_mem_nil)
      (update_sendOverlapped s.pool _ _ rfl)
  | onAccept | kick => exact h.keep rfl (by simp) fun _ => rfl
  | overflow | append => exact h.keep rfl (by simp) (update_sendOverlapped s.pool _ _ rfl)
  | _ => exact h

/-- The logic thread sends through `Session::Send` and in no other way. -/
theorem State.SendsFit.logic {choice : Choice} (h : s.SendsFit fb)
    (hs : s.logicStep fb choice = some t) : t.SendsFit fb := by
  cases logicStep_traffic hs with
  | silent hpool hlog hevs => exact h.keep hlog hevs fun i => by rw [hpool]
  | @closing client hpool hlog =>
    refine h.keep (hlog.trans (List.append_nil _).symm) (fun _ _ _ => List.not_mem_nil) fun i => ?_
    rw [hpool]
    exact update_sendOverlapped s.pool client (s.pool client).emitDisconnectedEvent rfl i
  | @reset client hpool hlog =>
    refine h.keep (hlog.trans (List.append_nil _).symm) (fun _ _ _ => List.not_mem_nil) fun i => ?_
    rw [hpool]
    exact update_sendOverlapped s.pool client (s.pool client).resetSocket rfl i
  | sent packet refused users hpool hlog =>
    exact (h.sendAll packet refused users 0).keep (hlog.trans (List.append_nil _).symm)
      (fun _ _ _ => List.not_mem_nil) fun i => by rw [hpool]

theorem State.SendsFit.step {l : Label} (h : s.SendsFit fb) (hs : s.step cfg fb l = some t) :
    t.SendsFit fb := by
  cases l with
  | accepted w k =>
    obtain ⟨-, -, rfl⟩ := step_accepted hs
    exact h
  | arrive conn data =>
    obtain ⟨-, -, -, rfl⟩ := step_arrive hs
    exact h
  | recvDone w conn result =>
    obtain ⟨-, -, rfl⟩ := step_recvDone hs
    exact h
  | sendDone w conn result =>
    obtain ⟨-, -, rfl⟩ := step_sendDone hs
    exact h
  | worker w ok =>
    obtain ⟨pc, u, pc', -, hw, rfl⟩ := step_worker hs
    have hu : u.SendsFit fb := h.worker hw
    exact hu
  | tick =>
    obtain ⟨-, -, rfl⟩ := step_tick hs
    exact h
  | logic choice => exact h.logic hs

end

/-- **No send overruns its buffer**: in no run of the chat server, and in no run of the echo
server whose receives bring no more than the send buffer holds. -/
theorem sends_fit_buffer (cfg : Config) (fb : FlatBuffers) (echoCfg : LifecycleCfg) {s : State}
    {e : Echo.EchoServer} (hs : (chatServer cfg fb).Reach System.always s)
    (he : (Echo.echoServer echoCfg).Reach Echo.ShortReceives e) : s.SendsFit fb ∧ e.SendsFit := by
  refine ⟨?_, (Echo.fitting_of_reach he).fits⟩
  refine hs.invariant ⟨?_, ?_⟩ fun _ hi _ hstep => hi.step hstep
  · simp [chatServer, State.new]
  · simp [chatServer, State.new, Client.new]

/-- A user joins and is answered; the echo server sends a full buffer back. -/
theorem sends_fit_buffer_full :
    ∃ s e, (chatServer smallServer sample).Reach System.always s ∧
      (Echo.echoServer (smallLifecycle .echo)).Reach Echo.ShortReceives e ∧
      (∃ packet, .posted ⟨0, 1⟩ packet true ∈ s.log) ∧
      (∃ call ∈ e.posted, call.2.length = sendBufferSize) ∧ s.SendsFit sample ∧ e.SendsFit := by
  obtain ⟨s, hs, hp⟩ := System.reach_of_exec (chatServer smallServer sample) System.always
    (accepts 0 4 ++ receives 0 ⟨0, 1⟩ (frameBytes joinBytes) 1 ++ ticks 6)
    (fun s => s.log.contains (.posted ⟨0, 1⟩ (.joinedRoomResponse 1) true)) (by decide +kernel)
  obtain ⟨e, he, hq⟩ := System.reach_of_exec (Echo.echoServer (smallLifecycle .echo))
    Echo.ShortReceives
    ((setsUp 0 4).map .lifecycle ++
      [.received 1 0 (List.replicate sendBufferSize 97), .lifecycle (.step 1 true)])
    (fun e => e.posted.any fun call => call.2.length == sendBufferSize) (by decide +kernel)
  refine ⟨s, e, hs, he, ⟨_, List.contains_iff_mem.mp hp⟩, ?_,
    sends_fit_buffer smallServer sample (smallLifecycle .echo) hs he⟩
  obtain ⟨call, hm, hlen⟩ := List.any_eq_true.mp hq
  exact ⟨call, hm, beq_iff_eq.mp hlen⟩

/-- A client sends one byte more than `sendOverlapped.buf` holds, and the echo server copies all of
it there. -/
theorem echo_overruns_buffer :
    ∃ e, (Echo.echoServer (smallLifecycle .echo)).Reach System.always e ∧ ¬ e.SendsFit := by
  obtain ⟨e, he, hq⟩ := System.reach_of_exec (Echo.echoServer (smallLifecycle .echo))
    System.always
    ((setsUp 0 4).map .lifecycle ++
      [.received 1 0 (List.replicate (sendBufferSize + 1) 97), .lifecycle (.step 1 true)])
    (fun e => e.posted.any fun call => sendBufferSize < call.2.length) (by decide +kernel)
  refine ⟨e, he, fun hfit => ?_⟩
  obtain ⟨call, hm, hlen⟩ := List.any_eq_true.mp hq
  have hle := hfit.1 call hm
  have hgt : sendBufferSize < call.2.length := of_decide_eq_true hlen
  omega

end Highp.Chat

import Highp.Network.Lifecycle

/-! The echo server: the threads of `ServerLifeCycle`, with the bytes that each receive brings and
the calls of `PostSend` that `OnRecv` makes with them. -/

namespace Highp.Echo
open Highp.Lib Highp.Network

/-- `received` is the span a thread gives to `OnRecv`. `posted` is a ghost: the argument of every
call of `PostSend`, with the slot it was called on. -/
structure EchoServer where
  lifecycle : Lifecycle
  received : Nat → List UInt8
  posted : List (Slot × List UInt8)

inductive EchoLabel
  /-- A thread dequeues a receive that brings data. -/
  | received (th : Nat) (client : Slot) (data : List UInt8)
  /-- Anything else. -/
  | lifecycle (l : LifecycleLabel)

namespace EchoServer

/-- `Client::PostSend`, up to the answer of `WSASend`. -/
def postSend (s : EchoServer) (client : Slot) (data : List UInt8) : EchoServer :=
  { s with
    lifecycle := s.lifecycle.setClient client ((s.lifecycle.clientPool client).fillSend data)
    posted := s.posted ++ [(client, data)] }

/-- What a thread does in front of the next step of `Lifecycle`: `OnRecv` sends back what it was
given. -/
def onRecv (s : EchoServer) (th : Nat) : EchoServer :=
  match s.lifecycle.threads th with
  | .onRecv client => s.postSend client (s.received th)
  | _ => s

def step (cfg : LifecycleCfg) (s : EchoServer) : EchoLabel → Option EchoServer
  | .received th client data =>
    -- the kernel writes at most the length in the descriptor
    if data ≠ [] ∧ data.length ≤ recvBufferSize then
      (s.lifecycle.step cfg (.recvDone th client .data)).map fun lifecycle =>
        { s with lifecycle, received := Function.update s.received th data }
    else none
  | .lifecycle (.recvDone th client outcome) =>
    if outcome = .data then none
    else (s.lifecycle.step cfg (.recvDone th client outcome)).map fun lifecycle =>
      { s with lifecycle }
  | .lifecycle (.step th ok) =>
    ((s.onRecv th).lifecycle.step cfg (.step th ok)).map fun lifecycle =>
      { s.onRecv th with lifecycle }
  | .lifecycle l => (s.lifecycle.step cfg l).map fun lifecycle => { s with lifecycle }

/-- Every `PostSend` so far was given no more than the buffer holds, and so is the length that was
copied last into each slot. -/
def SendsFit (s : EchoServer) : Prop :=
  (∀ call ∈ s.posted, call.2.length ≤ sendBufferSize) ∧
    ∀ i, (s.lifecycle.clientPool i).sendOverlapped.len ≤ sendBufferSize

end EchoServer

def echoServer (cfg : LifecycleCfg) : System EchoServer EchoLabel where
  start := ⟨(lifecycleSystem cfg).start, fun _ => [], []⟩
  step := EchoServer.step { cfg with app := .echo }

/-- No receive brings more than the send buffer holds. -/
def ShortReceives (_ : EchoServer) : EchoLabel → Prop
  | .received _ _ data => data.length ≤ sendBufferSize
  | .lifecycle _ => True

instance : ∀ (s : EchoServer) (l : EchoLabel), Decidable (ShortReceives s l)
  | _, .received _ _ data => inferInstanceAs (Decidable (data.length ≤ sendBufferSize))
  | _, .lifecycle _ => .isTrue trivial

/-! ## What one step can do -/

section
variable {cfg : LifecycleCfg} {s t : EchoServer} {l l' : Lifecycle} {ok : Bool} {pc pc' : ThreadPc}
  {th : Nat}

/-- The lifecycle itself never touches a send buffer. -/
theorem threadStep_sendOverlapped (h : ThreadStep cfg l ok pc l' pc') (i : Slot) :
    (l'.clientPool i).sendOverlapped = (l.clientPool i).sendOverlapped := by
  cases h with
  | assign => exact setClient_keeps Client.sendOverlapped l i rfl
  | mark => exact setClient_keeps Client.sendOverlapped l i rfl
  | setCounted => exact setClient_keeps Client.sendOverlapped l i rfl
  | notCounted => exact setClient_keeps Client.sendOverlapped l i rfl
  | clearFlags => exact setClient_keeps Client.sendOverlapped l i rfl
  | resetSocket => exact setClient_keeps Client.sendOverlapped l i rfl
  | _ => rfl

theorem lifecycle_sendOverlapped {lab : LifecycleLabel} (h : l.step cfg lab = some l') (i : Slot) :
    (l'.clientPool i).sendOverlapped = (l.clientPool i).sendOverlapped := by
  cases lab with
  | accepted th k =>
    obtain ⟨-, -, -, rfl⟩ := step_acceptDone h
    rfl
  | recvDone th client outcome =>
    obtain ⟨-, -, -, rfl⟩ := step_recvDequeued h
    rfl
  | close th client =>
    obtain ⟨-, -, -, rfl⟩ := step_close h
    rfl
  | step th ok =>
    obtain ⟨u, pc', hstep, rfl⟩ := step_thread h
    exact threadStep_sendOverlapped hstep i

/-- `OnRecv` is entered with a receive and in no other way. -/
theorem threadStep_onRecv (h : ThreadStep cfg l ok pc l' pc') (client : Slot) :
    pc' ≠ .onRecv client := by
  have hret : ∀ (ret : ReturnTo) (i : Slot), ret.pc i ≠ .onRecv client := by
    intro ret i
    cases ret with
    | idle => exact ThreadPc.noConfusion
    | handleRecv => exact ThreadPc.noConfusion
  cases h with
  | alreadyClosed => exact hret _ _
  | noSocket => exact hret _ _
  | resetSocket => exact hret _ _
  | _ => exact ThreadPc.noConfusion

/-! ## The sizes of sends -/

/-- `SendsFit`, and what the threads are about to send fits as well. -/
structure Fitting (s : EchoServer) : Prop where
  fits : s.SendsFit
  spans : ∀ th client, s.lifecycle.threads th = .onRecv client →
    (s.received th).length ≤ sendBufferSize

/-- A step of the lifecycle that brings no thread into `OnRecv`. -/
theorem Fitting.lifecycle {lab : LifecycleLabel} (h : Fitting s)
    (hs : s.lifecycle.step cfg lab = some l)
    (hthreads : ∀ v client, l.threads v = .onRecv client →
      s.lifecycle.threads v = .onRecv client) :
    Fitting { s with lifecycle := l } := by
  refine ⟨⟨h.fits.1, fun i => ?_⟩, fun v client hv => h.spans v client (hthreads v client hv)⟩
  show (l.clientPool i).sendOverlapped.len ≤ sendBufferSize
  rw [lifecycle_sendOverlapped hs i]
  exact h.fits.2 i

theorem Fitting.postSend (h : Fitting s) {client : Slot} {data : List UInt8}
    (hlen : data.length ≤ sendBufferSize) : Fitting (s.postSend client data) := by
  refine ⟨⟨?_, ?_⟩, h.spans⟩
  · intro call hm
    rcases List.mem_append.mp hm with hm | hm
    · exact h.fits.1 call hm
    · rw [List.mem_singleton.mp hm]
      exact hlen
  · intro i
    by_cases hi : i = client
    · subst hi
      have hmod : data.length % 2 ^ 32 ≤ data.length := Nat.mod_le _ _
      simp only [EchoServer.postSend, Lifecycle.setClient, Function.update_self, Client.fillSend]
      omega
    · simpa [EchoServer.postSend, Lifecycle.setClient, hi] using h.fits.2 i

theorem Fitting.onRecv (h : Fitting s) (th : Nat) : Fitting (s.onRecv th) := by
  unfold EchoServer.onRecv
  split
  · rename_i client hpc
    exact h.postSend (h.spans th client hpc)
  · exact h

theorem Fitting.received {client : Slot} {data : List UInt8} (h : Fitting s)
    (hlen : data.length ≤ sendBufferSize)
    (hs : s.step cfg (.received th client data) = some t) : Fitting t := by
  simp only [EchoServer.step, Option.ite_none_right_eq_some, Option.map_eq_some_iff] at hs
  obtain ⟨-, l, hl, rfl⟩ := hs
  refine ⟨⟨h.fits.1, fun i => ?_⟩, fun v k hv => ?_⟩
  · show (l.clientPool i).sendOverlapped.len ≤ sendBufferSize
    rw [lifecycle_sendOverlapped hl i]
    exact h.fits.2 i
  · obtain ⟨-, -, -, rfl⟩ := step_recvDequeued hl
    by_cases hvt : v = th
    · subst hvt
      simpa using hlen
    · simp only [Function.update_of_ne hvt]
      rw [setThread_other rfl hvt] at hv
      exact h.spans v k hv

/-- A thread that changes its place to one outside `OnRecv`. -/
theorem onRecv_of_setThread (hl : l.threads = s.lifecycle.threads)
    (hpc : ∀ client, pc' ≠ .onRecv client) {v : Nat} {client : Slot}
    (hv : (l.setThread th pc').threads v = .onRecv client) :
    s.lifecycle.threads v = .onRecv client := by
  by_cases hvt : v = th
  · subst hvt
    rw [setThread_self] at hv
    exact absurd hv (hpc client)
  · rwa [setThread_other hl hvt] at hv

theorem Fitting.step {lab : EchoLabel} (h : Fitting s) (hok : ShortReceives s lab)
    (hs : s.step cfg lab = some t) : Fitting t := by
  cases lab with
  | received th client data => exact h.received hok hs
  | lifecycle lab =>
    cases lab with
    | accepted th k =>
      obtain ⟨l, hl, rfl⟩ := Option.map_eq_some_iff.mp hs
      refine h.lifecycle hl fun v client hv => ?_
      obtain ⟨-, -, -, rfl⟩ := step_acceptDone hl
      exact onRecv_of_setThread rfl (fun _ => ThreadPc.noConfusion) hv
    | recvDone th client outcome =>
      simp only [EchoServer.step, Option.ite_none_left_eq_some, Option.map_eq_some_iff] at hs
      obtain ⟨hdata, l, hl, rfl⟩ := hs
      refine h.lifecycle hl fun v k hv => ?_
      obtain ⟨-, -, -, rfl⟩ := step_recvDequeued hl
      refine onRecv_of_setThread rfl (fun j => ?_) hv
      cases outcome with
      | data => exact absurd rfl hdata
      | ended => exact ThreadPc.noConfusion
      | aborted => exact ThreadPc.noConfusion
    | close th client =>
      obtain ⟨l, hl, rfl⟩ := Option.map_eq_some_iff.mp hs
      refine h.lifecycle hl fun v k hv => ?_
      obtain ⟨-, -, -, rfl⟩ := step_close hl
      exact onRecv_of_setThread rfl (fun _ => ThreadPc.noConfusion) hv
    | step th ok =>
      obtain ⟨l, hl, rfl⟩ := Option.map_eq_some_iff.mp hs
      refine (h.onRecv th).lifecycle hl fun v client hv => ?_
      obtain ⟨u, pc', hstep, rfl⟩ := step_thread hl
      exact onRecv_of_setThread hstep.threads (threadStep_onRecv hstep) hv

theorem fitting_of_reach (h : (echoServer cfg).Reach ShortReceives s) : Fitting s := by
  refine h.invariant ⟨⟨?_, ?_⟩, ?_⟩ fun _ hi hok hs => hi.step hok hs
  · simp [echoServer]
  · intro i
    simp [echoServer, lifecycleSystem, Client.new]
  · intro th client hpc
    simp [echoServer, lifecycleSystem] at hpc

end
end Highp.Echo

import Highp.Network.Acceptor

/-! How many `AcceptEx` requests are outstanding. `PostAccepts` posts `backlog` of them at the
start; `OnAcceptComplete` posts one for the one it handles, but not on every way out. -/

namespace Highp.Network
open Highp.Lib

/-- `PostAccept` returns `Ok`. -/
def PostAnswers.ok (ans : PostAnswers) : Bool := ans.socketCreated && ans.acceptPosted

namespace AcceptorLabel

/-- The server serves: completions are handled, clients are closed, and whatever is posted
succeeds. -/
def serves : AcceptorLabel → Bool
  | .postAccept _ => false
  | .onAcceptComplete _ ans => ans.post.ok
  | .closeClient _ => true
  | .shutdown => false

/-- `SO_UPDATE_ACCEPT_CONTEXT` does not fail. -/
def updates : AcceptorLabel → Bool
  | .onAcceptComplete (some _) ans => ans.updated
  | _ => true

end AcceptorLabel

/-- Between two operations the holder keeps the outstanding requests. -/
structure Paired (s : Acceptor) : Prop where
  held : ∀ item, s.requests.count item = s.holder.count item
  ioType : ∀ item, (s.overlapped item).ioType = .accept

section
variable {s t : Acceptor} {maxClients item : Nat} {ans : PostAnswers}

theorem paired_new (idle : Nat) : Paired (.new idle) := ⟨fun _ => rfl, fun _ => rfl⟩

theorem Paired.prepare (h : Paired s) (choice : Nat) (socket : SocketHandle) :
    Paired (s.prepare choice socket) := by
  refine ⟨h.held, fun item => ?_⟩
  simp only [Acceptor.prepare]
  by_cases hi : item = (s.pool.get choice).1
  · subst hi
    simp
  · rw [Function.update_of_ne hi]
    exact h.ioType item

/-- `PostAccept` posts one request if it succeeds, and none otherwise. -/
theorem Paired.postAccept (h : Paired s) (ans : PostAnswers) :
    Paired (s.postAccept ans).2 ∧ (s.postAccept ans).1 = ans.ok ∧
      (s.postAccept ans).2.requests.length = s.requests.length + ans.ok.toNat := by
  have hp : Paired (s.createSocket.prepare ans.choice s.created) :=
    Paired.prepare (s := s.createSocket) ⟨h.held, h.ioType⟩ _ _
  unfold Acceptor.postAccept
  cases hc : ans.socketCreated with
  | false => exact ⟨h, by simp [PostAnswers.ok, hc], by simp [PostAnswers.ok, hc]⟩
  | true =>
    cases ha : ans.acceptPosted with
    | false =>
      refine ⟨⟨hp.held, hp.ioType⟩, by simp [PostAnswers.ok, ha], ?_⟩
      simp [PostAnswers.ok, ha, Acceptor.closesocket, Acceptor.returnItem, Acceptor.prepare,
        Acceptor.createSocket]
    | true =>
      refine ⟨⟨fun item => ?_, hp.ioType⟩, by simp [PostAnswers.ok, hc, ha], ?_⟩
      · have hheld := h.held item
        simp only [Acceptor.hold, Acceptor.acceptEx, Acceptor.prepare, Acceptor.createSocket]
        simp [List.count_cons, hheld]
      · simp [PostAnswers.ok, hc, ha, Acceptor.hold, Acceptor.acceptEx, Acceptor.prepare,
          Acceptor.createSocket]

theorem Paired.closesocket (h : Paired s) (socket : Option SocketHandle) :
    Paired (s.closesocket socket) ∧ (s.closesocket socket).requests = s.requests := by
  obtain ⟨closed, hc⟩ := s.closesocket_frame socket
  rw [hc]
  exact ⟨⟨h.held, h.ioType⟩, rfl⟩

theorem Paired.closeClient (h : Paired s) (client : Slot) :
    Paired (s.closeClient client) ∧ (s.closeClient client).requests = s.requests := by
  obtain ⟨closed, clientPool, hc⟩ := s.closeClient_frame client
  rw [hc]
  exact ⟨⟨h.held, h.ioType⟩, rfl⟩

theorem Paired.setupClient (h : Paired s) (maxClients : Nat) (acceptSocket : Option SocketHandle)
    (ans : CompleteAnswers) :
    Paired (s.setupClient maxClients acceptSocket ans) ∧
      (s.setupClient maxClients acceptSocket ans).requests = s.requests := by
  obtain ⟨closed, clientPool, hc⟩ := s.setupClient_frame maxClients acceptSocket ans
  rw [hc]
  exact ⟨⟨h.held, h.ioType⟩, rfl⟩

theorem Paired.forget (h : Paired s) (item : Nat) : Paired (s.forget item) := by
  refine ⟨h.held, fun other => ?_⟩
  simp only [Acceptor.forget]
  by_cases hi : other = item
  · subst hi
    simpa using h.ioType other
  · rw [Function.update_of_ne hi]
    exact h.ioType other

/-- Behind `Release`, a request is posted exactly if the context was updated and the post
succeeds. -/
theorem Paired.acceptReleased (h : Paired s) (maxClients item : Nat) (ans : CompleteAnswers) :
    Paired (s.acceptReleased maxClients item ans).2 ∧
      (s.acceptReleased maxClients item ans).2.requests.length =
        s.requests.length + (ans.updated && ans.post.ok).toNat := by
  unfold Acceptor.acceptReleased
  cases hu : ans.updated with
  | false =>
    obtain ⟨hp, hr⟩ := h.closesocket (s.overlapped item).clientSocket
    exact ⟨⟨hp.held, hp.ioType⟩, congrArg List.length hr⟩
  | true =>
    obtain ⟨hset, hreq⟩ := h.setupClient maxClients
      (s.overlapped item).clientSocket ans
    obtain ⟨hpost, -, hlen⟩ := (hset.forget item).postAccept ans.post
    obtain ⟨hp, hr⟩ := hpost.closesocket ((((s.setupClient maxClients
      (s.overlapped item).clientSocket ans).forget item).postAccept
        ans.post).2.overlapped item).clientSocket
    refine ⟨⟨hp.held, hp.ioType⟩, (congrArg List.length hr).trans (hlen.trans ?_)⟩
    rw [show ((s.setupClient maxClients (s.overlapped item).clientSocket ans).forget item).requests
      = s.requests from hreq, Bool.true_and]

/-- The completion of an outstanding request finds its item in the holder. -/
theorem Paired.release (h : Paired s) (hr : item ∈ s.requests) :
    ∃ u, Acceptor.release { s with requests := s.requests.erase item } item = some u ∧ Paired u ∧
      u.requests.length + 1 = s.requests.length := by
  have hheld : item ∈ s.holder := by
    have hcount := h.held item
    rw [← List.count_pos_iff] at hr ⊢
    omega
  refine ⟨_, if_pos hheld, ⟨fun other => ?_, h.ioType⟩, ?_⟩
  · have hcount := h.held other
    simp only [List.count_erase, hcount]
  · have hlen := List.length_erase_of_mem hr
    have hpos := List.length_pos_of_mem hr
    simp only
    omega

theorem Paired.onAcceptComplete (h : Paired s) (maxClients : Nat) (ans : CompleteAnswers)
    (hr : item ∈ s.requests) :
    let t := (Acceptor.onAcceptComplete maxClients
      { s with requests := s.requests.erase item } (some item) ans).2
    Paired t ∧ t.requests.length + 1 = s.requests.length + (ans.updated && ans.post.ok).toNat := by
  obtain ⟨u, hu, hpu, hlen⟩ := h.release hr
  simp only [Acceptor.onAcceptComplete, ne_eq, h.ioType item, not_true_eq_false, if_false, hu]
  obtain ⟨hp, hn⟩ := hpu.acceptReleased maxClients item ans
  exact ⟨hp, by omega⟩

/-- One step of a server that serves: the depth stays if the context is updated, and one request
is lost if not. -/
theorem Paired.step {l : AcceptorLabel} (h : Paired s) (hl : l.serves = true)
    (hs : s.step maxClients l = some t) :
    Paired t ∧ t.requests.length + (!l.updates).toNat = s.requests.length := by
  cases l with
  | postAccept ans => simp [AcceptorLabel.serves] at hl
  | shutdown => simp [AcceptorLabel.serves] at hl
  | closeClient client =>
    simp only [Acceptor.step, Option.ite_none_right_eq_some, Option.some.injEq] at hs
    obtain ⟨-, rfl⟩ := hs
    obtain ⟨hp, hr⟩ := h.closeClient client
    exact ⟨hp, by simp [hr, AcceptorLabel.updates]⟩
  | onAcceptComplete overlapped ans =>
    simp only [Acceptor.step, Option.ite_none_left_eq_some, Option.map_eq_some_iff] at hs
    obtain ⟨-, u, hu, rfl⟩ := hs
    cases overlapped with
    | none =>
      cases hu
      exact ⟨h, by simp [Acceptor.onAcceptComplete, AcceptorLabel.updates]⟩
    | some item =>
      simp only [Acceptor.dequeue, Option.ite_none_right_eq_some, Option.some.injEq] at hu
      obtain ⟨hr, rfl⟩ := hu
      obtain ⟨hp, hn⟩ := h.onAcceptComplete maxClients ans hr
      refine ⟨hp, ?_⟩
      have hok : ans.post.ok = true := hl
      have hone : (ans.updated && ans.post.ok).toNat + (!ans.updated).toNat = 1 := by
        rw [hok, Bool.and_true]
        cases ans.updated <;> rfl
      simp only [AcceptorLabel.updates]
      omega

/-! ## Runs -/

theorem Paired.postAccepts {posts : List PostAnswers} (h : Paired s)
    (hs : s.postAccepts posts = (true, t)) :
    Paired t ∧ t.requests.length = s.requests.length + posts.length := by
  induction posts generalizing s with
  | nil =>
    cases hs
    exact ⟨h, rfl⟩
  | cons ans posts ih =>
    obtain ⟨hp, hok, hlen⟩ := h.postAccept ans
    cases hr : s.postAccept ans with
    | mk posted u =>
      rw [hr] at hp hok hlen
      cases posted with
      | false => simp [Acceptor.postAccepts, hr] at hs
      | true =>
        simp only [Acceptor.postAccepts, hr] at hs
        obtain ⟨ht, hn⟩ := ih hp hs
        have hone : ans.ok.toNat = 1 := by rw [← hok]; rfl
        simp only [List.length_cons]
        exact ⟨ht, by omega⟩

/-- A run loses one request for each context that was not updated, and never gets it back. -/
theorem Paired.exec {idle : Nat} {ls : List AcceptorLabel} (h : Paired s)
    (hserves : ∀ l ∈ ls, l.serves = true)
    (hs : (acceptorSystem idle maxClients).exec System.always s ls = some t) :
    t.requests.length + ls.countP (fun l => !l.updates) = s.requests.length := by
  induction ls generalizing s with
  | nil =>
    cases hs
    rfl
  | cons l ls ih =>
    have hs : (s.step maxClients l).bind (fun u =>
        (acceptorSystem idle maxClients).exec System.always u ls) = some t := hs
    obtain ⟨u, hu, hs⟩ := Option.bind_eq_some_iff.mp hs
    obtain ⟨hp, hn⟩ := h.step (hserves l List.mem_cons_self) hu
    have hrest := ih hp (fun k hk => hserves k (List.mem_cons_of_mem l hk)) hs
    rw [List.countP_cons]
    cases hl : l.updates with
    | true => simp [hl] at hn ⊢; omega
    | false => simp [hl] at hn ⊢; omega

end

/-- **The depth of the accept pipeline.** After `PostAccepts`, and as long as every post succeeds,
the number of outstanding requests is back to its value after each completion exactly if no
completion failed to update its context. -/
theorem accept_depth_kept_iff (idle maxClients : Nat) {s t : Acceptor} (posts : List PostAnswers)
    (ls : List AcceptorLabel) (hposts : (Acceptor.new idle).postAccepts posts = (true, s))
    (hserves : ∀ l ∈ ls, l.serves = true)
    (ht : (acceptorSystem idle maxClients).exec System.always s ls = some t) :
    (∀ k ≤ ls.length, ∀ u,
        (acceptorSystem idle maxClients).exec System.always s (ls.take k) = some u →
        u.requests.length = posts.length) ↔
      ∀ l ∈ ls, l.updates = true := by
  obtain ⟨hp, hn⟩ := (paired_new idle).postAccepts hposts
  have hbacklog : s.requests.length = posts.length := by simpa [Acceptor.new] using hn
  constructor
  · intro h l hl
    have hdepth := h ls.length (Nat.le_refl _) t (by rwa [List.take_length])
    have hlost := hp.exec hserves ht
    have hzero : ls.countP (fun l => !l.updates) = 0 := by omega
    simpa using List.countP_eq_zero.mp hzero l hl
  · intro h k _ u hu
    have hlost := hp.exec (fun l hl => hserves l (List.mem_of_mem_take hl)) hu
    have hzero : (ls.take k).countP (fun l => !l.updates) = 0 := by
      apply List.countP_eq_zero.mpr
      intro l hl
      simp [h l (List.mem_of_mem_take hl)]
    omega

/-- Two connections, and a client that is closed in between. -/
def twoConnections : List AcceptorLabel :=
  [.onAcceptComplete (some 0) .allOk, .closeClient 0, .onAcceptComplete (some 1) .allOk]

theorem accept_depth_kept_twice :
    ∃ s t, (Acceptor.new 0).postAccepts [.allOk, .allOk] = (true, s) ∧
      (acceptorSystem 0 1).exec System.always s twoConnections = some t ∧
      t.requests.length = 2 := by
  refine ⟨_, _, rfl, rfl, ?_⟩
  have hdepth := (accept_depth_kept_iff 0 1 [.allOk, .allOk] twoConnections rfl (by decide)
    rfl).mpr (by decide)
  exact hdepth twoConnections.length (by decide) _ rfl

/-- The peer resets before it is accepted: no request is posted for the one that was used up, and
with a backlog of one nobody is accepted any more. -/
theorem accept_depth_lost_on_reset :
    ∃ s t, (Acceptor.new 0).postAccepts [.allOk] = (true, s) ∧ s.requests.length = 1 ∧
      (acceptorSystem 0 1).exec System.always s
        [.onAcceptComplete (some 0) { CompleteAnswers.allOk with updated := false }] = some t ∧
      t.requests.length = 0 :=
  ⟨_, _, rfl, rfl, rfl, rfl⟩

end Highp.Network

import Highp.Network.Acceptor

/-! Who has to close an accept socket. The responsibility moves from the scope guard of
`PostAccept` to the item in the holder, to the guard of `OnAcceptComplete`, and to a `Client`. -/

namespace Highp.Network
open Highp.Lib

namespace Acceptor

/-- How many items of the holder carry the socket. -/
def pending (s : Acceptor) (socket : SocketHandle) : Nat :=
  s.holder.countP fun item => (s.overlapped item).clientSocket == some socket

/-- How many slots of the pool have the socket. -/
def owned (maxClients : Nat) (s : Acceptor) (socket : SocketHandle) : Nat :=
  tally maxClients s.clientPool fun c => c.socket == some socket

/-- Every socket that was created is pending, or owned by one client, or closed, and only one of
these, and closed once at most. -/
def OneOwner (maxClients : Nat) (s : Acceptor) : Prop :=
  ∀ socket < s.created,
    s.pending socket + s.owned maxClients socket + s.closed.count socket = 1

end Acceptor

/-- The acceptor is shut down when nothing is pending. -/
def ShutsDownIdle (s : Acceptor) : AcceptorLabel → Prop
  | .shutdown => s.holder = []
  | _ => True

instance : ∀ (s : Acceptor) (l : AcceptorLabel), Decidable (ShutsDownIdle s l)
  | s, .shutdown => inferInstanceAs (Decidable (s.holder = []))
  | _, .postAccept _ => .isTrue trivial
  | _, .onAcceptComplete _ _ => .isTrue trivial
  | _, .closeClient _ => .isTrue trivial

/-- The books in the middle of an operation: `out` are the items in its hands, `loose` the sockets
it still has to bring somewhere. -/
structure Accounts (maxClients : Nat) (s : Acceptor) (out : List Nat)
    (loose : List SocketHandle) : Prop where
  items : s.ItemsOnce fun x => out.count x
  sockets : ∀ h, s.pending h + s.owned maxClients h + s.closed.count h + loose.count h =
    if h < s.created then 1 else 0

namespace Accounts
variable {s t : Acceptor} {maxClients item : Nat} {out : List Nat} {loose : List SocketHandle}
  {socket : Option SocketHandle}

theorem oneOwner (h : Accounts maxClients s [] []) : s.OneOwner maxClients := by
  intro k hk
  have hx := h.sockets k
  rw [if_pos hk] at hx
  simpa using hx

theorem createSocket (h : Accounts maxClients s out loose) :
    Accounts maxClients s.createSocket out (s.created :: loose) := by
  refine ⟨h.items, fun (k : Nat) => ?_⟩
  have hx := h.sockets k
  show s.pending k + s.owned maxClients k + s.closed.count k + (s.created :: loose).count k =
    if k < s.created + 1 then 1 else 0
  rw [count_cons_toNat]
  by_cases hk : s.created = k
  · subst hk
    simp at hx ⊢
    omega
  · have hiff : k < s.created + 1 ↔ k < s.created := by omega
    simp only [hiff, beq_eq_false_iff_ne.mpr hk]
    simpa using hx

/-- Only the items of the holder count, so an item in hand may be written. -/
theorem overlapped (h : Accounts maxClients s out loose) (hm : item ∉ s.holder)
    (v : AcceptOverlapped) :
    Accounts maxClients { s with overlapped := Function.update s.overlapped item v } out loose := by
  refine ⟨h.items, fun k => ?_⟩
  have hsame : Acceptor.pending { s with overlapped := Function.update s.overlapped item v } k =
      s.pending k := by
    apply List.countP_congr
    intro x hx
    have hne : x ≠ item := by
      rintro rfl
      exact hm hx
    simp [Function.update_of_ne hne]
  have hx := h.sockets k
  rw [← hsame] at hx
  exact hx

theorem prepare (h : Accounts maxClients s out loose) (choice : Nat) (socket : SocketHandle) :
    Accounts maxClients (s.prepare choice socket) ((s.pool.get choice).1 :: out) loose := by
  refine ⟨h.items.prepare socket fun _ => count_cons_toNat _ _ _, ?_⟩
  exact (h.overlapped (h.items.get_fresh choice).1 _).sockets

/-- The item goes into the holder with its socket. -/
theorem hold (h : Accounts maxClients s (item :: out)
    ((s.overlapped item).clientSocket.toList ++ loose)) :
    Accounts maxClients (s.hold item) out loose := by
  refine ⟨h.items.hold fun _ => (count_cons_toNat _ _ _).symm, fun k => ?_⟩
  have hx := h.sockets k
  have hp : (s.hold item).pending k =
      s.pending k + ((s.overlapped item).clientSocket.toList).count k := by
    rw [Acceptor.pending, Acceptor.hold, List.countP_cons]
    cases (s.overlapped item).clientSocket <;> simp [Acceptor.pending, List.count_singleton]
  rw [List.count_append] at hx
  show (s.hold item).pending k + s.owned maxClients k + s.closed.count k + loose.count k = _
  rw [hp]
  show _ = if k < s.created then 1 else 0
  omega

theorem acceptEx (h : Accounts maxClients s out loose) :
    Accounts maxClients (s.acceptEx item) out loose := ⟨h.items, h.sockets⟩

/-- The item comes out of the holder with its socket. -/
theorem release (h : Accounts maxClients s out loose) (hs : s.release item = some t) :
    Accounts maxClients t (item :: out) ((t.overlapped item).clientSocket.toList ++ loose) := by
  simp only [Acceptor.release, Option.ite_none_right_eq_some, Option.some.injEq] at hs
  obtain ⟨hm, rfl⟩ := hs
  refine ⟨h.items.release hm fun _ => count_cons_toNat _ _ _, fun k => ?_⟩
  have hx := h.sockets k
  have hp : (s.holder.erase item).countP (fun x => (s.overlapped x).clientSocket == some k) +
      ((s.overlapped item).clientSocket.toList).count k = s.pending k := by
    have hperm := (List.perm_cons_erase hm).countP_eq
      fun x => (s.overlapped x).clientSocket == some k
    rw [List.countP_cons] at hperm
    rw [Acceptor.pending, hperm]
    cases (s.overlapped item).clientSocket <;> simp [List.count_singleton]
  rw [List.count_append]
  show (s.holder.erase item).countP (fun x => (s.overlapped x).clientSocket == some k) +
    s.owned maxClients k + s.closed.count k +
      ((s.overlapped item).clientSocket.toList.count k + loose.count k) =
    if k < s.created then 1 else 0
  omega

theorem returnItem (h : Accounts maxClients s (item :: out) loose) :
    Accounts maxClients (s.returnItem item) out loose :=
  ⟨h.items.returnItem fun _ => (count_cons_toNat _ _ _).symm, h.sockets⟩

theorem closesocket (h : Accounts maxClients s out (socket.toList ++ loose)) :
    Accounts maxClients (s.closesocket socket) out loose := by
  cases socket with
  | none => exact h
  | some k =>
    refine ⟨h.items, fun x => ?_⟩
    have hx := h.sockets x
    have hc : ((some k).toList ++ loose).count x = loose.count x + (k == x).toNat :=
      count_cons_toNat k x loose
    show s.pending x + s.owned maxClients x + (k :: s.closed).count x + loose.count x =
      if x < s.created then 1 else 0
    rw [count_cons_toNat]
    omega

/-! ## Clients -/

theorem count_toList (socket : Option SocketHandle) (k : SocketHandle) :
    socket.toList.count k = (socket == some k).toNat := by
  cases socket with
  | none => rfl
  | some j =>
    have hb : (some j == some k) = (j == k) := rfl
    rw [hb]
    exact (count_cons_toNat j k []).trans (Nat.zero_add _)

/-- A slot takes a loose socket, and the one it had becomes loose. -/
theorem setClient {client : Slot} {c : Client} (hc : client < maxClients)
    (h : Accounts maxClients s out (c.socket.toList ++ loose)) :
    Accounts maxClients (s.setClient client c) out
      ((s.clientPool client).socket.toList ++ loose) := by
  refine ⟨h.items, fun k => ?_⟩
  have hx := h.sockets k
  have ht := tally_update hc s.clientPool c fun c => c.socket == some k
  rw [List.count_append, count_toList] at hx ⊢
  show s.pending k + tally maxClients (Function.update s.clientPool client c)
      (fun c => c.socket == some k) + s.closed.count k + _ = if k < s.created then 1 else 0
  simp only [Acceptor.owned] at hx
  omega

theorem setClient_same {client : Slot} {c : Client} (h : Accounts maxClients s out loose)
    (hsame : c.socket = (s.clientPool client).socket) :
    Accounts maxClients (s.setClient client c) out loose := by
  refine ⟨h.items, fun k => ?_⟩
  have ht : (s.setClient client c).owned maxClients k = s.owned maxClients k := by
    apply tally_congr
    intro i _
    by_cases hi : i = client
    · subst hi
      simp [Acceptor.setClient, hsame]
    · simp [Acceptor.setClient, hi]
  have hx := h.sockets k
  rw [← ht] at hx
  exact hx

theorem closeClient {client : Slot} (hc : client < maxClients)
    (h : Accounts maxClients s out loose) :
    Accounts maxClients (s.closeClient client) out loose := by
  have hset : Accounts maxClients (s.setClient client (s.clientPool client).close) out
      ((s.clientPool client).socket.toList ++ loose) := setClient hc h
  have hcomm : s.closeClient client =
      (s.setClient client (s.clientPool client).close).closesocket
        (s.clientPool client).socket := by
    unfold Acceptor.closeClient
    cases (s.clientPool client).socket <;> rfl
  rw [hcomm]
  exact hset.closesocket

theorem findAvailableClient_spec {client : Slot}
    (h : s.findAvailableClient maxClients = some client) :
    client < maxClients ∧ (s.clientPool client).socket = none := by
  have hmem := List.mem_of_find?_eq_some h
  have hfree := List.find?_some h
  refine ⟨List.mem_range.mp hmem, ?_⟩
  simpa [Client.isConnected] using hfree

/-- `SetupClient` finds a place for the socket, or closes it itself. -/
theorem setupClient (h : Accounts maxClients s out (socket.toList ++ loose))
    (ans : CompleteAnswers) :
    Accounts maxClients (s.setupClient maxClients socket ans) out loose := by
  unfold Acceptor.setupClient
  cases hf : s.findAvailableClient maxClients with
  | none => exact h.closesocket
  | some client =>
    obtain ⟨hc, hnone⟩ := findAvailableClient_spec hf
    have hset := setClient (c := { s.clientPool client with socket }) hc h
    rw [hnone] at hset
    simp only
    split
    · exact hset.closeClient hc
    · split
      · exact hset.closeClient hc
      · exact hset.setClient_same rfl

/-! ## `PostAccept` and `OnAcceptComplete` -/

theorem postAccept (h : Accounts maxClients s out loose) (ans : PostAnswers) :
    Accounts maxClients (s.postAccept ans).2 out loose := by
  unfold Acceptor.postAccept
  cases ans.socketCreated with
  | false => exact h
  | true =>
    have hprep := h.createSocket.prepare ans.choice s.created
    cases ans.acceptPosted with
    | false =>
      have hclose : Accounts maxClients ((s.createSocket.prepare ans.choice s.created).returnItem
          (s.pool.get ans.choice).1) out ((some s.created).toList ++ loose) := hprep.returnItem
      exact hclose.closesocket
    | true =>
      apply Accounts.hold
      have hsock : ((s.createSocket.prepare ans.choice s.created).overlapped
          (s.pool.get ans.choice).1).clientSocket = some s.created := by
        simp [Acceptor.prepare, Acceptor.createSocket]
      show Accounts maxClients _ _ ((((s.createSocket.prepare ans.choice s.created).overlapped
        (s.pool.get ans.choice).1).clientSocket).toList ++ loose)
      rw [hsock]
      exact hprep.acceptEx

/-- `PostAccept` does not write to an item that somebody has in hand. -/
theorem postAccept_overlapped (h : Accounts maxClients s out loose) (hm : item ∈ out)
    (ans : PostAnswers) : (s.postAccept ans).2.overlapped item = s.overlapped item := by
  have hne : item ≠ (s.pool.get ans.choice).1 := by
    rintro rfl
    have hpos := List.count_pos_iff.mpr hm
    have hfresh := (h.items.get_fresh ans.choice).2
    omega
  unfold Acceptor.postAccept
  cases ans.socketCreated with
  | false => rfl
  | true =>
    cases ans.acceptPosted with
    | false => exact Function.update_of_ne hne _ _
    | true => exact Function.update_of_ne hne _ _

theorem acceptReleased (h : Accounts maxClients s (item :: out)
    ((s.overlapped item).clientSocket.toList ++ loose)) (ans : CompleteAnswers) :
    Accounts maxClients (s.acceptReleased maxClients item ans).2 out loose := by
  unfold Acceptor.acceptReleased
  cases ans.updated with
  | false => exact h.closesocket.returnItem
  | true =>
    have hset := h.setupClient ans
    have hpos : 0 < (item :: out).count item := List.count_pos_iff.mpr List.mem_cons_self
    have hforget : Accounts maxClients ((s.setupClient maxClients
        (s.overlapped item).clientSocket ans).forget item) (item :: out) loose :=
      hset.overlapped (hset.items.not_held hpos) _
    have hpost := hforget.postAccept ans.post
    -- the guard is quiet: the socket was forgotten, and nobody wrote to the item since
    have hquiet := hforget.postAccept_overlapped List.mem_cons_self ans.post
    apply Accounts.returnItem
    apply Accounts.closesocket
    rw [hquiet]
    simpa [Acceptor.forget] using hpost

theorem onAcceptComplete (h : Accounts maxClients s [] []) (overlapped : Option Nat)
    (ans : CompleteAnswers) :
    Accounts maxClients (s.onAcceptComplete maxClients overlapped ans).2 [] [] := by
  unfold Acceptor.onAcceptComplete
  cases overlapped with
  | none => exact h
  | some item =>
    simp only
    split
    · exact h
    · cases hr : s.release item with
      | none => exact h
      | some u => exact (h.release hr).acceptReleased ans

theorem step {l : AcceptorLabel} (h : Accounts maxClients s [] []) (hok : ShutsDownIdle s l)
    (hs : s.step maxClients l = some t) : Accounts maxClients t [] [] := by
  cases l with
  | postAccept ans =>
    simp only [Acceptor.step, Option.ite_none_left_eq_some, Option.some.injEq] at hs
    obtain ⟨-, rfl⟩ := hs
    exact h.postAccept ans
  | onAcceptComplete overlapped ans =>
    simp only [Acceptor.step, Option.ite_none_left_eq_some, Option.map_eq_some_iff] at hs
    obtain ⟨-, u, hu, rfl⟩ := hs
    apply Accounts.onAcceptComplete
    -- the kernel's list of requests is nobody's account
    cases overlapped with
    | none =>
      cases hu
      exact h
    | some item =>
      simp only [Acceptor.dequeue, Option.ite_none_right_eq_some, Option.some.injEq] at hu
      obtain ⟨-, rfl⟩ := hu
      exact ⟨h.items, h.sockets⟩
  | closeClient client =>
    simp only [Acceptor.step, Option.ite_none_right_eq_some, Option.some.injEq] at hs
    obtain ⟨hc, rfl⟩ := hs
    exact h.closeClient hc
  | shutdown =>
    simp only [Acceptor.step, Option.ite_none_left_eq_some, Option.some.injEq] at hs
    obtain ⟨-, rfl⟩ := hs
    have hempty : s.holder = [] := hok
    have hsame : s.shutdown = { s with destroyed := true } := by
      simp [Acceptor.shutdown, hempty]
    rw [hsame]
    exact ⟨h.items, h.sockets⟩

end Accounts

/-- **Accept sockets have one owner** and are closed once, in every sequence of operations that
shuts the acceptor down, if at all, when no accept is pending. -/
theorem accept_sockets_owned (idle maxClients : Nat) {s : Acceptor}
    (h : (acceptorSystem idle maxClients).Reach ShutsDownIdle s) : s.OneOwner maxClients := by
  have hinv : Accounts maxClients s [] [] := by
    refine h.invariant (I := fun s => Accounts maxClients s [] [])
      ⟨Acceptor.itemsOnce_new idle, fun k => ?_⟩ fun _ hi hok hs => hi.step hok hs
    have hnone : Acceptor.owned maxClients (.new idle) k = 0 := tally_eq_zero fun _ _ => rfl
    show (Acceptor.new idle).pending k + Acceptor.owned maxClients (.new idle) k + 0 + 0 = _
    rw [hnone]
    simp [Acceptor.pending, Acceptor.new, acceptorSystem]
  exact hinv.oneOwner

/-- One connection is taken over by a client and one is closed because its peer was gone; the last
post fails, and the acceptor is shut down. -/
theorem accept_sockets_owned_drained :
    ∃ s, (acceptorSystem 0 1).Reach ShutsDownIdle s ∧ s.destroyed = true ∧ s.created = 2 ∧
      s.closed = [1] ∧ s.owned 1 0 = 1 := by
  obtain ⟨s, hr, hp⟩ := System.reach_of_exec (acceptorSystem 0 1) ShutsDownIdle
    [.postAccept .allOk, .onAcceptComplete (some 0) .allOk,
      .onAcceptComplete (some 1) { CompleteAnswers.allOk with updated := false }, .shutdown]
    (fun s => s.destroyed && s.created == 2 && s.closed == [1] && s.holder == [])
    (by decide +kernel)
  simp only [Bool.and_eq_true, beq_iff_eq] at hp
  obtain ⟨⟨⟨hd, hn⟩, hclosed⟩, hholder⟩ := hp
  have hone := accept_sockets_owned 0 1 hr 0 (by omega)
  simp only [Acceptor.pending, hholder, hclosed] at hone
  exact ⟨s, hr, hd, hn, hclosed, by simpa using hone⟩

/-- `Shutdown` cancels a pending accept, and the destructor returns its item to the pool; the
socket is neither closed nor anybody's. -/
theorem shutdown_leaks_socket :
    ∃ s, (acceptorSystem 0 1).Reach System.always s ∧ s.destroyed = true ∧ ¬ s.OneOwner 1 := by
  obtain ⟨s, hr, hp⟩ := System.reach_of_exec (acceptorSystem 0 1) System.always
    [.postAccept .allOk, .shutdown]
    (fun s => s.destroyed && s.created == 1 &&
      s.pending 0 + s.owned 1 0 + s.closed.count 0 == 0) (by decide +kernel)
  simp only [Bool.and_eq_true, beq_iff_eq] at hp
  obtain ⟨⟨hd, hn⟩, hnone⟩ := hp
  refine ⟨s, hr, hd, fun h => ?_⟩
  have hone := h 0 (by omega)
  omega

end Highp.Network

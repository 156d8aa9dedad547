import Highp.Network.Lifecycle

/-! How many receives are outstanding on one `recvOverlapped`. A receive that is outstanding and a
thread that is on its way to `PostRecv` count alike: the invariant is that together they are one. -/

namespace Highp.Network
open Highp.Lib

def ReturnTo.posts : ReturnTo → Bool
  | .idle => false
  | .handleRecv => true

/-- The thread may still call the `PostRecv` of `SetupClient` or of `HandleRecv` for the slot. -/
def ThreadPc.willPost (i : Slot) : ThreadPc → Bool
  | .associate client => client == i
  | .postFirstRecv client => client == i
  | .onRecv client => client == i
  | .echoPostRecv client => client == i
  | .postNextRecv client => client == i
  | .closeClient client ret => client == i && ret.posts
  | .testCounted client ret => client == i && ret.posts
  | .clearFlags client ret => client == i && ret.posts
  | .loadCount client ret => client == i && ret.posts
  | .subCount client ret => client == i && ret.posts
  | .testSocket client ret => client == i && ret.posts
  | .closeSocket client ret => client == i && ret.posts
  | .resetSocket client ret => client == i && ret.posts
  | _ => false

/-- The application's `OnRecv` posts no receive, and a slot is assigned when no receive of it is
outstanding and no thread is on its way to post one. -/
def PostsOnce (cfg : LifecycleCfg) (s : Lifecycle) : LifecycleLabel → Prop
  | .step th ok =>
    (match s.threads th with
    | .echoPostRecv client => !s.canPostRecv client ok
    | .assign _ client => s.recvs client == 0 &&
        (List.range cfg.threadCount).all fun v => !(s.threads v).willPost client
    | _ => true) = true
  | .accepted _ _ | .recvDone _ _ _ | .close _ _ => True

instance (cfg : LifecycleCfg) :
    ∀ (s : Lifecycle) (l : LifecycleLabel), Decidable (PostsOnce cfg s l)
  | _, .step _ _ => inferInstanceAs (Decidable (_ = true))
  | _, .accepted _ _ => .isTrue trivial
  | _, .recvDone _ _ _ => .isTrue trivial
  | _, .close _ _ => .isTrue trivial

/-- Receives outstanding on a slot, together with the threads that may still post one. -/
def Lifecycle.pending (cfg : LifecycleCfg) (s : Lifecycle) (i : Slot) : Nat :=
  s.recvs i + tally cfg.threadCount s.threads (ThreadPc.willPost i)

structure AtMostOne (cfg : LifecycleCfg) (s : Lifecycle) : Prop where
  others : ∀ th, cfg.threadCount ≤ th → s.threads th = .idle
  pending : ∀ i, s.pending cfg i ≤ 1

section
variable {cfg : LifecycleCfg} {s t : Lifecycle} {th : Nat} {ok : Bool} {pc pc' : ThreadPc}
  {i : Slot}

theorem willPost_ret (j : Slot) (ret : ReturnTo) :
    (ret.pc j).willPost i = (j == i && ret.posts) := by
  cases ret with
  | idle => simp [ReturnTo.pc, ThreadPc.willPost, ReturnTo.posts]
  | handleRecv => simp [ReturnTo.pc, ThreadPc.willPost, ReturnTo.posts]

theorem recvs_postRecv (s : Lifecycle) (j : Slot) :
    (s.postRecv j).recvs i = s.recvs i + (j == i).toNat := by
  by_cases hij : i = j
  · subst hij
    simp [Lifecycle.postRecv]
  · simp [Lifecycle.postRecv, hij, Ne.symm hij]

/-- A thread that posts a receive was on its way to do so, the application apart. -/
theorem ThreadStep.pending (h : ThreadStep cfg s ok pc t pc')
    (hassign : ∀ k j, pc ≠ .assign k j)
    (hecho : ∀ j, pc = .echoPostRecv j → s.canPostRecv j ok = false) :
    t.recvs i + (pc'.willPost i).toNat ≤ s.recvs i + (pc.willPost i).toNat := by
  cases h with
  | assign => exact absurd rfl (hassign _ _)
  | firstRecv =>
    rw [recvs_postRecv]
    simp only [ThreadPc.willPost, Bool.toNat_false]
    omega
  | nextRecv =>
    rw [recvs_postRecv]
    simp only [ThreadPc.willPost, Bool.toNat_false]
    omega
  | echoRecv hp => simp [hecho _ rfl] at hp
  | alreadyClosed => rw [willPost_ret]; exact Nat.le_refl _
  | noSocket => rw [willPost_ret]; exact Nat.le_refl _
  | resetSocket => rw [willPost_ret]; exact Nat.le_refl _
  | received => exact Nat.le_refl _
  | echoed => exact Nat.le_refl _
  | _ => simp [ThreadPc.willPost, ReturnTo.posts, Lifecycle.setClient, Lifecycle.closesocket]

/-- A thread moves to `pc'` without adding to what is pending. -/
theorem AtMostOne.move (h : AtMostOne cfg s) {u : Lifecycle} (hu : u.threads = s.threads)
    (hth : th < cfg.threadCount)
    (hrecvs : ∀ i, u.recvs i + (pc'.willPost i).toNat ≤
      s.recvs i + ((s.threads th).willPost i).toNat) : AtMostOne cfg (u.setThread th pc') := by
  refine ⟨others_setThread h.others hth hu, fun i => ?_⟩
  have htally := tally_update hth s.threads pc' (ThreadPc.willPost i)
  have hle := h.pending i
  have hr := hrecvs i
  simp only [Lifecycle.pending, Lifecycle.setThread, hu] at hle ⊢
  omega

/-- A thread takes a slot on which nothing is pending. -/
theorem AtMostOne.assign {k : SocketHandle} {j : Slot} (h : AtMostOne cfg s)
    (hth : th < cfg.threadCount) (hpc : s.threads th = .assign k j)
    (hok : PostsOnce cfg s (.step th ok)) (hs : ThreadStep cfg s ok (.assign k j) t pc') :
    ∀ i, (t.setThread th pc').pending cfg i ≤ 1 := by
  simp only [PostsOnce, hpc, Bool.and_eq_true, beq_iff_eq, List.all_eq_true, List.mem_range,
    Bool.not_eq_true'] at hok
  obtain ⟨hrecvs, hfree⟩ := hok
  cases hs
  intro i
  have htally := tally_update hth s.threads (.associate j) (ThreadPc.willPost i)
  simp only [Lifecycle.pending, Lifecycle.setThread, Lifecycle.setClient]
  have hold : ((s.threads th).willPost i).toNat = 0 := by rw [hpc]; rfl
  by_cases hij : j = i
  · subst hij
    have hnone : tally cfg.threadCount s.threads (ThreadPc.willPost j) = 0 := by
      apply tally_eq_zero
      intro v hv
      simpa using hfree v hv
    have hone : ((ThreadPc.associate j).willPost j).toNat = 1 := by simp [ThreadPc.willPost]
    omega
  · have hzero : ((ThreadPc.associate j).willPost i).toNat = 0 := by simp [ThreadPc.willPost, hij]
    have hle := h.pending i
    simp only [Lifecycle.pending] at hle
    omega

theorem AtMostOne.thread (h : AtMostOne cfg s) (hok : PostsOnce cfg s (.step th ok))
    (hs : ThreadStep cfg s ok (s.threads th) t pc') : AtMostOne cfg (t.setThread th pc') := by
  have hth : th < cfg.threadCount := hs.lt_threadCount h.others
  by_cases hpc : ∃ k j, s.threads th = .assign k j
  · obtain ⟨k, j, hpc⟩ := hpc
    refine ⟨others_setThread h.others hth hs.threads, ?_⟩
    rw [hpc] at hs
    exact h.assign hth hpc hok hs
  · refine h.move hs.threads hth fun i => hs.pending ?_ ?_
    · intro k j he
      exact hpc ⟨k, j, he⟩
    · intro j he
      simpa [PostsOnce, he] using hok

theorem AtMostOne.step {l : LifecycleLabel} (h : AtMostOne cfg s) (hok : PostsOnce cfg s l)
    (hs : s.step cfg l = some t) : AtMostOne cfg t := by
  cases l with
  | accepted th k =>
    obtain ⟨hth, hidle, -, rfl⟩ := step_acceptDone hs
    refine h.move rfl hth fun i => ?_
    simp [ThreadPc.willPost]
  | recvDone th client outcome =>
    obtain ⟨hth, hidle, hpos, rfl⟩ := step_recvDequeued hs
    refine h.move rfl hth fun i => ?_
    -- the receive is now the thread's
    by_cases hi : i = client
    · subst hi
      have hle : ((outcome.pc i).willPost i).toNat ≤ 1 := Bool.toNat_le _
      simp only [Function.update_self]
      omega
    · have hzero : ((outcome.pc client).willPost i).toNat = 0 := by
        cases outcome <;> simp [RecvOutcome.pc, ThreadPc.willPost, Ne.symm hi]
      simp only [Function.update_of_ne hi]
      omega
  | close th client =>
    obtain ⟨hth, hidle, -, rfl⟩ := step_close hs
    refine h.move rfl hth fun i => ?_
    simp [ThreadPc.willPost, ReturnTo.posts]
  | step th ok =>
    obtain ⟨u, pc', hstep, rfl⟩ := step_thread hs
    exact h.thread hok hstep

end

end Highp.Network

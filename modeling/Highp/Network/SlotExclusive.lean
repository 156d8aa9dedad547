import Highp.Lib.Ownership
import Highp.Network.Lifecycle

/-! Who has a slot of the pool. `FindAvailableClient` and the assignment in `SetupClient` are a
check and an act without a lock around them, and so are the check and the reset in
`Client::Close`. -/

namespace Highp.Network
open Highp.Lib

/-- The slot that a thread has found and not yet assigned. -/
def ThreadPc.taking : ThreadPc → Option Slot
  | .assign _ client => some client
  | _ => none

/-- The slot whose socket a thread has found valid in `Close` and not yet reset. -/
def ThreadPc.closing : ThreadPc → Option Slot
  | .closeSocket client _ => some client
  | .resetSocket client _ => some client
  | _ => none

/-- No two threads have found the same slot, and no two close the socket of the same slot. -/
def TakesTurns (cfg : LifecycleCfg) (s : Lifecycle) : LifecycleLabel → Prop
  | .step th _ =>
    (match s.threads th with
    | .find _ => (s.findAvailableClient cfg.maxClients).all fun client =>
        s.nobodyElse cfg th fun pc => pc.taking == some client
    | .testSocket client _ => s.nobodyElse cfg th fun pc => pc.closing == some client
    | _ => true) = true
  | .accepted _ _ | .recvDone _ _ _ | .close _ _ => True

instance (cfg : LifecycleCfg) :
    ∀ (s : Lifecycle) (l : LifecycleLabel), Decidable (TakesTurns cfg s l)
  | _, .step _ _ => inferInstanceAs (Decidable (_ = true))
  | _, .accepted _ _ => .isTrue trivial
  | _, .recvDone _ _ _ => .isTrue trivial
  | _, .close _ _ => .isTrue trivial

/-- An open socket that was put into a slot is still there. Who has found a slot free, or its socket
valid, is alone in this and still right. -/
structure SlotsHeld (cfg : LifecycleCfg) (s : Lifecycle) : Prop where
  others : ∀ th, cfg.threadCount ≤ th → s.threads th = .idle
  held : ∀ h i, (h, i) ∈ s.assigned → (s.clientPool i).socket = some h
  taking : Exclusive (fun v => (s.threads v).taking) fun i => (s.clientPool i).socket = none
  closing : Exclusive (fun v => (s.threads v).closing) fun i => (s.clientPool i).socket ≠ none
  closed : ∀ v i ret, s.threads v = .resetSocket i ret → ∀ h, (h, i) ∉ s.assigned

section
variable {cfg : LifecycleCfg} {s t u : Lifecycle} {th : Nat} {ok : Bool} {pc pc' : ThreadPc}

/-- A thread moves to `pc'`: what has to hold of the sockets afterwards, for itself and for the
others. -/
theorem SlotsHeld.move (h : SlotsHeld cfg s) (hth : th < cfg.threadCount)
    (hu : u.threads = s.threads)
    (hheld : ∀ k i, (k, i) ∈ u.assigned → (u.clientPool i).socket = some k)
    (hfree : ∀ v i, v ≠ th → (s.threads v).taking = some i → (u.clientPool i).socket = none)
    (hvalid : ∀ v i, v ≠ th → (s.threads v).closing = some i → (u.clientPool i).socket ≠ none)
    (hclosed : ∀ v i ret, v ≠ th → s.threads v = .resetSocket i ret → ∀ k, (k, i) ∉ u.assigned)
    (htake : ∀ i, pc'.taking = some i →
      (u.clientPool i).socket = none ∧ ∀ v, v ≠ th → (s.threads v).taking ≠ some i)
    (hclose : ∀ i, pc'.closing = some i →
      (u.clientPool i).socket ≠ none ∧ ∀ v, v ≠ th → (s.threads v).closing ≠ some i)
    (hreset : ∀ i ret, pc' = .resetSocket i ret → ∀ k, (k, i) ∉ u.assigned) :
    SlotsHeld cfg (u.setThread th pc') := by
  refine ⟨others_setThread h.others hth hu, hheld, ?_, ?_, ?_⟩
  · refine h.taking.change (i := th) (fun v hv => by rw [setThread_other hu hv]) ?_ ?_
    · intro i hi
      rw [setThread_self] at hi
      exact htake i hi
    · intro v i hv hi
      exact hfree v i hv hi
  · refine h.closing.change (i := th) (fun v hv => by rw [setThread_other hu hv]) ?_ ?_
    · intro i hi
      rw [setThread_self] at hi
      exact hclose i hi
    · intro v i hv hi
      exact hvalid v i hv hi
  · intro v i ret hv
    by_cases hvt : v = th
    · subst hvt
      rw [setThread_self] at hv
      exact hreset i ret hv
    · rw [setThread_other hu hvt] at hv
      exact hclosed v i ret hvt hv

/-- A step that puts no socket into a slot and takes none out. -/
theorem SlotsHeld.quiet (h : SlotsHeld cfg s) (hth : th < cfg.threadCount)
    (hu : u.threads = s.threads)
    (hsock : ∀ i, (u.clientPool i).socket = (s.clientPool i).socket)
    (hsub : ∀ p ∈ u.assigned, p ∈ s.assigned)
    (htake : ∀ i, pc'.taking = some i →
      (s.clientPool i).socket = none ∧ ∀ v, v ≠ th → (s.threads v).taking ≠ some i)
    (hclose : ∀ i, pc'.closing = some i →
      (s.clientPool i).socket ≠ none ∧ ∀ v, v ≠ th → (s.threads v).closing ≠ some i)
    (hreset : ∀ i ret, pc' = .resetSocket i ret → ∀ k, (k, i) ∉ u.assigned) :
    SlotsHeld cfg (u.setThread th pc') := by
  refine h.move hth hu ?_ ?_ ?_ ?_ ?_ ?_ hreset
  · intro k i hm
    rw [hsock]
    exact h.held k i (hsub _ hm)
  · intro v i _ hi
    rw [hsock]
    exact h.taking.live hi
  · intro v i _ hi
    rw [hsock]
    exact h.closing.live hi
  · intro v i ret _ hv k hm
    exact h.closed v i ret hv k (hsub _ hm)
  · intro i hi
    rw [hsock]
    exact htake i hi
  · intro i hi
    rw [hsock]
    exact hclose i hi

/-- The assignment finds the slot as free as `FindAvailableClient` did. -/
theorem SlotsHeld.assign {k : SocketHandle} {i : Slot} (h : SlotsHeld cfg s)
    (hth : th < cfg.threadCount) (hpc : s.threads th = .assign k i)
    (hs : ThreadStep cfg s ok (.assign k i) t pc') : SlotsHeld cfg (t.setThread th pc') := by
  have htaking : (s.threads th).taking = some i := by rw [hpc]; rfl
  have hfree : (s.clientPool i).socket = none := h.taking.live htaking
  cases hs
  have hself : ((s.setClient i { s.clientPool i with socket := some k }).clientPool i).socket =
      some k := by
    rw [setClient_self]
  have hother : ∀ j, j ≠ i →
      ((s.setClient i { s.clientPool i with socket := some k }).clientPool j).socket =
        (s.clientPool j).socket := by
    intro j hj
    rw [setClient_other s _ j hj]
  have hnot : ∀ k' j, (k', j) ∈ s.assigned → j ≠ i := by
    rintro k' j hm rfl
    have hs := h.held k' j hm
    simp [hfree] at hs
  refine h.move hth rfl ?_ ?_ ?_ ?_ (by simp [ThreadPc.taking]) (by simp [ThreadPc.closing])
    (by simp)
  · intro k' j hm
    rcases List.mem_cons.mp hm with he | hm
    · cases he
      exact hself
    · exact (hother j (hnot k' j hm)).trans (h.held k' j hm)
  · intro v j hv hj
    -- the others have found other slots
    have hji : j ≠ i := by
      rintro rfl
      exact hv (h.taking.unique hj htaking)
    exact (hother j hji).trans (h.taking.live hj)
  · intro v j _ hj he
    have hji : j ≠ i := by
      rintro rfl
      exact h.closing.live hj hfree
    exact h.closing.live hj ((hother j hji).symm.trans he)
  · intro v j ret _ hv k' hm
    have hj : (s.threads v).closing = some j := by rw [hv]; rfl
    rcases List.mem_cons.mp hm with he | hm
    · rw [(Prod.mk.inj he).2] at hj
      exact h.closing.live hj hfree
    · exact h.closed v j ret hv k' hm

theorem taking_ret (ret : ReturnTo) (i : Slot) : (ret.pc i).taking = none := by
  cases ret <;> rfl

theorem closing_ret (ret : ReturnTo) (i : Slot) : (ret.pc i).closing = none := by
  cases ret <;> rfl

theorem ret_ne_resetSocket (ret ret' : ReturnTo) (i j : Slot) : ret.pc i ≠ .resetSocket j ret' := by
  cases ret <;> simp [ReturnTo.pc]

/-- The reset forgets a socket that this thread has closed. -/
theorem SlotsHeld.resetSocket {i : Slot} {ret : ReturnTo} (h : SlotsHeld cfg s)
    (hth : th < cfg.threadCount) (hpc : s.threads th = .resetSocket i ret)
    (hs : ThreadStep cfg s ok (.resetSocket i ret) t pc') :
    SlotsHeld cfg (t.setThread th pc') := by
  have hclosing : (s.threads th).closing = some i := by rw [hpc]; rfl
  cases hs
  have hother : ∀ j, j ≠ i →
      ((s.setClient i { s.clientPool i with socket := none }).clientPool j).socket =
        (s.clientPool j).socket := by
    intro j hj
    rw [setClient_other s _ j hj]
  refine h.move hth rfl ?_ ?_ ?_ ?_ (by simp [taking_ret]) (by simp [closing_ret])
    (fun j ret' he => absurd he (ret_ne_resetSocket _ _ _ _))
  · intro k j hm
    have hj : j ≠ i := by
      rintro rfl
      exact h.closed th j ret hpc k hm
    exact (hother j hj).trans (h.held k j hm)
  · intro v j _ hj
    have hji : j ≠ i := by
      rintro rfl
      exact h.closing.live hclosing (h.taking.live hj)
    exact (hother j hji).trans (h.taking.live hj)
  · intro v j hv hj he
    have hji : j ≠ i := by
      rintro rfl
      exact hv (h.closing.unique hj hclosing)
    exact h.closing.live hj ((hother j hji).symm.trans he)
  · intro v j ret' _ hv
    exact h.closed v j ret' hv

/-- `closesocket` on the socket of the slot. -/
theorem SlotsHeld.closeSocket {i : Slot} {ret : ReturnTo} (h : SlotsHeld cfg s)
    (hth : th < cfg.threadCount) (hpc : s.threads th = .closeSocket i ret)
    (hs : ThreadStep cfg s ok (.closeSocket i ret) t pc') :
    SlotsHeld cfg (t.setThread th pc') := by
  have hclosing : (s.threads th).closing = some i := by rw [hpc]; rfl
  have halone : ∀ j, (ThreadPc.resetSocket i ret).closing = some j →
      (s.clientPool j).socket ≠ none ∧ ∀ v, v ≠ th → (s.threads v).closing ≠ some j := by
    intro j hj
    cases hj
    exact ⟨h.closing.live hclosing, fun v hv hvj => hv (h.closing.unique hvj hclosing)⟩
  cases hs with
  | @closeSocket _ _ k hk =>
    refine h.quiet hth rfl (fun _ => rfl) (fun p hp => (List.mem_filter.mp hp).1)
      (by simp [ThreadPc.taking]) halone ?_
    intro j ret' he k' hm
    cases he
    obtain ⟨hm, hne⟩ := List.mem_filter.mp hm
    have hk' := h.held k' i hm
    rw [hk, Option.some.injEq] at hk'
    simp [hk'] at hne
  | closeInvalid hk => exact absurd hk (h.closing.live hclosing)

/-- Steps that only touch flags and counters. -/
theorem SlotsHeld.pass (h : SlotsHeld cfg s) (hth : th < cfg.threadCount)
    (hu : u.threads = s.threads)
    (hsock : ∀ i, (u.clientPool i).socket = (s.clientPool i).socket)
    (hsub : ∀ p ∈ u.assigned, p ∈ s.assigned) (htake : pc'.taking = none)
    (hclose : pc'.closing = none) : SlotsHeld cfg (u.setThread th pc') := by
  refine h.quiet hth hu hsock hsub (by simp [htake]) (by simp [hclose]) ?_
  rintro i ret rfl
  simp [ThreadPc.closing] at hclose

theorem findAvailableClient_free {n : Nat} {i : Slot} (h : s.findAvailableClient n = some i) :
    (s.clientPool i).socket = none := by
  have hp := List.find?_some h
  simpa [Client.isConnected] using hp

theorem SlotsHeld.thread (h : SlotsHeld cfg s) (hok : TakesTurns cfg s (.step th ok))
    (hs : ThreadStep cfg s ok (s.threads th) t pc') : SlotsHeld cfg (t.setThread th pc') := by
  have hth : th < cfg.threadCount := hs.lt_threadCount h.others
  generalize hpc : s.threads th = pc at hs
  have hstep := hs
  cases hs with
  | found hf =>
    simp only [TakesTurns, hpc, hf, Option.all_some] at hok
    rw [nobodyElse_iff h.others (by simp [ThreadPc.taking])] at hok
    refine h.quiet hth rfl (fun _ => rfl) (fun _ hp => hp) ?_ (by simp [ThreadPc.closing]) (by simp)
    intro j hj
    cases hj
    exact ⟨findAvailableClient_free hf, fun v hv he => by simpa [he] using hok v hv⟩
  | assign => exact h.assign hth hpc hstep
  | @testSocket i ret hc =>
    simp only [TakesTurns, hpc] at hok
    rw [nobodyElse_iff h.others (by simp [ThreadPc.closing])] at hok
    refine h.quiet hth rfl (fun _ => rfl) (fun _ hp => hp) (by simp [ThreadPc.taking]) ?_ (by simp)
    intro j hj
    cases hj
    refine ⟨?_, fun v hv he => by simpa [he] using hok v hv⟩
    intro he
    simp [Client.isConnected, he] at hc
  | closeSocket => exact h.closeSocket hth hpc hstep
  | closeInvalid => exact h.closeSocket hth hpc hstep
  | resetSocket => exact h.resetSocket hth hpc hstep
  | refuse =>
    exact h.pass hth rfl (fun _ => rfl) (fun p hp => (List.mem_filter.mp hp).1) rfl rfl
  | mark =>
    exact h.pass hth rfl (fun i => setClient_keeps Client.socket s i rfl) (fun _ hp => hp) rfl rfl
  | setCounted =>
    exact h.pass hth rfl (fun i => setClient_keeps Client.socket s i rfl) (fun _ hp => hp) rfl rfl
  | notCounted =>
    exact h.pass hth rfl (fun i => setClient_keeps Client.socket s i rfl) (fun _ hp => hp) rfl rfl
  | clearFlags =>
    exact h.pass hth rfl (fun i => setClient_keeps Client.socket s i rfl) (fun _ hp => hp) rfl rfl
  | alreadyClosed =>
    exact h.pass hth rfl (fun _ => rfl) (fun _ hp => hp) (taking_ret _ _) (closing_ret _ _)
  | noSocket =>
    exact h.pass hth rfl (fun _ => rfl) (fun _ hp => hp) (taking_ret _ _) (closing_ret _ _)
  | _ => exact h.pass hth rfl (fun _ => rfl) (fun _ hp => hp) rfl rfl

theorem SlotsHeld.step {l : LifecycleLabel} (h : SlotsHeld cfg s) (hok : TakesTurns cfg s l)
    (hs : s.step cfg l = some t) : SlotsHeld cfg t := by
  cases l with
  | accepted th k =>
    obtain ⟨hth, -, -, rfl⟩ := step_acceptDone hs
    exact h.pass hth rfl (fun _ => rfl) (fun _ hp => hp) rfl rfl
  | recvDone th client outcome =>
    obtain ⟨hth, -, -, rfl⟩ := step_recvDequeued hs
    refine h.pass hth rfl (fun _ => rfl) (fun _ hp => hp) ?_ ?_
    · cases outcome <;> rfl
    · cases outcome <;> rfl
  | close th client =>
    obtain ⟨hth, -, -, rfl⟩ := step_close hs
    exact h.pass hth rfl (fun _ => rfl) (fun _ hp => hp) rfl rfl
  | step th ok =>
    obtain ⟨u, pc', hstep, rfl⟩ := step_thread hs
    exact h.thread hok hstep

end

/-- **Slots are exclusive**, in every run in which threads take turns: open sockets have slots of
their own, and a socket that was put into a slot stays there until it is closed. -/
theorem slots_exclusive (cfg : LifecycleCfg) {s : Lifecycle}
    (h : (lifecycleSystem cfg).Reach (TakesTurns cfg) s) :
    (∀ k k' i, (k, i) ∈ s.assigned → (k', i) ∈ s.assigned → k = k') ∧
    ∀ k i, (k, i) ∈ s.assigned → (s.clientPool i).socket = some k := by
  have hinv : SlotsHeld cfg s := by
    refine h.invariant ?_ fun _ hi hok hs => hi.step hok hs
    exact ⟨fun _ _ => rfl, by simp [lifecycleSystem], Exclusive.of_empty fun _ => rfl,
      Exclusive.of_empty fun _ => rfl, by simp [lifecycleSystem]⟩
  refine ⟨?_, hinv.held⟩
  intro k k' i hk hk'
  have he := (hinv.held k i hk).symm.trans (hinv.held k' i hk')
  exact Option.some.inj he

/-- Two clients are accepted one after the other. -/
theorem slots_exclusive_in_turn : ∃ s, (lifecycleSystem (smallLifecycle .chat)).Reach
    (TakesTurns (smallLifecycle .chat)) s ∧
    s.assigned = [(5, 1), (4, 0)] ∧ (s.clientPool 0).socket = some 4 ∧
    (s.clientPool 1).socket = some 5 := by
  obtain ⟨s, hr, hp⟩ := System.reach_of_exec (lifecycleSystem (smallLifecycle .chat))
    (TakesTurns (smallLifecycle .chat)) (setsUp 0 4 ++ setsUp 1 5)
    (fun s => s.assigned == [(5, 1), (4, 0)]) (by decide +kernel)
  have ha : s.assigned = [(5, 1), (4, 0)] := by simpa using hp
  obtain ⟨-, hheld⟩ := slots_exclusive (smallLifecycle .chat) hr
  exact ⟨s, hr, ha, hheld 4 0 (by simp [ha]), hheld 5 1 (by simp [ha])⟩

/-- Two workers search before either assigns: both find slot 0, and socket 4 is overwritten while
it is open. -/
theorem two_workers_take_one_slot : ∃ s,
    (lifecycleSystem (smallLifecycle .chat)).Reach System.always s ∧
    (4, 0) ∈ s.assigned ∧ (5, 0) ∈ s.assigned ∧ 4 ∈ s.sockets ∧
    (s.clientPool 0).socket = some 5 := by
  obtain ⟨s, hr, hp⟩ := System.reach_of_exec (lifecycleSystem (smallLifecycle .chat))
    System.always
    [.accepted 0 4, .accepted 1 5, .step 0 true, .step 1 true, .step 0 true, .step 1 true]
    (fun s => s.assigned.contains (4, 0) && s.assigned.contains (5, 0) && s.sockets.contains 4 &&
      (s.clientPool 0).socket == some 5)
    (by decide +kernel)
  simp only [Bool.and_eq_true, List.contains_eq_mem, decide_eq_true_eq, beq_iff_eq] at hp
  obtain ⟨⟨⟨h4, h5⟩, hopen⟩, hsock⟩ := hp
  exact ⟨s, hr, h4, h5, hopen, hsock⟩

end Highp.Network

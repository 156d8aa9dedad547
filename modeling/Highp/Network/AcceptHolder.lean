import Highp.Network.Acceptor

/-! The holder under several threads. The kernel may report a request as soon as `AcceptEx` has
returned, and `Hold` comes after it; `Release` on another thread may be faster. -/

namespace Highp.Network
open Highp.Lib

/-- Who has called `PostAccept`. -/
inductive PostCaller
  /-- `PostAccepts`, with so many calls to come. -/
  | postAccepts (remaining : Nat)
  /-- The end of `OnAcceptComplete`, which has the released item until it returns. -/
  | onAcceptComplete (item : Nat)
  deriving DecidableEq

inductive AcceptPc
  | idle
  -- `PostAccept`
  | createSocket (caller : PostCaller)
  | prepare (socket : SocketHandle) (caller : PostCaller)
  | acceptEx (item : Nat) (socket : SocketHandle) (caller : PostCaller)
  | hold (item : Nat) (caller : PostCaller)
  -- `OnAcceptComplete`
  | release (item : Nat)
  | updateContext (item : Nat)
  | callback (item : Nat)
  | returnItem (item : Nat)
  deriving DecidableEq

/-- Where the thread is after `PostAccept` has failed, and after it has succeeded. -/
def PostCaller.failed : PostCaller → AcceptPc
  | .postAccepts _ => .idle
  | .onAcceptComplete item => .returnItem item

def PostCaller.posted : PostCaller → AcceptPc
  | .postAccepts 0 => .idle
  | .postAccepts (remaining + 1) => .createSocket (.postAccepts remaining)
  | .onAcceptComplete item => .returnItem item

/-- `released` says whether the holder had the item; `returned` is the end of the scope that
released it. -/
inductive AcceptEvent
  | issued (item : Nat)
  | released (item : Nat) (found : Bool)
  | returned (item : Nat)
  deriving DecidableEq

structure AcceptThreads where
  acceptor : Acceptor
  threads : Nat → AcceptPc
  log : List AcceptEvent

inductive AcceptLabel
  /-- A thread calls `PostAccepts`. -/
  | postAccepts (th count : Nat)
  /-- A thread dequeues the completion of a request and calls `OnAcceptComplete`. -/
  | dequeue (th item : Nat)
  /-- A thread goes on. -/
  | step (th : Nat) (ans : CompleteAnswers)

namespace AcceptThreads

/-- One step of a busy thread, with the events it causes. -/
def threadStep (maxClients : Nat) (s : Acceptor) (ans : CompleteAnswers) :
    AcceptPc → Option (Acceptor × AcceptPc × List AcceptEvent)
  | .idle => none
  | .createSocket caller =>
    if ans.post.socketCreated then some (s.createSocket, .prepare s.created caller, [])
    else some (s, caller.failed, [])
  | .prepare socket caller =>
    some (s.prepare ans.post.choice socket,
      .acceptEx (s.pool.get ans.post.choice).1 socket caller, [])
  | .acceptEx item socket caller =>
    if ans.post.acceptPosted then some (s.acceptEx item, .hold item caller, [.issued item])
    else some ((s.returnItem item).closesocket (some socket), caller.failed, [])
  | .hold item caller => some (s.hold item, caller.posted, [])
  | .release item =>
    if (s.overlapped item).ioType ≠ .accept then some (s, .idle, [])
    else
      match s.release item with
      | none => some (s, .idle, [.released item false])
      | some t => some (t, .updateContext item, [.released item true])
  | .updateContext item =>
    some (s, if ans.updated then .callback item else .returnItem item, [])
  | .callback item =>
    some ((s.setupClient maxClients (s.overlapped item).clientSocket ans).forget item,
      .createSocket (.onAcceptComplete item), [])
  | .returnItem item => some ((s.cleanup item).returnItem item, .idle, [.returned item])

def step (threadCount maxClients : Nat) (s : AcceptThreads) : AcceptLabel → Option AcceptThreads
  | .postAccepts th count =>
    if th < threadCount ∧ s.threads th = .idle then
      some { s with threads :=
        Function.update s.threads th (PostCaller.postAccepts count).posted }
    else none
  | .dequeue th item =>
    if th < threadCount ∧ s.threads th = .idle then
      (s.acceptor.dequeue (some item)).map fun acceptor =>
        { s with acceptor, threads := Function.update s.threads th (.release item) }
    else none
  | .step th ans =>
    if th < threadCount then
      (threadStep maxClients s.acceptor ans (s.threads th)).map fun r =>
        ⟨r.1, Function.update s.threads th r.2.1, s.log ++ r.2.2⟩
    else none

end AcceptThreads

def acceptThreads (idle threadCount maxClients : Nat) : System AcceptThreads AcceptLabel where
  start := ⟨.new idle, fun _ => .idle, []⟩
  step := AcceptThreads.step threadCount maxClients

/-! ## A thread by itself -/

namespace AcceptThreads
variable {maxClients i j item : Nat} {s t : Acceptor} {pc pc' : AcceptPc} {caller : PostCaller}
  {ans : CompleteAnswers}

/-- A thread that nobody interrupts. -/
def alone (maxClients : Nat) (ans : CompleteAnswers) :
    Nat → Acceptor → AcceptPc → Option (Acceptor × AcceptPc)
  | 0, s, pc => some (s, pc)
  | n + 1, s, pc => (threadStep maxClients s ans pc).bind fun r => alone maxClients ans n r.1 r.2.1

theorem alone_add (h : alone maxClients ans i s pc = some (t, pc')) :
    alone maxClients ans (i + j) s pc = alone maxClients ans j t pc' := by
  induction i generalizing s pc with
  | zero =>
    cases h
    rw [Nat.zero_add]
  | succ i ih =>
    obtain ⟨r, hr, hrest⟩ := Option.bind_eq_some_iff.mp h
    rw [Nat.succ_add, alone, hr]
    exact ih hrest

/-- The steps of `PostAccept` add up to `postAccept`. -/
theorem alone_postAccept (maxClients : Nat) (s : Acceptor) (ans : CompleteAnswers)
    (caller : PostCaller) :
    ∃ n, alone maxClients ans n s (.createSocket caller) =
      some ((s.postAccept ans.post).2,
        if (s.postAccept ans.post).1 then caller.posted else caller.failed) := by
  unfold Acceptor.postAccept
  cases hc : ans.post.socketCreated with
  | false => exact ⟨1, by simp [alone, threadStep, hc]⟩
  | true =>
    cases ha : ans.post.acceptPosted with
    | false => exact ⟨3, by simp [alone, threadStep, hc, ha, Acceptor.createSocket]⟩
    | true => exact ⟨4, by simp [alone, threadStep, hc, ha, Acceptor.createSocket]⟩

/-- The steps of `OnAcceptComplete` add up to `onAcceptComplete`. -/
theorem alone_onAcceptComplete (s : Acceptor) (ans : CompleteAnswers) (item : Nat) :
    ∃ n, alone maxClients ans n s (.release item) =
      some ((s.onAcceptComplete maxClients (some item) ans).2, .idle) := by
  unfold Acceptor.onAcceptComplete
  by_cases hio : (s.overlapped item).ioType = .accept
  · cases hr : s.release item with
    | none => exact ⟨1, by simp [alone, threadStep, hio, hr]⟩
    | some t =>
      have hone : alone maxClients ans 1 s (.release item) = some (t, .updateContext item) := by
        simp [alone, threadStep, hio, hr]
      unfold Acceptor.acceptReleased
      cases hu : ans.updated with
      | false =>
        refine ⟨1 + 2, (alone_add hone).trans ?_⟩
        simp [alone, threadStep, hio, hr, hu]
      | true =>
        have hthree : alone maxClients ans (1 + 2) s (.release item) =
            some ((t.setupClient maxClients (t.overlapped item).clientSocket ans).forget item,
              .createSocket (.onAcceptComplete item)) :=
          (alone_add hone).trans (by simp [alone, threadStep, hu])
        obtain ⟨n, hn⟩ := alone_postAccept maxClients
          ((t.setupClient maxClients (t.overlapped item).clientSocket ans).forget item) ans
          (.onAcceptComplete item)
        have hret : ∀ b : Bool, (if b then (PostCaller.onAcceptComplete item).posted
            else (PostCaller.onAcceptComplete item).failed) = .returnItem item := by
          intro b
          cases b <;> rfl
        rw [hret] at hn
        refine ⟨1 + 2 + (n + 1), (alone_add hthree).trans ((alone_add hn).trans ?_)⟩
        simp [alone, threadStep, hio, hr]
  · exact ⟨1, by simp [alone, threadStep, hio]⟩

end AcceptThreads

/-! ## Who has an item -/

namespace AcceptPc

/-- The item of a request in the making. -/
def inner (x : Nat) : AcceptPc → Bool
  | .acceptEx item _ _ => item == x
  | .hold item _ => item == x
  | _ => false

end AcceptPc

def PostCaller.has (x : Nat) : PostCaller → Bool
  | .postAccepts _ => false
  | .onAcceptComplete item => item == x

namespace AcceptPc

/-- The item that `OnAcceptComplete` has released. -/
def outer (x : Nat) : AcceptPc → Bool
  | .createSocket caller => caller.has x
  | .prepare _ caller => caller.has x
  | .acceptEx _ _ caller => caller.has x
  | .hold _ caller => caller.has x
  | .updateContext item => item == x
  | .callback item => item == x
  | .returnItem item => item == x
  | _ => false

/-- Between `AcceptEx` and `Hold`. -/
def holding (x : Nat) : AcceptPc → Bool
  | .hold item _ => item == x
  | _ => false

/-- Between the dequeued completion and `Release`. -/
def releasing (x : Nat) : AcceptPc → Bool
  | .release item => item == x
  | _ => false

def carried (pc : AcceptPc) (x : Nat) : Nat := (pc.inner x).toNat + (pc.outer x).toNat

end AcceptPc

namespace AcceptThreads
variable (threadCount : Nat) (s : AcceptThreads) (x : Nat)

/-- The threads that have an item in hand. -/
def out : Nat :=
  tally threadCount s.threads (AcceptPc.inner x) + tally threadCount s.threads (AcceptPc.outer x)

/-- The requests of an item that no `Release` has answered yet. -/
def inFlight : Nat :=
  s.acceptor.requests.count x + tally threadCount s.threads (AcceptPc.releasing x)

end AcceptThreads

/-- Every `Release` finds its item; an item has one request at a time, released once; and what was
released is returned by the thread that did it. -/
structure FindsEvery (threadCount : Nat) (s : AcceptThreads) : Prop where
  found : ∀ item b, .released item b ∈ s.log → b = true
  released : ∀ item, s.log.count (.issued item) =
    s.log.count (.released item true) + s.inFlight threadCount item
  alone : ∀ item, s.inFlight threadCount item ≤ 1
  returned : ∀ item, s.log.count (.released item true) =
    s.log.count (.returned item) + tally threadCount s.threads (AcceptPc.outer item)

/-- A completion is dequeued when the thread that posted the request is behind `Hold`. -/
def HeldFirst (threadCount : Nat) (s : AcceptThreads) : AcceptLabel → Prop
  | .dequeue _ item => ∀ v < threadCount, (s.threads v).holding item = false
  | _ => True

instance (threadCount : Nat) :
    ∀ (s : AcceptThreads) (l : AcceptLabel), Decidable (HeldFirst threadCount s l)
  | s, .dequeue _ item =>
    inferInstanceAs (Decidable (∀ v < threadCount, (s.threads v).holding item = false))
  | _, .postAccepts _ _ => .isTrue trivial
  | _, .step _ _ => .isTrue trivial

/-! ## The invariant -/

/-- A request in flight has its item in the holder or in the hands of the thread that posted it,
and nobody is after the item in the second case. -/
structure HolderInv (threadCount : Nat) (s : AcceptThreads) : Prop where
  items : s.acceptor.ItemsOnce (s.out threadCount)
  ioType : ∀ x, (s.acceptor.overlapped x).ioType = .accept
  balance : ∀ x, s.inFlight threadCount x =
    s.acceptor.holder.count x + tally threadCount s.threads (AcceptPc.holding x)
  apart : ∀ x, 0 < tally threadCount s.threads (AcceptPc.releasing x) →
    tally threadCount s.threads (AcceptPc.holding x) = 0
  found : ∀ x b, .released x b ∈ s.log → b = true
  released : ∀ x, s.log.count (.issued x) =
    s.log.count (.released x true) + s.inFlight threadCount x
  returned : ∀ x, s.log.count (.released x true) =
    s.log.count (.returned x) + tally threadCount s.threads (AcceptPc.outer x)

section
variable {threadCount maxClients th item x : Nat} {s t : AcceptThreads} {a : Acceptor}
  {pc pc' : AcceptPc} {caller : PostCaller} {evs : List AcceptEvent}

@[simp] theorem failed_carried : caller.failed.carried x = (caller.has x).toNat := by
  cases caller <;> simp [PostCaller.failed, AcceptPc.carried, AcceptPc.inner, AcceptPc.outer,
    PostCaller.has]

@[simp] theorem posted_carried : caller.posted.carried x = (caller.has x).toNat := by
  cases caller with
  | postAccepts remaining =>
    cases remaining <;> rfl
  | onAcceptComplete item =>
    simp [PostCaller.posted, AcceptPc.carried, AcceptPc.inner, AcceptPc.outer, PostCaller.has]

/-- Behind `PostAccept` a thread has what its caller has, and is in no critical place. -/
structure Plain (caller : PostCaller) (pc : AcceptPc) (x : Nat) : Prop where
  outer : pc.outer x = caller.has x
  holding : pc.holding x = false
  releasing : pc.releasing x = false

theorem plain_failed : Plain caller caller.failed x := by
  cases caller with
  | postAccepts remaining => exact ⟨rfl, rfl, rfl⟩
  | onAcceptComplete item => exact ⟨rfl, rfl, rfl⟩

theorem plain_posted : Plain caller caller.posted x := by
  cases caller with
  | postAccepts remaining =>
    cases remaining with
    | zero => exact ⟨rfl, rfl, rfl⟩
    | succ remaining => exact ⟨rfl, rfl, rfl⟩
  | onAcceptComplete item => exact ⟨rfl, rfl, rfl⟩

theorem not_releasing_of_holding (h : pc.holding x = true) : pc.releasing x = false := by
  cases pc with
  | hold item caller => rfl
  | _ => simp [AcceptPc.holding] at h

theorem inner_of_holding (h : pc.holding x = true) : pc.inner x = true := by
  cases pc with
  | hold item caller => exact h
  | _ => simp [AcceptPc.holding] at h

theorem out_update (hth : th < threadCount) :
    AcceptThreads.out threadCount ⟨a, Function.update s.threads th pc', evs⟩ x +
        (s.threads th).carried x = s.out threadCount x + pc'.carried x := by
  have hinner := tally_update hth s.threads pc' (AcceptPc.inner x)
  have houter := tally_update hth s.threads pc' (AcceptPc.outer x)
  simp only [AcceptThreads.out, AcceptPc.carried]
  omega

/-- One thread moves; what it did is given item by item. -/
theorem HolderInv.move (h : HolderInv threadCount s) (hth : th < threadCount)
    (hitems : ∀ out' : Nat → Nat, (∀ x, out' x + (s.threads th).carried x =
      s.out threadCount x + pc'.carried x) → a.ItemsOnce out')
    (hio : ∀ x, (a.overlapped x).ioType = .accept)
    (hbal : ∀ x, a.requests.count x + (pc'.releasing x).toNat +
        (s.acceptor.holder.count x + ((s.threads th).holding x).toNat) =
      s.acceptor.requests.count x + ((s.threads th).releasing x).toNat +
        (a.holder.count x + (pc'.holding x).toNat))
    (hhold : ∀ x, pc'.holding x = true →
      tally threadCount s.threads (AcceptPc.releasing x) = 0)
    (hrel : ∀ x, pc'.releasing x = true → tally threadCount s.threads (AcceptPc.holding x) = 0)
    (hfound : ∀ x b, .released x b ∈ evs → b = true)
    (hissued : ∀ x, evs.count (.issued x) + s.acceptor.requests.count x +
        ((s.threads th).releasing x).toNat =
      evs.count (.released x true) + a.requests.count x + (pc'.releasing x).toNat)
    (hreturned : ∀ x, evs.count (.released x true) + ((s.threads th).outer x).toNat =
      evs.count (.returned x) + (pc'.outer x).toNat) :
    HolderInv threadCount ⟨a, Function.update s.threads th pc', s.log ++ evs⟩ := by
  have hreleasing := fun x => tally_update hth s.threads pc' (AcceptPc.releasing x)
  have hholding := fun x => tally_update hth s.threads pc' (AcceptPc.holding x)
  have houter := fun x => tally_update hth s.threads pc' (AcceptPc.outer x)
  refine ⟨hitems _ fun x => out_update hth, hio, fun x => ?_, fun x hpos => ?_, fun x b hm => ?_,
    fun x => ?_, fun x => ?_⟩
  · have hb := h.balance x
    have hd := hbal x
    have hr := hreleasing x
    have hh := hholding x
    simp only [AcceptThreads.inFlight] at hb ⊢
    omega
  · have hr := hreleasing x
    have hh := hholding x
    simp only at hpos ⊢
    cases hp : pc'.holding x with
    | true =>
      -- the thread has just posted the request: nobody can have dequeued it before
      have hzero := hhold x hp
      have hnot := not_releasing_of_holding hp
      rw [hnot] at hr
      simp at hr
      omega
    | false =>
      rw [hp] at hh
      cases hq : pc'.releasing x with
      | true =>
        have hzero := hrel x hq
        simp at hh
        omega
      | false =>
        rw [hq] at hr
        simp at hr hh
        have hzero := h.apart x (by omega)
        omega
  · rcases List.mem_append.mp hm with hm | hm
    · exact h.found x b hm
    · exact hfound x b hm
  · have hb := h.released x
    have hd := hissued x
    have hr := hreleasing x
    simp only [AcceptThreads.inFlight, List.count_append] at hb ⊢
    omega
  · have hb := h.returned x
    have hd := hreturned x
    have hr := houter x
    simp only [List.count_append]
    omega

/-- A thread that goes on with what it has, and leaves holder, pool and requests alone. -/
theorem HolderInv.go (h : HolderInv threadCount s) (hth : th < threadCount)
    (hpool : a.pool = s.acceptor.pool) (hholder : a.holder = s.acceptor.holder)
    (hreq : a.requests = s.acceptor.requests)
    (hio : ∀ x, (a.overlapped x).ioType = .accept)
    (hcarried : ∀ x, pc'.carried x = (s.threads th).carried x)
    (houter : ∀ x, pc'.outer x = (s.threads th).outer x)
    (hplain : ∀ x, pc'.holding x = false ∧ pc'.releasing x = false)
    (hold : ∀ x, (s.threads th).holding x = false ∧ (s.threads th).releasing x = false) :
    HolderInv threadCount ⟨a, Function.update s.threads th pc', s.log ++ []⟩ := by
  refine h.move hth ?_ hio ?_ ?_ ?_ (by simp) ?_ ?_
  · intro out' hout x
    have hx := h.items x
    have ho := hout x
    have hc := hcarried x
    rw [hpool, hholder]
    omega
  · intro x
    simp [hplain x, hold x, hholder, hreq]
  · intro x hx
    simp [hplain x] at hx
  · intro x hx
    simp [hplain x] at hx
  · intro x
    simp [hplain x, hold x, hreq]
  · intro x
    simp [houter x]

theorem setupClient_overlapped (maxClients : Nat) (a : Acceptor) (socket : Option SocketHandle)
    (ans : CompleteAnswers) :
    (a.setupClient maxClients socket ans).pool = a.pool ∧
      (a.setupClient maxClients socket ans).holder = a.holder ∧
      (a.setupClient maxClients socket ans).requests = a.requests ∧
      (a.setupClient maxClients socket ans).overlapped = a.overlapped := by
  obtain ⟨closed, clientPool, he⟩ := a.setupClient_frame maxClients socket ans
  rw [he]
  exact ⟨rfl, rfl, rfl, rfl⟩

/-- Writing an item does not make it another kind of request. -/
theorem ioType_update (h : ∀ x, (a.overlapped x).ioType = .accept) (item : Nat)
    {v : AcceptOverlapped} (hv : v.ioType = .accept) (x : Nat) :
    (Function.update a.overlapped item v x).ioType = .accept := by
  by_cases hx : x = item
  · subst hx
    simpa using hv
  · rw [Function.update_of_ne hx]
    exact h x

theorem HolderInv.createSocket {ans : CompleteAnswers} (h : HolderInv threadCount s)
    (hth : th < threadCount) (hpc : s.threads th = .createSocket caller)
    {r : Acceptor × AcceptPc × List AcceptEvent}
    (hr : AcceptThreads.threadStep maxClients s.acceptor ans (.createSocket caller) = some r) :
    HolderInv threadCount ⟨r.1, Function.update s.threads th r.2.1, s.log ++ r.2.2⟩ := by
  simp only [AcceptThreads.threadStep] at hr
  split at hr
  · cases hr
    refine h.go hth rfl rfl rfl h.ioType ?_ ?_ (fun _ => ⟨rfl, rfl⟩) (by simp [hpc,
      AcceptPc.holding, AcceptPc.releasing])
    · intro x
      simp [hpc, AcceptPc.carried, AcceptPc.inner, AcceptPc.outer]
    · intro x
      simp [hpc, AcceptPc.outer]
  · cases hr
    refine h.go hth rfl rfl rfl h.ioType ?_ (fun x => ?_) (fun x => ?_) (by simp [hpc,
      AcceptPc.holding, AcceptPc.releasing])
    · intro x
      rw [failed_carried, hpc]
      simp [AcceptPc.carried, AcceptPc.inner, AcceptPc.outer]
    · rw [plain_failed.outer, hpc]
      rfl
    · exact ⟨plain_failed.holding, plain_failed.releasing⟩

theorem HolderInv.prepare {ans : CompleteAnswers} {socket : SocketHandle}
    (h : HolderInv threadCount s) (hth : th < threadCount)
    (hpc : s.threads th = .prepare socket caller) :
    HolderInv threadCount ⟨s.acceptor.prepare ans.post.choice socket, Function.update s.threads th
      (.acceptEx (s.acceptor.pool.get ans.post.choice).1 socket caller), s.log ++ []⟩ := by
  refine h.move hth ?_ (ioType_update h.ioType _ rfl) ?_ ?_ ?_ (by simp) ?_ ?_
  · intro out' hout
    refine h.items.prepare socket fun x => ?_
    have hx := hout x
    simp only [hpc, AcceptPc.carried, AcceptPc.inner, AcceptPc.outer, Bool.toNat_false] at hx
    omega
  · intro x
    simp [hpc, AcceptPc.holding, AcceptPc.releasing, Acceptor.prepare]
  · simp [AcceptPc.holding]
  · simp [AcceptPc.releasing]
  · intro x
    simp [hpc, AcceptPc.releasing, Acceptor.prepare]
  · intro x
    simp [hpc, AcceptPc.outer]

theorem count_singleton_event {f : Nat → AcceptEvent} (hf : Function.Injective f) :
    List.count (f x) [f item] = (item == x).toNat := by
  by_cases hx : item = x
  · simp [hx]
  · have hne : f x ≠ f item := fun he => hx (hf he).symm
    have hb : (item == x) = false := beq_eq_false_iff_ne.mpr hx
    rw [hb, List.count_eq_zero.mpr (by simpa using hne)]
    rfl

theorem count_singleton_issued :
    List.count (.issued x) [AcceptEvent.issued item] = (item == x).toNat :=
  count_singleton_event fun _ _ => AcceptEvent.issued.inj

theorem count_singleton_released :
    List.count (.released x true) [AcceptEvent.released item true] = (item == x).toNat :=
  count_singleton_event (f := (.released · true)) fun _ _ he => (AcceptEvent.released.inj he).1

theorem count_singleton_returned :
    List.count (.returned x) [AcceptEvent.returned item] = (item == x).toNat :=
  count_singleton_event fun _ _ => AcceptEvent.returned.inj

/-- Nobody waits for an item that a thread is about to post. -/
theorem HolderInv.nobody_releasing {socket : SocketHandle} (h : HolderInv threadCount s)
    (hth : th < threadCount) (hpc : s.threads th = .acceptEx item socket caller) :
    tally threadCount s.threads (AcceptPc.releasing item) = 0 := by
  -- the thread has the one copy of the item, so nobody else is in front of `Hold` with it
  have hinner := tally_update hth s.threads .idle (AcceptPc.inner item)
  have hholding := tally_update hth s.threads .idle (AcceptPc.holding item)
  have hmono : tally threadCount (Function.update s.threads th .idle) (AcceptPc.holding item) ≤
      tally threadCount (Function.update s.threads th .idle) (AcceptPc.inner item) :=
    tally_mono fun pc => inner_of_holding
  have hitem := h.items item
  have hbal := h.balance item
  have hle : (if item < s.acceptor.pool.made then 1 else 0) ≤ 1 := by split <;> omega
  rw [hpc] at hinner hholding
  simp only [AcceptPc.inner, AcceptPc.holding, beq_self_eq_true, Bool.toNat_true,
    Bool.toNat_false] at hinner hholding
  simp only [AcceptThreads.out] at hitem
  simp only [AcceptThreads.inFlight] at hbal
  omega

theorem HolderInv.acceptEx {socket : SocketHandle} (h : HolderInv threadCount s)
    (hth : th < threadCount) (hpc : s.threads th = .acceptEx item socket caller) :
    HolderInv threadCount ⟨s.acceptor.acceptEx item,
      Function.update s.threads th (.hold item caller), s.log ++ [.issued item]⟩ := by
  refine h.move hth ?_ h.ioType ?_ ?_ ?_ (by simp) ?_ ?_
  · intro out' hout x
    have hx := hout x
    rw [hpc] at hx
    have hsame : out' x = s.out threadCount x := Nat.add_right_cancel hx
    rw [hsame]
    exact h.items x
  · intro x
    have hc := count_cons_toNat item x s.acceptor.requests
    simp only [hpc, AcceptPc.holding, AcceptPc.releasing, Acceptor.acceptEx, Bool.toNat_false]
    omega
  · intro x hx
    obtain rfl : item = x := beq_iff_eq.mp hx
    exact h.nobody_releasing hth hpc
  · simp [AcceptPc.releasing]
  · intro x
    have hc := count_cons_toNat item x s.acceptor.requests
    rw [count_singleton_issued]
    simp [hpc, AcceptPc.releasing, Acceptor.acceptEx]
    omega
  · intro x
    simp [hpc, AcceptPc.outer]

theorem HolderInv.acceptExFailed {socket : SocketHandle} (h : HolderInv threadCount s)
    (hth : th < threadCount) (hpc : s.threads th = .acceptEx item socket caller) :
    HolderInv threadCount ⟨(s.acceptor.returnItem item).closesocket (some socket),
      Function.update s.threads th caller.failed, s.log ++ []⟩ := by
  refine h.move hth ?_ h.ioType ?_ ?_ ?_ (by simp) ?_ ?_
  · intro out' hout
    have hret : (s.acceptor.returnItem item).ItemsOnce out' := by
      refine h.items.returnItem fun x => ?_
      have hx := hout x
      rw [failed_carried, hpc] at hx
      simp only [AcceptPc.carried, AcceptPc.inner, AcceptPc.outer] at hx
      omega
    exact hret
  · intro x
    rw [plain_failed.holding, plain_failed.releasing, hpc]
    rfl
  · intro x hx
    simp [plain_failed.holding] at hx
  · intro x hx
    simp [plain_failed.releasing] at hx
  · intro x
    rw [plain_failed.releasing, hpc]
    rfl
  · intro x
    rw [plain_failed.outer, hpc]
    rfl

theorem HolderInv.hold (h : HolderInv threadCount s) (hth : th < threadCount)
    (hpc : s.threads th = .hold item caller) :
    HolderInv threadCount ⟨s.acceptor.hold item, Function.update s.threads th caller.posted,
      s.log ++ []⟩ := by
  refine h.move hth ?_ h.ioType ?_ ?_ ?_ (by simp) ?_ ?_
  · intro out' hout
    refine h.items.hold fun x => ?_
    have hx := hout x
    rw [posted_carried, hpc] at hx
    simp only [AcceptPc.carried, AcceptPc.inner, AcceptPc.outer] at hx
    omega
  · intro x
    have hc := count_cons_toNat item x s.acceptor.holder
    rw [plain_posted.holding, plain_posted.releasing, hpc]
    simp only [AcceptPc.holding, AcceptPc.releasing, Acceptor.hold, Bool.toNat_false]
    omega
  · intro x hx
    simp [plain_posted.holding] at hx
  · intro x hx
    simp [plain_posted.releasing] at hx
  · intro x
    rw [plain_posted.releasing, hpc]
    rfl
  · intro x
    rw [plain_posted.outer, hpc]
    rfl

/-- **The holder has the item** when a thread comes to `Release`. -/
theorem HolderInv.held (h : HolderInv threadCount s) (hth : th < threadCount)
    (hpc : s.threads th = .release item) : item ∈ s.acceptor.holder := by
  have hpos : 0 < tally threadCount s.threads (AcceptPc.releasing item) :=
    tally_pos hth (by simp [hpc, AcceptPc.releasing])
  have hzero := h.apart item hpos
  have hbal := h.balance item
  simp only [AcceptThreads.inFlight] at hbal
  exact List.count_pos_iff.mp (by omega)

theorem HolderInv.release (h : HolderInv threadCount s) (hth : th < threadCount)
    (hpc : s.threads th = .release item) :
    HolderInv threadCount ⟨{ s.acceptor with holder := s.acceptor.holder.erase item },
      Function.update s.threads th (.updateContext item), s.log ++ [.released item true]⟩ := by
  have hm := h.held hth hpc
  refine h.move hth ?_ h.ioType ?_ ?_ ?_ (by simp) ?_ ?_
  · intro out' hout
    refine h.items.release hm fun x => ?_
    have hx := hout x
    simp only [hpc, AcceptPc.carried, AcceptPc.inner, AcceptPc.outer, Bool.toNat_false] at hx
    omega
  · intro x
    have hc := count_erase_add hm x
    simp only [hpc, AcceptPc.holding, AcceptPc.releasing, Bool.toNat_false]
    omega
  · simp [AcceptPc.holding]
  · simp [AcceptPc.releasing]
  · intro x
    rw [count_singleton_released]
    simp [hpc, AcceptPc.releasing]
    omega
  · intro x
    rw [count_singleton_released]
    simp [hpc, AcceptPc.outer]

theorem HolderInv.updateContext (updated : Bool) (h : HolderInv threadCount s)
    (hth : th < threadCount) (hpc : s.threads th = .updateContext item) :
    HolderInv threadCount ⟨s.acceptor,
      Function.update s.threads th (if updated then .callback item else .returnItem item),
      s.log ++ []⟩ := by
  -- Both ways on keep the item in the hands of the thread.
  refine h.go hth rfl rfl rfl h.ioType (fun x => ?_) (fun x => ?_) (fun x => ?_) (fun x => ?_)
  · cases updated <;> rw [hpc] <;> rfl
  · cases updated <;> rw [hpc] <;> rfl
  · cases updated <;> exact ⟨rfl, rfl⟩
  · rw [hpc]
    exact ⟨rfl, rfl⟩

theorem HolderInv.callback {ans : CompleteAnswers} (h : HolderInv threadCount s)
    (hth : th < threadCount) (hpc : s.threads th = .callback item) :
    HolderInv threadCount ⟨(s.acceptor.setupClient maxClients
        (s.acceptor.overlapped item).clientSocket ans).forget item,
      Function.update s.threads th (.createSocket (.onAcceptComplete item)), s.log ++ []⟩ := by
  obtain ⟨hpool, hholder, hreq, hover⟩ := setupClient_overlapped maxClients s.acceptor
    (s.acceptor.overlapped item).clientSocket ans
  refine h.go hth hpool hholder hreq ?_ ?_ ?_ (fun _ => ⟨rfl, rfl⟩) (by simp [hpc,
    AcceptPc.holding, AcceptPc.releasing])
  · apply ioType_update (by simpa [hover] using h.ioType)
    simpa [hover] using h.ioType item
  · intro x
    simp [hpc, AcceptPc.carried, AcceptPc.inner, AcceptPc.outer, PostCaller.has]
  · intro x
    simp [hpc, AcceptPc.outer, PostCaller.has]

theorem HolderInv.returnItem (h : HolderInv threadCount s) (hth : th < threadCount)
    (hpc : s.threads th = .returnItem item) :
    HolderInv threadCount ⟨(s.acceptor.cleanup item).returnItem item,
      Function.update s.threads th .idle, s.log ++ [.returned item]⟩ := by
  obtain ⟨closed, hclosed⟩ := s.acceptor.closesocket_frame
    (s.acceptor.overlapped item).clientSocket
  have he : s.acceptor.cleanup item = { s.acceptor with closed } := hclosed
  rw [he]
  refine h.move hth ?_ h.ioType ?_ ?_ ?_ (by simp) ?_ ?_
  · intro out' hout
    refine h.items.returnItem fun x => ?_
    have hx := hout x
    simp only [hpc, AcceptPc.carried, AcceptPc.inner, AcceptPc.outer, Bool.toNat_false] at hx
    omega
  · intro x
    simp [hpc, AcceptPc.holding, AcceptPc.releasing, Acceptor.returnItem]
  · simp [AcceptPc.holding]
  · simp [AcceptPc.releasing]
  · intro x
    simp [hpc, AcceptPc.releasing, Acceptor.returnItem]
  · intro x
    rw [count_singleton_returned]
    simp [hpc, AcceptPc.outer]

theorem HolderInv.thread {ans : CompleteAnswers} {r : Acceptor × AcceptPc × List AcceptEvent}
    (h : HolderInv threadCount s) (hth : th < threadCount)
    (hr : AcceptThreads.threadStep maxClients s.acceptor ans (s.threads th) = some r) :
    HolderInv threadCount ⟨r.1, Function.update s.threads th r.2.1, s.log ++ r.2.2⟩ := by
  cases hpc : s.threads th with
  | idle =>
    rw [hpc] at hr
    cases hr
  | createSocket caller =>
    rw [hpc] at hr
    exact h.createSocket hth hpc hr
  | prepare socket caller =>
    rw [hpc] at hr
    cases hr
    exact h.prepare hth hpc
  | acceptEx item socket caller =>
    rw [hpc] at hr
    simp only [AcceptThreads.threadStep] at hr
    split at hr
    · cases hr
      exact h.acceptEx hth hpc
    · cases hr
      exact h.acceptExFailed hth hpc
  | hold item caller =>
    rw [hpc] at hr
    cases hr
    exact h.hold hth hpc
  | release item =>
    have hfind : s.acceptor.release item =
        some { s.acceptor with holder := s.acceptor.holder.erase item } :=
      if_pos (h.held hth hpc)
    rw [hpc] at hr
    simp only [AcceptThreads.threadStep, ne_eq, h.ioType item, not_true_eq_false, if_false,
      hfind] at hr
    cases hr
    exact h.release hth hpc
  | updateContext item =>
    rw [hpc] at hr
    cases hr
    exact h.updateContext ans.updated hth hpc
  | callback item =>
    rw [hpc] at hr
    cases hr
    exact h.callback hth hpc
  | returnItem item =>
    rw [hpc] at hr
    cases hr
    exact h.returnItem hth hpc

/-- A completion leaves the kernel and comes to a thread. -/
theorem HolderInv.dequeue (h : HolderInv threadCount s) (hth : th < threadCount)
    (hidle : s.threads th = .idle) (hm : item ∈ s.acceptor.requests)
    (hok : ∀ v < threadCount, (s.threads v).holding item = false) :
    HolderInv threadCount ⟨{ s.acceptor with requests := s.acceptor.requests.erase item },
      Function.update s.threads th (.release item), s.log ++ []⟩ := by
  refine h.move hth ?_ h.ioType ?_ ?_ ?_ (by simp) ?_ ?_
  · intro out' hout x
    have hx := hout x
    rw [hidle] at hx
    have hsame : out' x = s.out threadCount x := hx
    rw [hsame]
    exact h.items x
  · intro x
    have hc := count_erase_add hm x
    simp only [hidle, AcceptPc.holding, AcceptPc.releasing, Bool.toNat_false]
    omega
  · simp [AcceptPc.holding]
  · intro x hx
    obtain rfl : item = x := beq_iff_eq.mp hx
    exact tally_eq_zero hok
  · intro x
    have hc := count_erase_add hm x
    simp only [hidle, AcceptPc.releasing, Bool.toNat_false, List.count_nil]
    omega
  · intro x
    simp [hidle, AcceptPc.outer]

theorem HolderInv.step {l : AcceptLabel} (h : HolderInv threadCount s)
    (hok : HeldFirst threadCount s l) (hs : s.step threadCount maxClients l = some t) :
    HolderInv threadCount t := by
  cases l with
  | postAccepts th count =>
    simp only [AcceptThreads.step, Option.ite_none_right_eq_some, Option.some.injEq] at hs
    obtain ⟨⟨hth, hidle⟩, rfl⟩ := hs
    rw [← List.append_nil s.log]
    refine h.go hth rfl rfl rfl h.ioType (fun x => ?_) (fun x => ?_) (fun x => ?_) (fun x => ?_)
    · rw [posted_carried, hidle]
      rfl
    · rw [plain_posted.outer, hidle]
      rfl
    · exact ⟨plain_posted.holding, plain_posted.releasing⟩
    · rw [hidle]
      exact ⟨rfl, rfl⟩
  | dequeue th item =>
    simp only [AcceptThreads.step, Acceptor.dequeue, Option.ite_none_right_eq_some,
      Option.map_eq_some_iff, Option.some.injEq] at hs
    obtain ⟨⟨hth, hidle⟩, u, ⟨hm, rfl⟩, rfl⟩ := hs
    have hd := h.dequeue hth hidle hm hok
    rwa [List.append_nil] at hd
  | step th ans =>
    simp only [AcceptThreads.step, Option.ite_none_right_eq_some, Option.map_eq_some_iff] at hs
    obtain ⟨hth, r, hr, rfl⟩ := hs
    exact h.thread hth hr

theorem holderInv_start (idle : Nat) :
    HolderInv threadCount (acceptThreads idle threadCount maxClients).start := by
  have hnone : ∀ p : AcceptPc → Bool, p .idle = false →
      tally threadCount (acceptThreads idle threadCount maxClients).start.threads p = 0 :=
    fun p hp => tally_eq_zero fun _ _ => hp
  refine ⟨fun x => ?_, fun _ => rfl, fun x => ?_, fun x _ => hnone _ rfl, ?_, fun x => ?_,
    fun x => ?_⟩
  · rw [AcceptThreads.out, hnone _ rfl, hnone _ rfl]
    exact Acceptor.itemsOnce_new idle x
  · rw [AcceptThreads.inFlight, hnone _ rfl, hnone _ rfl]
    rfl
  · simp [acceptThreads]
  · rw [AcceptThreads.inFlight, hnone _ rfl]
    rfl
  · rw [hnone _ rfl]
    rfl

theorem HolderInv.findsEvery (h : HolderInv threadCount s) : FindsEvery threadCount s := by
  refine ⟨h.found, h.released, fun x => ?_, h.returned⟩
  have hmono : tally threadCount s.threads (AcceptPc.holding x) ≤
      tally threadCount s.threads (AcceptPc.inner x) := tally_mono fun pc => inner_of_holding
  have hbal := h.balance x
  have hitem := h.items x
  have hle : (if x < s.acceptor.pool.made then 1 else 0) ≤ 1 := by split <;> omega
  simp only [AcceptThreads.out] at hitem
  omega

end

/-- **Every completion finds its request**, and every item is released once and returned, in every
run in which no completion is dequeued before its request is in the holder. -/
theorem accept_completion_finds_request (idle threadCount maxClients : Nat) {s : AcceptThreads}
    (h : (acceptThreads idle threadCount maxClients).Reach (HeldFirst threadCount) s) :
    FindsEvery threadCount s :=
  (h.invariant (holderInv_start idle) fun _ hi hok hs => hi.step hok hs).findsEvery

/-- The main thread posts two requests, and a worker handles the completion of the first one while
the second is being posted. -/
theorem accept_completion_found : ∃ s,
    (acceptThreads 0 2 1).Reach (HeldFirst 2) s ∧ .released 0 true ∈ s.log ∧
      .returned 0 ∈ s.log ∧ .issued 2 ∈ s.log ∧ FindsEvery 2 s := by
  obtain ⟨s, hr, hp⟩ := System.reach_of_exec (acceptThreads 0 2 1) (HeldFirst 2)
    (.postAccepts 0 2 :: List.replicate 7 (.step 0 .allOk) ++
      .dequeue 1 0 :: List.replicate 3 (.step 1 .allOk) ++ .step 0 .allOk ::
      List.replicate 5 (.step 1 .allOk))
    (fun s => s.log.contains (.released 0 true) && s.log.contains (.returned 0) &&
      s.log.contains (.issued 2)) (by decide +kernel)
  simp only [Bool.and_eq_true, List.contains_iff_mem] at hp
  exact ⟨s, hr, hp.1.1, hp.1.2, hp.2, accept_completion_finds_request 0 2 1 hr⟩

/-- A connection arrives between `AcceptEx` and `Hold`: the worker that gets it finds nothing in
the holder. -/
theorem accept_completion_overtakes_hold : ∃ s,
    (acceptThreads 0 2 1).Reach System.always s ∧ .released 0 false ∈ s.log ∧
      ¬ FindsEvery 2 s := by
  obtain ⟨s, hr, hp⟩ := System.reach_of_exec (acceptThreads 0 2 1) System.always
    [.postAccepts 0 1, .step 0 .allOk, .step 0 .allOk, .step 0 .allOk, .dequeue 1 0,
      .step 1 .allOk, .step 0 .allOk]
    (fun s => s.log.contains (.released 0 false)) (by decide +kernel)
  have hm := List.contains_iff_mem.mp hp
  refine ⟨s, hr, hm, fun h => ?_⟩
  cases h.found 0 false hm

end Highp.Network

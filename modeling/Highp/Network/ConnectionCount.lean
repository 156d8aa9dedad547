import Highp.Lib.Ownership
import Highp.Network.Lifecycle

/-! `GetConnectedClientCount` against the pool. The counter follows two flags of each client, which
`SetupClient` sets and `Close` clears at other moments than the socket; while no two threads are at
this on the same slot, one program counter tells what flags, socket and counter have in common. -/

namespace Highp.Network
open Highp.Lib

/-- The slot that a thread is setting up, from the assignment on, or closing. -/
def ThreadPc.owner : ThreadPc → Option Slot
  | .associate client => some client
  | .postFirstRecv client => some client
  | .markEstablished client => some client
  | .testEstablished client => some client
  | .setCounted client => some client
  | .onConnected client => some client
  | .onAccept client => some client
  | .testCounted client _ => some client
  | .clearFlags client _ => some client
  | .loadCount client _ => some client
  | .subCount client _ => some client
  | .testSocket client _ => some client
  | .closeSocket client _ => some client
  | .resetSocket client _ => some client
  | _ => none

/-- A slot is assigned when it is free, and `SetupClient` or `Close` begins on it, when no other
thread is in either of them for that slot. -/
def OneAtATime (cfg : LifecycleCfg) (s : Lifecycle) : LifecycleLabel → Prop
  | .step th ok =>
    (match s.threads th with
    | .assign _ client => !(s.clientPool client).isConnected &&
        s.nobodyElse cfg th fun pc => pc.owner == some client
    | .onRecv client => ok || s.nobodyElse cfg th fun pc => pc.owner == some client
    | .closeClient client _ => s.nobodyElse cfg th fun pc => pc.owner == some client
    | _ => true) = true
  | .close th client => s.nobodyElse cfg th (fun pc => pc.owner == some client) = true
  | .accepted _ _ | .recvDone _ _ _ => True

instance (cfg : LifecycleCfg) :
    ∀ (s : Lifecycle) (l : LifecycleLabel), Decidable (OneAtATime cfg s l)
  | _, .step _ _ => inferInstanceAs (Decidable (_ = true))
  | _, .close _ _ => inferInstanceAs (Decidable (_ = true))
  | _, .accepted _ _ => .isTrue trivial
  | _, .recvDone _ _ _ => .isTrue trivial

/-! ## The callbacks of one slot -/

/-- Follow the callbacks of a slot: `none` once two of a kind have come in a row. -/
def ConnEvent.follow (i : Slot) : Option Bool → ConnEvent → Option Bool
  | none, _ => none
  | some b, .connected j => if j = i then (if b then none else some true) else some b
  | some b, .disconnected j => if j = i then (if b then some false else none) else some b

/-- Whether the last callback of the slot was `onConnected`. -/
def linked (events : List ConnEvent) (i : Slot) : Option Bool :=
  events.foldl (ConnEvent.follow i) (some false)

theorem linked_snoc (events : List ConnEvent) (e : ConnEvent) (i : Slot) :
    linked (events ++ [e]) i = ConnEvent.follow i (linked events i) e := by
  simp [linked]

theorem linked_other {events : List ConnEvent} {i j : Slot} (hij : i ≠ j) :
    linked (events ++ [.connected j]) i = linked events i ∧
      linked (events ++ [.disconnected j]) i = linked events i := by
  rw [linked_snoc, linked_snoc]
  cases linked events i with
  | none => exact ⟨rfl, rfl⟩
  | some b => simp [ConnEvent.follow, Ne.symm hij]

theorem foldl_follow_none (i : Slot) (events : List ConnEvent) :
    events.foldl (ConnEvent.follow i) none = none := by
  induction events with
  | nil => rfl
  | cons e events ih => exact ih

/-- From one `onConnected` to a next one: there was one `onDisconnected` in between. -/
theorem count_disconnected {i : Slot} {mid : List ConnEvent} (hno : .connected i ∉ mid) {b : Bool}
    (h : mid.foldl (ConnEvent.follow i) (some b) = some false) :
    mid.count (.disconnected i) = b.toNat := by
  induction mid generalizing b with
  | nil =>
    cases h
    rfl
  | cons e mid ih =>
    rw [List.mem_cons, not_or] at hno
    rw [List.foldl_cons] at h
    cases e with
    | connected j =>
      have hj : j ≠ i := fun he => hno.1 (by rw [he])
      rw [List.count_cons_of_ne (by simp)]
      apply ih hno.2
      simpa [ConnEvent.follow, hj] using h
    | disconnected j =>
      by_cases hj : j = i
      · subst hj
        rw [List.count_cons_self]
        cases b with
        | true =>
          have hrest := ih hno.2 (b := false) (by simpa [ConnEvent.follow] using h)
          rw [hrest]
          rfl
        | false => simp [ConnEvent.follow, foldl_follow_none] at h
      · rw [List.count_cons_of_ne (by simpa using hj)]
        apply ih hno.2
        simpa [ConnEvent.follow, hj] using h

/-- Callbacks that never break off alternate. -/
theorem connected_then_disconnected {events pre mid post : List ConnEvent} {i : Slot}
    (h : linked events i ≠ none) (he : events = pre ++ .connected i :: mid ++ .connected i :: post)
    (hno : .connected i ∉ mid) : mid.count (.disconnected i) = 1 := by
  have hsplit : linked events i = (.connected i :: post).foldl (ConnEvent.follow i)
      (mid.foldl (ConnEvent.follow i) (ConnEvent.follow i (linked pre i) (.connected i))) := by
    simp [he, linked]
  rw [hsplit] at h
  cases hp : ConnEvent.follow i (linked pre i) (.connected i) with
  | none =>
    rw [hp, foldl_follow_none, foldl_follow_none] at h
    exact absurd rfl h
  | some b =>
    have hb : b = true := by
      cases hl : linked pre i with
      | none => simp [hl, ConnEvent.follow] at hp
      | some c =>
        cases c with
        | true => simp [hl, ConnEvent.follow] at hp
        | false => simpa [hl, ConnEvent.follow] using hp.symm
    subst hb
    rw [hp, List.foldl_cons] at h
    cases hm : mid.foldl (ConnEvent.follow i) (some true) with
    | none => simp [hm, ConnEvent.follow, foldl_follow_none] at h
    | some c =>
      cases c with
      | true => simp [hm, ConnEvent.follow, foldl_follow_none] at h
      | false => exact count_disconnected hno hm

/-! ## What a program counter says about its slot -/

/-- Flags, socket and callbacks of a slot in the hands of a thread at `pc`. -/
def Owned (pc : ThreadPc) (c : Client) (link : Option Bool) : Prop :=
  match pc with
  | .associate _ | .postFirstRecv _ | .markEstablished _ =>
    c.connectionEstablished = false ∧ c.connectionEventCounted = false ∧
      c.isConnected = true ∧ link = some false
  | .testEstablished _ | .setCounted _ =>
    c.connectionEstablished = true ∧ c.connectionEventCounted = false ∧
      c.isConnected = true ∧ link = some false
  | .onConnected _ =>
    c.connectionEstablished = true ∧ c.connectionEventCounted = true ∧
      c.isConnected = true ∧ link = some false
  | .onAccept _ =>
    c.connectionEstablished = true ∧ c.connectionEventCounted = true ∧
      c.isConnected = true ∧ link = some true
  | .testCounted _ _ => ∃ b, c.connectionEstablished = b ∧ c.connectionEventCounted = b ∧
      (b = true → c.isConnected = true) ∧ link = some b
  | .clearFlags _ _ => c.isConnected = true ∧ link = some true
  | .loadCount _ _ | .subCount _ _ =>
    c.connectionEstablished = false ∧ c.connectionEventCounted = false ∧
      c.isConnected = true ∧ link = some true
  | .testSocket _ _ | .closeSocket _ _ | .resetSocket _ _ =>
    c.connectionEstablished = false ∧ c.connectionEventCounted = false ∧ link = some false
  | _ => True

/-- Wherever the owner of a slot is, the callbacks of the slot have alternated. -/
theorem Owned.linked {pc : ThreadPc} {c : Client} {link : Option Bool} {i : Slot}
    (h : Owned pc c link) (ho : pc.owner = some i) : ∃ b, link = some b := by
  cases pc with
  | associate | postFirstRecv | markEstablished | testEstablished | setCounted | onConnected |
    onAccept | loadCount | subCount => exact ⟨_, h.2.2.2⟩
  | testSocket | closeSocket | resetSocket => exact ⟨_, h.2.2⟩
  | testCounted =>
    obtain ⟨b, -, -, -, hb⟩ := h
    exact ⟨b, hb⟩
  | clearFlags => exact ⟨_, h.2⟩
  | _ => cases ho

/-- A slot that nobody is at: flags, socket and callbacks agree. -/
def AtRest (c : Client) (link : Option Bool) : Prop :=
  c.connectionEstablished = c.isConnected ∧ c.connectionEventCounted = c.isConnected ∧
    link = some c.isConnected

structure CountExact (cfg : LifecycleCfg) (s : Lifecycle) : Prop where
  others : ∀ th, cfg.threadCount ≤ th → s.threads th = .idle
  taken : ∀ th h i, s.threads th = .assign h i → i < cfg.maxClients
  range : ∀ i, (s.clientPool i).isConnected = true → i < cfg.maxClients
  alone : Exclusive (fun v => (s.threads v).owner) fun _ => True
  owned : ∀ v i, (s.threads v).owner = some i →
    Owned (s.threads v) (s.clientPool i) (linked s.events i)
  rest : ∀ i, (∀ v, (s.threads v).owner ≠ some i) →
    AtRest (s.clientPool i) (linked s.events i)
  count : s.connectedClientCount = tally cfg.maxClients (linked s.events) fun l => l == some true

section
variable {cfg : LifecycleCfg} {s t u : Lifecycle} {th : Nat} {ok : Bool} {pc pc' : ThreadPc}
  {i j : Slot}

/-- A thread moves while it has slot `j` to itself: it keeps it, takes it, or leaves it at rest. -/
theorem CountExact.move (h : CountExact cfg s) (hth : th < cfg.threadCount)
    (hu : u.threads = s.threads)
    (hfrom : ∀ i, (s.threads th).owner = some i → i = j)
    (halone : ∀ v, v ≠ th → (s.threads v).owner ≠ some j)
    (hpool : ∀ i, i ≠ j → u.clientPool i = s.clientPool i)
    (hlink : ∀ i, i ≠ j → linked u.events i = linked s.events i)
    (hto : pc'.owner = some j ∧ Owned pc' (u.clientPool j) (linked u.events j) ∨
      pc'.owner = none ∧ AtRest (u.clientPool j) (linked u.events j))
    (htaken : ∀ k i, pc' ≠ .assign k i)
    (hrange : (u.clientPool j).isConnected = true → j < cfg.maxClients)
    (hcount : u.connectedClientCount =
      tally cfg.maxClients (linked u.events) fun l => l == some true) :
    CountExact cfg (u.setThread th pc') := by
  -- nobody else's slot is touched
  have hother : ∀ v i, v ≠ th → (s.threads v).owner = some i → i ≠ j := by
    rintro v i hv hi rfl
    exact halone v hv hi
  refine ⟨others_setThread h.others hth hu, ?_, ?_, ?_, ?_, ?_, hcount⟩
  · intro v k i hv
    by_cases hvt : v = th
    · subst hvt
      rw [setThread_self] at hv
      exact absurd hv (htaken k i)
    · rw [setThread_other hu hvt] at hv
      exact h.taken v k i hv
  · intro i hi
    by_cases hij : i = j
    · subst hij
      exact hrange hi
    · exact h.range i (hpool i hij ▸ hi)
  · refine h.alone.change (i := th) (fun v hv => by rw [setThread_other hu hv]) ?_
      (fun _ _ _ _ => trivial)
    intro i hi
    rw [setThread_self] at hi
    refine ⟨trivial, fun v hv => ?_⟩
    rcases hto with ⟨hj, -⟩ | ⟨hn, -⟩
    · rw [hj, Option.some.injEq] at hi
      exact hi ▸ halone v hv
    · simp [hn] at hi
  · intro v i hi
    by_cases hvt : v = th
    · subst hvt
      rw [setThread_self] at hi ⊢
      rcases hto with ⟨hj, ho⟩ | ⟨hn, -⟩
      · rw [hj, Option.some.injEq] at hi
        exact hi ▸ ho
      · simp [hn] at hi
    · rw [setThread_other hu hvt] at hi ⊢
      have hij := hother v i hvt hi
      have ho := h.owned v i hi
      rw [← hpool i hij, ← hlink i hij] at ho
      exact ho
  · intro i hnone
    by_cases hij : i = j
    · subst hij
      rcases hto with ⟨hj, -⟩ | ⟨-, hr⟩
      · exact absurd hj (by simpa [setThread_self] using hnone th)
      · exact hr
    · have hr := h.rest i fun v hv => by
        by_cases hvt : v = th
        · exact hij (hfrom i (hvt ▸ hv))
        · exact hnone v (by rw [setThread_other hu hvt]; exact hv)
      rw [← hpool i hij, ← hlink i hij] at hr
      exact hr

/-- A thread that has no slot moves on without one. -/
theorem CountExact.pass (h : CountExact cfg s) (hth : th < cfg.threadCount)
    (hu : u.threads = s.threads) (hpool : u.clientPool = s.clientPool)
    (hevents : u.events = s.events) (hcount : u.connectedClientCount = s.connectedClientCount)
    (hfrom : (s.threads th).owner = none) (hto : pc'.owner = none)
    (htaken : ∀ k i, pc' = .assign k i → i < cfg.maxClients) :
    CountExact cfg (u.setThread th pc') := by
  have howner : ∀ v, ((u.setThread th pc').threads v).owner = (s.threads v).owner := by
    intro v
    by_cases hvt : v = th
    · rw [hvt, setThread_self, hto, hfrom]
    · rw [setThread_other hu hvt]
  refine ⟨others_setThread h.others hth hu, ?_, ?_, ?_, ?_, ?_, ?_⟩
  · intro v k i hv
    by_cases hvt : v = th
    · subst hvt
      rw [setThread_self] at hv
      exact htaken k i hv
    · rw [setThread_other hu hvt] at hv
      exact h.taken v k i hv
  · intro i hi
    exact h.range i (hpool ▸ hi)
  · constructor
    · exact fun _ => trivial
    · intro v w i hv hw
      rw [howner] at hv hw
      exact h.alone.unique hv hw
  · intro v i hi
    have hvt : v ≠ th := by
      rintro rfl
      rw [howner, hfrom] at hi
      simp at hi
    rw [howner] at hi
    rw [setThread_other hu hvt]
    show Owned (s.threads v) (u.clientPool i) (linked u.events i)
    rw [hpool, hevents]
    exact h.owned v i hi
  · intro i hnone
    show AtRest (u.clientPool i) (linked u.events i)
    rw [hpool, hevents]
    exact h.rest i fun v => by rw [← howner]; exact hnone v
  · show u.connectedClientCount = tally cfg.maxClients (linked u.events) _
    rw [hcount, hevents]
    exact h.count

theorem CountExact.owner_alone (h : CountExact cfg s) (hj : (s.threads th).owner = some j) :
    (∀ i, (s.threads th).owner = some i → i = j) ∧
      ∀ v, v ≠ th → (s.threads v).owner ≠ some j := by
  refine ⟨fun i hi => ?_, fun v hv hvj => hv (h.alone.unique hvj hj)⟩
  rw [hj, Option.some.injEq] at hi
  exact hi.symm

/-- A thread goes on with its slot; no callback runs. -/
theorem CountExact.inside (h : CountExact cfg s) (hth : th < cfg.threadCount)
    (hj : (s.threads th).owner = some j) (hu : u.threads = s.threads)
    (hpool : ∀ i, i ≠ j → u.clientPool i = s.clientPool i) (hevents : u.events = s.events)
    (hcount : u.connectedClientCount = s.connectedClientCount)
    (hconn : (u.clientPool j).isConnected = true → (s.clientPool j).isConnected = true)
    (hto : pc'.owner = some j ∧ Owned pc' (u.clientPool j) (linked s.events j) ∨
      pc'.owner = none ∧ AtRest (u.clientPool j) (linked s.events j))
    (htaken : ∀ k i, pc' ≠ .assign k i) : CountExact cfg (u.setThread th pc') := by
  obtain ⟨hfrom, halone⟩ := h.owner_alone hj
  refine h.move hth hu hfrom halone hpool (fun i _ => by rw [hevents]) ?_ htaken
    (fun hc => h.range j (hconn hc)) ?_
  · rwa [hevents]
  · rw [hcount, hevents]
    exact h.count

/-- A thread goes on with its slot and leaves flags, socket and callbacks alone. -/
theorem CountExact.advance (h : CountExact cfg s) (hth : th < cfg.threadCount)
    (hj : (s.threads th).owner = some j) (hu : u.threads = s.threads)
    (hpool : u.clientPool = s.clientPool) (hevents : u.events = s.events)
    (hcount : u.connectedClientCount = s.connectedClientCount) (hto : pc'.owner = some j)
    (ho : Owned pc' (s.clientPool j) (linked s.events j)) :
    CountExact cfg (u.setThread th pc') := by
  refine h.inside hth hj hu (fun i _ => by rw [hpool]) hevents hcount ?_ (Or.inl ⟨hto, ?_⟩) ?_
  · rw [hpool]
    exact id
  · rwa [hpool]
  · rintro k i rfl
    simp [ThreadPc.owner] at hto

/-- A thread writes the client of its slot. -/
theorem CountExact.write {c : Client} (h : CountExact cfg s) (hth : th < cfg.threadCount)
    (hj : (s.threads th).owner = some j)
    (hconn : c.isConnected = true → (s.clientPool j).isConnected = true)
    (hto : pc'.owner = some j ∧ Owned pc' c (linked s.events j) ∨
      pc'.owner = none ∧ AtRest c (linked s.events j))
    (htaken : ∀ k i, pc' ≠ .assign k i) :
    CountExact cfg ((s.setClient j c).setThread th pc') := by
  refine h.inside hth hj rfl (setClient_other s c) rfl rfl ?_ ?_ htaken
  · rwa [setClient_self]
  · rwa [setClient_self]

/-- A slot that no other thread has is at rest when this one has none. -/
theorem CountExact.atRest (h : CountExact cfg s) (hfrom : (s.threads th).owner = none)
    (hnobody : ∀ v, v ≠ th → (s.threads v).owner ≠ some j) :
    AtRest (s.clientPool j) (linked s.events j) := by
  apply h.rest
  intro v
  by_cases hv : v = th
  · rw [hv, hfrom]
    simp
  · exact hnobody v hv

/-- `Close` begins on a slot that is at rest. -/
theorem CountExact.enter (h : CountExact cfg s) (hth : th < cfg.threadCount)
    (hfrom : (s.threads th).owner = none)
    (hnobody : ∀ v, v ≠ th → (s.threads v).owner ≠ some j) (ret : ReturnTo) :
    CountExact cfg (s.setThread th (.testCounted j ret)) := by
  obtain ⟨hest, hcounted, hlink⟩ := h.atRest hfrom hnobody
  refine h.move hth rfl (by simp [hfrom]) hnobody (fun _ _ => rfl) (fun _ _ => rfl) ?_ (by simp)
    (h.range j) h.count
  exact Or.inl ⟨rfl, (s.clientPool j).isConnected, hest, hcounted, id, hlink⟩

/-- The assignment, to a slot that is free and at rest. -/
theorem CountExact.assign {k : SocketHandle} (h : CountExact cfg s) (hth : th < cfg.threadCount)
    (hpc : s.threads th = .assign k j) (hfree : (s.clientPool j).isConnected = false)
    (hnobody : ∀ v, v ≠ th → (s.threads v).owner ≠ some j)
    (hs : ThreadStep cfg s ok (.assign k j) t pc') : CountExact cfg (t.setThread th pc') := by
  have hfrom : (s.threads th).owner = none := by rw [hpc]; rfl
  obtain ⟨hest, hcounted, hlink⟩ := h.atRest hfrom hnobody
  rw [hfree] at hest hcounted hlink
  cases hs
  refine h.move hth rfl (by simp [hfrom]) hnobody (setClient_other s _) (fun _ _ => rfl) ?_
    (by simp) (fun _ => h.taken th k j hpc) h.count
  refine Or.inl ⟨rfl, ?_⟩
  simp only [setClient_self]
  exact ⟨hest, hcounted, rfl, hlink⟩

/-- Only the slot of the callback counts differently afterwards. -/
theorem tally_linked (events : List ConnEvent) (e : ConnEvent) (hj : j < cfg.maxClients)
    (hother : ∀ i, i ≠ j → linked (events ++ [e]) i = linked events i) :
    tally cfg.maxClients (linked (events ++ [e])) (fun l => l == some true) +
      (linked events j == some true).toNat =
    tally cfg.maxClients (linked events) (fun l => l == some true) +
      (linked (events ++ [e]) j == some true).toNat :=
  tally_write hj fun i hi => by rw [hother i hi]

theorem CountExact.count_lt (h : CountExact cfg s) : s.connectedClientCount < 2 ^ 31 := by
  rw [h.count]
  exact Nat.lt_of_le_of_lt (tally_le _ _ _) cfg.maxClients_lt

theorem CountExact.onConnected (h : CountExact cfg s) (hth : th < cfg.threadCount)
    (hpc : s.threads th = .onConnected j) (hs : ThreadStep cfg s ok (.onConnected j) t pc') :
    CountExact cfg (t.setThread th pc') := by
  have hj : (s.threads th).owner = some j := by rw [hpc]; rfl
  have hown := h.owner_alone hj
  have ho := h.owned th j hj
  rw [hpc] at ho
  obtain ⟨hest, hcounted, hconn, hlink⟩ := ho
  have hnew : linked (s.events ++ [.connected j]) j = some true := by
    simp [linked_snoc, hlink, ConnEvent.follow]
  have hother : ∀ i, i ≠ j → linked (s.events ++ [.connected j]) i = linked s.events i :=
    fun i hi => (linked_other hi).1
  have htally := tally_linked s.events (.connected j) (h.range j hconn) hother
  have hlt := h.count_lt
  have hcount := h.count
  cases hs
  refine h.move hth rfl hown.1 hown.2 (fun _ _ => rfl) hother ?_ (by simp) (h.range j) ?_
  · exact Or.inl ⟨rfl, hest, hcounted, hconn, hnew⟩
  · show (s.connectedClientCount + 1) % 2 ^ 64 =
      tally cfg.maxClients (linked (s.events ++ [.connected j])) fun l => l == some true
    rw [Nat.mod_eq_of_lt (by omega)]
    simp only [hlink, hnew] at htally
    simp at htally
    omega

/-- The decrement: the slot is counted, so there is something to subtract from. -/
theorem CountExact.sub {ret : ReturnTo} (h : CountExact cfg s) (hth : th < cfg.threadCount)
    (hpc : s.threads th = .subCount j ret) (hs : ThreadStep cfg s ok (.subCount j ret) t pc') :
    CountExact cfg (t.setThread th pc') := by
  have hj : (s.threads th).owner = some j := by rw [hpc]; rfl
  have hown := h.owner_alone hj
  have ho := h.owned th j hj
  rw [hpc] at ho
  obtain ⟨hest, hcounted, hconn, hlink⟩ := ho
  have hnew : linked (s.events ++ [.disconnected j]) j = some false := by
    simp [linked_snoc, hlink, ConnEvent.follow]
  have hother : ∀ i, i ≠ j → linked (s.events ++ [.disconnected j]) i = linked s.events i :=
    fun i hi => (linked_other hi).2
  have htally := tally_linked s.events (.disconnected j) (h.range j hconn) hother
  have hlt := h.count_lt
  have hcount := h.count
  simp only [hlink, hnew] at htally
  simp at htally
  cases hs
  refine h.move hth rfl hown.1 hown.2 (fun _ _ => rfl) hother ?_ (by simp) (h.range j) ?_
  · exact Or.inl ⟨rfl, hest, hcounted, hnew⟩
  · show sizeSub s.connectedClientCount 1 =
      tally cfg.maxClients (linked (s.events ++ [.disconnected j])) fun l => l == some true
    rw [sizeSub_eq (by omega) (by omega)]
    omega

theorem owner_ret (ret : ReturnTo) (i : Slot) : (ret.pc i).owner = none := by
  cases ret <;> rfl

theorem ret_ne_assign (ret : ReturnTo) (i : Slot) (k : SocketHandle) (j : Slot) :
    ret.pc i ≠ .assign k j := by
  cases ret <;> simp [ReturnTo.pc]

theorem CountExact.thread (h : CountExact cfg s) (hok : OneAtATime cfg s (.step th ok))
    (hs : ThreadStep cfg s ok (s.threads th) t pc') : CountExact cfg (t.setThread th pc') := by
  have hth : th < cfg.threadCount := hs.lt_threadCount h.others
  have hnobody : ∀ {j}, s.nobodyElse cfg th (fun pc => pc.owner == some j) = true →
      ∀ v, v ≠ th → (s.threads v).owner ≠ some j := by
    intro j hn v hv he
    rw [nobodyElse_iff h.others (by simp [ThreadPc.owner])] at hn
    simpa [he] using hn v hv
  generalize hpc : s.threads th = pc at hs
  have hstep := hs
  have howned : ∀ {j}, pc.owner = some j →
      (s.threads th).owner = some j ∧ Owned pc (s.clientPool j) (linked s.events j) := by
    intro j hj
    rw [← hpc] at hj ⊢
    exact ⟨hj, h.owned th j hj⟩
  cases hs with
  | found hf =>
    refine h.pass hth rfl rfl rfl rfl (by rw [hpc]; rfl) rfl ?_
    intro k i he
    cases he
    exact List.mem_range.mp (List.mem_of_find?_eq_some hf)
  | assign =>
    simp only [OneAtATime, hpc, Bool.and_eq_true, Bool.not_eq_true'] at hok
    exact h.assign hth hpc hok.1 (hnobody hok.2) hstep
  | associate =>
    obtain ⟨hj, ho⟩ := howned rfl
    exact h.advance hth hj rfl rfl rfl rfl rfl ho
  | associateFailed =>
    obtain ⟨hj, hest, hcounted, hconn, hlink⟩ := howned rfl
    exact h.advance hth hj rfl rfl rfl rfl rfl ⟨false, hest, hcounted, by simp, hlink⟩
  | firstRecv =>
    obtain ⟨hj, ho⟩ := howned rfl
    exact h.advance hth hj rfl rfl rfl rfl rfl ho
  | firstRecvFailed =>
    obtain ⟨hj, hest, hcounted, hconn, hlink⟩ := howned rfl
    exact h.advance hth hj rfl rfl rfl rfl rfl ⟨false, hest, hcounted, by simp, hlink⟩
  | mark =>
    obtain ⟨hj, hest, hcounted, hconn, hlink⟩ := howned rfl
    exact h.write hth hj id (Or.inl ⟨rfl, rfl, hcounted, hconn, hlink⟩) (by simp)
  | alreadyCounted hc =>
    obtain ⟨hj, hest, hcounted, hconn, hlink⟩ := howned rfl
    simp [hest, hcounted] at hc
  | uncounted =>
    obtain ⟨hj, ho⟩ := howned rfl
    exact h.advance hth hj rfl rfl rfl rfl rfl ho
  | setCounted =>
    obtain ⟨hj, hest, hcounted, hconn, hlink⟩ := howned rfl
    exact h.write hth hj id (Or.inl ⟨rfl, hest, rfl, hconn, hlink⟩) (by simp)
  | onConnected => exact h.onConnected hth hpc hstep
  | onAccept =>
    obtain ⟨hj, hest, hcounted, hconn, hlink⟩ := howned rfl
    refine h.inside hth hj rfl (fun _ _ => rfl) rfl rfl id (Or.inr ⟨rfl, ?_⟩) (by simp)
    exact ⟨by rw [hest, hconn], by rw [hcounted, hconn], by rw [hlink, hconn]⟩
  | rejected _ hfalse =>
    simp only [OneAtATime, hpc, hfalse, Bool.false_or] at hok
    exact h.enter hth (by rw [hpc]; rfl) (hnobody hok) .handleRecv
  | @closeClient i ret =>
    simp only [OneAtATime, hpc] at hok
    exact h.enter hth (by rw [hpc]; rfl) (hnobody hok) ret
  | counted hem =>
    obtain ⟨hj, b, hest, hcounted, hconn, hlink⟩ := howned rfl
    have hb : b = true := by
      simpa [Client.emitsDisconnected, hest, hcounted] using hem
    subst hb
    exact h.advance hth hj rfl rfl rfl rfl rfl ⟨hconn rfl, hlink⟩
  | notCounted hem =>
    obtain ⟨hj, b, hest, hcounted, hconn, hlink⟩ := howned rfl
    have hb : b = false := by
      simpa [Client.emitsDisconnected, hest, hcounted] using hem
    subst hb
    exact h.write hth hj id (Or.inl ⟨rfl, rfl, rfl, hlink⟩) (by simp)
  | clearFlags =>
    obtain ⟨hj, hconn, hlink⟩ := howned rfl
    exact h.write hth hj id (Or.inl ⟨rfl, rfl, rfl, hconn, hlink⟩) (by simp)
  | load =>
    obtain ⟨hj, ho⟩ := howned rfl
    exact h.advance hth hj rfl rfl rfl rfl rfl ho
  | @loadZero i ret hzero =>
    -- the slot itself is counted
    obtain ⟨hj, hest, hcounted, hconn, hlink⟩ := howned rfl
    have hpos : 0 < tally cfg.maxClients (linked s.events) fun l => l == some true :=
      tally_pos (h.range i hconn) (by simp [hlink])
    have hcount := h.count
    omega
  | sub => exact h.sub hth hpc hstep
  | testSocket =>
    obtain ⟨hj, ho⟩ := howned rfl
    exact h.advance hth hj rfl rfl rfl rfl rfl ho
  | noSocket hc =>
    obtain ⟨hj, hest, hcounted, hlink⟩ := howned rfl
    refine h.inside hth hj rfl (fun _ _ => rfl) rfl rfl id (Or.inr ⟨owner_ret _ _, ?_⟩)
      (ret_ne_assign _ _)
    exact ⟨by rw [hest, hc], by rw [hcounted, hc], by rw [hlink, hc]⟩
  | closeSocket =>
    obtain ⟨hj, ho⟩ := howned rfl
    exact h.advance hth hj rfl rfl rfl rfl rfl ho
  | closeInvalid =>
    obtain ⟨hj, ho⟩ := howned rfl
    exact h.advance hth hj rfl rfl rfl rfl rfl ho
  | resetSocket =>
    obtain ⟨hj, hest, hcounted, hlink⟩ := howned rfl
    exact h.write hth hj (by simp [Client.isConnected])
      (Or.inr ⟨owner_ret _ _, hest, hcounted, hlink⟩) (ret_ne_assign _ _)
  | alreadyClosed =>
    exact h.pass hth rfl rfl rfl rfl (by rw [hpc]; rfl) (owner_ret _ _)
      fun k i he => absurd he (ret_ne_assign _ _ _ _)
  | _ => exact h.pass hth rfl rfl rfl rfl (by rw [hpc]; rfl) rfl (by simp)

theorem CountExact.step {l : LifecycleLabel} (h : CountExact cfg s) (hok : OneAtATime cfg s l)
    (hs : s.step cfg l = some t) : CountExact cfg t := by
  cases l with
  | accepted th k =>
    obtain ⟨hth, hidle, -, rfl⟩ := step_acceptDone hs
    exact h.pass hth rfl rfl rfl rfl (by rw [hidle]; rfl) rfl (by simp)
  | recvDone th client outcome =>
    obtain ⟨hth, hidle, -, rfl⟩ := step_recvDequeued hs
    refine h.pass hth rfl rfl rfl rfl (by rw [hidle]; rfl) ?_ ?_
    · cases outcome <;> rfl
    · cases outcome <;> simp [RecvOutcome.pc]
  | close th client =>
    obtain ⟨hth, hidle, -, rfl⟩ := step_close hs
    refine h.enter hth (by rw [hidle]; rfl) ?_ .idle
    intro v hv he
    simp only [OneAtATime] at hok
    rw [nobodyElse_iff h.others (by simp [ThreadPc.owner])] at hok
    simpa [he] using hok v hv
  | step th ok =>
    obtain ⟨u, pc', hstep, rfl⟩ := step_thread hs
    exact h.thread hok hstep

end

/-- No thread is inside `SetupClient`, `HandleRecv` or `Close`. -/
def Lifecycle.quiescent (cfg : LifecycleCfg) (s : Lifecycle) : Prop :=
  ∀ th, th < cfg.threadCount → s.threads th = .idle ∨ s.threads th = .left

instance (cfg : LifecycleCfg) (s : Lifecycle) : Decidable (s.quiescent cfg) :=
  inferInstanceAs (Decidable (∀ th, th < cfg.threadCount → _ ∨ _))

/-- The slots of the pool with a valid socket. -/
def Lifecycle.validSockets (cfg : LifecycleCfg) (s : Lifecycle) : Nat :=
  tally cfg.maxClients s.clientPool Client.isConnected

/-- **The counter is exact**, in every run in which `SetupClient` and `Close` have their slots to
themselves: whenever the threads are out, it is the number of slots with a valid socket; between
two `onConnected` of a slot there is one `onDisconnected`; and it stays within the size of the
pool, so it does not wrap. -/
theorem connected_count_exact (cfg : LifecycleCfg) {s : Lifecycle}
    (h : (lifecycleSystem cfg).Reach (OneAtATime cfg) s) :
    (s.quiescent cfg → s.getConnectedClientCount = s.validSockets cfg) ∧
    (∀ i pre mid post, s.events = pre ++ .connected i :: mid ++ .connected i :: post →
      .connected i ∉ mid → mid.count (.disconnected i) = 1) ∧
    s.getConnectedClientCount ≤ cfg.maxClients := by
  have hinv : CountExact cfg s := by
    refine h.invariant ?_ fun _ hi hok hs => hi.step hok hs
    refine ⟨fun _ _ => rfl, by simp [lifecycleSystem],
      by simp [lifecycleSystem, Client.new, Client.isConnected],
      Exclusive.of_empty fun _ => rfl, by simp [lifecycleSystem, ThreadPc.owner],
      fun _ _ => ⟨rfl, rfl, rfl⟩, ?_⟩
    have hnone : tally cfg.maxClients (linked []) (fun l => l == some true) = 0 :=
      tally_eq_zero fun _ _ => rfl
    exact hnone.symm
  refine ⟨?_, ?_, ?_⟩
  · intro hq
    have hout : ∀ v i, (s.threads v).owner ≠ some i := by
      intro v i
      rcases Nat.lt_or_ge v cfg.threadCount with hv | hv
      · rcases hq v hv with he | he
        · simp [he, ThreadPc.owner]
        · simp [he, ThreadPc.owner]
      · simp [hinv.others v hv, ThreadPc.owner]
    rw [Lifecycle.getConnectedClientCount, hinv.count, Lifecycle.validSockets]
    apply tally_congr
    intro i _
    rw [(hinv.rest i fun v => hout v i).2.2]
    cases (s.clientPool i).isConnected <;> rfl
  · intro i pre mid post he hno
    refine connected_then_disconnected ?_ he hno
    by_cases ho : ∃ v, (s.threads v).owner = some i
    · obtain ⟨v, hv⟩ := ho
      obtain ⟨b, hb⟩ := (hinv.owned v i hv).linked hv
      rw [hb]
      simp
    · rw [(hinv.rest i fun v hv => ho ⟨v, hv⟩).2.2]
      simp
  · rw [Lifecycle.getConnectedClientCount, hinv.count]
    exact tally_le _ _ _

/-- A client connects and is closed by `Tick`, and another one connects. -/
theorem connected_count_exact_reused :
    ∃ s, (lifecycleSystem (smallLifecycle .chat)).Reach (OneAtATime (smallLifecycle .chat)) s ∧
      s.events = [.connected 0, .disconnected 0, .connected 0] ∧
      s.getConnectedClientCount = s.validSockets (smallLifecycle .chat) := by
  obtain ⟨s, hr, hp⟩ := System.reach_of_exec (lifecycleSystem (smallLifecycle .chat))
    (OneAtATime (smallLifecycle .chat))
    (setsUp 0 4 ++ .close 1 0 :: List.replicate 7 (.step 1 true) ++ setsUp 0 5)
    (fun s => s.events == [.connected 0, .disconnected 0, .connected 0] &&
      decide (s.quiescent (smallLifecycle .chat))) (by decide +kernel)
  simp only [Bool.and_eq_true, beq_iff_eq, decide_eq_true_eq] at hp
  exact ⟨s, hr, hp.1, (connected_count_exact (smallLifecycle .chat) hr).1 hp.2⟩

/-- The peer resets while thread 0 is between `PostRecv` and `MarkConnectionEstablished`: the close
finds nothing to discount, and the connection is counted after it is gone. -/
theorem counted_after_close :
    ∃ s, (lifecycleSystem (smallLifecycle .chat)).Reach System.always s ∧
      s.quiescent (smallLifecycle .chat) ∧ s.getConnectedClientCount = 1 ∧
      s.validSockets (smallLifecycle .chat) = 0 := by
  obtain ⟨s, hr, hp⟩ := System.reach_of_exec (lifecycleSystem (smallLifecycle .chat))
    System.always
    (.accepted 0 4 :: List.replicate 4 (.step 0 true) ++ .recvDone 1 0 .ended ::
      List.replicate 6 (.step 1 true) ++ List.replicate 5 (.step 0 true))
    (fun s => decide (s.quiescent (smallLifecycle .chat)) && s.getConnectedClientCount == 1 &&
      s.validSockets (smallLifecycle .chat) == 0) (by decide +kernel)
  simp only [Bool.and_eq_true, beq_iff_eq, decide_eq_true_eq] at hp
  exact ⟨s, hr, hp.1.1, hp.1.2, hp.2⟩

end Highp.Network

import Highp.Chat.Enrollment
import Highp.Chat.Handlings

/-! `Server::Stop`. `ServerLifeCycle::Stop` joins the workers and clears the client pool; then the
lifecycle is destroyed, and after it the game loop with its registries and commands. A `Client`
is closed by its destructor, when the last reference to it goes. -/

namespace Highp.Chat
open Highp.Lib Highp.Network

/-! ## References -/

/-- The clients that the local variables of a handler refer to. -/
def HandlerPc.clients : HandlerPc → List Slot
  | .ready => []
  | .joinRoom call _ => [call.cmd.client]
  | .joinSession call _ _ => [call.cmd.client]
  | .joinUser call _ _ session => [call.cmd.client, session.tcpClient]
  | .joinEnter call _ user => [call.cmd.client, user.session.tcpClient]
  | .joinReply call user => [call.cmd.client, user.session.tcpClient]
  | .leaveFind call => [call.cmd.client]
  | .leaveRoom call user => [call.cmd.client, user.session.tcpClient]
  | .leaveReply call user => [call.cmd.client, user.session.tcpClient]
  | .leaveRemove call user => [call.cmd.client, user.session.tcpClient]
  | .chatFind call _ => [call.cmd.client]
  | .chatSend call _ user => [call.cmd.client, user.session.tcpClient]
  | .resetSocket cmd => [cmd.client]
  | .fault => []

/-- A client that the logic thread is closing is its local variable. -/
theorem HandlerPc.mem_clients {pc : HandlerPc} {i : Slot} (h : pc.resetting = some i) :
    i ∈ pc.clients := by
  cases pc with
  | resetSocket cmd => exact List.mem_singleton.mpr (Option.some.inj h).symm
  | _ => cases h

/-- The clients that somebody outside the pool refers to. `handled` are the commands of the last
batch that have been handled: they stay in `_tickBatch` until the next `DrainTo`. -/
def State.references (s : State) (handled : List PacketCommand) : List Slot :=
  s.sessions.sessions.map Session.tcpClient ++
    s.users.users.map (fun user => user.session.tcpClient) ++
    s.rooms.rooms.flatMap (fun room => room.users.map fun user => user.session.tcpClient) ++
    (s.queue ++ s.batch ++ handled).map PacketCommand.client ++ s.handler.clients

/-! ## Stopping -/

inductive StopPhase
  /-- `ServerLifeCycle::Stop`, in front of `_clientPool.clear()`. -/
  | clearing
  /-- `ServerLifeCycle::Stop` has returned. -/
  | stopped
  /-- `_lifecycle` is destroyed. -/
  | destroyed
  /-- The logic thread is joined. -/
  | joined
  /-- `_gameLoop` is destroyed. -/
  | finished
  deriving DecidableEq

inductive CallbackKind
  | onDisconnected
  | onSendPosted
  | onSendPostFailed
  deriving DecidableEq

/-- A call of a callback that `BuildClientCallbacks` made; `alive` says whether the
`ServerLifeCycle` it has captured exists. -/
structure ClientCallback where
  client : Slot
  kind : CallbackKind
  alive : Bool
  deriving DecidableEq

structure Stopping where
  chat : State
  handled : List PacketCommand
  phase : StopPhase
  dead : List Slot
  callbacks : List ClientCallback

inductive StopLabel
  | clearPool
  | destroyLifecycle
  | tick
  | logic (choice : Choice)
  | joinLogic
  | destroyGameLoop

namespace Stopping

/-- The `ServerLifeCycle` exists. -/
def alive (s : Stopping) : Bool := s.phase == .clearing || s.phase == .stopped

/-- `~Client`. -/
def destroyClient (s : Stopping) (client : Slot) : Stopping :=
  { s with
    chat := (s.chat.closeSocket client).resetSocket client
    dead := client :: s.dead
    callbacks := s.callbacks ++
      if (s.chat.pool client).emitsDisconnected then [⟨client, .onDisconnected, s.alive⟩] else [] }

/-- Nobody refers to the client any more. -/
def unreferenced (s : Stopping) (client : Slot) : Bool :=
  !s.dead.contains client && !(s.chat.references s.handled).contains client

/-- The destructors of the clients that have lost their last reference. -/
def collect : List Slot → Stopping → Stopping
  | [], s => s
  | client :: clients, s =>
    collect clients (if s.unreferenced client then s.destroyClient client else s)

/-- The callbacks that run in a step of the logic thread: one for each call of `PostSend`, and
`onDisconnected` where `Close` finds the connection counted. -/
def callbacksOf (maxClients : Nat) (s t : State) (alive : Bool) : List ClientCallback :=
  (t.log.drop s.log.length).filterMap (fun
    | .posted conn _ accepted =>
      some ⟨conn.client, if accepted then .onSendPosted else .onSendPostFailed, alive⟩
    | _ => none) ++
  ((List.range maxClients).filter fun client =>
    (s.pool client).emitsDisconnected && !(t.pool client).emitsDisconnected).map fun client =>
      ⟨client, .onDisconnected, alive⟩

/-- A step of the logic thread while the pool is gone. -/
def logicGoes (maxClients : Nat) (s : Stopping) (chat : State) (handled : List PacketCommand) :
    Stopping :=
  collect (List.range maxClients) { s with
    chat, handled, callbacks := s.callbacks ++ callbacksOf maxClients s.chat chat s.alive }

/-- The commands of the batch that are handled after one more step. -/
def handledNext (s : Stopping) : List PacketCommand :=
  match s.chat.handler, s.chat.batch with
  | .ready, cmd :: _ => s.handled ++ [cmd]
  | _, _ => s.handled

def step (cfg : Config) (fb : FlatBuffers) (s : Stopping) : StopLabel → Option Stopping
  | .clearPool =>
    if s.phase = .clearing then
      let t := collect (List.range cfg.maxClients) { s with phase := .stopped }
      some { t with chat := { t.chat with connectedClientCount := 0 } }
    else none
  | .destroyLifecycle => if s.phase = .stopped then some { s with phase := .destroyed } else none
  | .tick =>
    if s.phase = .stopped ∨ s.phase = .destroyed then
      (s.chat.step cfg fb .tick).map fun chat => s.logicGoes cfg.maxClients chat []
    else none
  | .logic choice =>
    if s.phase = .stopped ∨ s.phase = .destroyed then
      (s.chat.step cfg fb (.logic choice)).map fun chat =>
        s.logicGoes cfg.maxClients chat s.handledNext
    else none
  | .joinLogic =>
    if s.phase = .destroyed ∧ s.chat.handler.isReady ∧ s.chat.batch.isEmpty ∧ s.chat.queue.isEmpty
    then some { s with phase := .joined }
    else none
  | .destroyGameLoop =>
    if s.phase = .joined then
      some (collect (List.range cfg.maxClients) { s with
        chat := { s.chat with
          sessions := ⟨[], 0⟩, users := ⟨[], 0⟩, rooms := ⟨[], 0, 0⟩, queue := [], batch := [] }
        handled := []
        phase := .finished })
    else none

/-- When `ServerLifeCycle::Stop` has returned, every client that was connected is closed and
`onDisconnected` has run for it; and no callback runs without its `ServerLifeCycle`. -/
def DisconnectsInTime (before : State) (s : Stopping) : Prop :=
  (s.phase ≠ .clearing → ∀ i, (before.pool i).isConnected = true →
      (s.chat.pool i).isConnected = false ∧
        ∃ c ∈ s.callbacks, c.client = i ∧ c.kind = .onDisconnected) ∧
    ∀ c ∈ s.callbacks, c.alive = true

end Stopping

/-- `Server::Stop` from a state in which the workers are out of `OnCompletion`. -/
def stopServer (cfg : Config) (fb : FlatBuffers) (s : State) (handled : List PacketCommand) :
    System Stopping StopLabel where
  start := ⟨s, handled, .clearing, [], []⟩
  step := Stopping.step cfg fb

/-! ## The destructors -/

namespace Stopping
variable {s t : Stopping} {clients : List Slot} {i : Slot}

/-- What holds before the destructors run and survives each of them holds when all have run. -/
theorem collect_induction {P : Stopping → Prop} (clients : List Slot) (h : P s)
    (hstep : ∀ t client, P t → t.unreferenced client = true → P (t.destroyClient client)) :
    P (collect clients s) := by
  induction clients generalizing s with
  | nil => exact h
  | cons client clients ih =>
    apply ih
    split
    · exact hstep s client h ‹_›
    · exact h

theorem destroyClient_self (s : Stopping) (i : Slot) :
    (s.destroyClient i).chat.pool i = (s.chat.pool i).close := by
  simp [destroyClient, State.closeSocket, State.resetSocket, Client.close]

theorem destroyClient_other (s : Stopping) {client : Slot} (hi : i ≠ client) :
    (s.destroyClient client).chat.pool i = s.chat.pool i := by
  simp [destroyClient, State.closeSocket, State.resetSocket, hi]

theorem destroyClient_pool (s : Stopping) (client : Slot) :
    (s.destroyClient client).chat.pool i = s.chat.pool i ∨
      (s.destroyClient client).chat.pool i = (s.chat.pool i).close := by
  by_cases hi : i = client
  · subst hi
    exact Or.inr (s.destroyClient_self i)
  · exact Or.inl (s.destroyClient_other hi)

/-- Every client is as it was, or closed. -/
theorem collect_pool (clients : List Slot) (s : Stopping) (i : Slot) :
    (collect clients s).chat.pool i = s.chat.pool i ∨
      (collect clients s).chat.pool i = (s.chat.pool i).close := by
  apply collect_induction (P := fun t => t.chat.pool i = s.chat.pool i ∨
    t.chat.pool i = (s.chat.pool i).close) clients (Or.inl rfl)
  intro t client ht _
  rcases t.destroyClient_pool (i := i) client with he | he
  · rw [he]
    exact ht
  · rw [he]
    rcases ht with ht | ht
    · rw [ht]
      exact Or.inr rfl
    · rw [ht]
      exact Or.inr rfl

theorem collect_phase (clients : List Slot) (s : Stopping) :
    (collect clients s).phase = s.phase := by
  apply collect_induction (P := fun t => t.phase = s.phase) clients rfl
  intro t client ht _
  exact ht

/-- A client that somebody refers to is not touched. -/
theorem collect_referenced (clients : List Slot) (s : Stopping)
    (hi : i ∈ s.chat.references s.handled) :
    (collect clients s).chat.pool i = s.chat.pool i ∧
      (i ∈ (collect clients s).dead → i ∈ s.dead) := by
  refine (collect_induction (P := fun t => t.chat.references t.handled =
    s.chat.references s.handled ∧ t.chat.pool i = s.chat.pool i ∧ (i ∈ t.dead → i ∈ s.dead))
    clients ⟨rfl, rfl, id⟩ ?_).2
  intro t client ⟨hrefs, hpool, hdead⟩ hfree
  have hne : i ≠ client := by
    rintro rfl
    simp [unreferenced, hrefs, hi] at hfree
  refine ⟨hrefs, (t.destroyClient_other hne).trans hpool, fun hm => hdead ?_⟩
  exact (List.mem_cons.mp hm).resolve_left hne

theorem collect_keeps (clients : List Slot) (s : Stopping) {c : ClientCallback}
    (hc : c ∈ s.callbacks) : c ∈ (collect clients s).callbacks := by
  apply collect_induction (P := fun t => c ∈ t.callbacks) clients hc
  intro t client ht _
  exact List.mem_append_left _ ht

/-- The only callbacks are those of clients that were counted as connected. -/
theorem collect_callbacks (clients : List Slot) (s : Stopping) :
    ∀ c ∈ (collect clients s).callbacks, c ∈ s.callbacks ∨
      c.alive = s.alive ∧ (s.chat.pool c.client).emitsDisconnected = true := by
  refine (collect_induction (P := fun t => t.alive = s.alive ∧
    (∀ i, t.chat.pool i = s.chat.pool i ∨ t.chat.pool i = (s.chat.pool i).close) ∧
    ∀ c ∈ t.callbacks, c ∈ s.callbacks ∨
      c.alive = s.alive ∧ (s.chat.pool c.client).emitsDisconnected = true) clients
    ⟨rfl, fun _ => Or.inl rfl, fun _ hc => Or.inl hc⟩ ?_).2.2
  intro t client ⟨halive, hpool, hcall⟩ _
  refine ⟨halive, fun i => ?_, fun c hc => ?_⟩
  · rcases t.destroyClient_pool (i := i) client with he | he
    · rw [he]
      exact hpool i
    · rw [he]
      rcases hpool i with hp | hp
      · rw [hp]
        exact Or.inr rfl
      · rw [hp]
        exact Or.inr rfl
  · rcases List.mem_append.mp hc with hc | hc
    · exact hcall c hc
    · split at hc
      · rename_i hemits
        rw [List.mem_singleton.mp hc]
        refine Or.inr ⟨halive, ?_⟩
        rcases hpool client with hp | hp
        · rwa [hp] at hemits
        · rw [hp] at hemits
          cases hemits
      · simp at hc

/-- A client that nobody refers to is closed, and its disconnect is reported. -/
theorem collect_unreferenced (hi : i ∈ clients) (hfree : s.unreferenced i = true) :
    (collect clients s).chat.pool i = (s.chat.pool i).close ∧
      ((s.chat.pool i).emitsDisconnected = true →
        ⟨i, .onDisconnected, s.alive⟩ ∈ (collect clients s).callbacks) := by
  induction clients generalizing s with
  | nil => simp at hi
  | cons client clients ih =>
    by_cases hc : i = client
    · subst hc
      rw [collect, if_pos hfree]
      -- a dead client stays as it is
      refine (collect_induction (P := fun t => i ∈ t.dead ∧
        t.chat.pool i = (s.chat.pool i).close ∧ ((s.chat.pool i).emitsDisconnected = true →
          ⟨i, .onDisconnected, s.alive⟩ ∈ t.callbacks)) (s := s.destroyClient i) clients
        ⟨List.mem_cons_self, s.destroyClient_self i, fun he => ?_⟩ ?_).2
      · simp [destroyClient, he]
      · intro t client ⟨hdead, hpool, hcall⟩ hfree'
        have hne : i ≠ client := by
          rintro rfl
          simp [unreferenced, hdead] at hfree'
        refine ⟨List.mem_cons_of_mem _ hdead, ?_, fun he => List.mem_append_left _ (hcall he)⟩
        exact (t.destroyClient_other hne).trans hpool
    · have hi : i ∈ clients := (List.mem_cons.mp hi).resolve_left hc
      rw [collect]
      split
      · have hpool : (s.destroyClient client).chat.pool i = s.chat.pool i :=
          s.destroyClient_other hc
        have hfree' : (s.destroyClient client).unreferenced i = true := by
          simp only [unreferenced, destroyClient, Bool.and_eq_true, Bool.not_eq_true',
            List.contains_eq_mem, decide_eq_false_iff_not, List.mem_cons, not_or] at hfree ⊢
          exact ⟨⟨hc, hfree.1⟩, hfree.2⟩
        have hrest := ih hi hfree'
        rw [hpool] at hrest
        exact hrest
      · exact ih hi hfree

end Stopping

/-! ## The logic thread when everybody is gone -/

section
variable {cfg : Config} {fb : FlatBuffers} {s t : State}

/-- No client is connected or still counted. -/
def NobodyLive (pool : Pool) : Prop := ∀ i, live (pool i) = false

theorem live_close (c : Client) : live c.close = false := rfl

theorem NobodyLive.isConnected {pool : Pool} (h : NobodyLive pool) (i : Slot) :
    (pool i).isConnected = false := (Bool.or_eq_false_iff.mp (h i)).1

theorem NobodyLive.emitsDisconnected {pool : Pool} (h : NobodyLive pool) (i : Slot) :
    (pool i).emitsDisconnected = false := (Bool.or_eq_false_iff.mp (h i)).2

theorem NobodyLive.closeSocket (h : NobodyLive s.pool) (client : Slot) :
    NobodyLive (s.closeSocket client).pool := by
  intro i
  by_cases hi : i = client
  · subst hi
    exact Bool.eq_false_iff.mpr fun hl => Bool.eq_false_iff.mp (h i) (live_closeSocket hl)
  · simpa [State.closeSocket, hi] using h i

theorem NobodyLive.resetSocket (h : NobodyLive s.pool) (client : Slot) :
    NobodyLive (s.resetSocket client).pool := by
  intro i
  by_cases hi : i = client
  · subst hi
    exact Bool.eq_false_iff.mpr fun hl => Bool.eq_false_iff.mp (h i) (live_resetSocket hl)
  · simpa [State.resetSocket, hi] using h i

/-- `Session::Send` does nothing for a client that is not connected. -/
theorem NobodyLive.sendAll (h : NobodyLive s.pool) (packet : ServerPacket) (refused : List Nat)
    (users : List User) (k : Nat) : s.sendAll fb packet refused k users = s := by
  induction users generalizing k with
  | nil => rfl
  | cons user users ih =>
    have hsend : s.send fb user.session packet (!refused.contains k) = s := by
      simp [State.send, h.isConnected]
    rw [State.sendAll, hsend]
    exact ih (k + 1)

theorem NobodyLive.logic {choice : Choice} (h : NobodyLive s.pool)
    (hs : s.logicStep fb choice = some t) :
    NobodyLive t.pool ∧ ∃ evs, t.log = s.log ++ evs ∧
      ∀ conn packet accepted, .posted conn packet accepted ∉ evs := by
  cases logicStep_traffic hs with
  | silent hpool hlog hevs =>
    rw [hpool]
    exact ⟨h, _, hlog, hevs⟩
  | @closing client hpool hlog =>
    rw [hpool, hlog]
    exact ⟨h.closeSocket client, [], (List.append_nil _).symm, fun _ _ _ => List.not_mem_nil⟩
  | @reset client hpool hlog =>
    rw [hpool, hlog]
    exact ⟨h.resetSocket client, [], (List.append_nil _).symm, fun _ _ _ => List.not_mem_nil⟩
  | sent packet refused users hpool hlog =>
    rw [hpool, hlog, h.sendAll]
    exact ⟨h, [], (List.append_nil _).symm, fun _ _ _ => List.not_mem_nil⟩

/-- No callback runs in such a step. -/
theorem callbacksOf_eq_nil (h : NobodyLive s.pool) {evs : List Event} (hlog : t.log = s.log ++ evs)
    (hevs : ∀ conn packet accepted, .posted conn packet accepted ∉ evs) (maxClients : Nat)
    (alive : Bool) : Stopping.callbacksOf maxClients s t alive = [] := by
  simp only [Stopping.callbacksOf, hlog, List.drop_left, List.append_eq_nil_iff,
    List.filterMap_eq_nil_iff, List.map_eq_nil_iff, List.filter_eq_nil_iff]
  refine ⟨fun e he => ?_, fun i _ => ?_⟩
  · cases e with
    | posted conn packet accepted => exact absurd he (hevs conn packet accepted)
    | _ => rfl
  · simp [h.emitsDisconnected i]

theorem NobodyLive.collect {u : Stopping} (h : NobodyLive u.chat.pool) (clients : List Slot) :
    NobodyLive (Stopping.collect clients u).chat.pool ∧
      ∀ c ∈ (Stopping.collect clients u).callbacks, c ∈ u.callbacks := by
  refine ⟨fun i => ?_, fun c hc => ?_⟩
  · rcases Stopping.collect_pool clients u i with he | he
    · rw [he]
      exact h i
    · rw [he]
      exact live_close _
  · refine (Stopping.collect_callbacks clients u c hc).resolve_right fun he => ?_
    rw [h.emitsDisconnected] at he
    cases he.2

end

/-! ## Stopping with nobody left to refer to -/

/-- The workers are out of `OnCompletion`. -/
def State.WorkersOut (s : State) : Prop := ∀ pc ∈ s.workers, pc = .idle ∨ pc = .left

/-- Nobody outside the pool refers to a client that is connected or still counted. -/
def State.Unreferenced (s : State) (handled : List PacketCommand) : Prop :=
  ∀ i, live (s.pool i) = true → i ∉ s.references handled

/-- Once the pool is cleared everybody is gone, and everybody's disconnect was reported in time. -/
structure StopInv (before : State) (handled : List PacketCommand) (t : Stopping) : Prop where
  clearing : t.phase = .clearing → t = ⟨before, handled, .clearing, [], []⟩
  quiet : t.phase ≠ .clearing → NobodyLive t.chat.pool
  reported : t.phase ≠ .clearing → ∀ i, (before.pool i).isConnected = true →
    ⟨i, .onDisconnected, true⟩ ∈ t.callbacks
  alive : ∀ c ∈ t.callbacks, c.alive = true

section
variable {cfg : Config} {fb : FlatBuffers} {s before : State} {t u : Stopping}
  {handled : List PacketCommand}

theorem StopInv.disconnectsInTime (h : StopInv before handled t) : t.DisconnectsInTime before :=
  ⟨fun hp i hi => ⟨(h.quiet hp).isConnected i, _, h.reported hp i hi, rfl, rfl⟩, h.alive⟩

/-- `_clientPool.clear()` closes everybody. -/
theorem stopInv_clearPool (hc : Counted cfg before) (hout : before.WorkersOut)
    (hfree : before.Unreferenced handled) :
    StopInv before handled
      (Stopping.collect (List.range cfg.maxClients) ⟨before, handled, .stopped, [], []⟩) := by
  have hgone : ∀ i, live (before.pool i) = true → i ∈ List.range cfg.maxClients ∧
      Stopping.unreferenced ⟨before, handled, .stopped, [], []⟩ i = true := by
    intro i hi
    refine ⟨List.mem_range.mpr (hc.live_lt i hi), ?_⟩
    simp [Stopping.unreferenced, hfree i hi]
  have hphase := Stopping.collect_phase (List.range cfg.maxClients)
    ⟨before, handled, .stopped, [], []⟩
  refine ⟨fun hp => ?_, fun _ i => ?_, fun _ i hi => ?_, fun c hm => ?_⟩
  · rw [hphase] at hp
    cases hp
  · cases hl : live (before.pool i) with
    | true =>
      obtain ⟨hm, hu⟩ := hgone i hl
      rw [(Stopping.collect_unreferenced hm hu).1]
      exact live_close _
    | false =>
      rcases Stopping.collect_pool (List.range cfg.maxClients)
        ⟨before, handled, .stopped, [], []⟩ i with he | he
      · rw [he]
        exact hl
      · rw [he]
        exact live_close _
  · have hlive : live (before.pool i) = true := by rw [live, hi, Bool.true_or]
    -- nobody is in the middle of a setup or of a `Close`, so whoever is connected is counted
    have hemits : (before.pool i).emitsDisconnected = true := by
      refine (hc.counted i hi).resolve_right ?_
      rintro (⟨pc, hm, hset⟩ | ⟨pc, hm, hset⟩ | hset)
      · rcases hout pc hm with rfl | rfl
        · cases hset
        · cases hset
      · rcases hout pc hm with rfl | rfl
        · cases hset
        · cases hset
      · refine hfree i hlive (List.mem_append_right _ ?_)
        exact HandlerPc.mem_clients hset
    obtain ⟨hm, hu⟩ := hgone i hlive
    exact (Stopping.collect_unreferenced hm hu).2 hemits
  · rcases Stopping.collect_callbacks _ _ c hm with hm | ⟨ha, -⟩
    · cases hm
    · exact ha

/-- What happens later finds nobody. -/
theorem StopInv.collect (h : StopInv before handled t) (hphase : u.phase ≠ .clearing)
    (hquiet : NobodyLive u.chat.pool) (hcall : u.callbacks = t.callbacks)
    (ht : t.phase ≠ .clearing) (clients : List Slot) :
    StopInv before handled (Stopping.collect clients u) := by
  obtain ⟨hq, hc⟩ := hquiet.collect clients
  have hp := Stopping.collect_phase clients u
  refine ⟨fun he => absurd (hp.symm.trans he) hphase, fun _ => hq, fun _ i hi => ?_, fun c hm => ?_⟩
  · apply Stopping.collect_keeps
    rw [hcall]
    exact h.reported ht i hi
  · exact h.alive c (hcall ▸ hc c hm)

theorem StopInv.logicGoes (h : StopInv before handled t) (ht : t.phase ≠ .clearing)
    (hquiet : NobodyLive s.pool) {evs : List Event} (hlog : s.log = t.chat.log ++ evs)
    (hevs : ∀ conn packet accepted, .posted conn packet accepted ∉ evs) (maxClients : Nat)
    (handled' : List PacketCommand) :
    StopInv before handled (t.logicGoes maxClients s handled') := by
  refine h.collect ?_ ?_ ?_ ht _
  · exact ht
  · exact hquiet
  · rw [callbacksOf_eq_nil (h.quiet ht) hlog hevs]
    exact List.append_nil _

theorem StopInv.step {l : StopLabel} (hc : Counted cfg before) (hout : before.WorkersOut)
    (hfree : before.Unreferenced handled) (h : StopInv before handled t)
    (hs : t.step cfg fb l = some u) : StopInv before handled u := by
  have hrunning : t.phase = .stopped ∨ t.phase = .destroyed → t.phase ≠ .clearing := by
    rintro (hp | hp) <;> rw [hp] <;> exact StopPhase.noConfusion
  cases l with
  | clearPool =>
    simp only [Stopping.step, Option.ite_none_right_eq_some, Option.some.injEq] at hs
    obtain ⟨hp, rfl⟩ := hs
    rw [h.clearing hp]
    have hcleared := stopInv_clearPool hc hout hfree
    refine ⟨fun he => ?_, hcleared.quiet, hcleared.reported, hcleared.alive⟩
    rw [Stopping.collect_phase] at he
    cases he
  | destroyLifecycle =>
    simp only [Stopping.step, Option.ite_none_right_eq_some, Option.some.injEq] at hs
    obtain ⟨hp, rfl⟩ := hs
    have ht := hrunning (Or.inl hp)
    exact ⟨fun he => StopPhase.noConfusion he, fun _ => h.quiet ht, fun _ => h.reported ht, h.alive⟩
  | tick =>
    simp only [Stopping.step, Option.ite_none_right_eq_some, Option.map_eq_some_iff] at hs
    obtain ⟨hp, chat, hchat, rfl⟩ := hs
    obtain ⟨-, -, rfl⟩ := step_tick hchat
    refine h.logicGoes (hrunning hp) ?_ ?_ (fun _ _ _ => List.not_mem_nil) _ _
    · exact h.quiet (hrunning hp)
    · exact (List.append_nil _).symm
  | logic choice =>
    simp only [Stopping.step, Option.ite_none_right_eq_some, Option.map_eq_some_iff] at hs
    obtain ⟨hp, chat, hchat, rfl⟩ := hs
    obtain ⟨hquiet, evs, hlog, hevs⟩ := (h.quiet (hrunning hp)).logic hchat
    exact h.logicGoes (hrunning hp) hquiet hlog hevs _ _
  | joinLogic =>
    simp only [Stopping.step, Option.ite_none_right_eq_some, Option.some.injEq] at hs
    obtain ⟨⟨hp, -⟩, rfl⟩ := hs
    have ht := hrunning (Or.inr hp)
    exact ⟨fun he => StopPhase.noConfusion he, fun _ => h.quiet ht, fun _ => h.reported ht, h.alive⟩
  | destroyGameLoop =>
    simp only [Stopping.step, Option.ite_none_right_eq_some, Option.some.injEq] at hs
    obtain ⟨hp, rfl⟩ := hs
    have ht : t.phase ≠ .clearing := by rw [hp]; exact StopPhase.noConfusion
    refine h.collect ?_ ?_ ?_ ht _
    · exact StopPhase.noConfusion
    · exact h.quiet ht
    · rfl

end

/-! ## Stopping with somebody left to refer to -/

section
variable {cfg : Config} {fb : FlatBuffers} {s t : State} {choice : Choice}

/-- How much the logic thread still has to do before its next tick. -/
def State.work (s : State) : Nat := 6 * s.batch.length + s.handler.ahead

theorem HandlerPc.ahead_lt (pc : HandlerPc) : pc.ahead < 6 := by
  cases pc <;> simp [HandlerPc.ahead]

theorem LogicStep.work (h : LogicStep s choice t) : t.work < s.work ∧ t.queue = s.queue := by
  -- a step inside a handler comes nearer to its end, any other takes a command from the batch
  have hinside : s.handler ≠ .ready → t.batch = s.batch → t.work < s.work := by
    intro hready hbatch
    rw [State.work, State.work, hbatch]
    exact Nat.add_lt_add_left (h.ahead hready) _
  have hbetween : ∀ cmd, s.handler = .ready → s.batch = cmd :: t.batch → t.work < s.work := by
    intro cmd hh hb
    have hlt := t.handler.ahead_lt
    rw [State.work, State.work, hh, hb, List.length_cons]
    omega
  cases h with
  | skip hh hb | startJoin _ _ hh hb | startLeave _ hh hb | startChat _ _ hh hb | reject hh hb _
  | rejectClosed hh hb _ => exact ⟨hbetween _ hh hb, rfl⟩
  | reset hh | joinRoom hh | joinNoSession hh | joinSession hh _ | joinExists hh _
  | joinUser hh _ _ | joinEnter hh _ | joinReply hh _ | leaveNobody hh _ | leaveFind hh _
  | leaveFault hh _ | leaveMissing hh _ _ | leaveRoom hh _ _ _ | leaveReply hh _ | leaveRemove hh
  | chatNobody hh _ | chatFind hh _ | chatNoRoom hh | chatSend hh _ =>
    exact ⟨hinside (by simp [hh]) rfl, rfl⟩

/-- The logic thread goes on until there is nothing left to do. -/
theorem logicStep_goes (fb : FlatBuffers) (choice : Choice) (hfault : s.handler ≠ .fault)
    (hwork : s.handler = .ready → s.batch ≠ []) : ∃ t, s.logicStep fb choice = some t := by
  rw [← Option.ne_none_iff_exists']
  intro hnone
  unfold State.logicStep at hnone
  cases hh : s.handler with
  | fault => exact hfault hh
  | ready =>
    cases hb : s.batch with
    | nil => exact hwork hh hb
    | cons cmd batch => simp [hh, hb] at hnone
  | leaveRoom call user =>
    cases hroom : s.rooms.getRoom user.roomId with
    | none => simp [hh, hroom] at hnone
    | some room =>
      cases hleave : (s.rooms.roomAt room).leave user.id <;> simp [hh, hroom, hleave] at hnone
  | joinSession call username room =>
    cases hg : s.sessions.getSessionByClient s.pool call.cmd.client choice.order <;>
      simp [hh, hg] at hnone
  | joinUser call username room session =>
    cases hg : s.users.getUserByClient s.pool call.cmd.client choice.order <;>
      simp [hh, hg] at hnone
  | leaveFind call | chatFind call _ =>
    cases hg : s.users.getUserByClient s.pool call.cmd.client choice.order <;>
      simp [hh, hg] at hnone
  | chatSend call message user =>
    cases hroom : s.rooms.getRoom user.roomId <;> simp [hh, hroom] at hnone
  | _ => simp [hh] at hnone

end

namespace Stopping

/-- A callback has run without its `ServerLifeCycle`. -/
def Late (s : Stopping) : Prop := ∃ c ∈ s.callbacks, c.alive = false

/-- The `ServerLifeCycle` is gone, and the disconnect of a client has not been reported. -/
structure Owing (i : Slot) (s : Stopping) : Prop where
  phase : s.phase = .destroyed
  undead : i ∉ s.dead
  counted : (s.chat.pool i).emitsDisconnected = true
  housed : ∃ r, Housed s.chat r

section
variable {cfg : Config} {fb : FlatBuffers} {s t u : Stopping} {i : Slot} {choice : Choice}
  {before : State} {handled : List PacketCommand}

theorem Owing.alive (h : Owing i s) : s.alive = false := by
  rw [Stopping.alive, h.phase]
  rfl

theorem housed_of_registry {a b : State} {r : Roster} (h : Housed a r) (husers : b.users = a.users)
    (hrooms : b.rooms = a.rooms) (hhandler : b.handler = a.handler) : Housed b r :=
  h.thin husers hhandler (hrooms.trans a.rooms.thin_true.symm)

/-- The destructors take clients only. -/
theorem collect_registry (clients : List Slot) (s : Stopping) :
    (collect clients s).chat.users = s.chat.users ∧ (collect clients s).chat.rooms = s.chat.rooms ∧
      (collect clients s).chat.handler = s.chat.handler ∧
      (collect clients s).chat.batch = s.chat.batch ∧
      (collect clients s).chat.queue = s.chat.queue := by
  refine collect_induction (P := fun t => t.chat.users = s.chat.users ∧
    t.chat.rooms = s.chat.rooms ∧ t.chat.handler = s.chat.handler ∧ t.chat.batch = s.chat.batch ∧
    t.chat.queue = s.chat.queue) clients ⟨rfl, rfl, rfl, rfl, rfl⟩ ?_
  intro t client ht _
  exact ht

/-- A destructor that runs now comes too late. -/
theorem Owing.collect (h : Owing i s) (clients : List Slot) :
    (collect clients s).Late ∨ Owing i (collect clients s) := by
  refine collect_induction (P := fun t => t.Late ∨ Owing i t) clients (.inr h) ?_
  rintro t client (⟨c, hc, hdead⟩ | ht) _
  · exact .inl ⟨c, List.mem_append_left _ hc, hdead⟩
  · by_cases hi : i = client
    · subst hi
      refine .inl ⟨⟨i, .onDisconnected, t.alive⟩, List.mem_append_right _ ?_, ht.alive⟩
      simp [ht.counted]
    · refine .inr ⟨ht.phase, ?_, ?_, ?_⟩
      · simp [destroyClient, hi, ht.undead]
      · rw [t.destroyClient_other hi]
        exact ht.counted
      · obtain ⟨r, hr⟩ := ht.housed
        exact ⟨r, housed_of_registry hr rfl rfl rfl⟩

/-- What the logic thread closes is reported too late. -/
theorem Owing.goes {chat : State} (h : Owing i s) (hi : i < cfg.maxClients)
    (hhoused : ∃ r, Housed chat r) (handled : List PacketCommand) :
    (s.logicGoes cfg.maxClients chat handled).Late ∨
      Owing i (s.logicGoes cfg.maxClients chat handled) := by
  cases hemits : (chat.pool i).emitsDisconnected with
  | true =>
    have howing : Owing i { s with
        chat, handled, callbacks := s.callbacks ++
          callbacksOf cfg.maxClients s.chat chat s.alive } :=
      ⟨h.phase, h.undead, hemits, hhoused⟩
    exact howing.collect _
  | false =>
    refine .inl ⟨⟨i, .onDisconnected, s.alive⟩, collect_keeps _ _ ?_, h.alive⟩
    refine List.mem_append_right _ (List.mem_append_right _ (List.mem_map.mpr ⟨i, ?_, rfl⟩))
    exact List.mem_filter.mpr ⟨List.mem_range.mpr hi, by simp [h.counted, hemits]⟩

theorem Owing.logic (fb : FlatBuffers) (h : Owing i s) (hi : i < cfg.maxClients)
    (hwork : s.chat.handler = .ready → s.chat.batch ≠ []) :
    ∃ t, (stopServer cfg fb before handled).step s (.logic ⟨0, ⟨0, 0⟩, []⟩) = some t ∧
      (t.Late ∨ Owing i t ∧ t.chat.work < s.chat.work ∧ t.chat.queue = s.chat.queue) := by
  obtain ⟨r, hr⟩ := h.housed
  obtain ⟨chat, hchat⟩ := logicStep_goes fb ⟨0, ⟨0, 0⟩, []⟩ hr.noFault hwork
  have hlogic := logicStep_inv hchat
  obtain ⟨hlt, hqueue⟩ := hlogic.work
  refine ⟨s.logicGoes cfg.maxClients chat s.handledNext, ?_, ?_⟩
  · simp [stopServer, Stopping.step, State.step, h.phase, hchat]
  · refine (h.goes hi ⟨_, hr.logic hlogic⟩ _).imp id fun ht => ⟨ht, ?_⟩
    obtain ⟨-, -, hh, hb, hq⟩ := collect_registry (List.range cfg.maxClients)
      { s with chat, handled := s.handledNext, callbacks := s.callbacks ++
          callbacksOf cfg.maxClients s.chat chat s.alive }
    refine ⟨?_, hq.trans hqueue⟩
    rw [State.work, logicGoes, hh, hb]
    exact hlt

/-- The logic thread comes to the end of its batch, if nothing goes wrong before. -/
theorem Owing.drains (h : Owing i s) (hi : i < cfg.maxClients)
    (hr : (stopServer cfg fb before handled).Reach System.always s) :
    ∃ t, (stopServer cfg fb before handled).Reach System.always t ∧ (t.Late ∨ Owing i t ∧
      t.chat.handler = .ready ∧ t.chat.batch = [] ∧ t.chat.queue = s.chat.queue) := by
  induction hn : s.chat.work using Nat.strong_induction_on generalizing s with
  | _ n ih =>
    by_cases hdone : s.chat.handler = .ready ∧ s.chat.batch = []
    · exact ⟨s, hr, .inr ⟨h, hdone.1, hdone.2, rfl⟩⟩
    · obtain ⟨t, hs, ht⟩ := h.logic fb hi fun hh hb => hdone ⟨hh, hb⟩
      have hreach : (stopServer cfg fb before handled).Reach System.always t := .next hr trivial hs
      rcases ht with hlate | ⟨howing, hlt, hqueue⟩
      · exact ⟨t, hreach, .inl hlate⟩
      · obtain ⟨u, hu, hend⟩ := ih _ (hn ▸ hlt) howing hreach rfl
        rw [hqueue] at hend
        exact ⟨u, hu, hend⟩

theorem Owing.tick (fb : FlatBuffers) (h : Owing i s) (hi : i < cfg.maxClients)
    (hready : s.chat.handler = .ready) (hbatch : s.chat.batch = []) :
    ∃ t, (stopServer cfg fb before handled).step s .tick = some t ∧
      (t.Late ∨ Owing i t ∧ t.chat.queue = []) := by
  refine ⟨s.logicGoes cfg.maxClients { s.chat with batch := s.chat.queue, queue := [] } [], ?_, ?_⟩
  · simp [stopServer, Stopping.step, State.step, h.phase, hready, hbatch]
  · obtain ⟨r, hr⟩ := h.housed
    have hhoused : Housed { s.chat with batch := s.chat.queue, queue := [] } r :=
      housed_of_registry hr rfl rfl rfl
    refine (h.goes hi ⟨r, hhoused⟩ _).imp id fun ht => ⟨ht, ?_⟩
    exact (collect_registry _ _).2.2.2.2

/-- With nothing left to do the game loop goes, and with it the last references. -/
theorem Owing.ends (h : Owing i s) (hi : i < cfg.maxClients) (hready : s.chat.handler = .ready)
    (hbatch : s.chat.batch = []) (hqueue : s.chat.queue = [])
    (hr : (stopServer cfg fb before handled).Reach System.always s) :
    ∃ t, (stopServer cfg fb before handled).Reach System.always t ∧ t.Late := by
  have hjoin : (stopServer cfg fb before handled).step s .joinLogic =
      some { s with phase := .joined } := by
    simp [stopServer, Stopping.step, h.phase, hready, hbatch, hqueue, HandlerPc.isReady]
  refine ⟨_, .next (l := .destroyGameLoop) (.next hr trivial hjoin) trivial rfl, ?_⟩
  refine ⟨_, (collect_unreferenced (List.mem_range.mpr hi) ?_).2 h.counted, rfl⟩
  simp [unreferenced, h.undead, State.references, hready, HandlerPc.clients]

/-- A client that is still counted and that somebody refers to outlives the `ServerLifeCycle`. -/
theorem exists_owing (fb : FlatBuffers) (hhoused : ∃ r, Housed before r)
    (hemits : (before.pool i).emitsDisconnected = true) (href : i ∈ before.references handled) :
    ∃ t, (stopServer cfg fb before handled).Reach System.always t ∧ Owing i t := by
  obtain ⟨hpool, hdead⟩ := collect_referenced (List.range cfg.maxClients)
    ⟨before, handled, .stopped, [], []⟩ href
  obtain ⟨husers, hrooms, hhandler, -, -⟩ := collect_registry (List.range cfg.maxClients)
    ⟨before, handled, .stopped, [], []⟩
  have hphase := collect_phase (List.range cfg.maxClients) ⟨before, handled, .stopped, [], []⟩
  obtain ⟨r, hr⟩ := hhoused
  refine ⟨_, .next (l := .destroyLifecycle) (.next (l := .clearPool) .start trivial rfl) trivial
    (if_pos hphase), rfl, ?_, ?_, r, ?_⟩
  · exact fun hm => List.not_mem_nil (hdead hm)
  · exact (congrArg Client.emitsDisconnected hpool).trans hemits
  · exact housed_of_registry hr husers hrooms hhandler

/-- Its disconnect is reported too late. -/
theorem exists_late (fb : FlatBuffers) (hhoused : ∃ r, Housed before r) (hi : i < cfg.maxClients)
    (hemits : (before.pool i).emitsDisconnected = true) (href : i ∈ before.references handled) :
    ∃ t, (stopServer cfg fb before handled).Reach System.always t ∧ t.Late := by
  obtain ⟨s, hs, howing⟩ := exists_owing fb hhoused hemits href
  obtain ⟨a, ha, hlate | ⟨howing, hready, hbatch, -⟩⟩ := howing.drains hi hs
  · exact ⟨a, ha, hlate⟩
  obtain ⟨b, hb, hlate | ⟨howing, hqueue⟩⟩ := howing.tick fb hi hready hbatch
  · exact ⟨b, .next ha trivial hb, hlate⟩
  obtain ⟨c, hc, hlate | ⟨howing, hready, hbatch, hsame⟩⟩ :=
    howing.drains hi (.next ha trivial hb)
  · exact ⟨c, hc, hlate⟩
  · exact howing.ends hi hready hbatch (hsame.trans hqueue) hc

/-- A connected client that somebody refers to survives `_clientPool.clear()`. -/
theorem exists_connected (cfg : Config) (fb : FlatBuffers)
    (hi : (before.pool i).isConnected = true) (href : i ∈ before.references handled) :
    ∃ t, (stopServer cfg fb before handled).Reach System.always t ∧
      ¬ t.DisconnectsInTime before := by
  refine ⟨_, .next (l := .clearPool) .start trivial rfl, fun h => ?_⟩
  have hcleared := collect_phase (List.range cfg.maxClients) ⟨before, handled, .stopped, [], []⟩
  have hkept := (collect_referenced (List.range cfg.maxClients)
    ⟨before, handled, .stopped, [], []⟩ href).1
  have hclosed := (h.1 (by
    intro he
    cases hcleared.symm.trans he) i hi).1
  have hopen : (before.pool i).isConnected = false := by
    rw [← hkept]
    exact hclosed
  rw [hi] at hopen
  cases hopen

end

end Stopping

section
variable {cfg : Config} {fb : FlatBuffers} {s : State} {handled : List PacketCommand}

theorem disconnectsInTime_of_unreferenced (h : (chatServer cfg fb).Reach System.always s)
    (hout : s.WorkersOut) (hfree : s.Unreferenced handled) {t : Stopping}
    (ht : (stopServer cfg fb s handled).Reach System.always t) : t.DisconnectsInTime s := by
  have hinv : StopInv s handled t := by
    refine ht.invariant ⟨fun _ => rfl, ?_, ?_, ?_⟩
      fun _ hi _ hs => hi.step (counted_of_reach h) hout hfree hs
    · exact fun hp => absurd rfl hp
    · exact fun hp => absurd rfl hp
    · simp [stopServer]
  exact hinv.disconnectsInTime

theorem unreferenced_of_disconnectsInTime (h : (chatServer cfg fb).Reach System.always s)
    (hall : ∀ t, (stopServer cfg fb s handled).Reach System.always t → t.DisconnectsInTime s) :
    s.Unreferenced handled := by
  intro i hi href
  rcases Bool.or_eq_true_iff.mp hi with hopen | hemits
  · obtain ⟨t, ht, hnot⟩ := Stopping.exists_connected cfg fb hopen href
    exact hnot (hall t ht)
  · obtain ⟨t, ht, c, hc, hlate⟩ := Stopping.exists_late fb
      (housed_of_reach (reach_roomServer h)) ((counted_of_reach h).live_lt i hi) hemits href
    rw [(hall t ht).2 c hc] at hlate
    cases hlate

/-- When the workers are out, the session of a connected client refers to it. -/
theorem connected_referenced
    (h : (chatServer cfg fb).Reach (fun s l => FreshSockets s l = true) s)
    (hle : announcements s.log ≤ 2 ^ 64) (hout : s.WorkersOut) {i : Slot}
    (hi : (s.pool i).isConnected = true) : i ∈ s.references handled := by
  rcases enrolled_of_reach h hle i hi with ⟨session, hm, rfl⟩ | ⟨pc, hm, hpc⟩
  · simp only [State.references, List.mem_append]
    exact .inl (.inl (.inl (.inl (List.mem_map_of_mem hm))))
  · rcases hout pc hm with rfl | rfl
    · cases hpc
    · cases hpc

end

/-- **Stopping the server does not disconnect anybody in time.** From every state in which the
workers are out: every run of `Server::Stop` disconnects everybody in time if and only if nobody
outside the pool refers to a client that is connected or still counted. As soon as somebody is
connected this is not so, because the session refers to the client, in runs in which handles are
fresh and at most `2 ^ 64` sessions were made; with nobody connected it is a matter of the clients
that are still counted. -/
theorem stop_disconnects_in_time (cfg : Config) (fb : FlatBuffers) {s : State}
    (handled : List PacketCommand) (h : (chatServer cfg fb).Reach System.always s)
    (hout : s.WorkersOut) :
    ((∀ t, (stopServer cfg fb s handled).Reach System.always t → t.DisconnectsInTime s) ↔
      s.Unreferenced handled) ∧
    ((chatServer cfg fb).Reach (fun s l => FreshSockets s l = true) s →
      announcements s.log ≤ 2 ^ 64 → ∀ i, (s.pool i).isConnected = true →
        ∃ t, (stopServer cfg fb s handled).Reach System.always t ∧ ¬ t.DisconnectsInTime s) ∧
    ((∀ i, (s.pool i).isConnected = false) →
      (s.Unreferenced handled ↔
        ∀ i, (s.pool i).emitsDisconnected = true → i ∉ s.references handled)) := by
  refine ⟨⟨unreferenced_of_disconnectsInTime h, ?_⟩, ?_, ?_⟩
  · exact fun hfree t ht => disconnectsInTime_of_unreferenced h hout hfree ht
  · intro hfresh hle i hi
    exact Stopping.exists_connected cfg fb hi (connected_referenced hfresh hle hout hi)
  · intro hnone
    simp only [State.Unreferenced, live, hnone, Bool.false_or]

/-- `Server::Stop` to its end, when there is nothing for the logic thread to do. -/
def stopsAtOnce : List StopLabel := [.clearPool, .destroyLifecycle, .joinLogic, .destroyGameLoop]

def workersOut (s : State) : Bool := s.workers.all fun pc => pc == .idle || pc == .left

theorem workersOut_iff {s : State} : workersOut s = true ↔ s.WorkersOut := by
  simp [workersOut, State.WorkersOut]

/-- A run of `Server::Stop` whose last state passes `p`. -/
theorem stopped_of_exec {cfg : Config} {fb : FlatBuffers} {s : State} {ls : List StopLabel}
    {p : Stopping → Bool}
    (h : (((stopServer cfg fb s []).exec System.always ⟨s, [], .clearing, [], []⟩ ls).any p) =
      true) : ∃ t, (stopServer cfg fb s []).Reach System.always t ∧ p t = true := by
  obtain ⟨t, ht, hp⟩ := (Option.any_eq_true _ _).mp h
  exact ⟨t, System.Reach.start.exec ht, hp⟩

/-- A client has joined and is gone; its user is still registered, but there is nothing to close.
Were it still there, it would be too late. -/
theorem stop_disconnects_in_time_later :
    (∃ s t, (chatServer smallServer sample).Reach System.always s ∧ s.users.users.length = 1 ∧
      (stopServer smallServer sample s []).Reach System.always t ∧ t.phase = .finished ∧
      t.DisconnectsInTime s) ∧
    ∃ s t, (chatServer smallServer sample).Reach System.always s ∧
      (s.pool 0).isConnected = true ∧ s.users.users.length = 1 ∧
      (stopServer smallServer sample s []).Reach System.always t ∧ ¬ t.DisconnectsInTime s := by
  constructor
  · obtain ⟨s, hr, hp⟩ := System.reach_of_exec (chatServer smallServer sample) System.always
      (accepts 0 4 ++ receives 0 ⟨0, 1⟩ (frameBytes joinBytes) 1 ++ ticks 6 ++ disconnects 0 ⟨0, 1⟩)
      (fun s => workersOut s && s.users.users.length == 1 &&
        (List.range smallServer.maxClients).all (fun i => !live (s.pool i)) &&
        ((stopServer smallServer sample s []).exec System.always ⟨s, [], .clearing, [], []⟩
          stopsAtOnce).any fun t => t.phase == .finished)
      (by decide +kernel)
    simp only [Bool.and_eq_true, beq_iff_eq, workersOut_iff, List.all_eq_true, List.mem_range,
      Bool.not_eq_true'] at hp
    obtain ⟨⟨⟨hout, hone⟩, hdead⟩, hstop⟩ := hp
    obtain ⟨t, ht, hphase⟩ := stopped_of_exec hstop
    have hfree : s.Unreferenced [] := by
      intro i hi
      rw [hdead i ((counted_of_reach hr).live_lt i hi)] at hi
      cases hi
    exact ⟨s, t, hr, hone, ht, beq_iff_eq.mp hphase,
      (stop_disconnects_in_time smallServer sample [] hr hout).1.mpr hfree t ht⟩
  · obtain ⟨s, hr, hp⟩ := System.reach_of_exec (chatServer smallServer sample)
      (fun s l => FreshSockets s l = true)
      (accepts 0 4 ++ receives 0 ⟨0, 1⟩ (frameBytes joinBytes) 1 ++ ticks 6)
      (fun s => workersOut s && (s.pool 0).isConnected && s.users.users.length == 1 &&
        announcements s.log == 1)
      (by decide +kernel)
    simp only [Bool.and_eq_true, beq_iff_eq, workersOut_iff] at hp
    obtain ⟨⟨⟨hout, hopen⟩, hone⟩, hcount⟩ := hp
    have hreach := hr.mono fun _ _ _ => trivial
    obtain ⟨t, ht, hnot⟩ := (stop_disconnects_in_time smallServer sample [] hreach hout).2.1 hr
      (by rw [hcount]; decide) 0 hopen
    exact ⟨s, t, hreach, hopen, hone, ht, hnot⟩

/-- A client is connected when the server is stopped. Its session keeps it open beyond
`ServerLifeCycle::Stop`, and its destructor calls back into the destroyed `ServerLifeCycle`. -/
theorem stop_leaves_client_connected : ∃ s t,
    (chatServer smallServer sample).Reach System.always s ∧ s.WorkersOut ∧
      (s.pool 0).isConnected = true ∧ (stopServer smallServer sample s []).Reach System.always t ∧
      ⟨0, .onDisconnected, false⟩ ∈ t.callbacks ∧ ¬ t.DisconnectsInTime s ∧
      ∃ u, (stopServer smallServer sample s []).Reach System.always u ∧ u.phase = .stopped ∧
        (u.chat.pool 0).isConnected = true := by
  obtain ⟨s, hr, hp⟩ := System.reach_of_exec (chatServer smallServer sample) System.always
    (accepts 0 4)
    (fun s => workersOut s && (s.pool 0).isConnected &&
      ((stopServer smallServer sample s []).exec System.always ⟨s, [], .clearing, [], []⟩
        stopsAtOnce).any (fun t => t.callbacks.contains ⟨0, .onDisconnected, false⟩) &&
      ((stopServer smallServer sample s []).exec System.always ⟨s, [], .clearing, [], []⟩
        [.clearPool]).any fun u => u.phase == .stopped && (u.chat.pool 0).isConnected)
    (by decide +kernel)
  simp only [Bool.and_eq_true, workersOut_iff] at hp
  obtain ⟨⟨⟨hout, hopen⟩, hstop⟩, hclear⟩ := hp
  obtain ⟨t, ht, hcall⟩ := stopped_of_exec hstop
  obtain ⟨u, hu, hkept⟩ := stopped_of_exec hclear
  simp only [Bool.and_eq_true, beq_iff_eq] at hkept
  have hm : ⟨0, .onDisconnected, false⟩ ∈ t.callbacks := List.contains_iff_mem.mp hcall
  refine ⟨s, t, hr, hout, hopen, ht, hm, fun h => ?_, u, hu, hkept⟩
  cases h.2 _ hm

end Highp.Chat

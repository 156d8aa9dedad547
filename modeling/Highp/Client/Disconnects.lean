import Highp.Lib.Transition

/-! The end of a connection of the chat client. The thread that calls `Disconnect` finds it out with
an exchange, a receive thread with a load and a later store. -/

namespace Highp.Client
open Highp.Lib

/-! ## The threads -/

/-- Where a receive thread is: in the test of its loop, in `RecvFrame`, or in the branch for
errors. -/
inductive RecvPc
  | loopStop
  | loopLoad
  | receiving
  | errorStop
  | errorLoad
  | store
  | close
  | onDisconnected
  | done
  deriving DecidableEq

structure RecvThread where
  pc : RecvPc
  stopRequested : Bool
  deriving DecidableEq

/-- `_recvThread`, and the new thread of `StartRecvLoop` before it is moved there. -/
inductive Holder
  | current
  | temporary
  deriving DecidableEq

/-- Where `Disconnect` returns to. -/
inductive Caller
  | none
  | connect
  | destructor
  deriving DecidableEq

/-- The next step of the thread that uses the client. `wasConnected` is what `exchange` has
returned. -/
inductive AppPc
  | idle
  | connectLoad
  | tryConnect
  | connectStore
  | onConnected
  | exchange (caller : Caller)
  | requestStop (wasConnected : Bool) (caller : Caller)
  | close (wasConnected : Bool) (caller : Caller)
  | join (wasConnected : Bool) (caller : Caller)
  | reset (wasConnected : Bool) (caller : Caller)
  | onDisconnected (caller : Caller)
  | stopOld
  | joinOld
  | assign
  | destroyLoad
  | destroyMembers
  | gone
  deriving DecidableEq

def Caller.pc : Caller → AppPc
  | .none => .idle
  | .connect => .tryConnect
  | .destructor => .destroyMembers

/-- What the metrics are told, and the end of the client. -/
inductive SessionEvent
  | connected
  | disconnected
  | destroyed
  deriving DecidableEq

/-- The client and its threads; `log` begins with the last event. `socket` says whether there are a
socket and a WSA session. -/
structure ClientThreads where
  isConnected : Bool
  socket : Bool
  threads : Holder → Option RecvThread
  app : AppPc
  log : List SessionEvent

inductive ClientLabel
  | connect
  | startRecvLoop
  | disconnect
  | destroy
  /-- A step of the function that was called; `ok` is whether the server can be reached. -/
  | app (ok : Bool)
  /-- A step of a receive thread; `ok` is whether `RecvFrame` has a frame. -/
  | recv (holder : Holder) (ok : Bool)
  deriving DecidableEq

namespace ClientThreads

def setThread (s : ClientThreads) (holder : Holder) (thread : Option RecvThread) :
    ClientThreads :=
  { s with threads := fun h => if h = holder then thread else s.threads h }

/-- `request_stop` of `_recvThread`, if it is joinable. -/
def requestStop (s : ClientThreads) : ClientThreads :=
  s.setThread .current ((s.threads .current).map fun t => { t with stopRequested := true })

/-- `_recvThread` has nothing to wait for. -/
def finished (s : ClientThreads) : Bool := (s.threads .current).all fun t => t.pc = .done

/-- The receive loop of `StartRecvLoop`. -/
def recvStep (s : ClientThreads) (holder : Holder) (ok : Bool) : Option ClientThreads :=
  match s.threads holder with
  | none => none
  | some t =>
    let goto (pc : RecvPc) := s.setThread holder (some { t with pc })
    match t.pc with
    | .loopStop => some (goto (if t.stopRequested then .done else .loopLoad))
    | .loopLoad => some (goto (if s.isConnected then .receiving else .done))
    | .receiving => some (goto (if ok then .loopStop else .errorStop))
    | .errorStop => some (goto (if t.stopRequested then .done else .errorLoad))
    | .errorLoad => some (goto (if s.isConnected then .store else .done))
    | .store => some { goto .close with isConnected := false }
    | .close => some (goto .onDisconnected)
    | .onDisconnected => some { goto .done with log := .disconnected :: s.log }
    | .done => none

/-- `Connect`, `Disconnect`, `StartRecvLoop` and the destructor behind their first step. -/
def appStep (s : ClientThreads) (ok : Bool) : Option ClientThreads :=
  match s.app with
  | .idle => none
  | .connectLoad =>
    some { s with app := if s.isConnected then .exchange .connect else .tryConnect }
  | .tryConnect =>
    some (if ok then { s with socket := true, app := .connectStore } else { s with app := .idle })
  | .connectStore =>
    some { s with isConnected := true, log := .connected :: s.log, app := .onConnected }
  | .onConnected => some { s with app := .idle }
  | .exchange caller =>
    some { s with isConnected := false, app := .requestStop s.isConnected caller }
  | .requestStop wasConnected caller =>
    some { s.requestStop with app := .close wasConnected caller }
  | .close wasConnected caller => some { s with app := .join wasConnected caller }
  | .join wasConnected caller =>
    if s.finished then some { s.setThread .current none with app := .reset wasConnected caller }
    else none
  | .reset wasConnected caller =>
    some { s with
      socket := false
      app := if wasConnected then .onDisconnected caller else caller.pc }
  | .onDisconnected caller =>
    some { s with log := .disconnected :: s.log, app := caller.pc }
  | .stopOld => some { s.requestStop with app := .joinOld }
  | .joinOld => if s.finished then some { s with app := .assign } else none
  | .assign =>
    some { (s.setThread .current (s.threads .temporary)).setThread .temporary none with
      app := .idle }
  | .destroyLoad =>
    some { s with
      app :=
        if s.isConnected || (s.threads .current).isSome || s.socket then .exchange .destructor
        else .destroyMembers }
  | .destroyMembers => some { s with log := .destroyed :: s.log, app := .gone }
  | .gone => none

def step (s : ClientThreads) : ClientLabel → Option ClientThreads
  | .connect => if s.app = .idle then some { s with app := .connectLoad } else none
  | .startRecvLoop =>
    if s.app = .idle then
      some { s.setThread .temporary (some ⟨.loopStop, false⟩) with app := .stopOld }
    else none
  | .disconnect => if s.app = .idle then some { s with app := .exchange .none } else none
  | .destroy => if s.app = .idle then some { s with app := .destroyLoad } else none
  | .app ok => s.appStep ok
  | .recv holder ok => s.recvStep holder ok

end ClientThreads

def clientSystem : System ClientThreads ClientLabel where
  start := ⟨false, false, fun _ => none, .idle, []⟩
  step := ClientThreads.step

/-! ## Sessions -/

/-- How often the client was counted as disconnected since it connected, if it did. -/
def sinceConnect : List SessionEvent → Option Nat
  | [] => none
  | .connected :: _ => some 0
  | .disconnected :: log => (sinceConnect log).map (· + 1)
  | .destroyed :: _ => none

/-- Every session before the next one, or before the end of the client, was counted as disconnected
once. -/
def OncePerSession : List SessionEvent → Prop
  | [] => True
  | .disconnected :: log => OncePerSession log
  | .connected :: log => (∀ n, sinceConnect log = some n → n = 1) ∧ OncePerSession log
  | .destroyed :: log => (∀ n, sinceConnect log = some n → n = 1) ∧ OncePerSession log

/-- A receive thread has loaded `true` in the branch for errors and has not yet stored `false`. -/
def RecvPc.storing (pc : RecvPc) : Bool := pc == .store

/-- It has stored `false` and has not yet called `OnDisconnected`. -/
def RecvPc.owing (pc : RecvPc) : Bool := pc == .close || pc == .onDisconnected

/-- The number of receive threads at such a place. -/
def countAt (threads : Holder → Option RecvThread) (p : RecvPc → Bool) : Nat :=
  ((threads .current).any fun t => p t.pc).toNat + ((threads .temporary).any fun t => p t.pc).toNat

def AppPc.exchanging : AppPc → Bool
  | .exchange _ => true
  | _ => false

/-- An exchange of `true` and a load of `true` come when no receive thread is about to store
`false`, and a session begins when no receive thread has yet to count the one before. -/
def Apart (s : ClientThreads) : ClientLabel → Prop
  | .app _ =>
    (s.app.exchanging = true → s.isConnected = true → countAt s.threads RecvPc.storing = 0) ∧
      (s.app = .connectStore → countAt s.threads RecvPc.owing = 0)
  | .recv holder _ =>
    (s.threads holder).map RecvThread.pc = some .errorLoad → s.isConnected = true →
      countAt s.threads RecvPc.storing = 0
  | _ => True

instance (s : ClientThreads) : ∀ l, Decidable (Apart s l)
  | .connect => .isTrue trivial
  | .startRecvLoop => .isTrue trivial
  | .disconnect => .isTrue trivial
  | .destroy => .isTrue trivial
  | .app _ => inferInstanceAs (Decidable ((_ → _ → _) ∧ (_ → _)))
  | .recv _ _ => inferInstanceAs (Decidable (_ → _ → _))

/-! ## What balances -/

/-- Between the steps a session is open and not counted, or closed and counted once, or there is
somebody who has yet to count it. -/
structure Balance (isConnected : Bool) (log : List SessionEvent) (storing owed : Nat) : Prop where
  connected : isConnected = true → sinceConnect log = some 0 ∧ storing ≤ 1 ∧ owed = 0
  closed : isConnected = false → storing = 0 ∧
    (sinceConnect log = none ∧ owed = 0 ∨ ∃ n, sinceConnect log = some n ∧ n + owed = 1)
  once : OncePerSession log

namespace Balance
variable {isConnected : Bool} {log : List SessionEvent} {storing owed : Nat}

theorem load (h : Balance true log 0 owed) : Balance true log 1 owed where
  connected _ := by
    obtain ⟨hlog, -, howed⟩ := h.connected rfl
    exact ⟨hlog, Nat.le_refl _, howed⟩
  closed hfalse := by cases hfalse
  once := h.once

/-- Only an open session can be closed by a store. -/
theorem store (h : Balance isConnected log (storing + 1) owed) :
    Balance false log storing (owed + 1) := by
  cases isConnected with
  | false =>
    have := (h.closed rfl).1
    omega
  | true =>
    obtain ⟨hlog, hone, howed⟩ := h.connected rfl
    exact ⟨fun htrue => (by cases htrue), fun _ => ⟨by omega, .inr ⟨0, hlog, by omega⟩⟩, h.once⟩

theorem exchange (h : Balance true log 0 owed) : Balance false log 0 (owed + 1) :=
  store (h.load)

/-- Whoever owes a count gives it. -/
theorem count (h : Balance isConnected log storing (owed + 1)) :
    Balance isConnected (.disconnected :: log) storing owed := by
  cases isConnected with
  | true =>
    have := (h.connected rfl).2.2
    omega
  | false =>
    obtain ⟨hstoring, ⟨-, howed⟩ | ⟨n, hlog, hsum⟩⟩ := h.closed rfl
    · omega
    · have hcounted : sinceConnect (.disconnected :: log) = some (n + 1) := by
        rw [sinceConnect, hlog]
        rfl
      exact ⟨fun htrue => (by cases htrue),
        fun _ => ⟨hstoring, .inr ⟨n + 1, hcounted, by omega⟩⟩, h.once⟩

/-- With nothing owed the last session was counted once. -/
theorem settled (h : Balance false log storing 0) : ∀ n, sinceConnect log = some n → n = 1 := by
  intro n hn
  obtain ⟨-, ⟨hnone, -⟩ | ⟨m, hlog, hsum⟩⟩ := h.closed rfl
  · rw [hnone] at hn
    cases hn
  · rw [hlog] at hn
    cases hn
    omega

theorem connect (h : Balance false log storing 0) : Balance true (.connected :: log) storing 0 where
  connected _ := ⟨rfl, by have := (h.closed rfl).1; omega, rfl⟩
  closed hfalse := by cases hfalse
  once := ⟨h.settled, h.once⟩

theorem destroy (h : Balance false log storing 0) :
    Balance false (.destroyed :: log) storing 0 where
  connected htrue := by cases htrue
  closed _ := ⟨(h.closed rfl).1, .inl ⟨rfl, rfl⟩⟩
  once := ⟨h.settled, h.once⟩

end Balance

/-! ## Steps -/

theorem countAt_set (s : ClientThreads) (holder : Holder) (thread : Option RecvThread)
    (p : RecvPc → Bool) :
    countAt (s.setThread holder thread).threads p +
        ((s.threads holder).any fun t => p t.pc).toNat =
      countAt s.threads p + (thread.any fun t => p t.pc).toNat := by
  cases holder with
  | current => simp [countAt, ClientThreads.setThread]; omega
  | temporary => simp [countAt, ClientThreads.setThread]; omega

/-- A thread that goes on. -/
theorem countAt_goto {s : ClientThreads} {holder : Holder} {t : RecvThread}
    (ht : s.threads holder = some t) (pc : RecvPc) (p : RecvPc → Bool) :
    countAt (s.setThread holder (some { t with pc })).threads p + (p t.pc).toNat =
      countAt s.threads p + (p pc).toNat := by
  have := countAt_set s holder (some { t with pc }) p
  rw [ht] at this
  exact this

/-- A stop request moves no thread. -/
theorem countAt_requestStop (s : ClientThreads) (p : RecvPc → Bool) :
    countAt s.requestStop.threads p = countAt s.threads p := by
  cases h : s.threads .current with
  | none => simp [countAt, ClientThreads.requestStop, ClientThreads.setThread, h]
  | some t => simp [countAt, ClientThreads.requestStop, ClientThreads.setThread, h]

/-- The caller of `Disconnect` has yet to call `OnDisconnected`. -/
def AppPc.owes : AppPc → Nat
  | .requestStop wasConnected _ => wasConnected.toNat
  | .close wasConnected _ => wasConnected.toNat
  | .join wasConnected _ => wasConnected.toNat
  | .reset wasConnected _ => wasConnected.toNat
  | .onDisconnected _ => 1
  | _ => 0

/-- Nobody but this thread could connect, and it has seen or made the client disconnected. -/
def AppPc.offline : AppPc → Bool
  | .tryConnect => true
  | .connectStore => true
  | .requestStop _ _ => true
  | .close _ _ => true
  | .join _ _ => true
  | .reset _ _ => true
  | .onDisconnected _ => true
  | .destroyMembers => true
  | _ => false

/-- `_recvThread` has been joined. -/
def AppPc.joined : AppPc → Bool
  | .reset _ _ => true
  | .onDisconnected _ => true
  | .destroyMembers => true
  | _ => false

/-- In `StartRecvLoop`. -/
def AppPc.starting : AppPc → Bool
  | .stopOld => true
  | .joinOld => true
  | .assign => true
  | _ => false

namespace ClientThreads

structure Inv (s : ClientThreads) : Prop where
  balance : Balance s.isConnected s.log (countAt s.threads RecvPc.storing)
    (countAt s.threads RecvPc.owing + s.app.owes)
  offline : s.app.offline = true → s.isConnected = false
  joined : s.app.joined = true → s.threads .current = none
  single : s.app.starting = false → s.threads .temporary = none
  replaced : s.app = .assign → s.finished = true

theorem inv_start : clientSystem.start.Inv where
  balance := ⟨fun h => (by cases h), fun _ => ⟨rfl, .inl ⟨rfl, rfl⟩⟩, trivial⟩
  offline h := by cases h
  joined h := by cases h
  single _ := rfl
  replaced h := by cases h

/-- What a step of a receive thread can be: it goes on, it closes the session or it counts it. -/
theorem recv_cases {s t : ClientThreads} {holder : Holder} {ok : Bool}
    (h : s.recvStep holder ok = some t) :
    ∃ thread, s.threads holder = some thread ∧ thread.pc ≠ .done ∧
      ((∃ pc, t = s.setThread holder (some { thread with pc }) ∧ thread.pc.storing = false ∧
          pc.owing = thread.pc.owing ∧
          (pc.storing = true → thread.pc = .errorLoad ∧ s.isConnected = true)) ∨
        (thread.pc = .store ∧
          t = { s.setThread holder (some { thread with pc := .close }) with
            isConnected := false }) ∨
        (thread.pc = .onDisconnected ∧
          t = { s.setThread holder (some { thread with pc := .done }) with
            log := .disconnected :: s.log })) := by
  unfold recvStep at h
  cases ht : s.threads holder with
  | none => simp [ht] at h
  | some thread =>
    refine ⟨thread, rfl, ?_⟩
    simp only [ht] at h
    cases hpc : thread.pc with
    | loopStop | loopLoad | receiving | errorStop =>
      simp only [hpc, Option.some.injEq] at h
      refine ⟨by decide, .inl ⟨_, h.symm, rfl, ?_, ?_⟩⟩
      · split <;> rfl
      · split <;> exact fun hno => by cases hno
    | errorLoad =>
      simp only [hpc, Option.some.injEq] at h
      refine ⟨by decide, .inl ⟨_, h.symm, rfl, ?_, ?_⟩⟩
      · split <;> rfl
      · cases hcon : s.isConnected with
        | true => exact fun _ => ⟨rfl, rfl⟩
        | false => exact fun hno => by cases hno
    | store =>
      simp only [hpc, Option.some.injEq] at h
      exact ⟨by decide, .inr (.inl ⟨rfl, h.symm⟩)⟩
    | close =>
      simp only [hpc, Option.some.injEq] at h
      exact ⟨by decide, .inl ⟨_, h.symm, rfl, rfl, fun hno => by cases hno⟩⟩
    | onDisconnected =>
      simp only [hpc, Option.some.injEq] at h
      exact ⟨by decide, .inr (.inr ⟨rfl, h.symm⟩)⟩
    | done => simp [hpc] at h

theorem balance_recv {s t : ClientThreads} (hinv : s.Inv) {holder : Holder} {ok : Bool}
    (hok : Apart s (.recv holder ok)) (h : s.recvStep holder ok = some t) :
    Balance t.isConnected t.log (countAt t.threads RecvPc.storing)
      (countAt t.threads RecvPc.owing + t.app.owes) := by
  have hbalance := hinv.balance
  obtain ⟨thread, ht, -, ⟨pc, rfl, hquiet, howing, hload⟩ | ⟨hpc, rfl⟩ | ⟨hpc, rfl⟩⟩ :=
    recv_cases h
  · have hs := countAt_goto ht pc RecvPc.storing
    have ho := countAt_goto ht pc RecvPc.owing
    rw [howing, Nat.add_right_cancel_iff] at ho
    show Balance s.isConnected s.log _ (_ + s.app.owes)
    rw [ho]
    rw [hquiet, Bool.toNat_false, Nat.add_zero] at hs
    rw [hs]
    cases hstoring : pc.storing with
    | false => exact hbalance
    | true =>
      obtain ⟨hpc, hcon⟩ := hload hstoring
      have hzero := hok (by rw [ht, Option.map_some, hpc]) hcon
      rw [hcon, hzero] at hbalance ⊢
      exact hbalance.load
  · have hs := countAt_goto ht .close RecvPc.storing
    have ho := countAt_goto ht .close RecvPc.owing
    rw [hpc] at hs ho
    have hs' : countAt s.threads RecvPc.storing =
        countAt (s.setThread holder (some { thread with pc := .close })).threads
          RecvPc.storing + 1 := hs.symm
    have ho' : countAt (s.setThread holder (some { thread with pc := .close })).threads
        RecvPc.owing = countAt s.threads RecvPc.owing + 1 := ho
    show Balance false s.log (countAt (s.setThread holder _).threads RecvPc.storing)
      (countAt (s.setThread holder _).threads RecvPc.owing + s.app.owes)
    rw [hs'] at hbalance
    rw [ho', Nat.add_right_comm]
    exact hbalance.store
  · have hs := countAt_goto ht .done RecvPc.storing
    have ho := countAt_goto ht .done RecvPc.owing
    rw [hpc] at hs ho
    have hs' : countAt (s.setThread holder (some { thread with pc := .done })).threads
        RecvPc.storing = countAt s.threads RecvPc.storing := hs
    have ho' : countAt s.threads RecvPc.owing =
        countAt (s.setThread holder (some { thread with pc := .done })).threads
          RecvPc.owing + 1 := ho.symm
    show Balance s.isConnected (.disconnected :: s.log)
      (countAt (s.setThread holder _).threads RecvPc.storing)
      (countAt (s.setThread holder _).threads RecvPc.owing + s.app.owes)
    rw [ho', Nat.add_right_comm] at hbalance
    rw [hs']
    exact hbalance.count

/-- What a receive thread leaves alone. -/
theorem recv_keeps {s t : ClientThreads} {holder : Holder} {ok : Bool}
    (h : s.recvStep holder ok = some t) :
    t.app = s.app ∧ (s.isConnected = false → t.isConnected = false) ∧
      (∀ other, other ≠ holder → t.threads other = s.threads other) ∧
      ∃ thread, s.threads holder = some thread ∧ thread.pc ≠ .done := by
  obtain ⟨thread, ht, hdone, ⟨pc, rfl, -, -, -⟩ | ⟨-, rfl⟩ | ⟨-, rfl⟩⟩ := recv_cases h
  · exact ⟨rfl, id, fun other hother => if_neg hother, thread, ht, hdone⟩
  · exact ⟨rfl, fun _ => rfl, fun other hother => if_neg hother, thread, ht, hdone⟩
  · exact ⟨rfl, id, fun other hother => if_neg hother, thread, ht, hdone⟩

theorem inv_recv {s t : ClientThreads} (hinv : s.Inv) {holder : Holder} {ok : Bool}
    (hok : Apart s (.recv holder ok)) (h : s.recvStep holder ok = some t) : t.Inv := by
  obtain ⟨happ, hoff, hother, thread, ht, hdone⟩ := recv_keeps h
  constructor
  case balance => exact balance_recv hinv hok h
  case offline =>
    rw [happ]
    exact fun hpc => hoff (hinv.offline hpc)
  case joined =>
    rw [happ]
    intro hpc
    have hnone := hinv.joined hpc
    cases holder with
    | current =>
      rw [hnone] at ht
      cases ht
    | temporary => rw [hother .current (by decide), hnone]
  case single =>
    rw [happ]
    intro hpc
    have hnone := hinv.single hpc
    cases holder with
    | current => rw [hother .temporary (by decide), hnone]
    | temporary =>
      rw [hnone] at ht
      cases ht
  case replaced =>
    rw [happ]
    intro hpc
    have hfinished := hinv.replaced hpc
    unfold finished at hfinished ⊢
    cases holder with
    | current =>
      rw [ht] at hfinished
      exact absurd (by simpa using hfinished) hdone
    | temporary =>
      rw [hother .current (by decide)]
      exact hfinished

/-- The new thread of `StartRecvLoop` runs. -/
theorem inv_construct {s : ClientThreads} (hinv : s.Inv) (happ : s.app = .idle) :
    Inv { s.setThread .temporary (some ⟨.loopStop, false⟩) with app := .stopOld } where
  balance := by
    have hbalance := hinv.balance
    rw [happ] at hbalance
    have hcount : ∀ p : RecvPc → Bool, p .loopStop = false →
        countAt (s.setThread .temporary (some ⟨.loopStop, false⟩)).threads p =
          countAt s.threads p := by
      intro p hp
      have := countAt_set s .temporary (some ⟨.loopStop, false⟩) p
      rw [hinv.single (by rw [happ]; rfl), Option.any_some, hp] at this
      exact this
    show Balance s.isConnected s.log
      (countAt (s.setThread .temporary (some ⟨.loopStop, false⟩)).threads RecvPc.storing)
      (countAt (s.setThread .temporary (some ⟨.loopStop, false⟩)).threads RecvPc.owing + 0)
    rw [hcount _ rfl, hcount _ rfl]
    exact hbalance
  offline hno := by cases hno
  joined hno := by cases hno
  single hno := by cases hno
  replaced hno := by cases hno

/-- A step of the calling thread that moves no receive thread and tells the metrics nothing. -/
theorem inv_goto {s : ClientThreads} (hinv : s.Inv) {pc : AppPc} (socket : Bool)
    (howes : pc.owes = s.app.owes) (hoff : pc.offline = true → s.isConnected = false)
    (hjoined : pc.joined = true → s.threads .current = none)
    (hsingle : pc.starting = false → s.threads .temporary = none)
    (hreplaced : pc = .assign → s.finished = true) :
    Inv { s with socket, app := pc } where
  balance := by
    show Balance s.isConnected s.log _ (_ + pc.owes)
    rw [howes]
    exact hinv.balance
  offline := hoff
  joined := hjoined
  single := hsingle
  replaced := hreplaced

/-- To a place where nothing has to hold. -/
theorem inv_plain {s : ClientThreads} (hinv : s.Inv) {pc : AppPc}
    (hstarting : s.app.starting = false) (howes : pc.owes = s.app.owes)
    (hoff : pc.offline = false) (hjoined : pc.joined = false) (hassign : pc ≠ .assign) :
    Inv { s with app := pc } := by
  refine inv_goto hinv s.socket howes ?_ ?_ (fun _ => hinv.single hstarting)
    fun hpc => absurd hpc hassign
  · rw [hoff]
    exact fun hno => by cases hno
  · rw [hjoined]
    exact fun hno => by cases hno

/-- A joined thread is nowhere in particular. -/
theorem finished_any {s : ClientThreads} (h : s.finished = true) {p : RecvPc → Bool}
    (hp : p .done = false) : ((s.threads .current).any fun t => p t.pc) = false := by
  unfold finished at h
  cases ht : s.threads .current with
  | none => rfl
  | some thread =>
    rw [ht] at h
    have hdone : thread.pc = .done := by simpa using h
    rw [Option.any_some, hdone, hp]

theorem caller_owes (caller : Caller) : caller.pc.owes = 0 := by cases caller <;> rfl

theorem caller_ne_assign (caller : Caller) : caller.pc ≠ .assign := by
  cases caller <;> simp [Caller.pc]

theorem inv_exchange {s : ClientThreads} (hinv : s.Inv) {caller : Caller}
    (happ : s.app = .exchange caller)
    (hok : s.isConnected = true → countAt s.threads RecvPc.storing = 0) :
    Inv { s with isConnected := false, app := .requestStop s.isConnected caller } where
  balance := by
    have hbalance := hinv.balance
    rw [happ] at hbalance
    show Balance false s.log _ (_ + s.isConnected.toNat)
    cases hcon : s.isConnected with
    | true =>
      rw [hcon, hok hcon] at hbalance
      rw [hok hcon]
      exact hbalance.exchange
    | false =>
      rw [hcon] at hbalance
      exact hbalance
  offline _ := rfl
  joined hno := by cases hno
  single _ := hinv.single (by rw [happ]; rfl)
  replaced hno := by cases hno

theorem inv_requestStop {s : ClientThreads} (hinv : s.Inv) {pc : AppPc}
    (howes : pc.owes = s.app.owes) (hoff : pc.offline = true → s.isConnected = false)
    (hjoined : pc.joined = false) (hsingle : pc.starting = false → s.threads .temporary = none)
    (hreplaced : pc ≠ .assign) : Inv { s.requestStop with app := pc } where
  balance := by
    show Balance s.isConnected s.log (countAt s.requestStop.threads RecvPc.storing)
      (countAt s.requestStop.threads RecvPc.owing + pc.owes)
    rw [countAt_requestStop, countAt_requestStop, howes]
    exact hinv.balance
  offline := hoff
  joined hpc := by
    rw [hjoined] at hpc
    cases hpc
  single := hsingle
  replaced hpc := absurd hpc hreplaced

theorem inv_join {s : ClientThreads} (hinv : s.Inv) {wasConnected : Bool} {caller : Caller}
    (happ : s.app = .join wasConnected caller) (hfinished : s.finished = true) :
    Inv { s.setThread .current none with app := .reset wasConnected caller } where
  balance := by
    have hbalance := hinv.balance
    rw [happ] at hbalance
    have hcount : ∀ p : RecvPc → Bool, p .done = false →
        countAt (s.setThread .current none).threads p = countAt s.threads p := by
      intro p hp
      have := countAt_set s .current none p
      rw [finished_any hfinished hp] at this
      exact this
    show Balance s.isConnected s.log (countAt (s.setThread .current none).threads RecvPc.storing)
      (countAt (s.setThread .current none).threads RecvPc.owing + wasConnected.toNat)
    rw [hcount _ rfl, hcount _ rfl]
    exact hbalance
  offline _ := hinv.offline (by rw [happ]; rfl)
  joined _ := rfl
  single _ := hinv.single (by rw [happ]; rfl)
  replaced hno := by cases hno

/-- The new thread takes the place of the old one. -/
theorem inv_assign {s : ClientThreads} (hinv : s.Inv) (happ : s.app = .assign) :
    Inv { (s.setThread .current (s.threads .temporary)).setThread .temporary none with
      app := .idle } where
  balance := by
    have hbalance := hinv.balance
    rw [happ] at hbalance
    have hcount : ∀ p : RecvPc → Bool, p .done = false →
        countAt ((s.setThread .current (s.threads .temporary)).setThread .temporary none).threads
            p =
          countAt s.threads p := by
      intro p hp
      unfold countAt
      rw [finished_any (hinv.replaced happ) hp]
      exact Nat.add_comm _ _
    show Balance s.isConnected s.log
      (countAt ((s.setThread .current (s.threads .temporary)).setThread .temporary none).threads
        RecvPc.storing)
      (countAt ((s.setThread .current (s.threads .temporary)).setThread .temporary none).threads
        RecvPc.owing + 0)
    rw [hcount _ rfl, hcount _ rfl]
    exact hbalance
  offline hno := by cases hno
  joined hno := by cases hno
  single _ := rfl
  replaced hno := by cases hno

theorem inv_connectStore {s : ClientThreads} (hinv : s.Inv) (happ : s.app = .connectStore)
    (hok : countAt s.threads RecvPc.owing = 0) :
    Inv { s with isConnected := true, log := .connected :: s.log, app := .onConnected } where
  balance := by
    have hbalance := hinv.balance
    rw [happ, hok, hinv.offline (by rw [happ]; rfl)] at hbalance
    show Balance true (.connected :: s.log) _ (countAt s.threads RecvPc.owing + 0)
    rw [hok]
    exact hbalance.connect
  offline hno := by cases hno
  joined hno := by cases hno
  single _ := hinv.single (by rw [happ]; rfl)
  replaced hno := by cases hno

theorem inv_onDisconnected {s : ClientThreads} (hinv : s.Inv) {caller : Caller}
    (happ : s.app = .onDisconnected caller) :
    Inv { s with log := .disconnected :: s.log, app := caller.pc } where
  balance := by
    have hbalance := hinv.balance
    rw [happ] at hbalance
    show Balance s.isConnected (.disconnected :: s.log) _ (_ + caller.pc.owes)
    rw [caller_owes]
    exact hbalance.count
  offline _ := hinv.offline (by rw [happ]; rfl)
  joined _ := hinv.joined (by rw [happ]; rfl)
  single _ := hinv.single (by rw [happ]; rfl)
  replaced hpc := absurd hpc (caller_ne_assign caller)

theorem inv_destroyMembers {s : ClientThreads} (hinv : s.Inv) (happ : s.app = .destroyMembers) :
    Inv { s with log := .destroyed :: s.log, app := .gone } where
  balance := by
    have hbalance := hinv.balance
    have hcurrent := hinv.joined (by rw [happ]; rfl)
    have htemporary := hinv.single (by rw [happ]; rfl)
    have hnone : countAt s.threads RecvPc.owing = 0 := by
      rw [countAt, hcurrent, htemporary]
      rfl
    rw [happ, hnone, hinv.offline (by rw [happ]; rfl)] at hbalance
    show Balance s.isConnected (.destroyed :: s.log) _ (countAt s.threads RecvPc.owing + 0)
    rw [hnone, hinv.offline (by rw [happ]; rfl)]
    exact hbalance.destroy
  offline hno := by cases hno
  joined hno := by cases hno
  single _ := hinv.single (by rw [happ]; rfl)
  replaced hno := by cases hno

theorem inv_app {s t : ClientThreads} (hinv : s.Inv) {ok : Bool} (hok : Apart s (.app ok))
    (h : s.appStep ok = some t) : t.Inv := by
  have hoff := hinv.offline
  have hjoined := hinv.joined
  have hsingle := hinv.single
  unfold appStep at h
  cases happ : s.app with
  | idle => simp [happ] at h
  | connectLoad =>
    rw [happ] at h hsingle
    cases h
    by_cases hcon : s.isConnected = true
    · rw [if_pos hcon]
      exact inv_plain hinv (by rw [happ]; rfl) (by rw [happ]; rfl) rfl rfl (by simp)
    · rw [if_neg hcon]
      exact inv_goto hinv s.socket (by rw [happ]; rfl) (fun _ => Bool.eq_false_iff.mpr hcon)
        (fun hno => by cases hno) (fun _ => hsingle rfl) (fun hno => by cases hno)
  | tryConnect =>
    rw [happ] at h hoff hsingle
    cases h
    cases ok with
    | true =>
      exact inv_goto hinv true (by rw [happ]; rfl) (fun _ => hoff rfl) (fun hno => by cases hno)
        (fun _ => hsingle rfl) (fun hno => by cases hno)
    | false =>
      exact inv_plain hinv (by rw [happ]; rfl) (by rw [happ]; rfl) rfl rfl (by simp)
  | connectStore =>
    rw [happ] at h
    cases h
    exact inv_connectStore hinv happ (hok.2 happ)
  | onConnected =>
    rw [happ] at h hsingle
    cases h
    exact inv_plain hinv (by rw [happ]; rfl) (by rw [happ]; rfl) rfl rfl (by simp)
  | exchange caller =>
    rw [happ] at h
    cases h
    exact inv_exchange hinv happ (hok.1 (by rw [happ]; rfl))
  | requestStop wasConnected caller =>
    rw [happ] at h hoff hsingle
    cases h
    exact inv_requestStop hinv (by rw [happ]; rfl) (fun _ => hoff rfl) rfl (fun _ => hsingle rfl)
      (by simp)
  | close wasConnected caller =>
    rw [happ] at h hoff hsingle
    cases h
    exact inv_goto hinv s.socket (by rw [happ]; rfl) (fun _ => hoff rfl) (fun hno => by cases hno)
      (fun _ => hsingle rfl) (fun hno => by cases hno)
  | join wasConnected caller =>
    rw [happ] at h
    by_cases hfinished : s.finished = true
    · simp only [hfinished, if_true, Option.some.injEq] at h
      cases h
      exact inv_join hinv happ hfinished
    · simp [hfinished] at h
  | reset wasConnected caller =>
    rw [happ] at h hoff hjoined hsingle
    cases h
    cases wasConnected with
    | true =>
      exact inv_goto hinv false (by rw [happ]; rfl) (fun _ => hoff rfl) (fun _ => hjoined rfl)
        (fun _ => hsingle rfl) (fun hno => by cases hno)
    | false =>
      exact inv_goto hinv false (by rw [happ]; exact caller_owes caller) (fun _ => hoff rfl)
        (fun _ => hjoined rfl) (fun _ => hsingle rfl) (fun hpc => absurd hpc (caller_ne_assign _))
  | onDisconnected caller =>
    rw [happ] at h
    cases h
    exact inv_onDisconnected hinv happ
  | stopOld =>
    rw [happ] at h
    cases h
    exact inv_requestStop hinv (by rw [happ]; rfl) (fun hno => by cases hno) rfl
      (fun hno => by cases hno) (by simp)
  | joinOld =>
    rw [happ] at h
    by_cases hfinished : s.finished = true
    · simp only [hfinished, if_true, Option.some.injEq] at h
      cases h
      exact inv_goto hinv s.socket (by rw [happ]; rfl) (fun hno => by cases hno)
        (fun hno => by cases hno) (fun hno => by cases hno) (fun _ => hfinished)
    · simp [hfinished] at h
  | assign =>
    rw [happ] at h
    cases h
    exact inv_assign hinv happ
  | destroyLoad =>
    rw [happ] at h hsingle
    cases h
    cases hcond : s.isConnected || (s.threads .current).isSome || s.socket with
    | true =>
      exact inv_plain hinv (by rw [happ]; rfl) (by rw [happ]; rfl) rfl rfl (by simp)
    | false =>
      simp only [Bool.or_eq_false_iff, Option.isSome_eq_false_iff, Option.isNone_iff_eq_none]
        at hcond
      exact inv_goto hinv s.socket (by rw [happ]; rfl) (fun _ => hcond.1.1)
        (fun _ => hcond.1.2) (fun _ => hsingle rfl) (fun hno => by cases hno)
  | destroyMembers =>
    rw [happ] at h
    cases h
    exact inv_destroyMembers hinv happ
  | gone => simp [happ] at h

theorem inv_step {s t : ClientThreads} {l : ClientLabel} (hinv : s.Inv) (hok : Apart s l)
    (h : s.step l = some t) : t.Inv := by
  cases l with
  | connect =>
    obtain ⟨happ, h⟩ := Option.ite_none_right_eq_some.mp h
    cases h
    exact inv_plain hinv (by rw [happ]; rfl) (by rw [happ]; rfl) rfl rfl (by simp)
  | startRecvLoop =>
    obtain ⟨happ, h⟩ := Option.ite_none_right_eq_some.mp h
    cases h
    exact inv_construct hinv happ
  | disconnect =>
    obtain ⟨happ, h⟩ := Option.ite_none_right_eq_some.mp h
    cases h
    exact inv_plain hinv (by rw [happ]; rfl) (by rw [happ]; rfl) rfl rfl (by simp)
  | destroy =>
    obtain ⟨happ, h⟩ := Option.ite_none_right_eq_some.mp h
    cases h
    exact inv_plain hinv (by rw [happ]; rfl) (by rw [happ]; rfl) rfl rfl (by simp)
  | app ok => exact inv_app hinv hok h
  | recv holder ok => exact inv_recv hinv hok h

end ClientThreads

/-- **Every session is counted once.** In every run in which no exchange of `true` and no load of
`true` comes between the load and the store of a receive thread, and no session begins between
the store and the count of one, a session that has ended was counted as disconnected once. -/
theorem once_per_session (s : ClientThreads) (h : clientSystem.Reach Apart s) :
    OncePerSession s.log := by
  have hinv : s.Inv := h.invariant ClientThreads.inv_start fun _ hinv hok hs =>
    ClientThreads.inv_step hinv hok hs
  exact hinv.balance.once

/-- So many steps of the calling thread, and so many of the receive thread that end in an error. -/
def apps (n : Nat) : List ClientLabel := List.replicate n (.app true)
def recvs (n : Nat) : List ClientLabel := List.replicate n (.recv .current false)

/-- The client leaves the server, connects again and loses it. -/
theorem once_per_session_twice : ∃ s : ClientThreads,
    s.log = [.destroyed, .disconnected, .connected, .disconnected, .connected] ∧
      OncePerSession s.log := by
  obtain ⟨s, hr, hlog⟩ := System.reach_of_exec clientSystem Apart
    (.connect :: apps 4 ++ .startRecvLoop :: apps 3 ++ .disconnect :: apps 3 ++ recvs 1 ++ apps 3 ++
      .connect :: apps 4 ++ .startRecvLoop :: apps 3 ++ recvs 8 ++ .destroy :: apps 7)
    (fun s => s.log = [.destroyed, .disconnected, .connected, .disconnected, .connected])
    (by decide)
  exact ⟨s, of_decide_eq_true hlog, once_per_session s hr⟩

/-- A receive thread loads `true` behind an error, `Disconnect` exchanges `true`, and both count. -/
theorem counted_twice :
    ∃ s, clientSystem.Reach System.always s ∧ ¬ OncePerSession s.log := by
  obtain ⟨s, hr, hlog⟩ := System.reach_of_exec clientSystem System.always
    (.connect :: apps 4 ++ .startRecvLoop :: apps 3 ++ recvs 5 ++ .disconnect :: apps 1 ++
      recvs 3 ++ apps 5 ++ .destroy :: apps 2)
    (fun s => s.log = [.destroyed, .disconnected, .disconnected, .connected]) (by decide)
  refine ⟨s, hr, fun h => ?_⟩
  rw [of_decide_eq_true hlog] at h
  exact absurd (h.1 2 rfl) (by decide)

end Highp.Client

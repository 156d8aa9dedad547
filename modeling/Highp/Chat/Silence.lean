import Highp.Chat.Steps

/-! Commands that outlive their connection. `Close` removes neither the queued commands of a
client nor its session and user, so what such a command does depends on what it still finds. -/

namespace Highp.Chat
open Highp.Lib Highp.Network

/-- The connection whose command the next step of the logic thread is about. -/
def State.processing (s : State) : Option Conn :=
  match s.handler with
  | .ready => s.batch.head?.map PacketCommand.conn
  | .joinRoom call _ => some call.cmd.conn
  | .joinSession call _ _ => some call.cmd.conn
  | .joinUser call _ _ _ => some call.cmd.conn
  | .joinEnter call _ _ => some call.cmd.conn
  | .joinReply call _ => some call.cmd.conn
  | .leaveFind call => some call.cmd.conn
  | .leaveRoom call _ => some call.cmd.conn
  | .leaveReply call _ => some call.cmd.conn
  | .leaveRemove call _ => some call.cmd.conn
  | .chatFind call _ => some call.cmd.conn
  | .chatSend call _ _ => some call.cmd.conn
  | .resetSocket cmd => some cmd.conn
  | .fault => none

/-- The connection whose command has passed its lookups and takes effect. -/
def HandlerPc.executing : HandlerPc → Option Conn
  | .joinEnter call _ _ => some call.cmd.conn
  | .joinReply call _ => some call.cmd.conn
  | .leaveRoom call _ => some call.cmd.conn
  | .leaveReply call _ => some call.cmd.conn
  | .leaveRemove call _ => some call.cmd.conn
  | .chatSend call _ _ => some call.cmd.conn
  | _ => none

def hasUser (s : State) (client : Slot) : Bool :=
  s.users.users.any fun u => u.isSameClient s.pool client

def hasSpace (rooms : RoomManager) : Bool :=
  rooms.rooms.any fun room => decide (room.users.length < rooms.maxRoomCapacity)

/-- A command of a closed connection finds room to spare, a user if it wants to join, and no
user otherwise. -/
def FallsSilent (s : State) (l : Label) : Prop :=
  (match l with
  | .logic _ =>
    match s.handler with
    | .joinRoom call _ => !s.closed.contains call.cmd.conn || hasSpace s.rooms
    | .joinUser call _ _ _ => !s.closed.contains call.cmd.conn || hasUser s call.cmd.client
    | .leaveFind call => !s.closed.contains call.cmd.conn || !hasUser s call.cmd.client
    | .chatFind call _ => !s.closed.contains call.cmd.conn || !hasUser s call.cmd.client
    | _ => true
  | _ => true) = true

instance (s : State) (l : Label) : Decidable (FallsSilent s l) :=
  inferInstanceAs (Decidable (_ = true))

variable {cfg : Config} {fb : FlatBuffers} {s t : State} {c : Conn}

/-! ## Closed connections stay closed -/

theorem closed_resetSocket (client : Slot) (h : c ∈ s.closed) :
    c ∈ (s.resetSocket client).closed := by
  cases hc : (s.pool client).isConnected with
  | true =>
    simp only [State.resetSocket, hc, if_true]
    exact List.mem_cons_of_mem _ h
  | false => simpa [State.resetSocket, hc] using h

theorem WorkerStep.closed {ok : Bool} {pc pc' : WorkerPc} (h : WorkerStep cfg fb s ok pc t pc')
    (hc : c ∈ s.closed) : c ∈ t.closed := by
  cases h with
  | reset => exact closed_resetSocket _ hc
  | _ => exact hc

theorem LogicStep.closed {choice : Choice} (h : LogicStep s choice t) (hc : c ∈ s.closed) :
    c ∈ t.closed := by
  cases h with
  | reset _ => exact closed_resetSocket _ hc
  | _ => exact hc

/-! ## Lookups -/

theorem hasUser_of_getUserByClient {client : Slot} {order : Nat} {user : User}
    (h : s.users.getUserByClient s.pool client order = some user) : hasUser s client = true := by
  obtain ⟨hu, hs⟩ := UserManager.getUserByClient_mem h
  exact List.any_eq_true.mpr ⟨user, hu, hs⟩

theorem not_hasUser_of_getUserByClient {client : Slot} {order : Nat}
    (h : s.users.getUserByClient s.pool client order = none) : hasUser s client = false := by
  rw [hasUser, List.any_eq_false]
  intro u hu
  have := List.filter_eq_nil_iff.mp (firstMatch_eq_none.mp h) u hu
  simpa using this

/-! ## Runs -/

/-- The connection is closed, and none of its commands is taking effect. -/
structure Silenced (c : Conn) (s : State) : Prop where
  closed : c ∈ s.closed
  quiet : s.handler.executing ≠ some c

/-- A command of the connection does not get past its lookups any more. -/
theorem Silenced.logic {choice : Choice} (h : Silenced c s) (hok : FallsSilent s (.logic choice))
    (hs : LogicStep s choice t) : Silenced c t := by
  refine ⟨hs.closed h.closed, fun hc => ?_⟩
  -- a lookup that succeeds although its connection is closed contradicts the condition
  have hlookup : ∀ {c' : Conn} {b : Bool}, (!s.closed.contains c' || b) = true → b = false →
      some c' ≠ some c := by
    intro c' b hor hb he
    cases he
    simp [hb, h.closed] at hor
  cases hs with
  | skip hh => exact h.quiet hc
  | rejectClosed hh => exact h.quiet hc
  | joinUser hh hg _ =>
    simp only [FallsSilent, hh] at hok
    exact hlookup hok (not_hasUser_of_getUserByClient hg) hc
  | leaveFind hh hg =>
    simp only [FallsSilent, hh] at hok
    exact hlookup hok (by simp [hasUser_of_getUserByClient hg]) hc
  | chatFind hh hg =>
    simp only [FallsSilent, hh] at hok
    exact hlookup hok (by simp [hasUser_of_getUserByClient hg]) hc
  | joinEnter hh => exact h.quiet (hh ▸ hc)
  | leaveMissing hh => exact h.quiet (hh ▸ hc)
  | leaveRoom hh => exact h.quiet (hh ▸ hc)
  | leaveReply hh => exact h.quiet (hh ▸ hc)
  | _ => simp [HandlerPc.executing] at hc

theorem Silenced.step {l : Label} (h : Silenced c s) (hok : FallsSilent s l)
    (hs : s.step cfg fb l = some t) : Silenced c t := by
  cases l with
  | accepted w acceptSocket =>
    obtain ⟨-, -, rfl⟩ := step_accepted hs
    exact ⟨h.closed, h.quiet⟩
  | arrive conn data =>
    obtain ⟨-, -, -, rfl⟩ := step_arrive hs
    exact ⟨h.closed, h.quiet⟩
  | recvDone w conn result =>
    obtain ⟨-, -, rfl⟩ := step_recvDone hs
    exact ⟨h.closed, h.quiet⟩
  | sendDone w conn result =>
    obtain ⟨-, -, rfl⟩ := step_sendDone hs
    exact ⟨h.closed, h.quiet⟩
  | worker w ok =>
    obtain ⟨pc, u, pc', hpc, hw, rfl⟩ := step_worker hs
    refine ⟨hw.closed h.closed, fun hc => h.quiet ?_⟩
    rw [← hw.registry.2.1]
    exact hc
  | tick =>
    obtain ⟨-, -, rfl⟩ := step_tick hs
    exact ⟨h.closed, h.quiet⟩
  | logic choice => exact h.logic hok (logicStep_inv hs)

theorem getOrCreateAvailableRoom_of_space {rooms : RoomManager} (h : hasSpace rooms = true) :
    rooms.getOrCreateAvailableRoom.1 = rooms := by
  obtain ⟨room, hr, hlen⟩ := List.any_eq_true.mp h
  unfold RoomManager.getOrCreateAvailableRoom
  cases hf : rooms.rooms.findIdx? fun room =>
    decide (room.users.length < rooms.maxRoomCapacity) with
  | none => exact absurd hlen (by simp [List.findIdx?_eq_none_iff.mp hf room hr])
  | some i => rfl

/-- The step posts no packet. -/
def PostsNothing (s t : State) : Prop :=
  ∃ evs, t.log = s.log ++ evs ∧ ∀ conn packet accepted, .posted conn packet accepted ∉ evs

/-- The registries are as they were, and no packet was posted. -/
structure NoEffect (s t : State) : Prop where
  rooms : t.rooms = s.rooms
  users : t.users = s.users
  sessions : t.sessions = s.sessions
  posts : PostsNothing s t

theorem postsNothing_of_log (h : t.log = s.log) : PostsNothing s t := ⟨[], by simp [h]⟩

/-- A step of the logic thread for a command of a silenced connection. -/
theorem Silenced.noEffect {choice : Choice} (h : Silenced c s) (hok : FallsSilent s (.logic choice))
    (hs : LogicStep s choice t) (hc : s.processing = some c) : NoEffect s t := by
  have hguard : ∀ {b : Bool}, (!s.closed.contains c || b) = true → b = true := by
    intro b hb
    simpa [h.closed] using hb
  -- past the lookups the command would be taking effect
  have hexec : ∀ {handler : HandlerPc}, s.handler = handler → handler.executing = some c →
      NoEffect s t := fun he hx => absurd (he ▸ hx) h.quiet
  cases hs with
  | joinRoom hh =>
    simp only [State.processing, hh, Option.some.injEq] at hc
    simp only [FallsSilent, hh, hc] at hok
    exact ⟨getOrCreateAvailableRoom_of_space (hguard hok), rfl, rfl, postsNothing_of_log rfl⟩
  | joinExists hh hg => exact ⟨rfl, rfl, rfl, ⟨_, rfl, by simp⟩⟩
  | joinUser hh hg _ =>
    simp only [State.processing, hh, Option.some.injEq] at hc
    simp only [FallsSilent, hh, hc] at hok
    have hnone := not_hasUser_of_getUserByClient hg
    simp [hguard hok] at hnone
  | joinEnter hh => exact hexec hh (by simp only [State.processing, hh] at hc; exact hc)
  | joinReply hh => exact hexec hh (by simp only [State.processing, hh] at hc; exact hc)
  | leaveFind hh hg => exact ⟨rfl, rfl, rfl, ⟨_, rfl, by simp⟩⟩
  | leaveRoom hh => exact hexec hh (by simp only [State.processing, hh] at hc; exact hc)
  | leaveReply hh => exact hexec hh (by simp only [State.processing, hh] at hc; exact hc)
  | leaveRemove hh => exact hexec hh (by simp only [State.processing, hh] at hc; exact hc)
  | chatFind hh hg => exact ⟨rfl, rfl, rfl, ⟨_, rfl, by simp⟩⟩
  | chatSend hh => exact hexec hh (by simp only [State.processing, hh] at hc; exact hc)
  | _ => exact ⟨rfl, rfl, rfl, postsNothing_of_log rfl⟩

end Highp.Chat

import Highp.Chat.Agreement

/-! The rooms under locks of their own. `RoomManager::KickDisconnected` holds the lock of the
manager, and `Room::Join` and `Room::Leave` do not take it: the logic thread may enter or leave a
room while a worker is on its way through the rooms. -/

namespace Highp.Chat
open Highp.Lib Highp.Network

inductive RoomLabel
  | server (l : Label)
  /-- Worker `w`, inside `KickDisconnected`, runs `KickByDisconnected` on the room at a place. -/
  | kickRoom (w room : Nat)
  /-- Worker `w` leaves `KickDisconnected`. -/
  | kicked (w : Nat)

/-- What the kernel receives in a step. -/
def RoomLabel.received : RoomLabel → Option (Conn × List UInt8)
  | .server (.arrive conn data) => some (conn, data)
  | _ => none

def State.roomStep (cfg : Config) (fb : FlatBuffers) (s : State) : RoomLabel → Option State
  | .server l => s.step cfg fb l
  | .kickRoom w room =>
    match s.workers[w]? with
    | some (.kickDisconnected conn) =>
      some { s with
        rooms := s.rooms.setRoom room
          ((s.rooms.roomAt room).kickByDisconnected s.pool conn.client) }
    | _ => none
  | .kicked w =>
    match s.workers[w]? with
    | some (.kickDisconnected conn) =>
      some ({ s with log := s.log ++ [Event.onDisconnect conn] }.setWorker w (.removeByClient conn))
    | _ => none

/-- The chat server in which a kick may also go room by room. -/
def roomServer (cfg : Config) (fb : FlatBuffers) : System State RoomLabel where
  start := .new cfg
  step := State.roomStep cfg fb

/-- Every run in which a kick is one step is a run. -/
theorem reach_roomServer {cfg : Config} {fb : FlatBuffers} {s : State}
    (h : (chatServer cfg fb).Reach System.always s) :
    (roomServer cfg fb).Reach System.always s := by
  induction h with
  | start => exact .start
  | @next s t l _ _ hs ih => exact .next (l := .server l) ih trivial hs

theorem roomStep_kickRoom {cfg : Config} {fb : FlatBuffers} {s t : State} {w room : Nat}
    (h : s.roomStep cfg fb (.kickRoom w room) = some t) :
    ∃ conn, s.workers[w]? = some (.kickDisconnected conn) ∧
      t = { s with
        rooms := s.rooms.setRoom room
          ((s.rooms.roomAt room).kickByDisconnected s.pool conn.client) } := by
  simp only [State.roomStep] at h
  split at h
  · rename_i conn hw
    exact ⟨conn, hw, (Option.some.inj h).symm⟩
  · simp at h

theorem roomStep_kicked {cfg : Config} {fb : FlatBuffers} {s t : State} {w : Nat}
    (h : s.roomStep cfg fb (.kicked w) = some t) :
    ∃ conn, s.workers[w]? = some (.kickDisconnected conn) ∧
      t = { s with log := s.log ++ [Event.onDisconnect conn] }.setWorker w
        (.removeByClient conn) := by
  simp only [State.roomStep] at h
  split at h
  · rename_i conn hw
    exact ⟨conn, hw, (Option.some.inj h).symm⟩
  · simp at h

/-! ## What a step does to users and rooms -/

/-- The rooms when some of their users have been taken out, by the place of the room. -/
def RoomManager.thin (m : RoomManager) (keep : Nat → User → Bool) : RoomManager :=
  { m with rooms := m.rooms.mapIdx fun i room => { room with users := room.users.filter (keep i) } }

namespace RoomManager
variable {m : RoomManager} {keep : Nat → User → Bool}

theorem roomAt_thin (m : RoomManager) (keep : Nat → User → Bool) (i : Nat) :
    (m.thin keep).roomAt i =
      { m.roomAt i with users := (m.roomAt i).users.filter (keep i) } := by
  simp only [thin, roomAt, List.getElem?_mapIdx]
  cases m.rooms[i]? with
  | none => rfl
  | some room => rfl

theorem mem_thin {room : Room} (h : room ∈ (m.thin keep).rooms) :
    ∃ i, m.roomAt i ∈ m.rooms ∧
      room = { m.roomAt i with users := (m.roomAt i).users.filter (keep i) } := by
  obtain ⟨i, hi, rfl⟩ := List.mem_mapIdx.mp h
  refine ⟨i, roomAt_mem hi, ?_⟩
  rw [roomAt_eq hi]

theorem thin_true (m : RoomManager) : (m.thin fun _ _ => true) = m := by
  cases m with
  | mk rooms roomCounter maxRoomCapacity =>
    simp only [thin, List.filter_true, mk.injEq, and_true]
    exact List.ext_getElem (by simp) (by simp)

theorem kickDisconnected_eq_thin (m : RoomManager) (pool : Pool) (client : Slot) :
    m.kickDisconnected pool client = m.thin fun _ u => !u.isSameClient pool client := by
  simp only [kickDisconnected, thin, mk.injEq, and_true]
  apply List.ext_getElem
  · simp
  · intro i hi hi'
    simp [Room.kickByDisconnected]

theorem kickRoom_eq_thin (m : RoomManager) (pool : Pool) (client : Slot) (room : Nat) :
    m.setRoom room ((m.roomAt room).kickByDisconnected pool client) =
      m.thin fun i u => i != room || !u.isSameClient pool client := by
  simp only [setRoom, thin, mk.injEq, and_true]
  apply List.ext_getElem
  · simp
  · intro i hi hi'
    have him : i < m.rooms.length := by simpa using hi
    by_cases hir : room = i
    · subst hir
      simp [Room.kickByDisconnected, roomAt_eq him]
    · have hne : (i != room) = true := by simpa using Ne.symm hir
      simp [List.getElem_set_ne hir, hne]

end RoomManager

/-- What a step does to users, rooms and handler: it is a step of a handler, or it takes some
users out of the rooms at most. -/
inductive RegistryStep (s : State) (l : RoomLabel) (t : State) : Prop
  | logic {choice : Choice} : l = .server (.logic choice) → LogicStep s choice t →
      RegistryStep s l t
  | thin (keep : Nat → User → Bool) : (∀ choice, l ≠ .server (.logic choice)) →
      t.users = s.users → t.handler = s.handler → t.rooms = s.rooms.thin keep →
      RegistryStep s l t

variable {cfg : Config} {fb : FlatBuffers} {s t : State}

theorem registryStep_same {l : RoomLabel} (hl : ∀ choice, l ≠ .server (.logic choice))
    (hu : t.users = s.users) (hh : t.handler = s.handler) (hr : t.rooms = s.rooms) :
    RegistryStep s l t :=
  .thin (fun _ _ => true) hl hu hh (hr.trans (RoomManager.thin_true s.rooms).symm)

theorem step_registry {l : Label} (h : s.step cfg fb l = some t) :
    RegistryStep s (.server l) t := by
  cases l with
  | accepted w acceptSocket =>
    obtain ⟨-, -, rfl⟩ := step_accepted h
    exact registryStep_same nofun rfl rfl rfl
  | arrive conn data =>
    obtain ⟨-, -, -, rfl⟩ := step_arrive h
    exact registryStep_same nofun rfl rfl rfl
  | recvDone w conn result =>
    obtain ⟨-, -, rfl⟩ := step_recvDone h
    exact registryStep_same nofun rfl rfl rfl
  | sendDone w conn result =>
    obtain ⟨-, -, rfl⟩ := step_sendDone h
    exact registryStep_same nofun rfl rfl rfl
  | worker w ok =>
    obtain ⟨pc, u, pc', -, hw, rfl⟩ := step_worker h
    obtain ⟨hu, hh, hr⟩ := hw.registry
    rcases hr with hr | ⟨conn, -, hr⟩
    · exact registryStep_same nofun hu hh hr
    · exact .thin _ nofun hu hh (hr.trans (RoomManager.kickDisconnected_eq_thin _ _ _))
  | tick =>
    obtain ⟨-, -, rfl⟩ := step_tick h
    exact registryStep_same nofun rfl rfl rfl
  | logic choice => exact .logic rfl (logicStep_inv h)

/-- **Inversion.** Every step of the server with its rooms under their own locks. -/
theorem roomStep_registry {l : RoomLabel} (h : s.roomStep cfg fb l = some t) :
    RegistryStep s l t := by
  cases l with
  | server l => exact step_registry h
  | kickRoom w room =>
    obtain ⟨conn, -, rfl⟩ := roomStep_kickRoom h
    exact .thin _ nofun rfl rfl (RoomManager.kickRoom_eq_thin _ _ _ _)
  | kicked w =>
    obtain ⟨conn, -, rfl⟩ := roomStep_kicked h
    exact registryStep_same nofun rfl rfl rfl

end Highp.Chat

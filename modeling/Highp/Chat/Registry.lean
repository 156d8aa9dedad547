import Highp.Network.PacketDispatcher

/-! The registries of the chat server: sessions, users and rooms. They hold on to a `Client`
slot and tell clients apart by the socket that the slot has at the moment of the question. -/

namespace Highp.Chat
open Highp.Network

/-- `_clientPool`. -/
abbrev Pool := Slot → Client

/-- The first match in the iteration order of an `unordered_map`: any of them, by `order`. -/
def firstMatch {α : Type} (found : List α) (order : Nat) : Option α := found[order % found.length]?

theorem firstMatch_mem {α : Type} {found : List α} {order : Nat} {a : α}
    (h : firstMatch found order = some a) : a ∈ found :=
  List.mem_of_getElem? h

theorem firstMatch_eq_none {α : Type} {found : List α} {order : Nat} :
    firstMatch found order = none ↔ found = [] := by
  rw [firstMatch, List.getElem?_eq_none_iff]
  cases found with
  | nil => simp
  | cons a as =>
    have := Nat.mod_lt order (show 0 < (a :: as).length by simp)
    simp only [reduceCtorEq, iff_false, Nat.not_le]
    exact this

/-! ## Sessions -/

/-- `epoch` is a ghost: with the slot it names the connection the session was created for. -/
structure Session where
  id : Nat
  tcpClient : Slot
  epoch : Nat
  deriving DecidableEq

namespace Session

def conn (session : Session) : Conn := ⟨session.tcpClient, session.epoch⟩

/-- `IsSameSession`. Two slots without a socket are the same. -/
def isSameSession (pool : Pool) (session : Session) (client : Slot) : Bool :=
  (pool session.tcpClient).socket == (pool client).socket

theorem isSameSession_self (pool : Pool) (session : Session) :
    session.isSameSession pool session.tcpClient = true := by
  simp [isSameSession]

end Session

structure SessionManager where
  sessions : List Session
  sessionCounter : Nat

namespace SessionManager

def new : SessionManager := ⟨[], 0⟩

/-- `CreateSession`, for the connection `conn`. -/
def createSession (m : SessionManager) (conn : Conn) : SessionManager where
  sessions := m.sessions.filter (fun s => s.id != m.sessionCounter) ++
    [⟨m.sessionCounter, conn.client, conn.epoch⟩]
  sessionCounter := (m.sessionCounter + 1) % 2 ^ 64

def getSessionByClient (m : SessionManager) (pool : Pool) (client : Slot) (order : Nat) :
    Option Session :=
  firstMatch (m.sessions.filter fun s => s.isSameSession pool client) order

def removeByClient (m : SessionManager) (pool : Pool) (client : Slot) : SessionManager :=
  { m with sessions := m.sessions.filter fun s => !s.isSameSession pool client }

end SessionManager

/-! ## Users -/

/-- `joined` is a ghost: the connection on which the `JoinRoomRequest` was received. -/
structure User where
  session : Session
  id : Nat
  username : Text
  roomId : Nat
  joined : Conn
  deriving DecidableEq

def User.isSameClient (pool : Pool) (user : User) (client : Slot) : Bool :=
  user.session.isSameSession pool client

structure UserManager where
  users : List User
  userIdCounter : Nat

namespace UserManager

def new : UserManager := ⟨[], 0⟩

/-- The user that `CreateUser` makes; its room id goes through a `uint32_t`. -/
def makeUser (m : UserManager) (session : Session) (username : Text) (roomId : Nat)
    (joined : Conn) : User :=
  ⟨session, m.userIdCounter, username, roomId % 2 ^ 32, joined⟩

/-- The end of `CreateUser`: the user gets the next id and its place in the map. -/
def addUser (m : UserManager) (user : User) : UserManager where
  users := m.users.filter (fun u => u.id != user.id) ++ [user]
  userIdCounter := (m.userIdCounter + 1) % 2 ^ 64

def removeUserByUserId (m : UserManager) (userId : Nat) : UserManager :=
  { m with users := m.users.filter fun u => u.id != userId }

def getUserByClient (m : UserManager) (pool : Pool) (client : Slot) (order : Nat) : Option User :=
  firstMatch (m.users.filter fun u => u.isSameClient pool client) order

theorem mem_addUser {m : UserManager} {user u : User} :
    u ∈ (m.addUser user).users ↔ (u ∈ m.users ∧ u.id ≠ user.id) ∨ u = user := by
  simp [addUser]

theorem mem_removeUserByUserId {m : UserManager} {userId : Nat} {u : User} :
    u ∈ (m.removeUserByUserId userId).users ↔ u ∈ m.users ∧ u.id ≠ userId := by
  simp [removeUserByUserId]

theorem getUserByClient_mem {m : UserManager} {pool : Pool} {client : Slot} {order : Nat}
    {user : User} (h : m.getUserByClient pool client order = some user) :
    user ∈ m.users ∧ user.isSameClient pool client = true :=
  List.mem_filter.mp (firstMatch_mem h)

/-- The ids are the keys of a map. -/
def IdsUnique (m : UserManager) : Prop := ∀ u ∈ m.users, ∀ v ∈ m.users, u.id = v.id → u = v

theorem IdsUnique.addUser {m : UserManager} (h : m.IdsUnique) (user : User) :
    (m.addUser user).IdsUnique := by
  intro u hu v hv huv
  rcases mem_addUser.mp hu with ⟨hu, hne⟩ | rfl
  · rcases mem_addUser.mp hv with ⟨hv, -⟩ | rfl
    · exact h u hu v hv huv
    · exact absurd huv hne
  · rcases mem_addUser.mp hv with ⟨-, hne⟩ | rfl
    · exact absurd huv.symm hne
    · rfl

theorem IdsUnique.removeUserByUserId {m : UserManager} (h : m.IdsUnique) (userId : Nat) :
    (m.removeUserByUserId userId).IdsUnique :=
  fun u hu v hv => h u (mem_removeUserByUserId.mp hu).1 v (mem_removeUserByUserId.mp hv).1

end UserManager

/-! ## Rooms -/

structure Room where
  id : Nat
  users : List User

namespace Room

/-- `Join`: whom it tells, and the room afterwards. -/
def join (room : Room) (user : User) : List User × Room :=
  (room.users, { room with users := room.users ++ [user] })

/-- `Leave`: the user it found, whom it tells, and the room afterwards. -/
def leave (room : Room) (userId : Nat) : Option (User × List User × Room) :=
  match room.users.find? fun u => u.id == userId with
  | none => none
  | some user =>
    let users := room.users.eraseP fun u => u.id == userId
    some (user, users.filter fun u => u.id != userId, { room with users })

/-- Whom `BroadcastChatMessage` tells. -/
def audience (room : Room) (userId : Nat) : List User := room.users.filter fun u => u.id != userId

def kickByDisconnected (room : Room) (pool : Pool) (client : Slot) : Room :=
  { room with users := room.users.filter fun u => !u.isSameClient pool client }

theorem eq_singleton {rooms : List Room} {id : Nat} {users : List User}
    (hids : rooms.map Room.id = [id]) (husers : rooms.map Room.users = [users]) :
    rooms = [⟨id, users⟩] := by
  obtain ⟨room, rfl, hid⟩ := List.map_eq_singleton_iff.mp hids
  simp only [List.map_cons, List.map_nil, List.cons.injEq, and_true] at husers
  rw [← hid, ← husers]

end Room

structure RoomManager where
  rooms : List Room
  roomCounter : Nat
  maxRoomCapacity : Nat

namespace RoomManager

def new (initRoomCount maxRoomCapacity : Nat) : RoomManager where
  rooms := (List.range initRoomCount).map fun roomId => ⟨roomId, []⟩
  roomCounter := initRoomCount
  maxRoomCapacity := maxRoomCapacity

/-- `GetOrCreateAvailableRoom`, with the place of the room in `_rooms`. -/
def getOrCreateAvailableRoom (m : RoomManager) : RoomManager × Nat :=
  match m.rooms.findIdx? fun room => decide (room.users.length < m.maxRoomCapacity) with
  | some i => (m, i)
  | none =>
    ({ m with rooms := m.rooms ++ [⟨m.roomCounter, []⟩]
              roomCounter := (m.roomCounter + 1) % 2 ^ 32 }, m.rooms.length)

/-- `GetRoom`, as a place in `_rooms`. -/
def getRoom (m : RoomManager) (roomId : Nat) : Option Nat :=
  m.rooms.findIdx? fun room => room.id == roomId

/-- The room at a place; rooms are never destroyed, so the place is as good as the pointer. -/
def roomAt (m : RoomManager) (i : Nat) : Room := (m.rooms[i]?).getD ⟨0, []⟩

def setRoom (m : RoomManager) (i : Nat) (room : Room) : RoomManager :=
  { m with rooms := m.rooms.set i room }

def kickDisconnected (m : RoomManager) (pool : Pool) (client : Slot) : RoomManager :=
  { m with rooms := m.rooms.map fun room => room.kickByDisconnected pool client }

end RoomManager
end Highp.Chat

import Highp.Chat.Steps
import Mathlib.Data.List.Nodup

/-! Membership is kept twice, in `UserManager` and in the rooms. The handlers keep the two in
step; `GameLoop::Disconnect` empties the rooms only. -/

namespace Highp.Chat
open Highp.Lib Highp.Network

/-! ## The handler in between -/

/-- A registered user that no room lists at this point of a handler: `CreateUser` has run and
`Room::Join` has not, or `Room::Leave` has and `RemoveUserByUserId` has not. -/
def HandlerPc.away : HandlerPc → Option User
  | .joinEnter _ _ user => some user
  | .leaveReply _ user => some user
  | .leaveRemove _ user => some user
  | _ => none

/-- The user that `LeaveRoomHandler` is about to take out of its room. -/
def HandlerPc.leaving : HandlerPc → Option User
  | .leaveRoom _ user => some user
  | _ => none

/-- The room that `JoinRoomHandler` holds on to. -/
def HandlerPc.room : HandlerPc → Option Nat
  | .joinSession _ _ room => some room
  | .joinUser _ _ room _ => some room
  | .joinEnter _ room _ => some room
  | _ => none

def Member (rooms : RoomManager) (user : User) : Prop :=
  ∃ room ∈ rooms.rooms, user ∈ room.users

/-! ## The invariant -/

structure RoomsWellFormed (rooms : RoomManager) : Prop where
  nodup : (rooms.rooms.map Room.id).Nodup
  id_lt : ∀ room ∈ rooms.rooms, room.id < 2 ^ 32
  counter_lt : rooms.roomCounter < 2 ^ 32
  home : ∀ room ∈ rooms.rooms, ∀ u ∈ room.users, u.roomId = room.id
  once : ∀ room ∈ rooms.rooms, room.users.Nodup

/-- Registry and rooms agree, up to the user that the handler has in its hands. -/
structure Consistent (users : UserManager) (rooms : RoomManager) (handler : HandlerPc) : Prop where
  userIds : users.IdsUnique
  wellFormed : RoomsWellFormed rooms
  registered : ∀ u, Member rooms u → u ∈ users.users
  member : handler ≠ .fault → ∀ u ∈ users.users,
    Member rooms u ∨ handler.away = some u ∨ handler.leaving = some u
  away : ∀ u, handler.away = some u → u ∈ users.users ∧ ¬ Member rooms u
  leaving : ∀ u, handler.leaving = some u → u ∈ users.users
  place : ∀ i, handler.room = some i → i < rooms.rooms.length
  entering : ∀ call i user, handler = .joinEnter call i user → (rooms.roomAt i).id = user.roomId

section
variable {users : UserManager} {rooms : RoomManager} {handler handler' : HandlerPc}

/-- A step that only moves the handler between places where it holds no user. -/
theorem Consistent.move (h : Consistent users rooms handler) (hf : handler ≠ .fault)
    (ha : handler.away = none) (hl : handler.leaving = none) (ha' : handler'.away = none)
    (hl' : handler'.leaving = none) (hr : ∀ i, handler'.room = some i → handler.room = some i) :
    Consistent users rooms handler' where
  userIds := h.userIds
  wellFormed := h.wellFormed
  registered := h.registered
  member _ u hu := by
    rcases h.member hf u hu with hm | hm | hm
    · exact Or.inl hm
    · simp [ha] at hm
    · simp [hl] at hm
  away u hu := by simp [ha'] at hu
  leaving u hu := by simp [hl'] at hu
  place i hi := h.place i (hr i hi)
  entering call i user he := by simp [he, HandlerPc.away] at ha'

theorem roomAt_mem {i : Nat} (hi : i < rooms.rooms.length) : rooms.roomAt i ∈ rooms.rooms := by
  rw [RoomManager.roomAt, List.getElem?_eq_getElem hi]
  exact List.getElem_mem hi

theorem getRoom_spec {roomId i : Nat} (h : rooms.getRoom roomId = some i) :
    i < rooms.rooms.length ∧ (rooms.roomAt i).id = roomId := by
  obtain ⟨hi, hp, -⟩ := List.findIdx?_eq_some_iff_getElem.mp h
  refine ⟨hi, ?_⟩
  rw [RoomManager.roomAt, List.getElem?_eq_getElem hi]
  simpa using hp

/-- Ids are unique, so a room is determined by its id. -/
theorem RoomsWellFormed.eq_of_id (h : RoomsWellFormed rooms) {r r' : Room} (hr : r ∈ rooms.rooms)
    (hr' : r' ∈ rooms.rooms) (hid : r.id = r'.id) : r = r' :=
  List.inj_on_of_nodup_map h.nodup hr hr' hid

/-- A user that is a member at all is listed in the room with its room id. -/
theorem RoomsWellFormed.mem_room (h : RoomsWellFormed rooms) {u : User} (hm : Member rooms u)
    {i : Nat} (hi : i < rooms.rooms.length) (hid : (rooms.roomAt i).id = u.roomId) :
    u ∈ (rooms.roomAt i).users := by
  obtain ⟨room, hroom, hu⟩ := hm
  have he : room = rooms.roomAt i :=
    h.eq_of_id hroom (roomAt_mem hi) (by rw [hid, h.home room hroom u hu])
  exact he ▸ hu

theorem roomAt_eq {i : Nat} (hi : i < rooms.rooms.length) : rooms.roomAt i = rooms.rooms[i] := by
  rw [RoomManager.roomAt, List.getElem?_eq_getElem hi]
  rfl

/-- Who is a member after one room has been replaced. -/
theorem RoomsWellFormed.member_setRoom (h : RoomsWellFormed rooms) {i : Nat}
    (hi : i < rooms.rooms.length) (room : Room) (u : User) :
    Member (rooms.setRoom i room) u ↔
      u ∈ room.users ∨ ∃ r ∈ rooms.rooms, r ≠ rooms.roomAt i ∧ u ∈ r.users := by
  rw [roomAt_eq hi]
  constructor
  · rintro ⟨r, hr, hu⟩
    obtain ⟨j, hj, rfl⟩ := List.mem_iff_getElem.mp hr
    have hj' : j < rooms.rooms.length := by simpa [RoomManager.setRoom] using hj
    by_cases hij : i = j
    · subst hij
      simp only [RoomManager.setRoom, List.getElem_set_self] at hu
      exact Or.inl hu
    · simp only [RoomManager.setRoom, List.getElem_set_ne hij] at hu
      refine Or.inr ⟨rooms.rooms[j], List.getElem_mem hj', fun he => hij ?_, hu⟩
      exact ((List.Nodup.of_map _ h.nodup).getElem_inj_iff.mp he).symm
  · rintro (hu | ⟨r, hr, hne, hu⟩)
    · exact ⟨room, List.mem_set hi room, hu⟩
    · obtain ⟨j, hj, rfl⟩ := List.mem_iff_getElem.mp hr
      have hij : i ≠ j := fun hij => hne (by simp [hij])
      refine ⟨rooms.rooms[j], ?_, hu⟩
      rw [← List.getElem_set_ne hij (a := room) (by simpa using hj)]
      exact List.getElem_mem _

theorem RoomsWellFormed.setRoom (h : RoomsWellFormed rooms) {i : Nat}
    (hi : i < rooms.rooms.length) {room : Room} (hid : room.id = (rooms.roomAt i).id)
    (home : ∀ u ∈ room.users, u.roomId = room.id) (once : room.users.Nodup) :
    RoomsWellFormed (rooms.setRoom i room) where
  nodup := by
    have hset : (rooms.rooms.set i room).map Room.id = rooms.rooms.map Room.id := by
      apply List.ext_getElem
      · simp
      · intro j hj hj'
        by_cases hij : i = j
        · subst hij
          simp [hid, roomAt_eq hi]
        · simp [List.getElem_set_ne hij]
    rw [RoomManager.setRoom, hset]
    exact h.nodup
  id_lt r hr := by
    rcases List.mem_or_eq_of_mem_set hr with hr | rfl
    · exact h.id_lt r hr
    · exact hid ▸ h.id_lt _ (roomAt_mem hi)
  counter_lt := h.counter_lt
  home r hr := by
    rcases List.mem_or_eq_of_mem_set hr with hr | rfl
    · exact h.home r hr
    · exact home
  once r hr := by
    rcases List.mem_or_eq_of_mem_set hr with hr | rfl
    · exact h.once r hr
    · exact once

/-! ## Joining -/

theorem getOrCreateAvailableRoom_cases (rooms : RoomManager) :
    (rooms.getOrCreateAvailableRoom.1 = rooms ∧
      rooms.getOrCreateAvailableRoom.2 < rooms.rooms.length) ∨
    rooms.getOrCreateAvailableRoom =
      ({ rooms with rooms := rooms.rooms ++ [⟨rooms.roomCounter, []⟩]
                    roomCounter := (rooms.roomCounter + 1) % 2 ^ 32 }, rooms.rooms.length) := by
  unfold RoomManager.getOrCreateAvailableRoom
  cases hf : rooms.rooms.findIdx? fun room =>
    decide (room.users.length < rooms.maxRoomCapacity) with
  | none => exact Or.inr rfl
  | some i => exact Or.inl ⟨rfl, (List.findIdx?_eq_some_iff_getElem.mp hf).1⟩

/-- A new room is empty and changes nobody's membership. -/
theorem member_append_empty (roomId : Nat) (counter : Nat) (u : User) :
    Member { rooms with rooms := rooms.rooms ++ [⟨roomId, []⟩], roomCounter := counter } u ↔
      Member rooms u := by
  simp [Member]

theorem RoomsWellFormed.append_empty (h : RoomsWellFormed rooms)
    (hfresh : ∀ room ∈ rooms.rooms, room.id ≠ rooms.roomCounter) :
    RoomsWellFormed { rooms with rooms := rooms.rooms ++ [⟨rooms.roomCounter, []⟩]
                                 roomCounter := (rooms.roomCounter + 1) % 2 ^ 32 } where
  nodup := by
    rw [List.map_append, List.nodup_append]
    refine ⟨h.nodup, by simp, ?_⟩
    intro a ha b hb
    obtain ⟨room, hroom, rfl⟩ := List.mem_map.mp ha
    have hb' : b = rooms.roomCounter := by simpa using hb
    exact hb' ▸ hfresh room hroom
  id_lt room hr := by
    rcases List.mem_append.mp hr with hr | hr
    · exact h.id_lt room hr
    · rw [List.mem_singleton.mp hr]
      exact h.counter_lt
  counter_lt := Nat.mod_lt _ (by decide)
  home room hr := by
    rcases List.mem_append.mp hr with hr | hr
    · exact h.home room hr
    · simp [List.mem_singleton.mp hr]
  once room hr := by
    rcases List.mem_append.mp hr with hr | hr
    · exact h.once room hr
    · simp [List.mem_singleton.mp hr]

theorem Consistent.joinRoom {call : Call} {username : Text}
    (h : Consistent users rooms (.joinRoom call username))
    (hfresh : ∀ room ∈ rooms.rooms, room.id ≠ rooms.roomCounter) :
    Consistent users rooms.getOrCreateAvailableRoom.1
      (.joinSession call username rooms.getOrCreateAvailableRoom.2) := by
  have hmem : ∀ u ∈ users.users, Member rooms u := by
    intro u hu
    simpa [HandlerPc.away, HandlerPc.leaving] using h.member (by simp) u hu
  rcases getOrCreateAvailableRoom_cases rooms with ⟨he, hi⟩ | he
  · rw [he]
    refine ⟨h.userIds, h.wellFormed, h.registered, fun _ u hu => Or.inl (hmem u hu), ?_, ?_, ?_, ?_⟩
    · simp [HandlerPc.away]
    · simp [HandlerPc.leaving]
    · simpa [HandlerPc.room] using hi
    · simp
  · rw [he]
    refine ⟨h.userIds, h.wellFormed.append_empty hfresh, ?_, ?_, ?_, ?_, ?_, ?_⟩
    · intro u hu
      exact h.registered u ((member_append_empty _ _ u).mp hu)
    · intro _ u hu
      exact Or.inl ((member_append_empty _ _ u).mpr (hmem u hu))
    · simp [HandlerPc.away]
    · simp [HandlerPc.leaving]
    · simp [HandlerPc.room]
    · simp

/-- `CreateUser`: the new user has an id of its own and is not in a room yet. -/
theorem Consistent.joinUser {call : Call} {username : Text} {room : Nat} {session : Session}
    {user : User} (h : Consistent users rooms (.joinUser call username room session))
    (hfresh : ∀ u ∈ users.users, u.id ≠ users.userIdCounter)
    (hu : user = users.makeUser session username (rooms.roomAt room).id call.cmd.conn) :
    Consistent (users.addUser user) rooms (.joinEnter call room user) := by
  have hid : user.id = users.userIdCounter := by rw [hu]; rfl
  have hplace : room < rooms.rooms.length := h.place room rfl
  refine ⟨h.userIds.addUser user, h.wellFormed, ?_, ?_, ?_, ?_, ?_, ?_⟩
  · intro u hm
    have hreg := h.registered u hm
    exact UserManager.mem_addUser.mpr (Or.inl ⟨hreg, hid ▸ hfresh u hreg⟩)
  · intro _ u hmem
    rcases UserManager.mem_addUser.mp hmem with ⟨hmem, -⟩ | rfl
    · exact Or.inl (by simpa [HandlerPc.away, HandlerPc.leaving] using h.member (by simp) u hmem)
    · exact Or.inr (Or.inl rfl)
  · intro u haway
    have he : user = u := by simpa [HandlerPc.away] using haway
    subst he
    exact ⟨UserManager.mem_addUser.mpr (Or.inr rfl), fun hm => hfresh _ (h.registered _ hm) hid⟩
  · simp [HandlerPc.leaving]
  · intro i hi
    have he : room = i := by simpa [HandlerPc.room] using hi
    exact he ▸ hplace
  · intro call' i user' he
    cases he
    rw [hu, UserManager.makeUser]
    exact (Nat.mod_eq_of_lt (h.wellFormed.id_lt _ (roomAt_mem hplace))).symm

/-- `Room::Join`: the user enters the room that its id names. -/
theorem Consistent.joinEnter {call : Call} {room : Nat} {user : User}
    (h : Consistent users rooms (.joinEnter call room user)) :
    Consistent users (rooms.setRoom room ((rooms.roomAt room).join user).2)
      (.joinReply call user) := by
  have hi : room < rooms.rooms.length := h.place room rfl
  obtain ⟨hreg, haway⟩ := h.away user rfl
  have hmem : ∀ u, Member (rooms.setRoom room ((rooms.roomAt room).join user).2) u ↔
      Member rooms u ∨ u = user := by
    intro u
    rw [h.wellFormed.member_setRoom hi]
    simp only [Room.join, List.mem_append, List.mem_singleton]
    constructor
    · rintro ((hu | hu) | ⟨r, hr, -, hu⟩)
      · exact Or.inl ⟨_, roomAt_mem hi, hu⟩
      · exact Or.inr hu
      · exact Or.inl ⟨r, hr, hu⟩
    · rintro (⟨r, hr, hu⟩ | hu)
      · by_cases hri : r = rooms.roomAt room
        · exact Or.inl (Or.inl (hri ▸ hu))
        · exact Or.inr ⟨r, hr, hri, hu⟩
      · exact Or.inl (Or.inr hu)
  have hhome := h.entering call room user rfl
  have hroom := roomAt_mem hi
  refine ⟨h.userIds, h.wellFormed.setRoom hi rfl ?_ ?_, ?_, ?_, ?_, ?_, ?_, ?_⟩
  · intro u hu
    rcases List.mem_append.mp hu with hu | hu
    · exact h.wellFormed.home _ hroom u hu
    · rw [List.mem_singleton.mp hu]
      exact hhome.symm
  · refine List.nodup_append.mpr ⟨h.wellFormed.once _ hroom, by simp, ?_⟩
    intro a ha b hb
    rw [List.mem_singleton.mp hb]
    rintro rfl
    exact haway ⟨_, hroom, ha⟩
  · intro u hm
    rcases (hmem u).mp hm with hm | rfl
    · exact h.registered u hm
    · exact hreg
  · intro _ u hu
    rcases h.member (by simp) u hu with hm | hm | hm
    · exact Or.inl ((hmem u).mpr (Or.inl hm))
    · exact Or.inl ((hmem u).mpr (Or.inr (by simpa [HandlerPc.away, eq_comm] using hm)))
    · simp [HandlerPc.leaving] at hm
  · simp [HandlerPc.away]
  · simp [HandlerPc.leaving]
  · simp [HandlerPc.room]
  · simp

/-! ## Leaving -/

theorem Consistent.leaveFind {call : Call} {user : User}
    (h : Consistent users rooms (.leaveFind call)) (hu : user ∈ users.users) :
    Consistent users rooms (.leaveRoom call user) := by
  refine ⟨h.userIds, h.wellFormed, h.registered, ?_, ?_, ?_, ?_, ?_⟩
  · intro _ u hm
    exact Or.inl (by simpa [HandlerPc.away, HandlerPc.leaving] using h.member (by simp) u hm)
  · simp [HandlerPc.away]
  · intro u hl
    have he : user = u := by simpa [HandlerPc.leaving] using hl
    exact he ▸ hu
  · simp [HandlerPc.room]
  · simp

/-- `Room::Leave` did not find the user: it had been kicked before. -/
theorem Consistent.leaveMissing {call : Call} {user : User} {room : Nat}
    (h : Consistent users rooms (.leaveRoom call user))
    (hr : rooms.getRoom user.roomId = some room)
    (hl : (rooms.roomAt room).leave user.id = none) :
    Consistent users rooms (.leaveReply call user) := by
  obtain ⟨hi, hid⟩ := getRoom_spec hr
  have hnot : ¬ Member rooms user := by
    intro hm
    have hu := h.wellFormed.mem_room hm hi hid
    cases hf : (rooms.roomAt room).users.find? fun u => u.id == user.id with
    | none => simpa using List.find?_eq_none.mp hf user hu
    | some found => simp [Room.leave, hf] at hl
  refine ⟨h.userIds, h.wellFormed, h.registered, ?_, ?_, ?_, ?_, ?_⟩
  · intro _ u hu
    rcases h.member (by simp) u hu with hm | hm | hm
    · exact Or.inl hm
    · simp [HandlerPc.away] at hm
    · exact Or.inr (Or.inl (by simpa [HandlerPc.leaving, HandlerPc.away] using hm))
  · intro u ha
    have he : user = u := by simpa [HandlerPc.away] using ha
    exact he ▸ ⟨h.leaving user rfl, hnot⟩
  · simp [HandlerPc.leaving]
  · simp [HandlerPc.room]
  · simp

/-- The room after `Room::Leave` lists everybody but the user. -/
theorem Consistent.mem_leave {call : Call} {user found : User} {room : Nat} {others : List User}
    {left : Room} (h : Consistent users rooms (.leaveRoom call user))
    (hr : rooms.getRoom user.roomId = some room)
    (hl : (rooms.roomAt room).leave user.id = some (found, others, left)) :
    left.id = (rooms.roomAt room).id ∧ left.users.Sublist (rooms.roomAt room).users ∧
      ∀ u, u ∈ left.users ↔ u ∈ (rooms.roomAt room).users ∧ u ≠ user := by
  obtain ⟨hi, -⟩ := getRoom_spec hr
  have hroom := roomAt_mem hi
  cases hf : (rooms.roomAt room).users.find? fun u => u.id == user.id with
  | none => simp [Room.leave, hf] at hl
  | some v =>
    simp only [Room.leave, hf, Option.some.injEq, Prod.mk.injEq] at hl
    obtain ⟨rfl, -, rfl⟩ := hl
    -- the entry it erases is the user itself, and there is no second one
    have hv : v = user := by
      have hid : v.id = user.id := by simpa using List.find?_some hf
      exact h.userIds v (h.registered v ⟨_, hroom, List.mem_of_find?_eq_some hf⟩) user
        (h.leaving user rfl) hid
    obtain ⟨hp, as, bs, hsplit, hbefore⟩ := List.find?_eq_some_iff_append.mp hf
    have herase : (rooms.roomAt room).users.eraseP (fun u => u.id == user.id) = as ++ bs := by
      rw [hsplit, List.eraseP_append_right _ (by simpa using hbefore)]
      simp [hp]
    have honce := h.wellFormed.once _ hroom
    rw [hsplit, hv, List.nodup_middle, List.nodup_cons] at honce
    refine ⟨rfl, List.eraseP_sublist, fun u => ?_⟩
    rw [herase, hsplit, hv]
    constructor
    · intro hu
      refine ⟨?_, ?_⟩
      · rcases List.mem_append.mp hu with hu | hu
        · simp [hu]
        · simp [hu]
      · rintro rfl
        exact honce.1 hu
    · rintro ⟨hu, hne⟩
      simpa [hne] using hu

theorem Consistent.leaveRoom {call : Call} {user found : User} {room : Nat} {others : List User}
    {left : Room} (h : Consistent users rooms (.leaveRoom call user))
    (hr : rooms.getRoom user.roomId = some room)
    (hl : (rooms.roomAt room).leave user.id = some (found, others, left)) :
    Consistent users (rooms.setRoom room left) (.leaveReply call user) := by
  obtain ⟨hi, hid⟩ := getRoom_spec hr
  obtain ⟨hlid, hsub, hleft⟩ := h.mem_leave hr hl
  have hroom := roomAt_mem hi
  have hmem : ∀ u, Member (rooms.setRoom room left) u ↔ Member rooms u ∧ u ≠ user := by
    intro u
    rw [h.wellFormed.member_setRoom hi, hleft]
    constructor
    · rintro (⟨hu, hne⟩ | ⟨r, hmr, hne, hu⟩)
      · exact ⟨⟨_, hroom, hu⟩, hne⟩
      · refine ⟨⟨r, hmr, hu⟩, fun he => hne (h.wellFormed.eq_of_id hmr hroom ?_)⟩
        rw [hid, ← h.wellFormed.home r hmr u hu, he]
    · rintro ⟨⟨r, hmr, hu⟩, hne⟩
      by_cases hri : r = rooms.roomAt room
      · exact Or.inl ⟨hri ▸ hu, hne⟩
      · exact Or.inr ⟨r, hmr, hri, hu⟩
  refine ⟨h.userIds, h.wellFormed.setRoom hi hlid ?_ ?_, ?_, ?_, ?_, ?_, ?_, ?_⟩
  · intro u hu
    rw [hlid]
    exact h.wellFormed.home _ hroom u ((hleft u).mp hu).1
  · exact (h.wellFormed.once _ hroom).sublist hsub
  · intro u hm
    exact h.registered u ((hmem u).mp hm).1
  · intro _ u hu
    by_cases hne : u = user
    · exact Or.inr (Or.inl (by simp [HandlerPc.away, hne]))
    · rcases h.member (by simp) u hu with hm | hm | hm
      · exact Or.inl ((hmem u).mpr ⟨hm, hne⟩)
      · simp [HandlerPc.away] at hm
      · exact absurd (by simpa [HandlerPc.leaving] using hm.symm) hne
  · intro u ha
    have he : user = u := by simpa [HandlerPc.away] using ha
    subst he
    exact ⟨h.leaving user rfl, fun hm => ((hmem user).mp hm).2 rfl⟩
  · simp [HandlerPc.leaving]
  · simp [HandlerPc.room]
  · simp

theorem Consistent.leaveFault {call : Call} {user : User}
    (h : Consistent users rooms (.leaveRoom call user)) : Consistent users rooms .fault := by
  refine ⟨h.userIds, h.wellFormed, h.registered, fun hf => absurd rfl hf, ?_, ?_, ?_, ?_⟩
  · simp [HandlerPc.away]
  · simp [HandlerPc.leaving]
  · simp [HandlerPc.room]
  · simp

theorem Consistent.leaveReply {call : Call} {user : User}
    (h : Consistent users rooms (.leaveReply call user)) :
    Consistent users rooms (.leaveRemove call user) := by
  refine ⟨h.userIds, h.wellFormed, h.registered, fun _ => h.member (by simp), h.away, ?_, ?_, ?_⟩
  · simp [HandlerPc.leaving]
  · simp [HandlerPc.room]
  · simp

/-- `RemoveUserByUserId`: the id is the user's own, and no room lists it any more. -/
theorem Consistent.leaveRemove {call : Call} {user : User}
    (h : Consistent users rooms (.leaveRemove call user)) :
    Consistent (users.removeUserByUserId user.id) rooms .ready := by
  obtain ⟨hreg, haway⟩ := h.away user rfl
  refine ⟨h.userIds.removeUserByUserId user.id, h.wellFormed, ?_, ?_, ?_, ?_, ?_, ?_⟩
  · intro u hm
    have hu := h.registered u hm
    refine UserManager.mem_removeUserByUserId.mpr ⟨hu, fun hid => haway ?_⟩
    exact h.userIds u hu user hreg hid ▸ hm
  · intro _ u hu
    obtain ⟨hu, hne⟩ := UserManager.mem_removeUserByUserId.mp hu
    rcases h.member (by simp) u hu with hm | hm | hm
    · exact Or.inl hm
    · have he : user = u := by simpa [HandlerPc.away] using hm
      exact absurd (he ▸ rfl) hne
    · simp [HandlerPc.leaving] at hm
  · simp [HandlerPc.away]
  · simp [HandlerPc.leaving]
  · simp [HandlerPc.room]
  · simp

/-! ## Disconnecting -/

/-- A kick of `client` would take nobody out of a room but the user that is leaving anyway. -/
def kicksNobody (pool : Pool) (rooms : RoomManager) (handler : HandlerPc) (client : Slot) : Bool :=
  rooms.rooms.all fun room => room.users.all fun u =>
    !u.isSameClient pool client || handler.leaving == some u

theorem kicksNobody_iff {pool : Pool} {client : Slot} :
    kicksNobody pool rooms handler client = true ↔
      ∀ u, Member rooms u → u.isSameClient pool client = true → handler.leaving = some u := by
  simp only [kicksNobody, List.all_eq_true, Bool.or_eq_true, Bool.not_eq_true', beq_iff_eq, Member]
  constructor
  · rintro h u ⟨room, hr, hu⟩ hs
    rcases h room hr u hu with hn | hl
    · simp [hn] at hs
    · exact hl
  · intro h room hr u hu
    cases hs : u.isSameClient pool client with
    | false => exact Or.inl rfl
    | true => exact Or.inr (h u ⟨room, hr, hu⟩ hs)

theorem member_kick {pool : Pool} {client : Slot} {u : User} :
    Member (rooms.kickDisconnected pool client) u ↔
      Member rooms u ∧ u.isSameClient pool client = false := by
  constructor
  · rintro ⟨room, hr, hu⟩
    obtain ⟨r, hmr, rfl⟩ := List.mem_map.mp hr
    obtain ⟨hu, hn⟩ := List.mem_filter.mp hu
    exact ⟨⟨r, hmr, hu⟩, by simpa using hn⟩
  · rintro ⟨⟨r, hr, hu⟩, hn⟩
    exact ⟨_, List.mem_map_of_mem hr, List.mem_filter.mpr ⟨hu, by simp [hn]⟩⟩

theorem RoomsWellFormed.kick (h : RoomsWellFormed rooms) (pool : Pool) (client : Slot) :
    RoomsWellFormed (rooms.kickDisconnected pool client) where
  nodup := by
    rw [RoomManager.kickDisconnected, List.map_map]
    exact h.nodup
  id_lt room hr := by
    obtain ⟨r, hmr, rfl⟩ := List.mem_map.mp hr
    exact h.id_lt r hmr
  counter_lt := h.counter_lt
  home room hr u hu := by
    obtain ⟨r, hmr, rfl⟩ := List.mem_map.mp hr
    exact h.home r hmr u (List.mem_filter.mp hu).1
  once room hr := by
    obtain ⟨r, hmr, rfl⟩ := List.mem_map.mp hr
    exact (h.once r hmr).filter _

theorem Consistent.kick (h : Consistent users rooms handler) {pool : Pool} {client : Slot}
    (hk : kicksNobody pool rooms handler client = true) :
    Consistent users (rooms.kickDisconnected pool client) handler := by
  rw [kicksNobody_iff] at hk
  refine ⟨h.userIds, h.wellFormed.kick pool client, ?_, ?_, ?_, h.leaving, ?_, ?_⟩
  · intro u hm
    exact h.registered u (member_kick.mp hm).1
  · intro hf u hu
    rcases h.member hf u hu with hm | hm
    · cases hs : u.isSameClient pool client with
      | false => exact Or.inl (member_kick.mpr ⟨hm, hs⟩)
      | true => exact Or.inr (Or.inr (hk u hm hs))
    · exact Or.inr hm
  · intro u ha
    obtain ⟨hu, hn⟩ := h.away u ha
    exact ⟨hu, fun hm => hn (member_kick.mp hm).1⟩
  · intro i hi
    simpa [RoomManager.kickDisconnected] using h.place i hi
  · intro call i user he
    have hi := h.place i (by simp [he, HandlerPc.room])
    have hid := h.entering call i user he
    simpa [RoomManager.roomAt, RoomManager.kickDisconnected, List.getElem?_eq_getElem hi,
      Room.kickByDisconnected] using hid

end

/-! ## Runs -/

/-- The step kicks nobody who is not leaving, and the next ids of rooms and users have not come
round to ids that are in use. -/
def KeepsAgreement (s : State) (l : Label) : Prop :=
  (match l with
  | .worker w _ =>
    match s.workers[w]? with
    | some (.kickDisconnected conn) => kicksNobody s.pool s.rooms s.handler conn.client
    | _ => true
  | .logic _ =>
    match s.handler with
    | .joinRoom _ _ => s.rooms.rooms.all fun room => room.id != s.rooms.roomCounter
    | .joinUser _ _ _ _ => s.users.users.all fun u => u.id != s.users.userIdCounter
    | _ => true
  | _ => true) = true

instance (s : State) (l : Label) : Decidable (KeepsAgreement s l) :=
  inferInstanceAs (Decidable (_ = true))

variable {cfg : Config} {fb : FlatBuffers} {s t : State}

theorem consistent_new : Consistent (State.new cfg).users (State.new cfg).rooms .ready := by
  refine ⟨by simp [State.new, UserManager.new, UserManager.IdsUnique], ?_, ?_, ?_, ?_, ?_, ?_, ?_⟩
  · refine ⟨by simp [State.new, RoomManager.new], ?_, ?_, ?_, ?_⟩
    · simp [State.new, RoomManager.new]
    · simp [State.new, RoomManager.new]
    · simp [State.new, RoomManager.new]
    · simp [State.new, RoomManager.new]
  · simp [Member, State.new, RoomManager.new]
  · simp [State.new, UserManager.new]
  · simp [HandlerPc.away]
  · simp [HandlerPc.leaving]
  · simp [HandlerPc.room]
  · simp

/-- A step of the logic thread. -/
theorem Consistent.logic {choice : Choice} (h : Consistent s.users s.rooms s.handler)
    (hok : KeepsAgreement s (.logic choice)) (hs : LogicStep s choice t) :
    Consistent t.users t.rooms t.handler := by
  have hmove : ∀ {handler handler' : HandlerPc}, s.handler = handler → handler ≠ .fault →
      handler.away = none → handler.leaving = none → handler'.away = none →
      handler'.leaving = none → (∀ i, handler'.room = some i → handler.room = some i) →
      Consistent s.users s.rooms handler' := by
    intro handler handler' he
    exact (he ▸ h).move
  cases hs with
  | skip hh => exact h
  | startJoin _ _ hh => exact hmove hh (by simp) rfl rfl rfl rfl (by simp [HandlerPc.room])
  | startLeave _ hh => exact hmove hh (by simp) rfl rfl rfl rfl (by simp [HandlerPc.room])
  | startChat _ _ hh => exact hmove hh (by simp) rfl rfl rfl rfl (by simp [HandlerPc.room])
  | reject hh => exact hmove hh (by simp) rfl rfl rfl rfl (by simp [HandlerPc.room])
  | rejectClosed hh => exact h
  | reset hh => exact hmove hh (by simp) rfl rfl rfl rfl (by simp [HandlerPc.room])
  | joinRoom hh =>
    rw [hh] at h
    simp only [KeepsAgreement, hh, List.all_eq_true, bne_iff_ne] at hok
    exact h.joinRoom hok
  | joinNoSession hh => exact hmove hh (by simp) rfl rfl rfl rfl (by simp [HandlerPc.room])
  | joinSession hh => exact hmove hh (by simp) rfl rfl rfl rfl (by simp [HandlerPc.room])
  | joinExists hh => exact hmove hh (by simp) rfl rfl rfl rfl (by simp [HandlerPc.room])
  | joinUser hh _ hu =>
    rw [hh] at h
    simp only [KeepsAgreement, hh, List.all_eq_true, bne_iff_ne] at hok
    exact h.joinUser hok hu
  | joinEnter hh =>
    rw [hh] at h
    exact h.joinEnter
  | joinReply hh => exact hmove hh (by simp) rfl rfl rfl rfl (by simp [HandlerPc.room])
  | leaveNobody hh => exact hmove hh (by simp) rfl rfl rfl rfl (by simp [HandlerPc.room])
  | leaveFind hh hg =>
    rw [hh] at h
    exact h.leaveFind (UserManager.getUserByClient_mem hg).1
  | leaveFault hh =>
    rw [hh] at h
    exact h.leaveFault
  | leaveMissing hh hr hl =>
    rw [hh] at h
    exact h.leaveMissing hr hl
  | leaveRoom hh hr hl =>
    rw [hh] at h
    exact h.leaveRoom hr hl
  | leaveReply hh =>
    rw [hh] at h
    exact h.leaveReply
  | leaveRemove hh =>
    rw [hh] at h
    exact h.leaveRemove
  | chatNobody hh => exact hmove hh (by simp) rfl rfl rfl rfl (by simp [HandlerPc.room])
  | chatFind hh => exact hmove hh (by simp) rfl rfl rfl rfl (by simp [HandlerPc.room])
  | chatNoRoom hh => exact hmove hh (by simp) rfl rfl rfl rfl (by simp [HandlerPc.room])
  | chatSend hh => exact hmove hh (by simp) rfl rfl rfl rfl (by simp [HandlerPc.room])

/-- One step of the server keeps the invariant. -/
theorem Consistent.step {l : Label} (h : Consistent s.users s.rooms s.handler)
    (hok : KeepsAgreement s l) (hs : s.step cfg fb l = some t) :
    Consistent t.users t.rooms t.handler := by
  cases l with
  | accepted w acceptSocket =>
    obtain ⟨-, -, rfl⟩ := step_accepted hs
    exact h
  | arrive conn data =>
    obtain ⟨-, -, -, rfl⟩ := step_arrive hs
    exact h
  | recvDone w conn result =>
    obtain ⟨-, -, rfl⟩ := step_recvDone hs
    exact h
  | sendDone w conn result =>
    obtain ⟨-, -, rfl⟩ := step_sendDone hs
    exact h
  | worker w ok =>
    obtain ⟨pc, u, pc', hpc, hw, rfl⟩ := step_worker hs
    obtain ⟨hu, hh, hr⟩ := hw.registry
    show Consistent u.users u.rooms u.handler
    rw [hu, hh]
    rcases hr with hr | ⟨conn, rfl, hr⟩
    · rw [hr]
      exact h
    · rw [hr]
      simp only [KeepsAgreement, hpc] at hok
      exact h.kick hok
  | tick =>
    obtain ⟨-, -, rfl⟩ := step_tick hs
    exact h
  | logic choice => exact h.logic hok (logicStep_inv hs)

theorem consistent_of_reach (h : (chatServer cfg fb).Reach KeepsAgreement s) :
    Consistent s.users s.rooms s.handler :=
  h.invariant (I := fun s => Consistent s.users s.rooms s.handler) consistent_new
    fun _ hi hok hs => hi.step hok hs

/-- The room with the user's room id lists the user. -/
def ListedAtHome (rooms : RoomManager) (user : User) : Prop :=
  ∃ i, rooms.getRoom user.roomId = some i ∧ user ∈ (rooms.roomAt i).users

theorem RoomsWellFormed.listedAtHome {rooms : RoomManager} (h : RoomsWellFormed rooms)
    {user : User} : ListedAtHome rooms user ↔ Member rooms user := by
  constructor
  · rintro ⟨i, hg, hu⟩
    exact ⟨_, roomAt_mem (getRoom_spec hg).1, hu⟩
  · intro hm
    obtain ⟨room, hr, hu⟩ := hm
    cases hg : rooms.getRoom user.roomId with
    | none =>
      have hno := List.findIdx?_eq_none_iff.mp hg room hr
      simp [h.home room hr user hu] at hno
    | some i =>
      obtain ⟨hi, hid⟩ := getRoom_spec hg
      exact ⟨i, hg, h.mem_room ⟨room, hr, hu⟩ hi hid⟩

/-- **The registry and the rooms agree** between handler executions, in every run that kicks
nobody out of a room; and a client whose `Disconnect` comes between two handler executions
leaves no user behind. -/
theorem registry_agrees_with_rooms (cfg : Config) (fb : FlatBuffers) {s : State}
    (h : (chatServer cfg fb).Reach KeepsAgreement s) (hready : s.handler = .ready) :
    (∀ user, user ∈ s.users.users ↔ ListedAtHome s.rooms user) ∧
    ∀ w ok conn t, s.workers[w]? = some (.kickDisconnected conn) →
      KeepsAgreement s (.worker w ok) → s.step cfg fb (.worker w ok) = some t →
      ∀ user, user.isSameClient t.pool conn.client = true →
        user ∉ t.users.users ∧ ¬ ListedAtHome t.rooms user := by
  have hc := consistent_of_reach h
  have hagree : ∀ user, user ∈ s.users.users ↔ Member s.rooms user := by
    intro user
    refine ⟨fun hu => ?_, hc.registered user⟩
    simpa [hready, HandlerPc.away, HandlerPc.leaving] using hc.member (by simp [hready]) user hu
  refine ⟨fun user => (hagree user).trans hc.wellFormed.listedAtHome.symm, ?_⟩
  intro w ok conn t hpc hok hs user hsame
  have hct := hc.step hok hs
  have hk : kicksNobody s.pool s.rooms s.handler conn.client = true := by
    simpa [KeepsAgreement, hpc] using hok
  have ht : t.users = s.users ∧ t.pool = s.pool := by
    obtain ⟨pc, u, pc', hpc', hw, rfl⟩ := step_worker hs
    rw [hpc] at hpc'
    cases hpc'
    cases hw
    exact ⟨rfl, rfl⟩
  have hgone : user ∉ t.users.users := by
    intro hu
    rw [ht.1] at hu
    rw [ht.2] at hsame
    have := kicksNobody_iff.mp hk user ((hagree user).mp hu) hsame
    simp [hready, HandlerPc.leaving] at this
  exact ⟨hgone, fun hl => hgone (hct.registered user (hct.wellFormed.listedAtHome.mp hl))⟩

/-- One client has joined, and another one came and went. -/
theorem registry_agrees_with_rooms_visitor :
    ∃ s, (chatServer smallServer sample).Reach KeepsAgreement s ∧ s.users.users.length = 1 ∧
      ∀ user, user ∈ s.users.users ↔ ListedAtHome s.rooms user := by
  obtain ⟨s, hr, hp⟩ := System.reach_of_exec (chatServer smallServer sample) KeepsAgreement
    (accepts 0 4 ++ accepts 1 5 ++ receives 0 ⟨0, 1⟩ (frameBytes joinBytes) 1 ++ ticks 6 ++
      disconnects 1 ⟨1, 1⟩)
    (fun s => s.handler.isReady && s.users.users.length == 1) (by decide +kernel)
  simp only [Bool.and_eq_true, HandlerPc.isReady_iff, beq_iff_eq] at hp
  exact ⟨s, hr, hp.2, (registry_agrees_with_rooms smallServer sample hr hp.1).1⟩

/-- A client joins and disconnects: its user stays in the registry, and no room lists it. -/
theorem disconnected_user_registered :
    ∃ s, (chatServer smallServer sample).Reach System.always s ∧ s.handler = .ready ∧
      ∃ user, user ∈ s.users.users ∧ ¬ ListedAtHome s.rooms user := by
  obtain ⟨s, hr, hp⟩ := System.reach_of_exec (chatServer smallServer sample) System.always
    (accepts 0 4 ++ receives 0 ⟨0, 1⟩ (frameBytes joinBytes) 1 ++ ticks 6 ++
      disconnects 0 ⟨0, 1⟩)
    (fun s => s.handler.isReady && !s.users.users.isEmpty &&
      s.rooms.rooms.all fun room => room.users.isEmpty) (by decide +kernel)
  simp only [Bool.and_eq_true, HandlerPc.isReady_iff, Bool.not_eq_true', List.isEmpty_eq_false_iff,
    List.all_eq_true, List.isEmpty_iff] at hp
  obtain ⟨⟨hready, hsome⟩, hempty⟩ := hp
  obtain ⟨user, hu⟩ := List.exists_mem_of_ne_nil _ hsome
  refine ⟨s, hr, hready, user, hu, ?_⟩
  rintro ⟨i, hg, hl⟩
  rw [hempty _ (roomAt_mem (getRoom_spec hg).1)] at hl
  simp at hl

end Highp.Chat

import Highp.Chat.Alone

/-! Ids of rooms and users. A room is found again by a linear search for its id; the counters
behind the ids are fixed-width and come round. -/

namespace Highp.Chat
open Highp.Lib Highp.Network

/-! ## History: who was created, and where `Room::Join` was called -/

/-- `created` counts the calls of `CreateUser` that made a user; `entered` lists the users for
which `Room::Join` was called, each with the place of the room. -/
structure Roster where
  created : Nat
  entered : List (User × Nat)

def Roster.handled (r : Roster) (s t : State) : Roster :=
  match s.handler, t.handler with
  | .joinUser _ _ _ _, .joinEnter _ _ _ => { r with created := r.created + 1 }
  | .joinEnter _ room user, _ => { r with entered := r.entered ++ [(user, room)] }
  | _, _ => r

def Roster.note (s : State) (l : RoomLabel) (t : State) (r : Roster) : Roster :=
  match l with
  | .server (.logic _) => r.handled s t
  | _ => r

def rosterServer (cfg : Config) (fb : FlatBuffers) : System (State × Roster) RoomLabel :=
  (roomServer cfg fb).recording ⟨0, []⟩ Roster.note

/-- No user id occurs twice in a room or in two rooms. -/
structure IdsApart (rooms : RoomManager) : Prop where
  once : ∀ i, ((rooms.roomAt i).users.map User.id).Nodup
  apart : ∀ i j u v, u ∈ (rooms.roomAt i).users → v ∈ (rooms.roomAt j).users → u.id = v.id → i = j

/-! ## Rooms -/

section
variable {rooms : RoomManager}

theorem roomAt_setRoom (rooms : RoomManager) (i j : Nat) (room : Room)
    (hi : i < rooms.rooms.length) :
    (rooms.setRoom i room).roomAt j = if i = j then room else rooms.roomAt j := by
  unfold RoomManager.roomAt RoomManager.setRoom
  by_cases hij : i = j
  · subst hij
    simp [hi]
  · simp [hij]

/-- The rooms are numbered by their places, modulo the width of the counter, and list users of
their own only. -/
structure Numbered (rooms : RoomManager) : Prop where
  counter : rooms.roomCounter = rooms.rooms.length % 2 ^ 32
  number : ∀ i, i < rooms.rooms.length → (rooms.roomAt i).id = i % 2 ^ 32
  home : ∀ i, ∀ u ∈ (rooms.roomAt i).users, u.roomId = (rooms.roomAt i).id

theorem Numbered.append_empty (h : Numbered rooms) :
    Numbered { rooms with rooms := rooms.rooms ++ [⟨rooms.roomCounter, []⟩]
                          roomCounter := (rooms.roomCounter + 1) % 2 ^ 32 } := by
  have hat : ∀ i, i < rooms.rooms.length →
      ((rooms.rooms ++ [⟨rooms.roomCounter, []⟩])[i]?).getD ⟨0, []⟩ = rooms.roomAt i := by
    intro i hi
    rw [List.getElem?_append_left hi, RoomManager.roomAt]
  have hlast : ((rooms.rooms ++ [⟨rooms.roomCounter, []⟩])[rooms.rooms.length]?).getD ⟨0, []⟩ =
      ⟨rooms.roomCounter, []⟩ := by
    rw [List.getElem?_concat_length]
    rfl
  refine ⟨?_, ?_, ?_⟩
  · have hc := h.counter
    simp only [List.length_append, List.length_singleton]
    omega
  · intro i hi
    simp only [List.length_append, List.length_singleton] at hi
    unfold RoomManager.roomAt
    by_cases hil : i < rooms.rooms.length
    · rw [hat i hil]
      exact h.number i hil
    · obtain rfl : i = rooms.rooms.length := by omega
      rw [hlast]
      exact h.counter
  · intro i u hu
    unfold RoomManager.roomAt at hu ⊢
    by_cases hil : i < rooms.rooms.length
    · rw [hat i hil] at hu ⊢
      exact h.home i u hu
    · by_cases hie : i = rooms.rooms.length
      · rw [hie, hlast] at hu
        simp at hu
      · have hnone : (rooms.rooms ++ [⟨rooms.roomCounter, []⟩])[i]? = none := by
          rw [List.getElem?_eq_none_iff, List.length_append, List.length_singleton]
          omega
        simp [hnone] at hu

theorem Numbered.thin (h : Numbered rooms) (keep : Nat → User → Bool) :
    Numbered (rooms.thin keep) := by
  have hlen : (rooms.thin keep).rooms.length = rooms.rooms.length := by
    simp [RoomManager.thin]
  refine ⟨?_, ?_, ?_⟩
  · rw [hlen]
    exact h.counter
  · intro i hi
    rw [hlen] at hi
    rw [RoomManager.roomAt_thin]
    exact h.number i hi
  · intro i u hu
    rw [RoomManager.roomAt_thin] at hu ⊢
    exact h.home i u (List.mem_filter.mp hu).1

theorem Numbered.setRoom (h : Numbered rooms) {i : Nat} {room : Room}
    (hi : i < rooms.rooms.length) (hid : room.id = (rooms.roomAt i).id)
    (hhome : ∀ u ∈ room.users, u.roomId = room.id) : Numbered (rooms.setRoom i room) := by
  have hlen : (rooms.setRoom i room).rooms.length = rooms.rooms.length := by
    simp [RoomManager.setRoom]
  refine ⟨?_, ?_, ?_⟩
  · rw [hlen]
    exact h.counter
  · intro j hj
    rw [hlen] at hj
    rw [roomAt_setRoom rooms i j room hi]
    split
    · rename_i hij
      rw [hid, ← hij]
      exact h.number i hi
    · exact h.number j hj
  · intro j u hu
    rw [roomAt_setRoom rooms i j room hi] at hu ⊢
    split at hu
    · rename_i hij
      rw [if_pos hij]
      exact hhome u hu
    · rename_i hij
      rw [if_neg hij]
      exact h.home j u hu

/-- With fewer rooms than ids the search for an id ends at the room it was given to. -/
theorem Numbered.getRoom (h : Numbered rooms) (hlt : rooms.rooms.length < 2 ^ 32) {i : Nat}
    (hi : i < rooms.rooms.length) : rooms.getRoom (i % 2 ^ 32) = some i := by
  refine List.findIdx?_eq_some_iff_getElem.mpr ⟨hi, ?_, ?_⟩
  · have hn := h.number i hi
    rw [roomAt_eq hi] at hn
    simpa using hn
  · intro j hji
    have hj : j < rooms.rooms.length := Nat.lt_trans hji hi
    have hn := h.number j hj
    rw [roomAt_eq hj] at hn
    simp only [hn, beq_iff_eq]
    rw [Nat.mod_eq_of_lt (by omega), Nat.mod_eq_of_lt (by omega)]
    omega

/-- An id that was given to some room is found. -/
theorem Numbered.getRoom_ne_none (h : Numbered rooms) {i : Nat} (hi : i < rooms.rooms.length) :
    rooms.getRoom (i % 2 ^ 32) ≠ none := by
  intro hnone
  have hno := List.findIdx?_eq_none_iff.mp hnone _ (roomAt_mem hi)
  simp [h.number i hi] at hno

theorem IdsApart.of_sublist {rooms' : RoomManager} (h : IdsApart rooms)
    (hsub : ∀ i, (rooms'.roomAt i).users.Sublist (rooms.roomAt i).users) : IdsApart rooms' := by
  constructor
  · intro i
    exact (h.once i).sublist ((hsub i).map User.id)
  · intro i j u v hu hv
    exact h.apart i j u v ((hsub i).subset hu) ((hsub j).subset hv)

/-- A user with an id of its own enters a room. -/
theorem IdsApart.join (h : IdsApart rooms) {i : Nat} {user : User} (hi : i < rooms.rooms.length)
    (hfresh : ∀ j, ∀ u ∈ (rooms.roomAt j).users, u.id ≠ user.id) :
    IdsApart (rooms.setRoom i ((rooms.roomAt i).join user).2) := by
  have hmem : ∀ j u, u ∈ ((rooms.setRoom i ((rooms.roomAt i).join user).2).roomAt j).users →
      u ∈ (rooms.roomAt j).users ∨ (j = i ∧ u = user) := by
    intro j u hu
    rw [roomAt_setRoom rooms i j _ hi] at hu
    split at hu
    · rename_i hij
      subst hij
      rcases List.mem_append.mp hu with hu | hu
      · exact Or.inl hu
      · exact Or.inr ⟨rfl, List.mem_singleton.mp hu⟩
    · exact Or.inl hu
  constructor
  · intro j
    rw [roomAt_setRoom rooms i j _ hi]
    split
    · simp only [Room.join, List.map_append, List.map_singleton]
      refine List.nodup_append.mpr ⟨h.once i, by simp, ?_⟩
      intro a ha b hb
      obtain ⟨u, hu, rfl⟩ := List.mem_map.mp ha
      rw [List.mem_singleton.mp hb]
      exact hfresh i u hu
    · exact h.once j
  · intro j k u v hu hv hid
    rcases hmem j u hu with hold | ⟨hj, hnew⟩
    · rcases hmem k v hv with hold' | ⟨hk, hnew'⟩
      · exact h.apart j k u v hold hold' hid
      · exact absurd (hnew' ▸ hid) (hfresh j u hold)
    · rcases hmem k v hv with hold' | ⟨hk, hnew'⟩
      · exact absurd (hnew ▸ hid.symm) (hfresh k v hold')
      · rw [hj, hk]

/-- What `Room::Leave` leaves behind. -/
theorem leave_sublist {room : Room} {userId : Nat} {found : User} {others : List User}
    {left : Room} (h : room.leave userId = some (found, others, left)) :
    left.id = room.id ∧ left.users.Sublist room.users := by
  unfold Room.leave at h
  split at h
  · simp at h
  · simp only [Option.some.injEq, Prod.mk.injEq] at h
    obtain ⟨-, -, rfl⟩ := h
    exact ⟨rfl, List.eraseP_sublist⟩

theorem setRoom_sublist {i : Nat} {room : Room} (hi : i < rooms.rooms.length)
    (hsub : room.users.Sublist (rooms.roomAt i).users) (j : Nat) :
    ((rooms.setRoom i room).roomAt j).users.Sublist (rooms.roomAt j).users := by
  rw [roomAt_setRoom rooms i j room hi]
  split
  · rename_i hij
    exact hij ▸ hsub
  · exact List.Sublist.refl _

theorem thin_sublist (keep : Nat → User → Bool) (i : Nat) :
    ((rooms.thin keep).roomAt i).users.Sublist (rooms.roomAt i).users := by
  rw [RoomManager.roomAt_thin]
  exact List.filter_sublist

theorem roomAt_append_users (roomId counter i : Nat) :
    (RoomManager.roomAt { rooms with rooms := rooms.rooms ++ [⟨roomId, []⟩]
                                     roomCounter := counter } i).users =
      (rooms.roomAt i).users := by
  unfold RoomManager.roomAt
  by_cases hil : i < rooms.rooms.length
  · rw [List.getElem?_append_left hil]
  · rw [List.getElem?_append_right (Nat.not_lt.mp hil),
      List.getElem?_eq_none_iff.mpr (Nat.not_lt.mp hil)]
    cases i - rooms.rooms.length with
    | zero => rfl
    | succ k => rfl

/-- `GetOrCreateAvailableRoom` lists nobody anew, keeps the numbers and returns a room. -/
theorem getOrCreate_users (rooms : RoomManager) (i : Nat) :
    (rooms.getOrCreateAvailableRoom.1.roomAt i).users = (rooms.roomAt i).users := by
  rcases getOrCreateAvailableRoom_cases rooms with ⟨he, -⟩ | he
  · rw [he]
  · rw [he]
    exact roomAt_append_users _ _ i

theorem Numbered.getOrCreate (h : Numbered rooms) :
    Numbered rooms.getOrCreateAvailableRoom.1 ∧
      rooms.getOrCreateAvailableRoom.2 < rooms.getOrCreateAvailableRoom.1.rooms.length ∧
      rooms.rooms.length ≤ rooms.getOrCreateAvailableRoom.1.rooms.length := by
  rcases getOrCreateAvailableRoom_cases rooms with ⟨he, hi⟩ | he
  · rw [he]
    exact ⟨h, hi, Nat.le_refl _⟩
  · rw [he]
    exact ⟨h.append_empty, by simp, by simp⟩

end

/-! ## Where the users are -/

/-- Every registered user has entered a room, or its handler is just about to let it in; the room
is the one that its room id names. -/
structure Housed (s : State) (r : Roster) : Prop where
  numbered : Numbered s.rooms
  place : ∀ i, s.handler.room = some i → i < s.rooms.rooms.length
  entering : ∀ call i user, s.handler = .joinEnter call i user → user.roomId = i % 2 ^ 32
  entered : ∀ e ∈ r.entered, e.2 < s.rooms.rooms.length ∧ e.1.roomId = e.2 % 2 ^ 32
  registered : ∀ u ∈ s.users.users,
    (∃ i, (u, i) ∈ r.entered) ∨ ∃ call i, s.handler = .joinEnter call i u
  leaving : ∀ u, s.handler.leaving = some u → ∃ i, (u, i) ∈ r.entered
  noFault : s.handler ≠ .fault

/-- Ids are handed out in order; as long as the counter has not come round, nobody in a room has
an id that is still to come. -/
structure Distinct (s : State) (r : Roster) : Prop where
  below : ∀ i, ∀ u ∈ (s.rooms.roomAt i).users, u.id < r.created
  fresh : ∀ call i user, s.handler = .joinEnter call i user →
    user.id < r.created ∧ ∀ j, ∀ u ∈ (s.rooms.roomAt j).users, u.id < user.id
  apart : IdsApart s.rooms

section
variable {s t : State} {r : Roster}

/-- The handler has no user on the way into or out of a room. -/
def HandlerPc.calm : HandlerPc → Bool
  | .joinEnter _ _ _ => false
  | .leaveRoom _ _ => false
  | .fault => false
  | _ => true

/-- The handler comes to a place where it has no user on the way in or out. -/
theorem Housed.move (h : Housed s r) (hrooms : t.rooms = s.rooms) (husers : t.users = s.users)
    (hold : ∀ call i user, s.handler ≠ .joinEnter call i user) (hcalm : t.handler.calm = true)
    (hplace : ∀ i, t.handler.room = some i → s.handler.room = some i) : Housed t r where
  numbered := hrooms ▸ h.numbered
  place i hi := hrooms ▸ h.place i (hplace i hi)
  entering call i user he := by simp [he, HandlerPc.calm] at hcalm
  entered := hrooms ▸ h.entered
  registered u hu := by
    rcases h.registered u (husers ▸ hu) with he | ⟨call, i, he⟩
    · exact Or.inl he
    · exact absurd he (hold call i u)
  leaving u hu := by
    cases hpc : t.handler with
    | leaveRoom call user => simp [hpc, HandlerPc.calm] at hcalm
    | _ => simp [hpc, HandlerPc.leaving] at hu
  noFault he := by simp [he, HandlerPc.calm] at hcalm

/-- `CreateUser`. -/
theorem Housed.joinUser {call : Call} {username : Text} {room : Nat} {session : Session}
    {user : User} {log : List Event} (h : Housed s r)
    (hh : s.handler = .joinUser call username room session)
    (hu : user = s.users.makeUser session username (s.rooms.roomAt room).id call.cmd.conn) :
    Housed { s with
      users := s.users.addUser user, handler := .joinEnter call room user, log := log }
      { r with created := r.created + 1 } where
  numbered := h.numbered
  place i hi := h.place i (by rw [hh]; exact hi)
  entering call' i user' he := by
    cases he
    have hplace := h.place room (by rw [hh]; rfl)
    have hnum := h.numbered.number room hplace
    rw [hu, UserManager.makeUser]
    simp only [hnum, Nat.mod_mod]
  entered := h.entered
  registered u hm := by
    rcases UserManager.mem_addUser.mp hm with ⟨hm, -⟩ | rfl
    · rcases h.registered u hm with he | ⟨call', i, he⟩
      · exact Or.inl he
      · simp [hh] at he
    · exact Or.inr ⟨call, room, rfl⟩
  leaving u hl := by simp [HandlerPc.leaving] at hl
  noFault := by simp

/-- `Room::Join`. -/
theorem Housed.joinEnter {call : Call} {room : Nat} {user : User} {pool : Pool}
    {sends : List Conn} {log : List Event} (h : Housed s r)
    (hh : s.handler = .joinEnter call room user) :
    Housed { s with
      pool := pool, sends := sends, log := log
      rooms := s.rooms.setRoom room ((s.rooms.roomAt room).join user).2
      handler := .joinReply call user } { r with entered := r.entered ++ [(user, room)] } := by
  have hplace := h.place room (by rw [hh]; rfl)
  have hroom := h.entering call room user hh
  have hlen : (s.rooms.setRoom room ((s.rooms.roomAt room).join user).2).rooms.length =
      s.rooms.rooms.length := by
    simp [RoomManager.setRoom]
  refine ⟨h.numbered.setRoom hplace rfl ?_, ?_, ?_, ?_, ?_, ?_, ?_⟩
  · intro u hu
    rcases List.mem_append.mp hu with hu | hu
    · exact h.numbered.home room u hu
    · rw [List.mem_singleton.mp hu, hroom]
      exact (h.numbered.number room hplace).symm
  · simp [HandlerPc.room]
  · simp
  · intro e he
    simp only [hlen]
    rcases List.mem_append.mp he with he | he
    · exact h.entered e he
    · rw [List.mem_singleton.mp he]
      exact ⟨hplace, hroom⟩
  · intro u hu
    refine Or.inl ?_
    rcases h.registered u hu with ⟨i, he⟩ | ⟨call', i, he⟩
    · exact ⟨i, List.mem_append_left _ he⟩
    · rw [hh] at he
      cases he
      exact ⟨room, List.mem_append_right _ (List.mem_singleton.mpr rfl)⟩
  · simp [HandlerPc.leaving]
  · simp

/-- `Room::Leave`. -/
theorem Housed.leaveRoom {call : Call} {user found : User} {room : Nat} {others : List User}
    {left : Room} {pool : Pool} {sends : List Conn} {log : List Event} (h : Housed s r)
    (hh : s.handler = .leaveRoom call user) (hg : s.rooms.getRoom user.roomId = some room)
    (hl : (s.rooms.roomAt room).leave user.id = some (found, others, left)) :
    Housed { s with
      pool := pool, sends := sends, log := log, rooms := s.rooms.setRoom room left
      handler := .leaveReply call user } r := by
  have hplace := (getRoom_spec hg).1
  obtain ⟨hid, hsub⟩ := leave_sublist hl
  have hlen : (s.rooms.setRoom room left).rooms.length = s.rooms.rooms.length := by
    simp [RoomManager.setRoom]
  refine ⟨h.numbered.setRoom hplace hid ?_, ?_, ?_, ?_, ?_, ?_, ?_⟩
  · intro u hu
    rw [hid]
    exact h.numbered.home room u (hsub.subset hu)
  · simp [HandlerPc.room]
  · simp
  · intro e he
    simp only [hlen]
    exact h.entered e he
  · intro u hu
    rcases h.registered u hu with he | ⟨call', i, he⟩
    · exact Or.inl he
    · simp [hh] at he
  · simp [HandlerPc.leaving]
  · simp

/-- `GetUserByClient` in `LeaveRoomHandler`. -/
theorem Housed.leaveFind {call : Call} {user : User} {log : List Event} (h : Housed s r)
    (hh : s.handler = .leaveFind call) (hu : user ∈ s.users.users) :
    Housed { s with handler := .leaveRoom call user, log := log } r := by
  have hall : ∀ u ∈ s.users.users, ∃ i, (u, i) ∈ r.entered := by
    intro u hm
    rcases h.registered u hm with he | ⟨call', i, he⟩
    · exact he
    · simp [hh] at he
  refine ⟨h.numbered, by simp [HandlerPc.room], by simp, h.entered, ?_, ?_, by simp⟩
  · intro u hm
    exact Or.inl (hall u hm)
  · intro u hl
    cases hl
    exact hall user hu

/-- The room of a user that is about to leave is found. -/
theorem Housed.getRoom_ne_none {call : Call} {user : User} (h : Housed s r)
    (hh : s.handler = .leaveRoom call user) : s.rooms.getRoom user.roomId ≠ none := by
  obtain ⟨i, he⟩ := h.leaving user (by rw [hh]; rfl)
  obtain ⟨hi, hid⟩ := h.entered _ he
  rw [hid]
  exact h.numbered.getRoom_ne_none hi

theorem Housed.joinRoom {call : Call} {username : Text} (h : Housed s r)
    (hh : s.handler = .joinRoom call username) :
    Housed { s with
      rooms := s.rooms.getOrCreateAvailableRoom.1
      handler := .joinSession call username s.rooms.getOrCreateAvailableRoom.2 } r := by
  obtain ⟨hnum, hplace, hle⟩ := h.numbered.getOrCreate
  refine ⟨hnum, ?_, by simp, ?_, ?_, by simp [HandlerPc.leaving], by simp⟩
  · intro i hi
    cases hi
    exact hplace
  · intro e he
    obtain ⟨hlt, hid⟩ := h.entered e he
    exact ⟨Nat.lt_of_lt_of_le hlt hle, hid⟩
  · intro u hu
    rcases h.registered u hu with he | ⟨call', i, he⟩
    · exact Or.inl he
    · simp [hh] at he

theorem Housed.leaveRemove {call : Call} {user : User} {log : List Event} (h : Housed s r)
    (hh : s.handler = .leaveRemove call user) :
    Housed { s with
      users := s.users.removeUserByUserId user.id, handler := .ready, log := log } r := by
  refine ⟨h.numbered, by simp [HandlerPc.room], by simp, h.entered, ?_,
    by simp [HandlerPc.leaving], by simp⟩
  intro u hu
  rcases h.registered u (UserManager.mem_removeUserByUserId.mp hu).1 with he | ⟨call', i, he⟩
  · exact Or.inl he
  · simp [hh] at he

theorem Roster.handled_of_calm (r : Roster) (hcalm : t.handler.calm = true)
    (hold : ∀ call i user, s.handler ≠ .joinEnter call i user) : r.handled s t = r := by
  unfold Roster.handled
  split
  · rename_i ht
    simp [ht, HandlerPc.calm] at hcalm
  · rename_i hs
    exact absurd hs (hold _ _ _)
  · rfl

/-- A step of the logic thread. -/
theorem Housed.logic {choice : Choice} (h : Housed s r) (hs : LogicStep s choice t) :
    Housed t (r.handled s t) := by
  have hmove : ∀ {pc : HandlerPc}, s.handler = pc → t.rooms = s.rooms → t.users = s.users →
      (∀ call i user, pc ≠ .joinEnter call i user) → t.handler.calm = true →
      (∀ i, t.handler.room = some i → pc.room = some i) → Housed t (r.handled s t) := by
    intro pc hpc hrooms husers hold hcalm hplace
    rw [r.handled_of_calm hcalm (hpc ▸ hold)]
    exact h.move hrooms husers (hpc ▸ hold) hcalm (hpc ▸ hplace)
  cases hs with
  | joinRoom hh =>
    rw [r.handled_of_calm rfl (by simp [hh])]
    exact h.joinRoom hh
  | joinUser hh _ hu =>
    simp only [Roster.handled, hh]
    exact h.joinUser hh hu
  | joinEnter hh _ =>
    simp only [Roster.handled, hh]
    exact h.joinEnter hh
  | leaveFind hh hu =>
    simp only [Roster.handled, hh]
    exact h.leaveFind hh (UserManager.getUserByClient_mem hu).1
  | leaveFault hh hg => exact absurd hg (h.getRoom_ne_none hh)
  | leaveRoom hh hg hl _ =>
    rw [r.handled_of_calm rfl (by simp [hh])]
    exact h.leaveRoom hh hg hl
  | leaveRemove hh =>
    rw [r.handled_of_calm rfl (by simp [hh])]
    exact h.leaveRemove hh
  | skip hh _ => exact hmove hh rfl rfl (by simp) (by simp [hh, HandlerPc.calm]) (by simp [hh])
  | reject hh _ _ => exact hmove hh rfl rfl (by simp) rfl (by simp [HandlerPc.room])
  | rejectClosed hh _ _ =>
    exact hmove hh rfl rfl (by simp) (by simp [State.closeSocket, hh, HandlerPc.calm])
      (by simp [State.closeSocket, hh])
  | reset hh => exact hmove hh rfl rfl (by simp) rfl (by simp [HandlerPc.room])
  | startJoin _ _ hh _ => exact hmove hh rfl rfl (by simp) rfl (by simp [HandlerPc.room])
  | startLeave _ hh _ => exact hmove hh rfl rfl (by simp) rfl (by simp [HandlerPc.room])
  | startChat _ _ hh _ => exact hmove hh rfl rfl (by simp) rfl (by simp [HandlerPc.room])
  | joinNoSession hh => exact hmove hh rfl rfl (by simp) rfl (by simp [HandlerPc.room])
  | joinSession hh _ => exact hmove hh rfl rfl (by simp) rfl fun _ hi => hi
  | joinExists hh _ => exact hmove hh rfl rfl (by simp) rfl (by simp [HandlerPc.room])
  | joinReply hh _ => exact hmove hh rfl rfl (by simp) rfl (by simp [HandlerPc.room])
  | leaveNobody hh _ => exact hmove hh rfl rfl (by simp) rfl (by simp [HandlerPc.room])
  | leaveMissing hh _ _ => exact hmove hh rfl rfl (by simp) rfl (by simp [HandlerPc.room])
  | leaveReply hh _ => exact hmove hh rfl rfl (by simp) rfl (by simp [HandlerPc.room])
  | chatNobody hh _ => exact hmove hh rfl rfl (by simp) rfl (by simp [HandlerPc.room])
  | chatFind hh _ => exact hmove hh rfl rfl (by simp) rfl (by simp [HandlerPc.room])
  | chatNoRoom hh => exact hmove hh rfl rfl (by simp) rfl (by simp [HandlerPc.room])
  | chatSend hh _ => exact hmove hh rfl rfl (by simp) rfl (by simp [HandlerPc.room])

theorem Housed.thin (h : Housed s r) {keep : Nat → User → Bool} (husers : t.users = s.users)
    (hh : t.handler = s.handler) (hrooms : t.rooms = s.rooms.thin keep) : Housed t r := by
  have hlen : t.rooms.rooms.length = s.rooms.rooms.length := by
    rw [hrooms]
    simp [RoomManager.thin]
  refine ⟨?_, ?_, ?_, ?_, ?_, ?_, ?_⟩
  · rw [hrooms]
    exact h.numbered.thin keep
  · rw [hlen, hh]
    exact h.place
  · rw [hh]
    exact h.entering
  · rw [hlen]
    exact h.entered
  · rw [husers, hh]
    exact h.registered
  · rw [hh]
    exact h.leaving
  · rw [hh]
    exact h.noFault

/-! ## Ids -/

theorem Distinct.of_sublist (h : Distinct s r)
    (hsub : ∀ i, (t.rooms.roomAt i).users.Sublist (s.rooms.roomAt i).users)
    (hnew : ∀ call i user, t.handler = .joinEnter call i user →
      s.handler = .joinEnter call i user) : Distinct t r where
  below i u hu := h.below i u ((hsub i).subset hu)
  fresh call i user he := by
    obtain ⟨hlt, hall⟩ := h.fresh call i user (hnew call i user he)
    exact ⟨hlt, fun j u hu => hall j u ((hsub j).subset hu)⟩
  apart := h.apart.of_sublist hsub

theorem Distinct.joinUser {call : Call} {room : Nat} {user : User} {log : List Event}
    (h : Distinct s r) (hid : user.id = r.created) :
    Distinct { s with
      users := s.users.addUser user, handler := .joinEnter call room user, log := log }
      { r with created := r.created + 1 } where
  below i u hu := Nat.lt_succ_of_lt (h.below i u hu)
  fresh call' i user' he := by
    cases he
    refine ⟨?_, fun j u hu => ?_⟩
    · rw [hid]
      exact Nat.lt_succ_self _
    · rw [hid]
      exact h.below j u hu
  apart := h.apart

theorem Distinct.joinEnter {call : Call} {room : Nat} {user : User} {pool : Pool}
    {sends : List Conn} {log : List Event} {entered : List (User × Nat)} (h : Distinct s r)
    (hplace : room < s.rooms.rooms.length) (hh : s.handler = .joinEnter call room user) :
    Distinct { s with
      pool := pool, sends := sends, log := log
      rooms := s.rooms.setRoom room ((s.rooms.roomAt room).join user).2
      handler := .joinReply call user } { r with entered := entered } := by
  obtain ⟨hlt, hall⟩ := h.fresh call room user hh
  refine ⟨?_, by simp, h.apart.join hplace fun j u hu => Nat.ne_of_lt (hall j u hu)⟩
  intro i u hu
  simp only [roomAt_setRoom s.rooms room i _ hplace] at hu
  split at hu
  · rcases List.mem_append.mp hu with hu | hu
    · exact h.below room u hu
    · rw [List.mem_singleton.mp hu]
      exact hlt
  · exact h.below i u hu

/-- The id counter counts the users that were made, and their ids are apart until it comes
round. -/
structure Minted (s : State) (r : Roster) : Prop where
  counter : s.users.userIdCounter = r.created % 2 ^ 64
  distinct : r.created ≤ 2 ^ 64 → Distinct s r

/-- Steps that make no user and let nobody into a room. -/
theorem Minted.of_sublist (h : Minted s r)
    (hcounter : t.users.userIdCounter = s.users.userIdCounter)
    (hsub : ∀ i, (t.rooms.roomAt i).users.Sublist (s.rooms.roomAt i).users)
    (hnew : ∀ call i user, t.handler = .joinEnter call i user →
      s.handler = .joinEnter call i user) : Minted t r :=
  ⟨hcounter.trans h.counter, fun hle => (h.distinct hle).of_sublist hsub hnew⟩

theorem Minted.logic {choice : Choice} (h : Minted s r) (hhoused : Housed s r)
    (hs : LogicStep s choice t) : Minted t (r.handled s t) := by
  have hmove : ∀ {pc : HandlerPc}, s.handler = pc →
      t.users.userIdCounter = s.users.userIdCounter → t.rooms = s.rooms →
      (∀ call i user, pc ≠ .joinEnter call i user) → t.handler.calm = true →
      Minted t (r.handled s t) := by
    intro pc hpc hcounter hrooms hold hcalm
    rw [r.handled_of_calm hcalm (hpc ▸ hold)]
    refine h.of_sublist hcounter (fun i => by rw [hrooms]) fun call i user he => ?_
    simp [he, HandlerPc.calm] at hcalm
  cases hs with
  | joinRoom hh =>
    rw [r.handled_of_calm rfl (by simp [hh])]
    exact h.of_sublist rfl (fun i => by rw [getOrCreate_users]) (by simp)
  | joinUser hh _ hu =>
    simp only [Roster.handled, hh]
    constructor
    · have hc := h.counter
      simp only [UserManager.addUser]
      omega
    · intro hle
      simp only at hle
      refine (h.distinct (by omega)).joinUser ?_
      rw [hu, UserManager.makeUser]
      simp only [h.counter]
      omega
  | joinEnter hh _ =>
    simp only [Roster.handled, hh]
    refine ⟨h.counter, fun hle => (h.distinct hle).joinEnter (hhoused.place _ (by rw [hh]; rfl)) hh⟩
  | leaveFind hh _ =>
    simp only [Roster.handled, hh]
    exact h.of_sublist rfl (fun i => List.Sublist.refl _) (by simp)
  | leaveFault hh hg => exact absurd hg (hhoused.getRoom_ne_none hh)
  | leaveRoom hh hg hl _ =>
    rw [r.handled_of_calm rfl (by simp [hh])]
    exact h.of_sublist rfl (setRoom_sublist (getRoom_spec hg).1 (leave_sublist hl).2) (by simp)
  | skip hh _ => exact hmove hh rfl rfl (by simp) (by simp [hh, HandlerPc.calm])
  | reject hh _ _ => exact hmove hh rfl rfl (by simp) rfl
  | rejectClosed hh _ _ =>
    exact hmove hh rfl rfl (by simp) (by simp [State.closeSocket, hh, HandlerPc.calm])
  | reset hh => exact hmove hh rfl rfl (by simp) rfl
  | startJoin _ _ hh _ => exact hmove hh rfl rfl (by simp) rfl
  | startLeave _ hh _ => exact hmove hh rfl rfl (by simp) rfl
  | startChat _ _ hh _ => exact hmove hh rfl rfl (by simp) rfl
  | joinNoSession hh => exact hmove hh rfl rfl (by simp) rfl
  | joinSession hh _ => exact hmove hh rfl rfl (by simp) rfl
  | joinExists hh _ => exact hmove hh rfl rfl (by simp) rfl
  | joinReply hh _ => exact hmove hh rfl rfl (by simp) rfl
  | leaveNobody hh _ => exact hmove hh rfl rfl (by simp) rfl
  | leaveMissing hh _ _ => exact hmove hh rfl rfl (by simp) rfl
  | leaveReply hh _ => exact hmove hh rfl rfl (by simp) rfl
  | leaveRemove hh => exact hmove hh rfl rfl (by simp) rfl
  | chatNobody hh _ => exact hmove hh rfl rfl (by simp) rfl
  | chatFind hh _ => exact hmove hh rfl rfl (by simp) rfl
  | chatNoRoom hh => exact hmove hh rfl rfl (by simp) rfl
  | chatSend hh _ => exact hmove hh rfl rfl (by simp) rfl

end

/-! ## Runs -/

section
variable {cfg : Config} {fb : FlatBuffers} {p q : State × Roster} {l : RoomLabel}

theorem roster_step (hh : Housed p.1 p.2) (hc : Minted p.1 p.2)
    (h : (rosterServer cfg fb).step p l = some q) : Housed q.1 q.2 ∧ Minted q.1 q.2 := by
  obtain ⟨hs, hr⟩ := System.recording_step h
  cases roomStep_registry hs with
  | logic hl hlogic =>
    subst hl
    have hr' : q.2 = p.2.handled p.1 q.1 := hr
    rw [hr']
    exact ⟨hh.logic hlogic, hc.logic hh hlogic⟩
  | thin keep hl husers hhandler hrooms =>
    have hr' : q.2 = p.2 := by
      rw [hr]
      unfold Roster.note
      split
      · exact absurd rfl (hl _)
      · rfl
    rw [hr']
    refine ⟨hh.thin husers hhandler hrooms, hc.of_sublist (by rw [husers]) ?_ ?_⟩
    · rw [hrooms]
      exact thin_sublist keep
    · rw [hhandler]
      exact fun _ _ _ he => he

theorem roomAt_new (cfg : Config) (i : Nat) : (State.new cfg).rooms.roomAt i = ⟨0, []⟩ := by
  cases i with
  | zero => rfl
  | succ i => simp [RoomManager.roomAt, State.new, RoomManager.new]

theorem housed_new : Housed (State.new cfg) ⟨0, []⟩ := by
  refine ⟨⟨rfl, ?_, ?_⟩, ?_, ?_, ?_, ?_, ?_, ?_⟩
  · intro i hi
    have h0 : i = 0 := by simpa [State.new, RoomManager.new] using hi
    subst h0
    rfl
  · intro i u hu
    simp [roomAt_new] at hu
  · simp [State.new, HandlerPc.room]
  · simp [State.new]
  · simp
  · simp [State.new, UserManager.new]
  · simp [State.new, HandlerPc.leaving]
  · simp [State.new]

theorem minted_new : Minted (State.new cfg) ⟨0, []⟩ := by
  refine ⟨rfl, fun _ => ⟨?_, ?_, ?_, ?_⟩⟩
  · simp [roomAt_new]
  · simp [State.new]
  · simp [roomAt_new]
  · simp [roomAt_new]

theorem roster_of_reach (h : (rosterServer cfg fb).Reach System.always p) :
    Housed p.1 p.2 ∧ Minted p.1 p.2 :=
  h.invariant (I := fun p => Housed p.1 p.2 ∧ Minted p.1 p.2) ⟨housed_new, minted_new⟩
    fun _ hi _ hs => roster_step hi.1 hi.2 hs

theorem housed_of_reach (h : (roomServer cfg fb).Reach System.always s) : ∃ r, Housed s r := by
  obtain ⟨r, hr⟩ := h.record ⟨0, []⟩ Roster.note
  exact ⟨r, (roster_of_reach hr).1⟩

end

/-- **Membership is well formed and room lookups cannot fail**, with fewer than `2 ^ 32` rooms: a
user is listed in the room whose id it has; between handler executions `GetRoom` finds for every
registered user the very room on which `Join` was called for it; no handler dereferences a null
room; and no id is listed twice as long as at most `2 ^ 64` users have been made. -/
theorem membership_well_formed (cfg : Config) (fb : FlatBuffers) {p : State × Roster}
    (h : (rosterServer cfg fb).Reach System.always p) (hrooms : p.1.rooms.rooms.length < 2 ^ 32) :
    (∀ room ∈ p.1.rooms.rooms, ∀ u ∈ room.users, u.roomId = room.id) ∧
    (p.2.created ≤ 2 ^ 64 → IdsApart p.1.rooms) ∧
    (p.1.handler = .ready → ∀ user ∈ p.1.users.users, (∃ i, (user, i) ∈ p.2.entered) ∧
      ∀ i, (user, i) ∈ p.2.entered → p.1.rooms.getRoom user.roomId = some i) ∧
    p.1.handler ≠ .fault := by
  obtain ⟨hh, hc⟩ := roster_of_reach h
  refine ⟨?_, fun hle => (hc.distinct hle).apart, ?_, hh.noFault⟩
  · intro room hr u hu
    obtain ⟨i, hi, rfl⟩ := List.mem_iff_getElem.mp hr
    rw [← roomAt_eq hi] at hu ⊢
    exact hh.numbered.home i u hu
  · intro hready user hu
    constructor
    · rcases hh.registered user hu with he | ⟨call, i, he⟩
      · exact he
      · simp [hready] at he
    · intro i hi
      obtain ⟨hlt, hid⟩ := hh.entered (user, i) hi
      rw [show user.roomId = i % 2 ^ 32 from hid]
      exact hh.numbered.getRoom hrooms hlt

/-- Rooms for one user: two clients join, and each has a room of its own. -/
theorem membership_well_formed_two : ∃ p,
    (rosterServer ⟨2, 2, 1⟩ sample).Reach System.always p ∧ p.2.created = 2 ∧
      p.1.rooms.rooms.length = 2 ∧ IdsApart p.1.rooms := by
  obtain ⟨p, hr, hp⟩ := System.reach_of_exec (rosterServer ⟨2, 2, 1⟩ sample) System.always
    ((accepts 0 4 ++ accepts 1 5 ++ receives 0 ⟨0, 1⟩ (frameBytes joinBytes) 1 ++
      receives 1 ⟨1, 1⟩ (frameBytes joinBytes) 1 ++ ticks 12).map RoomLabel.server)
    (fun p => p.2.created == 2 && p.1.rooms.rooms.length == 2) (by decide +kernel)
  simp only [Bool.and_eq_true, beq_iff_eq] at hp
  exact ⟨p, hr, hp.1, hp.2, (membership_well_formed ⟨2, 2, 1⟩ sample hr
    (by rw [hp.2]; decide)).2.1 (by rw [hp.1]; decide)⟩

/-! ## The counter of the user ids comes round -/

/-- One client has joined, and another one sends a request after the other. -/
structure Rotating (fb : FlatBuffers) (users : UserManager) (rooms : RoomManager) (s : State) :
    Prop where
  settled : Settled smallServer fb 0 ⟨1, 1⟩ [] s
  sessions : s.sessions.sessions = [⟨0, 0, 1⟩, ⟨1, 1, 1⟩]
  users : s.users = users
  rooms : s.rooms = rooms
  residentSocket : (s.pool 0).socket = some 4
  guestSocket : (s.pool 1).socket = some 5

def resident : User := ⟨⟨0, 0, 1⟩, 0, ann, 0, ⟨0, 1⟩⟩

/-- The user that is made after `n` others. -/
def guest (n : Nat) : User := ⟨⟨1, 1, 1⟩, n % 2 ^ 64, ann, 0, ⟨1, 1⟩⟩

def roomOf (users : List User) : RoomManager := ⟨[⟨0, users⟩], 1, 10⟩

/-- The resident has joined and the guest has not. -/
def State.firstJoined (s : State) : Bool :=
  s.workers[0]? == some .idle && s.recvs.contains ⟨1, 1⟩ && s.epoch 1 == 1 &&
    s.queue.isEmpty && s.batch.isEmpty && s.handler.isReady &&
    s.sessions.sessions == [⟨0, 0, 1⟩, ⟨1, 1, 1⟩] && s.users.users == [resident] &&
    s.users.userIdCounter == 1 && s.rooms.rooms.map Room.id == [0] &&
    s.rooms.rooms.map Room.users == [[resident]] && s.rooms.roomCounter == 1 &&
    s.rooms.maxRoomCapacity == 10 && (s.pool 0).socket == some 4 &&
    (s.pool 1).socket == some 5 && (s.pool 1).frameBuf.data.isEmpty && s.arrived.isEmpty

/-- The run in which the resident joins. -/
def residentJoins : List Label :=
  accepts 0 4 ++ accepts 1 5 ++ receives 0 ⟨0, 1⟩ (frameBytes joinBytes) 1 ++ ticks 6

section
variable {fb : FlatBuffers} {users : UserManager} {rooms : RoomManager} {s t u : State} {n : Nat}

/-- A request of the guest has been carried out. -/
theorem Rotating.after {users' : UserManager} {rooms' : RoomManager} {batch : List PacketCommand}
    (h : Rotating fb users rooms s) (ht : Settled smallServer fb 0 ⟨1, 1⟩ batch t)
    (hsame : SameMembers s t) (hu : (chatServer smallServer fb).Reach System.always u)
    (hready : u.handler = .ready) (hbatch : u.batch = []) (hkept : Undisturbed t u)
    (husers : u.users = users') (hrooms : u.rooms = rooms') : Rotating fb users' rooms' u where
  settled := ht.after hu hready hbatch hkept
  sessions := by rw [hkept.sessions, hsame.sessions, h.sessions]
  users := husers
  rooms := hrooms
  residentSocket := by rw [hkept.socket, hsame.socket, h.residentSocket]
  guestSocket := by rw [hkept.socket, hsame.socket, h.guestSocket]

theorem getPacket_of_parse {data : List UInt8} {packet : Packet}
    (h : parsePacket fb data = some packet) : fb.getPacket data = some packet := by
  unfold parsePacket at h
  split at h
  · exact h
  · cases h

/-- The guest joins. -/
theorem Rotating.join
    (hjoin : parsePacket fb joinBytes = some ⟨.joinRoomRequest (some ⟨ann⟩), 1⟩)
    (h : Rotating fb ⟨[resident], n % 2 ^ 64⟩ (roomOf [resident]) s) :
    ∃ t, Rotating fb (UserManager.addUser ⟨[resident], n % 2 ^ 64⟩ (guest n))
      (roomOf [resident, guest n]) t := by
  obtain ⟨t, ht, hsame⟩ := h.settled.request (by decide) hjoin
  have husers : t.users = ⟨[resident], n % 2 ^ 64⟩ := hsame.users.trans h.users
  have hrooms : t.rooms = roomOf [resident] := hsame.rooms.trans h.rooms
  have hresident : (t.pool 0).socket = some 4 := (hsame.socket 0).trans h.residentSocket
  have hguest : (t.pool 1).socket = some 5 := (hsame.socket 1).trans h.guestSocket
  have hsession : t.sessions.getSessionByClient t.pool 1 0 = some ⟨1, 1, 1⟩ := by
    simp [SessionManager.getSessionByClient, hsame.sessions, h.sessions, Session.isSameSession,
      hresident, hguest, firstMatch]
  have hnobody : t.users.getUserByClient t.pool 1 0 = none := by
    simp [UserManager.getUserByClient, husers, resident, User.isSameClient,
      Session.isSameSession, hresident, hguest, firstMatch]
  have hroom : t.rooms.getOrCreateAvailableRoom = (t.rooms, 0) := by
    rw [hrooms]
    rfl
  have hmade : guest n = t.users.makeUser ⟨1, 1, 1⟩ (ann.takeWhile (· != 0))
      (t.rooms.roomAt 0).id ⟨1, 1⟩ := by
    rw [husers, hrooms]
    rfl
  obtain ⟨u, hu, hready, hbatch, hkept, husers', hrooms'⟩ := join_alone ht.reach ht.handler
    ht.batch (getPacket_of_parse hjoin) hroom hsession hnobody hmade
  refine ⟨u, h.after ht hsame hu hready hbatch hkept (husers'.trans ?_) (hrooms'.trans ?_)⟩
  · rw [husers]
  · rw [hrooms]
    rfl

/-- The guest leaves, unless its id is the resident's. -/
theorem Rotating.leave
    (hparse : parsePacket fb leaveBytes = some ⟨.leaveRoomRequest (some ⟨0⟩), 2⟩)
    (hn : n % 2 ^ 64 ≠ 0)
    (h : Rotating fb (UserManager.addUser ⟨[resident], n % 2 ^ 64⟩ (guest n))
      (roomOf [resident, guest n]) s) :
    ∃ t, Rotating fb ⟨[resident], (n + 1) % 2 ^ 64⟩ (roomOf [resident]) t := by
  have hres : resident.id ≠ (guest n).id := Ne.symm hn
  obtain ⟨t, ht, hsame⟩ := h.settled.request (by decide) hparse
  have husers : t.users = ⟨[resident, guest n], (n + 1) % 2 ^ 64⟩ := by
    rw [hsame.users, h.users]
    simp [UserManager.addUser, hres]
  have hrooms : t.rooms = roomOf [resident, guest n] := hsame.rooms.trans h.rooms
  have hresident : (t.pool 0).socket = some 4 := (hsame.socket 0).trans h.residentSocket
  have hguest : (t.pool 1).socket = some 5 := (hsame.socket 1).trans h.guestSocket
  have hfind : t.users.getUserByClient t.pool 1 0 = some (guest n) := by
    simp [UserManager.getUserByClient, husers, resident, guest, User.isSameClient,
      Session.isSameSession, hresident, hguest, firstMatch]
  have hroom : t.rooms.getRoom (guest n).roomId = some 0 := by
    rw [hrooms]
    rfl
  have hleave : (t.rooms.roomAt 0).leave (guest n).id =
      some (guest n, [resident], ⟨0, [resident]⟩) := by
    rw [hrooms]
    simp [roomOf, RoomManager.roomAt, Room.leave, hres]
  obtain ⟨u, hu, hready, hbatch, hkept, husers', hrooms'⟩ := leave_alone ht.reach ht.handler
    ht.batch (getPacket_of_parse hparse) hfind hroom hleave
  refine ⟨u, h.after ht hsame hu hready hbatch hkept (husers'.trans ?_) (hrooms'.trans ?_)⟩
  · rw [husers]
    simp [UserManager.removeUserByUserId, hres]
  · rw [hrooms]
    rfl

theorem rotating_first (hr : (chatServer smallServer fb).Reach System.always s)
    (hp : s.firstJoined = true) : Rotating fb ⟨[resident], 1 % 2 ^ 64⟩ (roomOf [resident]) s := by
  simp only [State.firstJoined, Bool.and_eq_true, beq_iff_eq, List.contains_iff_mem,
    List.isEmpty_iff, HandlerPc.isReady_iff] at hp
  obtain ⟨⟨⟨⟨⟨⟨⟨⟨⟨⟨⟨⟨⟨⟨⟨⟨hworker, hrecv⟩, hepoch⟩, hqueue⟩, hbatch⟩, hready⟩, hsessions⟩,
    husers⟩, hcounter⟩, hids⟩, hlists⟩, hnext⟩, hmax⟩, hresident⟩, hguest⟩, hempty⟩, harrived⟩ := hp
  have hconn : (s.pool 1).isConnected = true := by simp [Client.isConnected, hguest]
  refine ⟨⟨hr, hworker, hrecv, harrived, hepoch, hconn, hempty, hqueue, hbatch, hready⟩, hsessions,
    ?_, ?_, hresident, hguest⟩
  · cases hu : s.users with
    | mk users counter =>
      simp only [hu] at husers hcounter
      rw [husers, hcounter, Nat.mod_eq_of_lt (by decide)]
  · cases hm : s.rooms with
    | mk rooms counter max =>
      simp only [hm] at hids hlists hnext hmax
      rw [hnext, hmax, roomOf]
      rw [Room.eq_singleton hids hlists]

/-- Any number of users can be made. -/
theorem rotating_all (hjoin : parsePacket fb joinBytes = some ⟨.joinRoomRequest (some ⟨ann⟩), 1⟩)
    (hleave : parsePacket fb leaveBytes = some ⟨.leaveRoomRequest (some ⟨0⟩), 2⟩)
    (hfirst : ((chatServer smallServer fb).exec System.always (.new smallServer)
      residentJoins).map State.firstJoined = some true)
    (hpos : 1 ≤ n) (hle : n ≤ 2 ^ 64) :
    ∃ s, Rotating fb ⟨[resident], n % 2 ^ 64⟩ (roomOf [resident]) s := by
  induction n, hpos using Nat.le_induction with
  | base =>
    obtain ⟨s, hr, hp⟩ := System.reach_of_exec (chatServer smallServer fb) System.always
      residentJoins State.firstJoined hfirst
    exact ⟨s, rotating_first hr hp⟩
  | succ n hpos ih =>
    obtain ⟨s, hs⟩ := ih (by omega)
    obtain ⟨t, ht⟩ := hs.join hjoin
    exact ht.leave hleave (by omega)

theorem parse_join : parsePacket sample joinBytes = some ⟨.joinRoomRequest (some ⟨ann⟩), 1⟩ := by
  simp [parsePacket, sample]

theorem parse_leave : parsePacket sample leaveBytes = some ⟨.leaveRoomRequest (some ⟨0⟩), 2⟩ := by
  have hne : leaveBytes ≠ joinBytes := by decide
  simp [parsePacket, sample, hne]

end

/-- After `2 ^ 64` users the counter is back at the id of a user that is still there. -/
theorem user_id_listed_twice : ∃ p,
    (rosterServer smallServer sample).Reach System.always p ∧
      p.1.rooms.rooms.length < 2 ^ 32 ∧ p.1.handler = .ready ∧ ¬ IdsApart p.1.rooms := by
  obtain ⟨s, hs⟩ := rotating_all (n := 2 ^ 64) parse_join parse_leave (by decide +kernel)
    (by decide) (Nat.le_refl _)
  obtain ⟨t, ht⟩ := hs.join parse_join
  obtain ⟨r, hr⟩ := (reach_roomServer ht.settled.reach).record ⟨0, []⟩ Roster.note
  have hrooms : t.rooms = roomOf [resident, guest (2 ^ 64)] := ht.rooms
  refine ⟨(t, r), hr, ?_, ht.settled.handler, fun hapart => ?_⟩
  · simp only [hrooms]
    decide
  · have honce := hapart.once 0
    simp only [hrooms] at honce
    revert honce
    decide

end Highp.Chat

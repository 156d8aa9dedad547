import Highp.Chat.RoomSteps

/-! How many users a room lists. The test in `GetOrCreateAvailableRoom` and the insertion in
`Room::Join` are under different locks; in between only removals can happen, because the logic
thread is the only one that joins. -/

namespace Highp.Chat
open Highp.Lib Highp.Network

/-- No room is over its capacity, and the room that a join holds on to has space left. -/
structure WithinCapacity (capacity : Nat) (rooms : RoomManager) (handler : HandlerPc) : Prop where
  max : rooms.maxRoomCapacity = capacity
  bounded : ∀ room ∈ rooms.rooms, room.users.length ≤ capacity
  space : ∀ i, handler.room = some i → (rooms.roomAt i).users.length < capacity

section
variable {capacity : Nat} {rooms : RoomManager} {handler handler' : HandlerPc}

theorem WithinCapacity.move (h : WithinCapacity capacity rooms handler)
    (hr : ∀ i, handler'.room = some i → handler.room = some i) :
    WithinCapacity capacity rooms handler' :=
  ⟨h.max, h.bounded, fun i hi => h.space i (hr i hi)⟩

/-- Taking users out of the rooms keeps the bounds. -/
theorem WithinCapacity.thin (h : WithinCapacity capacity rooms handler)
    (keep : Nat → User → Bool) : WithinCapacity capacity (rooms.thin keep) handler := by
  refine ⟨h.max, ?_, ?_⟩
  · intro room hr
    obtain ⟨i, hi, rfl⟩ := RoomManager.mem_thin hr
    exact Nat.le_trans (List.length_filter_le _ _) (h.bounded _ hi)
  · intro i hi
    rw [RoomManager.roomAt_thin]
    exact Nat.lt_of_le_of_lt (List.length_filter_le _ _) (h.space i hi)

/-- One room is replaced while no join is under way. -/
theorem WithinCapacity.setRoom (h : WithinCapacity capacity rooms handler) {i : Nat} {room : Room}
    (hlen : room.users.length ≤ capacity) (hr : handler'.room = none) :
    WithinCapacity capacity (rooms.setRoom i room) handler' := by
  refine ⟨h.max, ?_, ?_⟩
  · intro r hmem
    rcases List.mem_or_eq_of_mem_set hmem with hmem | rfl
    · exact h.bounded r hmem
    · exact hlen
  · intro j hj
    simp [hr] at hj

theorem WithinCapacity.join (h : WithinCapacity capacity rooms handler) {i : Nat} {user : User}
    (hplace : handler.room = some i) (hr : handler'.room = none) :
    WithinCapacity capacity (rooms.setRoom i ((rooms.roomAt i).join user).2) handler' := by
  apply h.setRoom _ hr
  have hspace := h.space i hplace
  simp only [Room.join, List.length_append, List.length_singleton]
  exact hspace

theorem roomAt_length_le (h : WithinCapacity capacity rooms handler) (i : Nat) :
    (rooms.roomAt i).users.length ≤ capacity := by
  unfold RoomManager.roomAt
  cases hi : rooms.rooms[i]? with
  | none => exact Nat.zero_le _
  | some room => exact h.bounded room (List.mem_of_getElem? hi)

theorem WithinCapacity.leave (h : WithinCapacity capacity rooms handler) {i userId : Nat}
    {found : User} {others : List User} {left : Room}
    (hl : (rooms.roomAt i).leave userId = some (found, others, left)) (hr : handler'.room = none) :
    WithinCapacity capacity (rooms.setRoom i left) handler' := by
  apply h.setRoom _ hr
  unfold Room.leave at hl
  split at hl
  · simp at hl
  · simp only [Option.some.injEq, Prod.mk.injEq] at hl
    obtain ⟨-, -, rfl⟩ := hl
    exact Nat.le_trans List.length_eraseP_le (roomAt_length_le h i)

/-- A room is created only when all are full. -/
theorem getOrCreateAvailableRoom_spec (rooms : RoomManager) :
    (rooms.getOrCreateAvailableRoom.1 = rooms ∧
      (rooms.roomAt rooms.getOrCreateAvailableRoom.2).users.length < rooms.maxRoomCapacity) ∨
    ((∀ room ∈ rooms.rooms, rooms.maxRoomCapacity ≤ room.users.length) ∧
      rooms.getOrCreateAvailableRoom =
        ({ rooms with rooms := rooms.rooms ++ [⟨rooms.roomCounter, []⟩]
                      roomCounter := (rooms.roomCounter + 1) % 2 ^ 32 }, rooms.rooms.length)) := by
  unfold RoomManager.getOrCreateAvailableRoom
  cases hf : rooms.rooms.findIdx? fun room =>
    decide (room.users.length < rooms.maxRoomCapacity) with
  | none =>
    refine Or.inr ⟨fun room hr => ?_, rfl⟩
    have hno := List.findIdx?_eq_none_iff.mp hf room hr
    simpa using hno
  | some i =>
    obtain ⟨hi, hp, -⟩ := List.findIdx?_eq_some_iff_getElem.mp hf
    refine Or.inl ⟨rfl, ?_⟩
    rw [roomAt_eq hi]
    simpa using hp

namespace RoomManager

/-- Some room has a place left. -/
def HasSpace (m : RoomManager) : Prop := ∃ room ∈ m.rooms, room.users.length < m.maxRoomCapacity

/-- One more room, empty, with the next id. -/
def addRoom (m : RoomManager) : RoomManager :=
  { m with rooms := m.rooms ++ [⟨m.roomCounter, []⟩]
           roomCounter := (m.roomCounter + 1) % 2 ^ 32 }

theorem addRoom_ne (m : RoomManager) : m.addRoom ≠ m := by
  intro h
  have hlength := congrArg (fun m : RoomManager => m.rooms.length) h
  simp [addRoom] at hlength

theorem getOrCreate_space {m : RoomManager} (h : m.HasSpace) :
    m.getOrCreateAvailableRoom.1 = m := by
  rcases getOrCreateAvailableRoom_spec m with ⟨he, -⟩ | ⟨hfull, -⟩
  · exact he
  · obtain ⟨room, hmem, hlt⟩ := h
    exact absurd (hfull room hmem) (Nat.not_le.mpr hlt)

theorem getOrCreate_full {m : RoomManager} (h : ¬ m.HasSpace) :
    m.getOrCreateAvailableRoom.1 = m.addRoom := by
  unfold getOrCreateAvailableRoom
  cases hf : m.rooms.findIdx? fun room => decide (room.users.length < m.maxRoomCapacity) with
  | none => rfl
  | some i =>
    obtain ⟨hi, hlt, -⟩ := List.findIdx?_eq_some_iff_getElem.mp hf
    exact absurd ⟨_, List.getElem_mem hi, of_decide_eq_true hlt⟩ h

end RoomManager

theorem WithinCapacity.joinRoom (h : WithinCapacity capacity rooms handler) (hpos : 1 ≤ capacity)
    (call : Call) (username : Text) :
    WithinCapacity capacity rooms.getOrCreateAvailableRoom.1
      (.joinSession call username rooms.getOrCreateAvailableRoom.2) := by
  rcases getOrCreateAvailableRoom_spec rooms with ⟨he, hspace⟩ | ⟨-, he⟩
  · rw [he]
    refine ⟨h.max, h.bounded, ?_⟩
    intro i hi
    cases hi
    exact h.max ▸ hspace
  · rw [he]
    refine ⟨h.max, ?_, ?_⟩
    · intro room hr
      rcases List.mem_append.mp hr with hr | hr
      · exact h.bounded room hr
      · rw [List.mem_singleton.mp hr]
        exact Nat.zero_le _
    · intro i hi
      cases hi
      simp only [RoomManager.roomAt, List.getElem?_concat_length, Option.getD_some, List.length_nil]
      exact hpos

end

variable {cfg : Config} {fb : FlatBuffers} {s t : State}

theorem WithinCapacity.logic {capacity : Nat} {choice : Choice}
    (h : WithinCapacity capacity s.rooms s.handler) (hpos : 1 ≤ capacity)
    (hs : LogicStep s choice t) : WithinCapacity capacity t.rooms t.handler := by
  cases hs with
  | joinRoom hh => exact h.joinRoom hpos _ _
  | joinSession hh _ =>
    rw [hh] at h
    exact h.move fun i hi => hi
  | joinUser hh _ _ =>
    rw [hh] at h
    exact h.move fun i hi => hi
  | joinEnter hh _ =>
    rw [hh] at h
    exact h.join rfl rfl
  | leaveRoom hh _ hl _ => exact h.leave hl rfl
  | skip _ _ => exact h
  | rejectClosed _ _ _ => exact h
  | _ => exact h.move fun i hi => by simp [HandlerPc.room] at hi

theorem WithinCapacity.step {capacity : Nat} {l : RoomLabel}
    (h : WithinCapacity capacity s.rooms s.handler) (hpos : 1 ≤ capacity)
    (hs : RegistryStep s l t) : WithinCapacity capacity t.rooms t.handler := by
  cases hs with
  | thin keep _ _ hh hr =>
    rw [hr, hh]
    exact h.thin keep
  | logic _ hl => exact h.logic hpos hl

/-- The number of rooms grows in `GetOrCreateAvailableRoom` only. -/
theorem RegistryStep.room_created {l : RoomLabel} (hs : RegistryStep s l t)
    (hgrow : t.rooms.rooms.length ≠ s.rooms.rooms.length) :
    t.rooms = s.rooms.getOrCreateAvailableRoom.1 := by
  cases hs with
  | thin keep _ _ _ hr => exact absurd (by rw [hr]; simp [RoomManager.thin]) hgrow
  | logic _ hl =>
    cases hl with
    | joinRoom _ => rfl
    | joinEnter _ _ => exact absurd (by simp [RoomManager.setRoom]) hgrow
    | leaveRoom _ _ _ _ => exact absurd (by simp [RoomManager.setRoom]) hgrow
    | _ => exact absurd rfl hgrow

theorem withinCapacity_new :
    WithinCapacity cfg.maxRoomCapacity (State.new cfg).rooms (State.new cfg).handler := by
  refine ⟨rfl, ?_, ?_⟩
  · intro room hr
    obtain ⟨i, -, rfl⟩ := List.mem_map.mp hr
    exact Nat.zero_le _
  · intro i hi
    simp [State.new, HandlerPc.room] at hi

/-- **Rooms never overfill**, and a room is created only at a moment when every other one is
full. -/
theorem rooms_never_overfill (cfg : Config) (fb : FlatBuffers) (hpos : 1 ≤ cfg.maxRoomCapacity)
    {s : State} (h : (roomServer cfg fb).Reach System.always s) :
    (∀ room ∈ s.rooms.rooms, room.users.length ≤ cfg.maxRoomCapacity) ∧
    ∀ l t, s.roomStep cfg fb l = some t → t.rooms.rooms.length ≠ s.rooms.rooms.length →
      ∀ room ∈ s.rooms.rooms, room.users.length = cfg.maxRoomCapacity := by
  have hw : WithinCapacity cfg.maxRoomCapacity s.rooms s.handler :=
    h.invariant (I := fun s => WithinCapacity cfg.maxRoomCapacity s.rooms s.handler)
      withinCapacity_new fun _ hi _ hs => hi.step hpos (roomStep_registry hs)
  refine ⟨hw.bounded, fun l t hs hgrow room hr => ?_⟩
  have hcreated := (roomStep_registry hs).room_created hgrow
  rcases getOrCreateAvailableRoom_spec s.rooms with ⟨he, -⟩ | ⟨hfull, -⟩
  · exact absurd (by rw [hcreated, he]) hgrow
  · have hge := hfull room hr
    rw [hw.max] at hge
    exact Nat.le_antisymm (hw.bounded room hr) hge

/-- Rooms for one user: the second client that joins finds the first room full and gets a room of
its own, and the first client leaves while the second is on its way in. -/
theorem rooms_never_overfill_two : ∃ s,
    (roomServer ⟨2, 2, 1⟩ sample).Reach System.always s ∧ s.rooms.rooms.length = 2 ∧
      ∀ room ∈ s.rooms.rooms, room.users.length ≤ 1 := by
  obtain ⟨s, hr, hp⟩ := System.reach_of_exec (roomServer ⟨2, 2, 1⟩ sample) System.always
    ((accepts 0 4 ++ accepts 1 5 ++ receives 0 ⟨0, 1⟩ (frameBytes joinBytes) 1 ++
      receives 1 ⟨1, 1⟩ (frameBytes joinBytes) 1 ++ ticks 8 ++
      [Label.recvDone 0 ⟨0, 1⟩ (.done [])]).map RoomLabel.server ++
      [.kickRoom 0 0, .kickRoom 0 1, .kicked 0] ++
      (List.replicate 4 (Label.logic ⟨0, ⟨0, 0⟩, []⟩)).map RoomLabel.server)
    (fun s => s.rooms.rooms.length == 2 && s.handler.isReady &&
      (s.rooms.rooms.map fun room => room.users.length) == [0, 1]) (by decide +kernel)
  simp only [Bool.and_eq_true, beq_iff_eq] at hp
  exact ⟨s, hr, hp.1.1, (rooms_never_overfill ⟨2, 2, 1⟩ sample (by decide) hr).1⟩

end Highp.Chat

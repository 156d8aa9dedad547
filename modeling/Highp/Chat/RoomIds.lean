import Highp.Chat.Capacity

/-! The ids of the rooms. They come from a counter or, in `CreateRoom`, from the caller, and nothing
compares the one with the other. -/

namespace Highp.Chat

/-! ## Creating and destroying rooms -/

namespace RoomManager

def ids (m : RoomManager) : List Nat := m.rooms.map Room.id

/-- `CreateRoom`, with the place of the room in `_rooms`. -/
def createRoom (m : RoomManager) (roomIdOverride : Option UInt32) : RoomManager × Nat :=
  let (roomId, roomCounter) :=
    match roomIdOverride with
    | some roomId => (roomId.toNat, m.roomCounter)
    | none => (m.roomCounter, (m.roomCounter + 1) % 2 ^ 32)
  ({ m with rooms := m.rooms ++ [⟨roomId, []⟩], roomCounter := roomCounter }, m.rooms.length)

/-- `DestroyRoom`. -/
def destroyRoom (m : RoomManager) (roomId : Nat) : RoomManager × Bool :=
  let rooms := m.rooms.filter fun room => room.id != roomId
  ({ m with rooms }, m.rooms.length != rooms.length)

end RoomManager

inductive RoomOp
  | createRoom (roomIdOverride : Option UInt32)
  | getOrCreateAvailableRoom
  | destroyRoom (roomId : UInt32)
  /-- Users enter and leave the room at a place. -/
  | members (place : Nat) (users : List User)

/-- The rooms, and the place of the room that the last operation has returned. `created` and
`overrides` are ghosts: how many rooms were created, and the ids of the rooms present whose creator
chose the id. -/
structure RoomRun where
  manager : RoomManager
  returned : Option Nat
  created : Nat
  overrides : List Nat

namespace RoomRun

def new (initRoomCount maxRoomCapacity : Nat) : RoomRun :=
  ⟨.new initRoomCount maxRoomCapacity, none, initRoomCount, []⟩

def after (s : RoomRun) : RoomOp → RoomRun
  | .createRoom roomIdOverride =>
    { manager := (s.manager.createRoom roomIdOverride).1
      returned := some (s.manager.createRoom roomIdOverride).2
      created := s.created + 1
      overrides := s.overrides ++ roomIdOverride.toList.map UInt32.toNat }
  | .getOrCreateAvailableRoom =>
    { s with
      manager := s.manager.getOrCreateAvailableRoom.1
      returned := some s.manager.getOrCreateAvailableRoom.2
      created := s.created +
        (s.manager.getOrCreateAvailableRoom.1.rooms.length - s.manager.rooms.length) }
  | .destroyRoom roomId =>
    { s with
      manager := (s.manager.destroyRoom roomId.toNat).1
      returned := none
      overrides := s.overrides.filter fun id => id != roomId.toNat }
  | .members place users =>
    { s with
      manager := s.manager.setRoom place { s.manager.roomAt place with users }
      returned := none }

def run (s : RoomRun) (ops : List RoomOp) : RoomRun := ops.foldl after s

/-- In every state of the run, the first and the last one included. -/
def Throughout (P : RoomRun → Prop) (s : RoomRun) : List RoomOp → Prop
  | [] => P s
  | op :: ops => P s ∧ (s.after op).Throughout P ops

/-- No two rooms have one id; `GetRoom` finds each room, the one just returned among them, and
`DestroyRoom` destroys one at most. -/
structure WellNumbered (s : RoomRun) : Prop where
  unique : s.manager.ids.Nodup
  found : ∀ i < s.manager.rooms.length, s.manager.getRoom (s.manager.roomAt i).id = some i
  returned : ∀ i, s.returned = some i → s.manager.getRoom (s.manager.roomAt i).id = some i
  destroyed : ∀ roomId,
    s.manager.rooms.length ≤ (s.manager.destroyRoom roomId).1.rooms.length + 1

/-- A chosen id is that of no room present, and an id from the counter that of no room present
whose creator chose the id. -/
def Apart (s : RoomRun) : RoomOp → Prop
  | .createRoom (some roomId) => roomId.toNat ∉ s.manager.ids
  | .createRoom none => s.manager.roomCounter ∉ s.overrides
  | .getOrCreateAvailableRoom => ¬ s.manager.HasSpace → s.manager.roomCounter ∉ s.overrides
  | .destroyRoom _ => True
  | .members _ _ => True

def Avoids (s : RoomRun) : List RoomOp → Prop
  | [] => True
  | op :: ops => s.Apart op ∧ (s.after op).Avoids ops

end RoomRun

/-! ## Lookups by id -/

section
variable {m : RoomManager}

theorem getRoom_of_nodup (h : m.ids.Nodup) {i : Nat} (hi : i < m.rooms.length) :
    m.getRoom (m.roomAt i).id = some i := by
  rw [roomAt_eq hi]
  have hapart := List.pairwise_iff_getElem.mp (List.pairwise_map.mp h)
  refine List.findIdx?_eq_some_iff_getElem.mpr ⟨hi, beq_self_eq_true _, fun j hji => ?_⟩
  have hj : j < m.rooms.length := Nat.lt_trans hji hi
  simpa using hapart j i hj hi hji

theorem destroyRoom_of_nodup (h : m.ids.Nodup) (roomId : Nat) :
    m.rooms.length ≤ (m.destroyRoom roomId).1.rooms.length + 1 := by
  have hsplit := List.length_eq_countP_add_countP (fun room : Room => room.id != roomId)
    (l := m.rooms)
  have hcount : m.rooms.countP (fun room => decide ¬(room.id != roomId) = true) =
      m.ids.count roomId := by
    rw [RoomManager.ids, List.count, List.countP_map]
    refine List.countP_congr fun room _ => ?_
    simp
  have honce := List.nodup_iff_count_le_one.mp h roomId
  simp only [RoomManager.destroyRoom, ← List.countP_eq_length_filter]
  omega

theorem ids_append (m : RoomManager) (roomId roomCounter : Nat) :
    RoomManager.ids { m with rooms := m.rooms ++ [⟨roomId, []⟩], roomCounter := roomCounter } =
      m.ids ++ [roomId] := by
  simp [RoomManager.ids]

theorem nodup_ids_append {ids : List Nat} (h : ids.Nodup) (roomId : Nat) :
    (ids ++ [roomId]).Nodup ↔ roomId ∉ ids := by
  rw [(List.perm_append_singleton roomId ids).nodup_iff, List.nodup_cons]
  exact and_iff_left h

theorem ids_destroyRoom (m : RoomManager) (roomId : Nat) :
    (m.destroyRoom roomId).1.ids = m.ids.filter fun id => id != roomId := by
  simp only [RoomManager.ids, RoomManager.destroyRoom, List.filter_map]
  rfl

theorem ids_members (m : RoomManager) (place : Nat) (users : List User) :
    (m.setRoom place { m.roomAt place with users }).ids = m.ids := by
  simp only [RoomManager.ids, RoomManager.setRoom]
  apply List.ext_getElem
  · simp
  · intro j hj hj'
    have hjm : j < m.rooms.length := by simpa using hj'
    simp only [List.getElem_map]
    by_cases hplace : place = j
    · subst hplace
      simp [roomAt_eq hjm]
    · rw [List.getElem_set_ne hplace]

end

/-! ## One operation -/

namespace RoomRun

/-- The ids that are no overrides were drawn from the counter, which has not come round. -/
structure Counted (s : RoomRun) : Prop where
  counter : s.manager.roomCounter ≤ s.created
  drawn : ∀ id ∈ s.manager.ids, id < s.manager.roomCounter ∨ id ∈ s.overrides
  given : ∀ id ∈ s.overrides, id ∈ s.manager.ids

variable {s : RoomRun}

theorem counted_new (initRoomCount maxRoomCapacity : Nat) :
    (new initRoomCount maxRoomCapacity).Counted where
  counter := Nat.le_refl _
  drawn id hid := by
    have hlt : id < initRoomCount := by simpa [new, RoomManager.new, RoomManager.ids] using hid
    exact .inl hlt
  given id hid := absurd hid List.not_mem_nil

theorem nodup_new (initRoomCount maxRoomCapacity : Nat) :
    (new initRoomCount maxRoomCapacity).manager.ids.Nodup := by
  have hids : (new initRoomCount maxRoomCapacity).manager.ids = List.range initRoomCount := by
    simp [new, RoomManager.new, RoomManager.ids, Function.comp_def]
  rw [hids]
  exact List.nodup_range

/-- The next id of the counter is taken if and only if a creator has chosen it. -/
theorem Counted.counter_taken (h : s.Counted) :
    s.manager.roomCounter ∈ s.manager.ids ↔ s.manager.roomCounter ∈ s.overrides := by
  constructor
  · intro hin
    rcases h.drawn _ hin with hlt | hgiven
    · exact absurd hlt (Nat.lt_irrefl _)
    · exact hgiven
  · exact h.given _

/-- Drawing an id from the counter. -/
theorem Counted.draw (h : s.Counted) (hfew : s.created + 1 < 2 ^ 32) {t : RoomRun}
    (hmanager : t.manager = s.manager.addRoom) (hcreated : t.created = s.created + 1)
    (hoverrides : t.overrides = s.overrides) : t.Counted := by
  have hids : t.manager.ids = s.manager.ids ++ [s.manager.roomCounter] := by
    rw [hmanager]
    exact ids_append _ _ _
  have hcounter : t.manager.roomCounter = s.manager.roomCounter + 1 := by
    rw [hmanager]
    exact Nat.mod_eq_of_lt (Nat.lt_of_le_of_lt (Nat.succ_le_succ h.counter) hfew)
  refine ⟨?_, fun id hid => ?_, fun id hid => ?_⟩
  · rw [hcounter, hcreated]
    exact Nat.succ_le_succ h.counter
  · rw [hids] at hid
    rw [hcounter, hoverrides]
    rcases List.mem_append.mp hid with hid | hid
    · rcases h.drawn id hid with hlt | hgiven
      · exact .inl (Nat.lt_succ_of_lt hlt)
      · exact .inr hgiven
    · rw [List.mem_singleton.mp hid]
      exact .inl (Nat.lt_succ_self _)
  · rw [hoverrides] at hid
    rw [hids]
    exact List.mem_append_left _ (h.given id hid)

theorem after_create_none : (s.after (.createRoom none)).manager = s.manager.addRoom := rfl

theorem after_getOrCreate_space (h : s.manager.HasSpace) :
    (s.after .getOrCreateAvailableRoom).manager = s.manager :=
  RoomManager.getOrCreate_space h

theorem after_getOrCreate_full (h : ¬ s.manager.HasSpace) :
    (s.after .getOrCreateAvailableRoom).manager = s.manager.addRoom :=
  RoomManager.getOrCreate_full h

/-- Each operation counts the room that it creates. -/
theorem created_after_full (h : ¬ s.manager.HasSpace) :
    (s.after .getOrCreateAvailableRoom).created = s.created + 1 := by
  simp only [after, RoomManager.getOrCreate_full h, RoomManager.addRoom, List.length_append,
    List.length_singleton, Nat.add_sub_cancel_left]

theorem created_le_after (s : RoomRun) (op : RoomOp) : s.created ≤ (s.after op).created := by
  cases op with
  | createRoom roomIdOverride => exact Nat.le_succ _
  | getOrCreateAvailableRoom => exact Nat.le_add_right _ _
  | destroyRoom roomId => exact Nat.le_refl _
  | members place users => exact Nat.le_refl _

theorem created_le_run (s : RoomRun) (ops : List RoomOp) : s.created ≤ (s.run ops).created := by
  induction ops generalizing s with
  | nil => exact Nat.le_refl _
  | cons op ops ih => exact Nat.le_trans (created_le_after s op) (ih (s.after op))

/-- **Step.** What is known of the ids stays known while the counter does not come round. -/
theorem Counted.after (h : s.Counted) {op : RoomOp} (hfew : (s.after op).created < 2 ^ 32) :
    (s.after op).Counted := by
  cases op with
  | createRoom roomIdOverride =>
    cases roomIdOverride with
    | none => exact h.draw hfew after_create_none rfl (List.append_nil _)
    | some roomId =>
      have hids : (s.after (.createRoom (some roomId))).manager.ids =
          s.manager.ids ++ [roomId.toNat] := ids_append _ _ _
      refine ⟨Nat.le_succ_of_le h.counter, fun id hid => ?_, fun id hid => ?_⟩
      · rw [hids] at hid
        rcases List.mem_append.mp hid with hid | hid
        · exact (h.drawn id hid).imp_right (List.mem_append_left _)
        · exact .inr (List.mem_append_right _ hid)
      · rw [hids]
        rcases List.mem_append.mp hid with hid | hid
        · exact List.mem_append_left _ (h.given id hid)
        · exact List.mem_append_right _ hid
  | getOrCreateAvailableRoom =>
    by_cases hspace : s.manager.HasSpace
    · have hmanager := after_getOrCreate_space hspace
      exact ⟨hmanager ▸ Nat.le_trans h.counter (created_le_after s _), hmanager ▸ h.drawn,
        hmanager ▸ h.given⟩
    · rw [created_after_full hspace] at hfew
      exact h.draw hfew (after_getOrCreate_full hspace) (created_after_full hspace) rfl
  | destroyRoom roomId =>
    have hids := ids_destroyRoom s.manager roomId.toNat
    refine ⟨h.counter, fun id hid => ?_, fun id hid => ?_⟩
    · obtain ⟨hid, hne⟩ := List.mem_filter.mp (hids ▸ hid)
      exact (h.drawn id hid).imp_right fun hgiven => List.mem_filter.mpr ⟨hgiven, hne⟩
    · obtain ⟨hid, hne⟩ := List.mem_filter.mp hid
      exact hids ▸ List.mem_filter.mpr ⟨h.given id hid, hne⟩
  | members place users =>
    have hids := ids_members s.manager place users
    exact ⟨h.counter, fun id hid => h.drawn id (hids ▸ hid), fun id hid => hids ▸ h.given id hid⟩

/-- **Step.** Unique ids stay unique if and only if the operation keeps them apart. -/
theorem Counted.nodup_after (h : s.Counted) (hunique : s.manager.ids.Nodup) (op : RoomOp) :
    (s.after op).manager.ids.Nodup ↔ s.Apart op := by
  have hdraw : s.manager.addRoom.ids.Nodup ↔ s.manager.roomCounter ∉ s.overrides := by
    rw [← h.counter_taken, ← nodup_ids_append hunique]
    exact Iff.of_eq (congrArg List.Nodup (ids_append _ _ _))
  cases op with
  | createRoom roomIdOverride =>
    cases roomIdOverride with
    | none => exact hdraw
    | some roomId =>
      rw [Apart, ← nodup_ids_append hunique]
      exact Iff.of_eq (congrArg List.Nodup (ids_append _ _ _))
  | getOrCreateAvailableRoom =>
    by_cases hspace : s.manager.HasSpace
    · rw [after_getOrCreate_space hspace]
      exact ⟨fun _ hfull => absurd hspace hfull, fun _ => hunique⟩
    · rw [after_getOrCreate_full hspace, hdraw]
      exact ⟨fun hfree _ => hfree, fun hfree => hfree hspace⟩
  | destroyRoom roomId =>
    refine ⟨fun _ => trivial, fun _ => ?_⟩
    have hids := ids_destroyRoom s.manager roomId.toNat
    exact hids ▸ hunique.filter _
  | members place users =>
    refine ⟨fun _ => trivial, fun _ => ?_⟩
    have hids := ids_members s.manager place users
    exact hids ▸ hunique

/-- The room that was returned is in the manager. -/
theorem returned_after (s : RoomRun) (op : RoomOp) {i : Nat} (h : (s.after op).returned = some i) :
    i < (s.after op).manager.rooms.length := by
  cases op with
  | createRoom roomIdOverride =>
    obtain rfl := Option.some.inj h
    simp [after, RoomManager.createRoom]
  | getOrCreateAvailableRoom =>
    obtain rfl := Option.some.inj h
    rcases getOrCreateAvailableRoom_cases s.manager with ⟨he, hlt⟩ | he
    · simpa only [after, he] using hlt
    · simp [after, he]
  | destroyRoom roomId => cases h
  | members place users => cases h

theorem wellNumbered_of_nodup (h : s.manager.ids.Nodup)
    (hreturned : ∀ i, s.returned = some i → i < s.manager.rooms.length) : s.WellNumbered where
  unique := h
  found _ hi := getRoom_of_nodup h hi
  returned i hi := getRoom_of_nodup h (hreturned i hi)
  destroyed := destroyRoom_of_nodup h

/-! ## Runs -/

theorem Throughout.head {P : RoomRun → Prop} {ops : List RoomOp} (h : s.Throughout P ops) :
    P s := by
  cases ops with
  | nil => exact h
  | cons op ops => exact h.1

/-- **Run.** By induction on the operations, each of which meets its condition or leaves two rooms
with one id. -/
theorem Counted.throughout_iff {ops : List RoomOp} (h : s.Counted) (hwell : s.WellNumbered)
    (hfew : (s.run ops).created < 2 ^ 32) :
    s.Throughout WellNumbered ops ↔ s.Avoids ops := by
  induction ops generalizing s with
  | nil => exact ⟨fun _ => trivial, fun _ => hwell⟩
  | cons op ops ih =>
    have hcounted : (s.after op).Counted :=
      h.after (Nat.lt_of_le_of_lt (created_le_run (s.after op) ops) hfew)
    have hstep := h.nodup_after hwell.unique op
    constructor
    · rintro ⟨-, hrest⟩
      have hnext := hrest.head
      exact ⟨hstep.mp hnext.unique, (ih hcounted hnext hfew).mp hrest⟩
    · rintro ⟨hapart, hrest⟩
      have hnext := wellNumbered_of_nodup (hstep.mpr hapart) fun _ => returned_after s op
      exact ⟨hwell, (ih hcounted hnext hfew).mpr hrest⟩

/-- Ids from the counter alone are apart. -/
theorem avoids_of_no_override {ops : List RoomOp} (hs : s.overrides = [])
    (h : ∀ roomId, RoomOp.createRoom (some roomId) ∉ ops) : s.Avoids ops := by
  induction ops generalizing s with
  | nil => trivial
  | cons op ops ih =>
    have hrest : ∀ roomId, RoomOp.createRoom (some roomId) ∉ ops :=
      fun roomId hmem => h roomId (List.mem_cons_of_mem _ hmem)
    cases op with
    | createRoom roomIdOverride =>
      cases roomIdOverride with
      | none => exact ⟨by simp [Apart, hs], ih (by simp [after, hs]) hrest⟩
      | some roomId => exact absurd (List.mem_cons_self ..) (h roomId)
    | getOrCreateAvailableRoom => exact ⟨by simp [Apart, hs], ih hs hrest⟩
    | destroyRoom roomId => exact ⟨trivial, ih (by simp [after, hs]) hrest⟩
    | members place users => exact ⟨trivial, ih hs hrest⟩

end RoomRun

/-- **Room ids stay unique as long as overrides are kept apart.** -/
theorem room_ids_unique (initRoomCount maxRoomCapacity : Nat) (ops : List RoomOp)
    (hfew : ((RoomRun.new initRoomCount maxRoomCapacity).run ops).created < 2 ^ 32) :
    ((RoomRun.new initRoomCount maxRoomCapacity).Throughout RoomRun.WellNumbered ops ↔
      (RoomRun.new initRoomCount maxRoomCapacity).Avoids ops) ∧
    ((∀ roomId, RoomOp.createRoom (some roomId) ∉ ops) →
      (RoomRun.new initRoomCount maxRoomCapacity).Throughout RoomRun.WellNumbered ops) := by
  have hwell : (RoomRun.new initRoomCount maxRoomCapacity).WellNumbered :=
    RoomRun.wellNumbered_of_nodup (RoomRun.nodup_new _ _) nofun
  have hiff := (RoomRun.counted_new initRoomCount maxRoomCapacity).throughout_iff hwell hfew
  exact ⟨hiff, fun h => hiff.mpr (RoomRun.avoids_of_no_override rfl h)⟩

/-- The only room is full, so one is created; another one gets an id of the caller's choice, and the
first is destroyed. -/
theorem room_ids_unique_three : (RoomRun.new 1 1).Throughout RoomRun.WellNumbered
    [.members 0 [⟨⟨0, 0, 1⟩, 0, [], 0, ⟨0, 1⟩⟩], .getOrCreateAvailableRoom, .createRoom (some 7),
      .destroyRoom 0] :=
  (room_ids_unique 1 1 _ (by decide)).1.mpr
    ⟨trivial, fun _ => by decide, (by decide : 7 ∉ [0, 1]), trivial, trivial⟩

/-- The id that the caller chooses is that of the first room. `GetRoom` does not find the room that
was returned, and `DestroyRoom` destroys both. An id may also be free when it is chosen, and the
counter comes to it later. -/
theorem one_id_twice :
    (¬ ∀ (initRoomCount maxRoomCapacity : Nat) (ops : List RoomOp),
      ((RoomRun.new initRoomCount maxRoomCapacity).run ops).created < 2 ^ 32 →
      (RoomRun.new initRoomCount maxRoomCapacity).Throughout RoomRun.WellNumbered ops) ∧
    ((RoomRun.new 1 10).run [.createRoom (some 0)]).manager.ids = [0, 0] ∧
    ((RoomRun.new 1 10).run [.createRoom (some 0)]).returned = some 1 ∧
    ((RoomRun.new 1 10).run [.createRoom (some 0)]).manager.getRoom 0 = some 0 ∧
    (((RoomRun.new 1 10).run [.createRoom (some 0)]).manager.destroyRoom 0).1.rooms = [] ∧
    ((RoomRun.new 0 10).run [.createRoom (some 0), .createRoom none]).manager.ids = [0, 0] := by
  refine ⟨fun hclaim => ?_, rfl, rfl, rfl, rfl, rfl⟩
  obtain ⟨-, hwell⟩ := hclaim 1 10 [.createRoom (some 0)] (by decide)
  have hids : ((RoomRun.new 1 10).after (.createRoom (some 0))).manager.ids = [0, 0] := rfl
  have hunique : ((RoomRun.new 1 10).after (.createRoom (some 0))).manager.ids.Nodup :=
    hwell.unique
  rw [hids] at hunique
  exact absurd hunique (by decide)

end Highp.Chat

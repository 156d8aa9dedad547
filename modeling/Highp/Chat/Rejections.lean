import Highp.Chat.Capacity
import Highp.Chat.Handlings

/-! Joins for which `CreateUser` returns null. `JoinRoomHandler` chooses a room before it asks for
the user, and a room that was created for this stays. -/

namespace Highp.Chat
open Highp.Lib Highp.Network

/-! ## What a rejected join leaves alone -/

structure SameRegistries (s t : State) : Prop where
  sessions : t.sessions = s.sessions
  users : t.users = s.users
  rooms : t.rooms = s.rooms

/-- Sessions and users are as before, and so are the rooms if one of them has a place left. If they
are all full there is one more, empty. -/
structure SpareRoomAtMost (s t : State) : Prop where
  sessions : t.sessions = s.sessions
  users : t.users = s.users
  rooms : t.rooms = s.rooms ↔ s.rooms.HasSpace
  spare : ¬ s.rooms.HasSpace → t.rooms = s.rooms.addRoom

/-- `CreateUser` returns null for this client. -/
def State.createsNoUser (s : State) (client : Slot) : Bool :=
  s.sessions.sessions.all (fun session => !session.isSameSession s.pool client) ||
    s.users.users.any fun user => user.isSameClient s.pool client

/-- `CreateUser` returns null at this step of a handler. -/
def State.refusesUser (s : State) (choice : Choice) : Bool :=
  match s.handler with
  | .joinSession call _ _ =>
    (s.sessions.getSessionByClient s.pool call.cmd.client choice.order).isNone
  | .joinUser call _ _ _ => (s.users.getUserByClient s.pool call.cmd.client choice.order).isSome
  | _ => false

/-- A handler to its end, while nobody else acts. -/
def State.handle (fb : FlatBuffers) (s : State) : List Choice → Option State
  | [] => if s.handler.isReady then some s else none
  | choice :: choices =>
    if s.handler.isReady then some s
    else (s.logicStep fb choice).bind fun t => t.handle fb choices

section
variable {fb : FlatBuffers} {s t : State} {choice : Choice} {call : Call} {username : Text}

theorem SpareRoomAtMost.trans {u : State} (h : SpareRoomAtMost s t) (h' : SameRegistries t u) :
    SpareRoomAtMost s u where
  sessions := h'.sessions.trans h.sessions
  users := h'.users.trans h.users
  rooms := h'.rooms ▸ h.rooms
  spare hfull := h'.rooms.trans (h.spare hfull)

/-- `GetOrCreateAvailableRoom`, as the handler calls it. -/
theorem joinRoom_spare (hh : s.handler = .joinRoom call username)
    (hs : s.logicStep fb choice = some t) : SpareRoomAtMost s t := by
  simp only [State.logicStep, hh, Option.some.injEq] at hs
  subst hs
  refine ⟨rfl, rfl, ⟨fun hsame => ?_, RoomManager.getOrCreate_space⟩,
    RoomManager.getOrCreate_full⟩
  by_contra hfull
  rw [RoomManager.getOrCreate_full hfull] at hsame
  exact RoomManager.addRoom_ne s.rooms hsame

/-- Dispatching a command leaves the registries alone. -/
theorem dispatch_same (hh : s.handler = .ready) (hs : s.logicStep fb choice = some t) :
    SameRegistries s t := by
  obtain ⟨cmd, batch, -, rfl | ⟨pc, -, rfl⟩ | ⟨pc, sequence, rfl, -⟩⟩ :=
    (logicStep_inv hs).dispatched hh
  · exact ⟨rfl, rfl, rfl⟩
  · exact ⟨rfl, rfl, rfl⟩
  · exact ⟨rfl, rfl, rfl⟩

/-- Looking for the session leaves the registries alone. -/
theorem joinSession_same {room : Nat} (hh : s.handler = .joinSession call username room)
    (hs : s.logicStep fb choice = some t) : SameRegistries s t := by
  cases hg : s.sessions.getSessionByClient s.pool call.cmd.client choice.order with
  | none =>
    simp only [State.logicStep, hh, hg, Option.some.injEq] at hs
    subst hs
    exact ⟨rfl, rfl, rfl⟩
  | some session =>
    simp only [State.logicStep, hh, hg, Option.some.injEq] at hs
    subst hs
    exact ⟨rfl, rfl, rfl⟩

/-- A step at which `CreateUser` returns null ends the handler and leaves the registries alone. -/
theorem refused_same (hr : s.refusesUser choice = true) (hs : s.logicStep fb choice = some t) :
    SameRegistries s t ∧ t.handler = .ready := by
  unfold State.refusesUser at hr
  split at hr
  · next call username room hh =>
    have hg := Option.isNone_iff_eq_none.mp hr
    simp only [State.logicStep, hh, hg, Option.some.injEq] at hs
    subst hs
    exact ⟨⟨rfl, rfl, rfl⟩, rfl⟩
  · next call username room session hh =>
    obtain ⟨user, hg⟩ := Option.isSome_iff_exists.mp hr
    simp only [State.logicStep, hh, hg, Option.some.injEq] at hs
    subst hs
    exact ⟨⟨rfl, rfl, rfl⟩, rfl⟩
  · simp at hr

/-- Where there is a session, `CreateUser` can only have found a user. -/
theorem createsNoUser_user {session : Session} {order : Nat} {client : Slot}
    (h : s.createsNoUser client = true)
    (hsession : s.sessions.getSessionByClient s.pool client order = some session) (order' : Nat) :
    (s.users.getUserByClient s.pool client order').isSome = true := by
  rcases Bool.or_eq_true_iff.mp h with hnone | hsome
  · obtain ⟨hmem, hsame⟩ := List.mem_filter.mp (firstMatch_mem hsession)
    have hother := List.all_eq_true.mp hnone session hmem
    rw [hsame] at hother
    exact absurd hother (by simp)
  · obtain ⟨user, hmem, hsame⟩ := List.any_eq_true.mp hsome
    by_contra hnone
    have hfound := firstMatch_eq_none.mp (Option.not_isSome_iff_eq_none.mp hnone)
    have hin : user ∈ s.users.users.filter fun u => u.isSameClient s.pool client :=
      List.mem_filter.mpr ⟨hmem, hsame⟩
    rw [hfound] at hin
    exact List.not_mem_nil hin

theorem handle_ready (hh : s.handler = .ready) (choices : List Choice) :
    s.handle fb choices = some s := by
  cases choices <;> simp [State.handle, hh, HandlerPc.isReady]

theorem handle_go (hh : s.handler.isReady = false) (hs : s.logicStep fb choice = some t)
    (choices : List Choice) : s.handle fb (choice :: choices) = t.handle fb choices := by
  simp [State.handle, hh, hs]

/-- A join that is rejected, from its beginning to its end. -/
theorem handle_rejected {choices : List Choice} (hh : s.handler = .joinRoom call username)
    (hr : s.createsNoUser call.cmd.client = true) (hlen : 3 ≤ choices.length) :
    ∃ t, s.handle fb choices = some t ∧ t.handler = .ready ∧ SpareRoomAtMost s t := by
  obtain ⟨c₁, c₂, c₃, choices, rfl⟩ : ∃ c₁ c₂ c₃ rest, choices = c₁ :: c₂ :: c₃ :: rest := by
    match choices, hlen with
    | c₁ :: c₂ :: c₃ :: rest, _ => exact ⟨c₁, c₂, c₃, rest, rfl⟩
  let room := s.rooms.getOrCreateAvailableRoom.2
  let s₁ : State := { s with
    rooms := s.rooms.getOrCreateAvailableRoom.1
    handler := .joinSession call username room }
  have hs₁ : s.logicStep fb c₁ = some s₁ := by simp only [State.logicStep, hh, s₁, room]
  have hspare := joinRoom_spare hh hs₁
  rw [handle_go (by rw [hh]; rfl) hs₁]
  cases hg : s.sessions.getSessionByClient s.pool call.cmd.client c₂.order with
  | none =>
    have hs₂ : s₁.logicStep fb c₂ = some { s₁ with handler := .ready } := by
      simp only [State.logicStep, s₁, hg]
    rw [handle_go rfl hs₂, handle_ready rfl]
    exact ⟨_, rfl, rfl, hspare.trans (joinSession_same rfl hs₂)⟩
  | some session =>
    let s₂ : State := { s₁ with handler := .joinUser call username room session }
    have hs₂ : s₁.logicStep fb c₂ = some s₂ := by simp only [State.logicStep, s₁, s₂, hg]
    have hrefused : s₂.refusesUser c₃ = true := createsNoUser_user hr hg c₃.order
    obtain ⟨t, hs₃⟩ : ∃ t, s₂.logicStep fb c₃ = some t := by
      obtain ⟨user, hu⟩ := Option.isSome_iff_exists.mp hrefused
      exact ⟨{ s₂ with handler := .ready, log := s₂.log ++ [.touched call.cmd.conn user] },
        by simp only [State.logicStep, s₂, s₁, hu]⟩
    obtain ⟨hsame, hready⟩ := refused_same hrefused hs₃
    rw [handle_go rfl hs₂, handle_go rfl hs₃, handle_ready hready]
    exact ⟨t, rfl, hready, (hspare.trans (joinSession_same rfl hs₂)).trans hsame⟩

end

/-! ## Among other threads -/

section
variable {fb : FlatBuffers} {s t : State} {choice : Choice} {steps : List (State × Choice)}
  {pc : HandlerPc}

/-- From where a handler comes to the steps of a join. -/
theorem LogicStep.from_joining (h : LogicStep s choice t) (hready : s.handler ≠ .ready) :
    (∀ call username, t.handler ≠ .joinRoom call username) ∧
      (∀ call username room, t.handler = .joinSession call username room →
        s.handler = .joinRoom call username) ∧
      ∀ call username room session, t.handler = .joinUser call username room session →
        s.handler = .joinSession call username room := by
  cases h with
  | skip hh _ | reject hh _ _ | rejectClosed hh _ _ | startJoin _ _ hh _ | startLeave _ hh _
  | startChat _ _ hh _ => exact absurd hh hready
  | joinRoom hh =>
    refine ⟨nofun, fun call username room ht => ?_, nofun⟩
    cases ht
    exact hh
  | joinSession hh _ =>
    refine ⟨nofun, nofun, fun call username room session ht => ?_⟩
    cases ht
    exact hh
  | joinNoSession _ | joinExists _ _ | joinUser _ _ _ | joinEnter _ _ | joinReply _ _
  | leaveNobody _ _ | leaveFind _ _ | leaveFault _ _ | leaveMissing _ _ _ | leaveRoom _ _ _ _
  | leaveReply _ _ | leaveRemove _ | chatNobody _ _ | chatFind _ _ | chatNoRoom _
  | chatSend _ _ | reset _ => exact ⟨nofun, nofun, nofun⟩

/-- A step of a join up to `CreateUser`, and `CreateUser` if it returns null. -/
def State.joinsInVain (s : State) (choice : Choice) : Prop :=
  (∃ call username, s.handler = .joinRoom call username) ∨
    (∃ call username room, s.handler = .joinSession call username room) ∨
    s.refusesUser choice = true

/-- When `CreateUser` returns null, this was the last step, and those before it made no user. -/
theorem Trail.in_vain (h : Trail fb pc steps .ready)
    (hr : ∃ step ∈ steps, step.1.refusesUser step.2 = true) :
    ∀ step ∈ steps, step.1.joinsInVain step.2 := by
  generalize hlast : HandlerPc.ready = last at h
  induction h with
  | nil pc => exact fun step hstep => absurd hstep List.not_mem_nil
  | @cons s t choice rest last hready hs hrest ih =>
    subst hlast
    obtain ⟨step, hstep, hrefused⟩ := hr
    rcases List.mem_cons.mp hstep with rfl | hstep
    · obtain ⟨-, ht⟩ := refused_same hrefused hs
      rw [ht] at hrest
      rw [hrest.finished]
      intro step hstep
      rw [List.mem_singleton.mp hstep]
      exact .inr (.inr hrefused)
    have hvain := ih ⟨step, hstep, hrefused⟩ rfl
    intro step' hstep'
    rcases List.mem_cons.mp hstep' with rfl | hstep'
    · -- the next step says where this one has led to
      obtain ⟨hjoin, hsession, huser⟩ := (logicStep_inv hs).from_joining hready
      have ht : t.handler ≠ .ready := by
        intro ht
        rw [ht] at hrest
        rw [hrest.finished] at hstep
        exact absurd hstep List.not_mem_nil
      obtain ⟨u, choice', v, rest', rfl, hu, -, -⟩ := hrest.next ht
      rcases hvain _ (List.mem_cons_self ..) with
        ⟨call, username, hh⟩ | ⟨call, username, room, hh⟩ | hh
      · exact absurd (hu.symm.trans hh) (hjoin call username)
      · exact .inl ⟨call, username, hsession call username room (hu.symm.trans hh)⟩
      · simp only [State.refusesUser] at hh
        split at hh
        · next call username room hh' =>
          exact .inl ⟨call, username, hsession call username room (hu.symm.trans hh')⟩
        · next call username room session hh' =>
          exact .inr (.inl ⟨call, username, room,
            huser call username room session (hu.symm.trans hh')⟩)
        · simp at hh
    · exact hvain step' hstep'

end

/-- **A rejected join makes an empty room at most.** If `CreateUser` returns null, `Handle` leaves
sessions, users and their counters as they were, and the rooms and their counter as well if and
only if one of the rooms had a place left when it asked for one; if they were all full it has
appended an empty room. It is the same for each step of the handler when other threads act in
between. -/
theorem rejected_join (cfg : Config) (fb : FlatBuffers) :
    (∀ (s : State) (call : Call) (username : Text) (choices : List Choice),
      s.handler = .joinRoom call username → s.createsNoUser call.cmd.client = true →
      3 ≤ choices.length →
      ∃ t, s.handle fb choices = some t ∧ t.handler = .ready ∧ SpareRoomAtMost s t) ∧
    ∀ p, (eventServer cfg fb).Reach System.always p → p.1.handler = .ready →
      (∃ step ∈ p.2.1.steps, step.1.refusesUser step.2 = true) →
      ∀ s choice t, (s, choice) ∈ p.2.1.steps → s.logicStep fb choice = some t →
        ((∃ call username, s.handler = .joinRoom call username) ∧ SpareRoomAtMost s t) ∨
        ((∀ call username, s.handler ≠ .joinRoom call username) ∧ SameRegistries s t) := by
  refine ⟨fun s call username choices hh hr hlen => handle_rejected hh hr hlen, ?_⟩
  intro p hp hready hrefused s choice t hstep hs
  rcases (tracked_of_reach hp).follows with ⟨hnone, -⟩ | hfollows
  · rw [hnone] at hstep
    exact absurd hstep List.not_mem_nil
  rw [hready] at hfollows
  obtain ⟨d, choiceD, first, rest, hsteps, hd, -, -, htrail⟩ := hfollows
  rw [hsteps] at hstep hrefused
  have hdispatch : d.refusesUser choiceD ≠ true := by simp [State.refusesUser, hd]
  obtain ⟨r, hr, hrefused⟩ := hrefused
  have hr' : r ∈ rest := by
    rcases List.mem_cons.mp hr with rfl | hr
    · exact absurd hrefused hdispatch
    · exact hr
  rcases List.mem_cons.mp hstep with heq | hstep
  · cases heq
    exact .inr ⟨by simp [hd], dispatch_same hd hs⟩
  rcases htrail.in_vain ⟨r, hr', hrefused⟩ _ hstep with
    ⟨call, username, hh⟩ | ⟨call, username, room, hh⟩ | hh
  · exact .inl ⟨⟨call, username, hh⟩, joinRoom_spare hh hs⟩
  · refine .inr ⟨fun call' username' hh' => ?_, joinSession_same hh hs⟩
    cases hh'.symm.trans hh
  · refine .inr ⟨fun call username hh' => ?_, (refused_same hh hs).1⟩
    simp [State.refusesUser, hh'] at hh

/-! ## Joining twice -/

/-- The first client has joined, and its next request to join is about to be handled. -/
def joinsAgain : List RoomLabel :=
  (accepts 0 4 ++ receives 0 ⟨0, 1⟩ (frameBytes joinBytes) 1 ++ ticks 6 ++
    receives 0 ⟨0, 1⟩ (frameBytes joinBytes) 1 ++ ticks 1).map .server

/-- The handler has just begun, `CreateUser` will return null, and the first room has a place or
is full. -/
def State.aboutToReject (s : State) (space : Bool) : Bool :=
  match s.handler with
  | .joinRoom call _ => s.createsNoUser call.cmd.client &&
    s.rooms.rooms.all fun room => decide (room.users.length < s.rooms.maxRoomCapacity) == space
  | _ => false

/-- A client that is in a room with nine places left asks to join again. -/
theorem rejected_join_again : ∃ s t,
    (roomServer smallServer sample).Reach System.always s ∧
      s.handle sample [.plain, .plain, .plain] = some t ∧ t.users = s.users ∧
      t.sessions = s.sessions ∧ t.rooms = s.rooms := by
  obtain ⟨s, hr, hp⟩ := System.reach_of_exec (roomServer smallServer sample) System.always
    joinsAgain (fun s => s.aboutToReject true && !s.rooms.rooms.isEmpty) (by decide +kernel)
  simp only [State.aboutToReject, Bool.and_eq_true] at hp
  cases hh : s.handler with
  | joinRoom call username =>
    simp only [hh, Bool.and_eq_true, List.all_eq_true] at hp
    obtain ⟨⟨hrefused, hspace⟩, hsome⟩ := hp
    obtain ⟨t, ht, -, hspare⟩ := (rejected_join smallServer sample).1 s call username
      [.plain, .plain, .plain] hh hrefused (Nat.le_refl 3)
    obtain ⟨room, hroom⟩ := List.exists_mem_of_ne_nil s.rooms.rooms (by
      intro hnil
      simp [hnil] at hsome)
    have hlt : room.users.length < s.rooms.maxRoomCapacity := by simpa using hspace room hroom
    exact ⟨s, t, hr, ht, hspare.users, hspare.sessions, hspare.rooms.mpr ⟨room, hroom, hlt⟩⟩
  | _ => simp [hh] at hp

/-- Where a room holds one user, the second request of its member leaves another room behind. -/
theorem spare_room_stays : ¬ ∀ (cfg : Config) (fb : FlatBuffers) (s t : State) (call : Call)
    (username : Text) (choices : List Choice), (roomServer cfg fb).Reach System.always s →
    s.handler = .joinRoom call username → s.createsNoUser call.cmd.client = true →
    s.handle fb choices = some t → SameRegistries s t := by
  intro hclaim
  obtain ⟨s, hr, hp⟩ := System.reach_of_exec (roomServer ⟨2, 2, 1⟩ sample) System.always
    joinsAgain (fun s => s.aboutToReject false) (by decide +kernel)
  simp only [State.aboutToReject] at hp
  cases hh : s.handler with
  | joinRoom call username =>
    simp only [hh, Bool.and_eq_true, List.all_eq_true] at hp
    obtain ⟨hrefused, hfull⟩ := hp
    have hnospace : ¬ s.rooms.HasSpace := by
      rintro ⟨room, hroom, hlt⟩
      have hno := hfull room hroom
      simp [hlt] at hno
    obtain ⟨t, ht, -, hspare⟩ :
        ∃ t, s.handle sample [.plain, .plain, .plain] = some t ∧ t.handler = .ready ∧
          SpareRoomAtMost s t := handle_rejected hh hrefused (Nat.le_refl 3)
    have hsame := hclaim ⟨2, 2, 1⟩ sample s t call username _ hr hh hrefused ht
    exact hnospace (hspare.rooms.mp hsame.rooms)
  | _ => simp [hh] at hp

end Highp.Chat

import Highp.Chat.Answers

/-! The handling of one command from its dispatch to its end, and the users that the server knows
meanwhile. Worker threads may act between any two steps of a handler. -/

namespace Highp.Chat
open Highp.Lib Highp.Network Highp.Client

/-- Runs with the handling of the last command and with the users that were made. -/
def eventServer (cfg : Config) (fb : FlatBuffers) :
    System (State × Handling × Roster) RoomLabel :=
  (roomServer cfg fb).recording (⟨none, []⟩, ⟨0, []⟩) fun s l t h =>
    (Handling.note s l t h.1, Roster.note s l t h.2)

/-! ## The users that the server knows -/

/-- The user that a handler has in its hands. -/
def HandlerPc.user : HandlerPc → Option User
  | .joinEnter _ _ user => some user
  | .joinReply _ user => some user
  | .leaveRoom _ user => some user
  | .leaveReply _ user => some user
  | .leaveRemove _ user => some user
  | .chatSend _ _ user => some user
  | _ => none

/-- The user is registered, listed in a room or in the hands of a handler. -/
def State.Knows (s : State) (user : User) : Prop :=
  user ∈ s.users.users ∨ (∃ i, user ∈ (s.rooms.roomAt i).users) ∨ s.handler.user = some user

/-- No two known users have one id, and no id is beyond the number of users made. -/
structure Known (s : State) (created : Nat) : Prop where
  below : ∀ u, s.Knows u → u.id < created
  apart : ∀ u v, s.Knows u → s.Knows v → u.id = v.id → u = v

/-- The step makes this user, with the next id. -/
def State.Makes (s t : State) (user : User) : Prop :=
  ∃ call username room session, s.handler = .joinUser call username room session ∧
    t.handler = .joinEnter call room user ∧ user.id = s.users.userIdCounter

section
variable {s t : State} {choice : Choice} {u : User}

theorem mem_roomAt_setRoom {rooms : RoomManager} {i j : Nat} {room : Room}
    (h : u ∈ ((rooms.setRoom i room).roomAt j).users) :
    u ∈ room.users ∨ u ∈ (rooms.roomAt j).users := by
  by_cases hi : i < rooms.rooms.length
  · rw [roomAt_setRoom rooms i j room hi] at h
    split at h
    · exact .inl h
    · exact .inr h
  · have hsame : rooms.setRoom i room = rooms := by
      unfold RoomManager.setRoom
      rw [List.set_eq_of_length_le (Nat.le_of_not_lt hi)]
    rw [hsame] at h
    exact .inr h

/-- Users, rooms and the hands of the handler say whom a state knows. -/
theorem State.Knows.of_parts (h : t.Knows u) (husers : ∀ v ∈ t.users.users, s.Knows v)
    (hrooms : ∀ i, ∀ v ∈ (t.rooms.roomAt i).users, s.Knows v)
    (hhand : ∀ v, t.handler.user = some v → s.Knows v) : s.Knows u := by
  rcases h with hu | ⟨i, hu⟩ | hu
  · exact husers u hu
  · exact hrooms i u hu
  · exact hhand u hu

/-- A step of the logic thread comes to know nobody but the user that it makes. -/
theorem LogicStep.knows (h : LogicStep s choice t) (hu : t.Knows u) :
    s.Knows u ∨ s.Makes t u := by
  have hkept : ∀ {pc : HandlerPc}, t.handler = pc → t.users = s.users → t.rooms = s.rooms →
      (∀ v, pc.user = some v → s.Knows v) → s.Knows u := by
    intro pc hpc husers hrooms hhand
    refine hu.of_parts (fun v hv => .inl (husers ▸ hv)) (fun i v hv => ?_) (hpc ▸ hhand)
    rw [hrooms] at hv
    exact .inr (.inl ⟨i, hv⟩)
  have hheld : ∀ {pc : HandlerPc}, s.handler = pc → ∀ v, pc.user = some v → s.Knows v := by
    intro pc hpc v hv
    exact .inr (.inr (hpc ▸ hv))
  cases h with
  | skip hh _ => exact .inl (hkept hh rfl rfl (hheld hh))
  | rejectClosed hh _ _ => exact .inl (hkept hh rfl rfl (hheld hh))
  | startJoin _ _ _ _ | startLeave _ _ _ | startChat _ _ _ _ | joinNoSession _ | joinSession _ _
  | joinExists _ _ | leaveNobody _ _ | chatNobody _ _ | leaveFault _ _ | joinReply _ _
  | chatNoRoom _ | chatSend _ _ | reject _ _ _ | reset _ =>
    exact .inl (hkept rfl rfl rfl (by simp [HandlerPc.user]))
  | joinRoom hh =>
    refine .inl (hu.of_parts (fun v hv => .inl hv) (fun i v hv => ?_) (by simp [HandlerPc.user]))
    rw [getOrCreate_users] at hv
    exact .inr (.inl ⟨i, hv⟩)
  | @joinUser call username room session user hh hg hmade =>
    rcases hu with hu | ⟨i, hu⟩ | hu
    · rcases UserManager.mem_addUser.mp hu with ⟨hu, -⟩ | rfl
      · exact .inl (.inl hu)
      · exact .inr ⟨call, username, room, session, hh, rfl, by rw [hmade]; rfl⟩
    · exact .inl (.inr (.inl ⟨i, hu⟩))
    · obtain rfl : user = u := Option.some.inj hu
      exact .inr ⟨call, username, room, session, hh, rfl, by rw [hmade]; rfl⟩
  | @joinEnter call room user pool sends evs hh _ =>
    refine .inl (hu.of_parts (fun v hv => .inl hv) (fun i v hv => ?_) fun v hv => ?_)
    · rcases mem_roomAt_setRoom hv with hv | hv
      · rcases List.mem_append.mp hv with hv | hv
        · exact .inr (.inl ⟨room, hv⟩)
        · rw [List.mem_singleton.mp hv]
          exact hheld hh user rfl
      · exact .inr (.inl ⟨i, hv⟩)
    · exact hheld hh v hv
  | leaveFind hh hg =>
    refine .inl (hkept rfl rfl rfl fun v hv => ?_)
    obtain rfl := Option.some.inj hv
    exact .inl (UserManager.getUserByClient_mem hg).1
  | chatFind hh hg =>
    refine .inl (hkept rfl rfl rfl fun v hv => ?_)
    obtain rfl := Option.some.inj hv
    exact .inl (UserManager.getUserByClient_mem hg).1
  | @leaveMissing call user room hh _ _ =>
    have hhand : ∀ v, (HandlerPc.leaveRoom call user).user = some v → s.Knows v := hheld hh
    exact .inl (hkept rfl rfl rfl hhand)
  | @leaveRoom call user room found others left pool sends evs hh hg hl _ =>
    refine .inl (hu.of_parts (fun v hv => .inl hv) (fun i v hv => ?_) fun v hv => hheld hh v hv)
    rcases mem_roomAt_setRoom hv with hv | hv
    · exact .inr (.inl ⟨room, (leave_sublist hl).2.subset hv⟩)
    · exact .inr (.inl ⟨i, hv⟩)
  | @leaveReply call user pool sends evs hh _ =>
    have hhand : ∀ v, (HandlerPc.leaveReply call user).user = some v → s.Knows v := hheld hh
    exact .inl (hkept rfl rfl rfl hhand)
  | leaveRemove hh =>
    refine .inl (hu.of_parts (fun v hv => ?_) (fun i v hv => .inr (.inl ⟨i, hv⟩))
      (by simp [HandlerPc.user]))
    exact .inl (UserManager.mem_removeUserByUserId.mp hv).1

theorem Known.of_knows {created created' : Nat} (h : Known s created) (hle : created ≤ created')
    (hknows : ∀ v, t.Knows v → s.Knows v) : Known t created' where
  below v hv := Nat.lt_of_lt_of_le (h.below v (hknows v hv)) hle
  apart v w hv hw := h.apart v w (hknows v hv) (hknows w hw)

/-- Making users is counted. -/
theorem Roster.created_handled (r : Roster) (s t : State) :
    r.created ≤ (r.handled s t).created ∧
      ((∃ user, s.Makes t user) → (r.handled s t).created = r.created + 1) := by
  constructor
  · unfold Roster.handled
    split
    · exact Nat.le_succ _
    · exact Nat.le_refl _
    · exact Nat.le_refl _
  · rintro ⟨user, call, username, room, session, hs, ht, -⟩
    unfold Roster.handled
    rw [hs, ht]

theorem Known.logic {r : Roster} (hminted : Minted s r)
    (h : r.created ≤ 2 ^ 64 → Known s r.created) (hs : LogicStep s choice t)
    (hle : (r.handled s t).created ≤ 2 ^ 64) : Known t (r.handled s t).created := by
  obtain ⟨hgrow, hcount⟩ := r.created_handled s t
  have hknown := h (Nat.le_trans hgrow hle)
  by_cases hmakes : ∃ user, s.Makes t user
  · -- the new id is beyond all others
    have hcreated := hcount hmakes
    obtain ⟨user, call, username, room, session, -, ht, -⟩ := hmakes
    have hnew : ∀ v, s.Makes t v → v = user ∧ v.id = r.created := by
      rintro v ⟨call', _, room', _, -, ht', hid⟩
      rw [ht] at ht'
      cases ht'
      have hcounter := hminted.counter
      exact ⟨rfl, by omega⟩
    constructor
    · intro v hv
      rcases hs.knows hv with hv | hv
      · have hlt := hknown.below v hv
        omega
      · have hid := (hnew v hv).2
        omega
    · intro v w hv hw heq
      rcases hs.knows hv with hv | hv
      · rcases hs.knows hw with hw | hw
        · exact hknown.apart v w hv hw heq
        · have hlt := hknown.below v hv
          have hid := (hnew w hw).2
          omega
      · rcases hs.knows hw with hw | hw
        · have hlt := hknown.below w hw
          have hid := (hnew v hv).2
          omega
        · rw [(hnew v hv).1, (hnew w hw).1]
  · refine hknown.of_knows hgrow fun v hv => ?_
    rcases hs.knows hv with hv | hv
    · exact hv
    · exact absurd ⟨v, hv⟩ hmakes

theorem Known.thin {created : Nat} (h : Known s created) {keep : Nat → User → Bool}
    (husers : t.users = s.users) (hhandler : t.handler = s.handler)
    (hrooms : t.rooms = s.rooms.thin keep) : Known t created := by
  refine h.of_knows (Nat.le_refl _) fun v hv => hv.of_parts ?_ ?_ ?_
  · rw [husers]
    exact fun w hw => .inl hw
  · intro i w hw
    rw [hrooms] at hw
    exact .inr (.inl ⟨i, (thin_sublist keep i).subset hw⟩)
  · rw [hhandler]
    exact fun w hw => .inr (.inr hw)

end

/-! ## The steps of a handler -/

/-- The steps that the logic thread takes from one place in a handler to another. -/
inductive Trail (fb : FlatBuffers) : HandlerPc → List (State × Choice) → HandlerPc → Prop
  | nil (pc : HandlerPc) : Trail fb pc [] pc
  | cons {s t : State} {choice : Choice} {steps : List (State × Choice)} {pc : HandlerPc} :
      s.handler ≠ .ready → s.logicStep fb choice = some t → Trail fb t.handler steps pc →
      Trail fb s.handler ((s, choice) :: steps) pc

/-- How many steps a handler may still take. -/
def HandlerPc.ahead : HandlerPc → Nat
  | .ready => 0
  | .joinRoom .. => 5
  | .joinSession .. => 4
  | .joinUser .. => 3
  | .joinEnter .. => 2
  | .joinReply .. => 1
  | .leaveFind .. => 4
  | .leaveRoom .. => 3
  | .leaveReply .. => 2
  | .leaveRemove .. => 1
  | .chatFind .. => 2
  | .chatSend .. => 1
  | .resetSocket .. => 1
  | .fault => 0

/-- The handling has taken its steps since the dispatch. -/
def Handling.Follows (fb : FlatBuffers) (h : Handling) (pc : HandlerPc) : Prop :=
  ∃ s choice t rest, h.steps = (s, choice) :: rest ∧ s.handler = .ready ∧
    s.logicStep fb choice = some t ∧ h.request = t.handler.request ∧ Trail fb t.handler rest pc

section
variable {fb : FlatBuffers} {s t : State} {choice : Choice} {steps : List (State × Choice)}
  {pc pc' : HandlerPc}

theorem Trail.add (h : Trail fb pc steps pc') (hpc : s.handler = pc')
    (hready : s.handler ≠ .ready) (hs : s.logicStep fb choice = some t) :
    Trail fb pc (steps ++ [(s, choice)]) t.handler := by
  induction h with
  | nil pc =>
    subst hpc
    exact .cons hready hs (.nil _)
  | cons hready' hs' _ ih => exact .cons hready' hs' (ih hpc)

/-- A trail that is not at its end goes on with a step. -/
theorem Trail.next (h : Trail fb pc steps .ready) (hpc : pc ≠ .ready) :
    ∃ s choice t rest, steps = (s, choice) :: rest ∧ s.handler = pc ∧
      s.logicStep fb choice = some t ∧ Trail fb t.handler rest .ready := by
  cases h with
  | nil => exact absurd rfl hpc
  | cons _ hs hrest => exact ⟨_, _, _, _, rfl, rfl, hs, hrest⟩

theorem Trail.finished (h : Trail fb .ready steps pc) : steps = [] := by
  generalize hstart : HandlerPc.ready = start at h
  cases h with
  | nil => rfl
  | cons hready => exact absurd hstart.symm hready

theorem LogicStep.ahead (h : LogicStep s choice t) (hready : s.handler ≠ .ready) :
    t.handler.ahead < s.handler.ahead := by
  cases h with
  | skip hh _ | reject hh _ _ | rejectClosed hh _ _ | startJoin _ _ hh _ | startLeave _ hh _
  | startChat _ _ hh _ => exact absurd hh hready
  | joinRoom hh | joinNoSession hh | joinSession hh _ | joinExists hh _ | joinUser hh _ _
  | joinEnter hh _ | joinReply hh _ | leaveNobody hh _ | leaveFind hh _ | leaveFault hh _
  | leaveMissing hh _ _ | leaveRoom hh _ _ _ | leaveReply hh _ | leaveRemove hh | chatNobody hh _
  | chatFind hh _ | chatNoRoom hh | chatSend hh _ | reset hh =>
    rw [hh]
    simp [HandlerPc.ahead]

theorem Trail.ahead_le (h : Trail fb pc steps pc') :
    ∀ step ∈ steps, step.1.handler.ahead ≤ pc.ahead := by
  induction h with
  | nil => exact fun step hstep => absurd hstep List.not_mem_nil
  | cons hready hs _ ih =>
    intro step hstep
    have hlt := (logicStep_inv hs).ahead hready
    rcases List.mem_cons.mp hstep with rfl | hstep
    · exact Nat.le_refl _
    · have hle := ih step hstep
      omega

/-- A handler is at most once at a place. -/
theorem Trail.same_place {a b : State × Choice} (h : Trail fb pc steps pc') (ha : a ∈ steps)
    (hb : b ∈ steps) (heq : a.1.handler.ahead = b.1.handler.ahead) : a = b := by
  induction h with
  | nil => exact absurd ha List.not_mem_nil
  | cons hready hs hrest ih =>
    have hlt := (logicStep_inv hs).ahead hready
    rcases List.mem_cons.mp ha with rfl | ha
    · rcases List.mem_cons.mp hb with rfl | hb
      · rfl
      · have hle := hrest.ahead_le b hb
        exact absurd heq (Nat.ne_of_gt (Nat.lt_of_le_of_lt hle hlt))
    · rcases List.mem_cons.mp hb with rfl | hb
      · have hle := hrest.ahead_le a ha
        exact absurd heq (Nat.ne_of_lt (Nat.lt_of_le_of_lt hle hlt))
      · exact ih ha hb

/-- A handler goes on with its request until it comes to an end. -/
theorem LogicStep.request (h : LogicStep s choice t) (hready : s.handler ≠ .ready) :
    t.handler = .ready ∨ t.handler = .fault ∨ t.handler.request = s.handler.request := by
  cases h with
  | skip hh _ | reject hh _ _ | rejectClosed hh _ _ | startJoin _ _ hh _ | startLeave _ hh _
  | startChat _ _ hh _ => exact absurd hh hready
  | joinNoSession _ | joinExists _ _ | joinReply _ _ | leaveNobody _ _ | leaveRemove _
  | chatNobody _ _ | chatNoRoom _ | chatSend _ _ | reset _ => exact .inl rfl
  | leaveFault _ _ => exact .inr (.inl rfl)
  | joinRoom hh | joinSession hh _ | joinUser hh _ _ | joinEnter hh _ | leaveFind hh _
  | leaveMissing hh _ _ | leaveRoom hh _ _ _ | leaveReply hh _ | chatFind hh _ =>
    rw [hh]
    exact .inr (.inr rfl)

theorem Trail.request (h : Trail fb pc steps .ready) :
    ∀ step ∈ steps, step.1.handler.request = pc.request := by
  generalize hlast : HandlerPc.ready = last at h
  induction h with
  | nil => exact fun step hstep => absurd hstep List.not_mem_nil
  | @cons s t choice steps last hready hs hrest ih =>
    subst hlast
    intro step hstep
    rcases List.mem_cons.mp hstep with rfl | hstep
    · rfl
    · rcases (logicStep_inv hs).request hready with ht | ht | ht
      · rw [ht] at hrest
        rw [hrest.finished] at hstep
        exact absurd hstep List.not_mem_nil
      · rw [ht] at hrest
        obtain ⟨f, choiceF, t', rest, -, hf, hs', -⟩ := hrest.next (by simp)
        simp [State.logicStep, hf] at hs'
      · exact (ih rfl step hstep).trans ht

/-- A handler begins with one of three first steps. -/
theorem dispatch_starts (hready : s.handler = .ready) (hs : s.logicStep fb choice = some t) :
    t.handler.request = none ∨ (∃ call username, t.handler = .joinRoom call username) ∨
      (∃ call, t.handler = .leaveFind call) ∨
      ∃ call message, t.handler = .chatFind call message := by
  obtain ⟨cmd, batch, -, rfl | ⟨pc, rfl | rfl, rfl⟩ | ⟨pc, sequence, rfl, hpc⟩⟩ :=
    (logicStep_inv hs).dispatched hready
  · exact .inl (by rw [hready]; rfl)
  · exact .inl rfl
  · exact .inl rfl
  · rcases hpc with ⟨username, rfl⟩ | rfl | ⟨message, rfl⟩
    · exact .inr (.inl ⟨_, _, rfl⟩)
    · exact .inr (.inr (.inl ⟨_, rfl⟩))
    · exact .inr (.inr (.inr ⟨_, _, rfl⟩))

/-- A finished handling, seen from one of its steps: the dispatch, and the trail of the handler of
the same request. -/
theorem Handling.Follows.from_step {h : Handling} (hf : h.Follows fb .ready)
    (hstep : (s, choice) ∈ h.steps) (hrequest : s.handler.request ≠ none) :
    ∃ d choiceD pc rest, h.steps = (d, choiceD) :: rest ∧ d.handler = .ready ∧ pc.Asked fb ∧
      pc.request = s.handler.request ∧ Trail fb pc rest .ready ∧ (s, choice) ∈ rest ∧
      ((∃ call username, pc = .joinRoom call username) ∨ (∃ call, pc = .leaveFind call) ∨
        ∃ call message, pc = .chatFind call message) := by
  obtain ⟨d, choiceD, t, rest, hsteps, hd, hs, -, htrail⟩ := hf
  have hrest : (s, choice) ∈ rest := by
    rw [hsteps] at hstep
    rcases List.mem_cons.mp hstep with heq | hmem
    · cases heq
      exact absurd (by rw [hd]; rfl) hrequest
    · exact hmem
  have hasked : d.handler.Asked fb := by
    rw [hd]
    trivial
  have hsame : s.handler.request = t.handler.request := htrail.request _ hrest
  refine ⟨d, choiceD, t.handler, rest, hsteps, hd, hasked.logic hs, hsame.symm, htrail, hrest, ?_⟩
  exact (dispatch_starts hd hs).resolve_left (hsame ▸ hrequest)

end

/-! ## The three handlers -/

section
variable {fb : FlatBuffers} {call : Call} {steps : List (State × Choice)}

/-- `ChatMessageHandler` looks the user up, and broadcasts. -/
theorem Trail.chat {message : Text} (h : Trail fb (.chatFind call message) steps .ready) :
    ∃ s choice rest, steps = (s, choice) :: rest ∧ s.handler = .chatFind call message ∧
      (s.users.getUserByClient s.pool call.cmd.client choice.order = none → rest = []) ∧
      ∀ u, s.users.getUserByClient s.pool call.cmd.client choice.order = some u →
        ∃ m choice', rest = [(m, choice')] ∧ m.handler = .chatSend call message u := by
  obtain ⟨s, choice, t, rest, rfl, hh, hs, hrest⟩ := h.next (by simp)
  refine ⟨s, choice, rest, rfl, hh, fun hnone => ?_, fun u hu => ?_⟩
  · simp only [State.logicStep, hh, hnone, Option.some.injEq] at hs
    subst hs
    exact hrest.finished
  simp only [State.logicStep, hh, hu, Option.some.injEq] at hs
  subst hs
  obtain ⟨m, choice', t', rest', rfl, hh', hs', hrest'⟩ := hrest.next (by simp)
  have hready : t'.handler = .ready := by
    cases hroom : m.rooms.getRoom u.roomId with
    | none =>
      simp only [State.logicStep, hh', hroom, Option.some.injEq] at hs'
      rw [← hs']
    | some room =>
      simp only [State.logicStep, hh', hroom, Option.some.injEq] at hs'
      rw [← hs']
  rw [hready] at hrest'
  rw [hrest'.finished]
  exact ⟨m, choice', rfl, hh'⟩

/-- `LeaveRoomHandler` looks the user up, lets it leave its room, answers and removes it. -/
theorem Trail.leave (h : Trail fb (.leaveFind call) steps .ready) :
    ∃ s choice rest, steps = (s, choice) :: rest ∧ s.handler = .leaveFind call ∧
      (s.users.getUserByClient s.pool call.cmd.client choice.order = none → rest = []) ∧
      ∀ u, s.users.getUserByClient s.pool call.cmd.client choice.order = some u →
        ∃ m choice' a choiceA b choiceB, rest = [(m, choice'), (a, choiceA), (b, choiceB)] ∧
          m.handler = .leaveRoom call u ∧ a.handler = .leaveReply call u ∧
          b.handler = .leaveRemove call u := by
  obtain ⟨s, choice, t, rest, rfl, hh, hs, hrest⟩ := h.next (by simp)
  refine ⟨s, choice, rest, rfl, hh, fun hnone => ?_, fun u hu => ?_⟩
  · simp only [State.logicStep, hh, hnone, Option.some.injEq] at hs
    subst hs
    exact hrest.finished
  simp only [State.logicStep, hh, hu, Option.some.injEq] at hs
  subst hs
  obtain ⟨m, choice', t', rest', rfl, hh', hs', hrest'⟩ := hrest.next (by simp)
  have hreply : t'.handler = .leaveReply call u := by
    cases hroom : m.rooms.getRoom u.roomId with
    | none =>
      -- a fault, from which the handler does not come back
      simp only [State.logicStep, hh', hroom, Option.some.injEq] at hs'
      subst hs'
      obtain ⟨f, choiceF, t'', rest'', -, hfault, hs'', -⟩ := hrest'.next (by simp)
      simp [State.logicStep, hfault] at hs''
    | some room =>
      cases hleave : (m.rooms.roomAt room).leave u.id with
      | none =>
        simp only [State.logicStep, hh', hroom, hleave, Option.some.injEq] at hs'
        rw [← hs']
      | some result =>
        simp only [State.logicStep, hh', hroom, hleave, Option.some.injEq] at hs'
        rw [← hs']
  rw [hreply] at hrest'
  obtain ⟨a, choiceA, ta, restA, rfl, ha, hsa, hrestA⟩ := hrest'.next (by simp)
  simp only [State.logicStep, ha, Option.some.injEq] at hsa
  subst hsa
  obtain ⟨b, choiceB, tb, restB, rfl, hb, hsb, hrestB⟩ := hrestA.next (by simp)
  simp only [State.logicStep, hb, Option.some.injEq] at hsb
  subst hsb
  rw [hrestB.finished]
  exact ⟨m, choice', a, choiceA, b, choiceB, rfl, hh', ha, hb⟩

/-- `JoinRoomHandler` chooses a room, looks for a session and for a user, and if there is a session
and no user it makes one, lets it enter the room and answers. -/
theorem Trail.join {username : Text} (h : Trail fb (.joinRoom call username) steps .ready) :
    ∃ a choiceA b choiceB room rest, steps = (a, choiceA) :: (b, choiceB) :: rest ∧
      a.handler = .joinRoom call username ∧ b.handler = .joinSession call username room ∧
      room = a.rooms.getOrCreateAvailableRoom.2 ∧
      (rest = [] ∨ ∃ s choice session rest', rest = (s, choice) :: rest' ∧
        s.handler = .joinUser call username room session ∧
        (∀ u, s.users.getUserByClient s.pool call.cmd.client choice.order = some u → rest' = []) ∧
        (s.users.getUserByClient s.pool call.cmd.client choice.order = none →
          ∃ m choice' c choiceC, rest' = [(m, choice'), (c, choiceC)] ∧
            m.handler = .joinEnter call room
              (s.users.makeUser session username (s.rooms.roomAt room).id call.cmd.conn) ∧
            c.handler = .joinReply call
              (s.users.makeUser session username (s.rooms.roomAt room).id call.cmd.conn))) := by
  obtain ⟨a, choiceA, ta, restA, rfl, ha, hsa, hrestA⟩ := h.next (by simp)
  simp only [State.logicStep, ha, Option.some.injEq] at hsa
  subst hsa
  obtain ⟨b, choiceB, tb, restB, rfl, hb, hsb, hrestB⟩ := hrestA.next (by simp)
  refine ⟨a, choiceA, b, choiceB, _, restB, rfl, ha, hb, rfl, ?_⟩
  cases hg : b.sessions.getSessionByClient b.pool call.cmd.client choiceB.order with
  | none =>
    simp only [State.logicStep, hb, hg, Option.some.injEq] at hsb
    subst hsb
    exact .inl hrestB.finished
  | some session =>
    simp only [State.logicStep, hb, hg, Option.some.injEq] at hsb
    subst hsb
    obtain ⟨s, choice, t, rest, rfl, hh, hs, hrest⟩ := hrestB.next (by simp)
    refine .inr ⟨s, choice, session, rest, rfl, hh, fun u hu => ?_, fun hnone => ?_⟩
    · simp only [State.logicStep, hh, hu, Option.some.injEq] at hs
      subst hs
      exact hrest.finished
    simp only [State.logicStep, hh, hnone, Option.some.injEq] at hs
    subst hs
    obtain ⟨m, choice', t', rest', rfl, hm, hsm, hrest'⟩ := hrest.next (by simp)
    simp only [State.logicStep, hm, Option.some.injEq] at hsm
    subst hsm
    obtain ⟨c, choiceC, tc, restC, rfl, hc, hsc, hrestC⟩ := hrest'.next (by simp)
    simp only [State.logicStep, hc, Option.some.injEq] at hsc
    subst hsc
    rw [hrestC.finished]
    exact ⟨m, choice', c, choiceC, rfl, hm, hc⟩

end

/-! ## Runs -/

/-- What holds of a run: the handling has followed its handler, and the states it went through
had their users apart. -/
structure Tracked (fb : FlatBuffers) (p : State × Handling × Roster) : Prop where
  known : p.2.2.created ≤ 2 ^ 64 → Known p.1 p.2.2.created
  passed : ∀ step ∈ p.2.1.steps, p.2.2.created ≤ 2 ^ 64 →
    Known step.1 p.2.2.created ∧ ∃ roster, Distinct step.1 roster
  follows : (p.2.1 = ⟨none, []⟩ ∧ p.1.handler = .ready) ∨ p.2.1.Follows fb p.1.handler

section
variable {cfg : Config} {fb : FlatBuffers} {p q : State × Handling × Roster} {l : RoomLabel}

theorem reach_roster (h : (eventServer cfg fb).Reach System.always p) :
    (rosterServer cfg fb).Reach System.always (p.1, p.2.2) := by
  induction h with
  | start => exact .start
  | next _ _ hs ih =>
    obtain ⟨hstep, hnote⟩ := System.recording_step hs
    refine .next ih trivial (Option.map_eq_some_iff.mpr ⟨_, hstep, ?_⟩)
    rw [hnote]

theorem Tracked.logic {choice : Choice} (h : Tracked fb p) (hminted : Minted p.1 p.2.2)
    (hs : p.1.logicStep fb choice = some q.1)
    (hhandling : q.2.1 = Handling.note p.1 (.server (.logic choice)) q.1 p.2.1)
    (hroster : q.2.2 = p.2.2.handled p.1 q.1) : Tracked fb q := by
  obtain ⟨hgrow, -⟩ := p.2.2.created_handled p.1 q.1
  rw [← hroster] at hgrow
  have hhere : q.2.2.created ≤ 2 ^ 64 →
      Known p.1 q.2.2.created ∧ ∃ roster, Distinct p.1 roster := by
    intro hle
    have hle' := Nat.le_trans hgrow hle
    exact ⟨(h.known hle').of_knows hgrow fun _ hv => hv, _, hminted.distinct hle'⟩
  have hknown : q.2.2.created ≤ 2 ^ 64 → Known q.1 q.2.2.created := by
    rw [hroster]
    exact Known.logic hminted h.known (logicStep_inv hs)
  by_cases hready : p.1.handler = .ready
  · have he : q.2.1 = ⟨q.1.handler.request, [(p.1, choice)]⟩ := by
      rw [hhandling, Handling.note, if_pos (HandlerPc.isReady_iff.mpr hready)]
    refine ⟨hknown, ?_, .inr ?_⟩
    · rw [he]
      intro step hstep
      rw [List.mem_singleton.mp hstep]
      exact hhere
    · rw [he]
      exact ⟨p.1, choice, q.1, [], rfl, hready, hs, rfl, .nil _⟩
  · have he : q.2.1 = p.2.1.add p.1 choice := by
      rw [hhandling, Handling.note, if_neg fun hr => hready (HandlerPc.isReady_iff.mp hr)]
    refine ⟨hknown, ?_, .inr ?_⟩
    · rw [he]
      intro step hstep
      rcases List.mem_append.mp hstep with hstep | hstep
      · intro hle
        obtain ⟨hold, hdistinct⟩ := h.passed step hstep (Nat.le_trans hgrow hle)
        exact ⟨hold.of_knows hgrow fun _ hv => hv, hdistinct⟩
      · rw [List.mem_singleton.mp hstep]
        exact hhere
    · rw [he]
      rcases h.follows with ⟨-, hr⟩ | ⟨s, c, t, rest, hsteps, hr, hs', hreq, htrail⟩
      · exact absurd hr hready
      · exact ⟨s, c, t, rest ++ [(p.1, choice)], by rw [Handling.add, hsteps]; rfl, hr, hs', hreq,
          htrail.add rfl hready hs⟩

theorem Tracked.step (h : Tracked fb p) (hminted : Minted p.1 p.2.2)
    (hs : (eventServer cfg fb).step p l = some q) : Tracked fb q := by
  obtain ⟨hstep, hnote⟩ := System.recording_step hs
  have hhandling : q.2.1 = Handling.note p.1 l q.1 p.2.1 := by rw [hnote]
  have hroster : q.2.2 = Roster.note p.1 l q.1 p.2.2 := by rw [hnote]
  cases roomStep_registry hstep with
  | @logic choice hl hlogic =>
    subst hl
    exact h.logic hminted hstep hhandling hroster
  | thin keep hl husers hhandler hrooms =>
    have hsame : q.2.1 = p.2.1 ∧ q.2.2 = p.2.2 := by
      cases l with
      | kickRoom w room => exact ⟨hhandling, hroster⟩
      | kicked w => exact ⟨hhandling, hroster⟩
      | server l =>
        cases l with
        | logic choice => exact absurd rfl (hl choice)
        | _ => exact ⟨hhandling, hroster⟩
    refine ⟨?_, ?_, ?_⟩
    · rw [hsame.2]
      exact fun hle => (h.known hle).thin husers hhandler hrooms
    · rw [hsame.1, hsame.2]
      exact h.passed
    · rw [hsame.1, hhandler]
      exact h.follows

theorem tracked_of_reach (h : (eventServer cfg fb).Reach System.always p) : Tracked fb p := by
  refine h.invariant (I := fun p => Tracked fb p) ⟨fun _ => ⟨?_, ?_⟩, ?_, .inl ⟨rfl, rfl⟩⟩ ?_
  · rintro u (hu | ⟨i, hu⟩ | hu)
    · exact absurd hu List.not_mem_nil
    · exact absurd hu (by simp [eventServer, System.recording, roomServer, roomAt_new])
    · cases hu
  · rintro u v (hu | ⟨i, hu⟩ | hu)
    · exact absurd hu List.not_mem_nil
    · exact absurd hu (by simp [eventServer, System.recording, roomServer, roomAt_new])
    · cases hu
  · exact fun step hstep => absurd hstep List.not_mem_nil
  · intro p q l hr hi _ hs
    exact hi.step (roster_of_reach (reach_roster hr)).2 hs

end

end Highp.Chat

import Highp.Chat.Membership
import Highp.Chat.Posts

/-! What the members of a room are told about each other. `Room::Join` and `Room::Leave` announce,
under the lock of the room; a kick does not. -/

namespace Highp.Chat
open Highp.Lib Highp.Network

/-! ## What a member has been told -/

/-- A member of a room, with the broadcasts that were posted to it since it joined. -/
structure Seat where
  user : User
  heard : List ServerPacket
  deriving DecidableEq

def hearing (ids : List Nat) : ServerPacket → List Nat
  | .userJoinedBroadcast _ userId _ => ids ++ [userId]
  | .userLeftBroadcast userId _ => ids.filter fun id => id != userId
  | _ => ids

/-- The users announced by `UserJoinedBroadcast`, minus those announced by `UserLeftBroadcast`
afterwards. -/
def announced (heard : List ServerPacket) : List Nat := heard.foldl hearing []

def tellsOf (userId : Nat) : ServerPacket → Bool
  | .userJoinedBroadcast _ id _ => id == userId
  | _ => false

/-- The member was told at some time that a user has joined. -/
def Seat.toldOf (seat : Seat) (userId : Nat) : Bool := seat.heard.any (tellsOf userId)

/-- The seats of every room, in the order of its users. -/
abbrev Seating := Nat → List Seat

/-- One packet to those that `whom` names, like `State.sendAll`. -/
def tell (fb : FlatBuffers) (s : State) (packet : ServerPacket) (refused : List Nat)
    (whom : User → Bool) : Nat → List Seat → List Seat
  | _, [] => []
  | k, seat :: seats =>
    if whom seat.user then
      (if s.posts fb packet seat.user && !refused.contains k then
        { seat with heard := seat.heard ++ [packet] } else seat) ::
        tell fb s packet refused whom (k + 1) seats
    else seat :: tell fb s packet refused whom k seats

/-- The users that a step kicks out of a room. -/
def State.kicks (s : State) (l : RoomLabel) (room : Nat) (user : User) : Bool :=
  match l with
  | .server (.worker w _) =>
    match s.workers[w]? with
    | some (.kickDisconnected conn) => user.isSameClient s.pool conn.client
    | _ => false
  | .kickRoom w i =>
    match s.workers[w]? with
    | some (.kickDisconnected conn) => room == i && user.isSameClient s.pool conn.client
    | _ => false
  | _ => false

/-- Everybody but the user itself. -/
def notUser (userId : Nat) (user : User) : Bool := user.id != userId

def Seating.handled (fb : FlatBuffers) (s : State) (choice : Choice) (seats : Seating) : Seating :=
  match s.handler with
  | .joinEnter _ room user =>
    Function.update seats room
      (tell fb s (.userJoinedBroadcast ((s.rooms.roomAt room).id % 2 ^ 32) user.id user.username)
        choice.refused (fun _ => true) 0 (seats room) ++ [⟨user, []⟩])
  | .leaveRoom _ user =>
    match s.rooms.getRoom user.roomId with
    | none => seats
    | some room =>
      match (s.rooms.roomAt room).leave user.id with
      | none => seats
      | some (found, _, _) =>
        Function.update seats room
          (tell fb s (.userLeftBroadcast user.id found.username) choice.refused (notUser user.id) 0
            ((seats room).eraseP fun seat => seat.user.id == user.id))
  | _ => seats

def Seating.note (fb : FlatBuffers) (s : State) (l : RoomLabel) (_ : State) (seats : Seating) :
    Seating :=
  match l with
  | .server (.logic choice) => seats.handled fb s choice
  | l => fun room => (seats room).filter fun seat => !s.kicks l room seat.user

def seatedServer (cfg : Config) (fb : FlatBuffers) : System (State × Seating) RoomLabel :=
  (roomServer cfg fb).recording (fun _ => []) (Seating.note fb)

/-! ## Telling -/

section
variable {fb : FlatBuffers} {s : State} {packet : ServerPacket} {refused : List Nat}
  {whom : User → Bool}

theorem tell_users (k : Nat) (seats : List Seat) :
    (tell fb s packet refused whom k seats).map Seat.user = seats.map Seat.user := by
  induction seats generalizing k with
  | nil => rfl
  | cons seat seats ih =>
    rw [tell]
    split
    · split
      · simp [ih]
      · simp [ih]
    · simp [ih]

/-- A call of `PostSend` that has succeeded. -/
def Event.delivered : Event → Bool
  | .posted _ _ accepted => accepted
  | _ => false

/-- What is posted and accepted is what the seats hear, in the same order. -/
theorem tell_postings (k : Nat) (seats : List Seat) :
    ((seats.zip (tell fb s packet refused whom k seats)).filter fun p => p.1 != p.2).map
        (fun p => Event.posted (s.current p.1.user.session.tcpClient) packet true) =
      (s.postings fb packet refused k ((seats.map Seat.user).filter whom)).filter
        Event.delivered := by
  induction seats generalizing k with
  | nil => rfl
  | cons seat seats ih =>
    have hne : (seat != { seat with heard := seat.heard ++ [packet] }) = true := by
      refine bne_iff_ne.mpr fun he => ?_
      have hlen := congrArg (fun x => x.heard.length) he
      simp at hlen
    rw [tell]
    cases hw : whom seat.user with
    | false => simp [hw, ih]
    | true =>
      cases hp : s.posts fb packet seat.user with
      | false => simp [hw, hp, ih, State.postings]
      | true =>
        by_cases hr : k ∈ refused
        · simp [hw, hp, hr, ih, State.postings, Event.delivered]
        · have hd : Event.delivered
              (.posted (s.current seat.user.session.tcpClient) packet true) = true := rfl
          simp [hw, hp, hr, ih, State.postings, hne, hd]

/-- What becomes of a seat: it hears the packet, or else it is not addressed, or the packet is
not posted to it. -/
theorem mem_tell {seat : Seat} {k : Nat} {seats : List Seat}
    (h : seat ∈ tell fb s packet refused whom k seats) :
    ∃ old ∈ seats, seat.user = old.user ∧
      ((whom old.user = true ∧ seat.heard = old.heard ++ [packet]) ∨
       (seat.heard = old.heard ∧ (whom old.user = true →
          ∃ i, (seats.filter fun x => whom x.user)[i]? = some old ∧
            (s.posts fb packet old.user = false ∨ k + i ∈ refused)))) := by
  induction seats generalizing k with
  | nil => simp [tell] at h
  | cons first seats ih =>
    rw [tell] at h
    cases hw : whom first.user with
    | false =>
      rw [hw, if_neg (by simp), List.mem_cons] at h
      rcases h with rfl | h
      · exact ⟨seat, List.mem_cons_self, rfl, Or.inr ⟨rfl, by simp [hw]⟩⟩
      · obtain ⟨old, hold, huser, hcase⟩ := ih h
        refine ⟨old, List.mem_cons_of_mem _ hold, huser, ?_⟩
        simpa [hw] using hcase
    | true =>
      rw [hw, if_pos rfl, List.mem_cons] at h
      rcases h with rfl | h
      · refine ⟨first, List.mem_cons_self, by split <;> rfl, ?_⟩
        cases hreach : s.posts fb packet first.user && !refused.contains k with
        | true => exact Or.inl ⟨hw, by simp⟩
        | false =>
          refine Or.inr ⟨by simp, fun _ => ⟨0, by simp [hw], ?_⟩⟩
          rw [Bool.and_eq_false_iff] at hreach
          simpa using hreach
      · obtain ⟨old, hold, huser, hcase⟩ := ih h
        refine ⟨old, List.mem_cons_of_mem _ hold, huser, hcase.imp_right ?_⟩
        rintro ⟨hheard, hmiss⟩
        refine ⟨hheard, fun hwhom => ?_⟩
        obtain ⟨i, hi, hrefused⟩ := hmiss hwhom
        refine ⟨i + 1, by simpa [hw] using hi, hrefused.imp_right fun hk => ?_⟩
        rwa [Nat.add_right_comm, Nat.add_assoc] at hk

end

/-! ## Announcements -/

section
variable {heard : List ServerPacket} {packet : ServerPacket}

theorem announced_append (heard : List ServerPacket) (packet : ServerPacket) :
    announced (heard ++ [packet]) = hearing (announced heard) packet := by
  simp [announced, List.foldl_append]

/-- Who is announced has been told of. -/
theorem toldOf_of_announced {seat : Seat} {id : Nat} (h : id ∈ announced seat.heard) :
    seat.toldOf id = true := by
  obtain ⟨user, heard⟩ := seat
  simp only [Seat.toldOf]
  induction heard using List.reverseRecOn with
  | nil => simp [announced] at h
  | append_singleton heard packet ih =>
    rw [announced_append] at h
    rw [List.any_append, Bool.or_eq_true]
    cases packet with
    | userJoinedBroadcast roomId userId username =>
      rcases List.mem_append.mp h with h | h
      · exact Or.inl (ih h)
      · exact Or.inr (by simp [tellsOf, List.mem_singleton.mp h])
    | userLeftBroadcast userId username => exact Or.inl (ih (List.mem_filter.mp h).1)
    | joinedRoomResponse sequence => exact Or.inl (ih h)
    | leftRoomResponse sequence => exact Or.inl (ih h)
    | chatMessageBroadcast senderId username message timestamp sequence => exact Or.inl (ih h)

end

/-! ## The condition -/

/-- Nobody is kicked out of a room of whose coming a member that stays has been told; and when a
user leaves, everyone else who was told of its coming can be told of its going: it has a
connection, the packet fits, `WSASend` takes it. -/
def Announces (fb : FlatBuffers) (p : State × Seating) (l : RoomLabel) : Prop :=
  (∀ room, ∀ gone ∈ p.2 room, ∀ stay ∈ p.2 room, p.1.kicks l room gone.user = true →
    p.1.kicks l room stay.user = false → stay.toldOf gone.user.id = false) ∧
  ∀ choice call user room found others left, l = .server (.logic choice) →
    p.1.handler = .leaveRoom call user → p.1.rooms.getRoom user.roomId = some room →
    (p.1.rooms.roomAt room).leave user.id = some (found, others, left) →
    ∀ i seat, (((p.2 room).eraseP fun seat => seat.user.id == user.id).filter
        fun seat => notUser user.id seat.user)[i]? = some seat → seat.toldOf user.id = true →
      p.1.posts fb (.userLeftBroadcast user.id found.username) seat.user = true ∧
        i ∉ choice.refused

/-- The seats are those of the users in the rooms. -/
def Seating.Seats (seats : Seating) (rooms : RoomManager) : Prop :=
  ∀ i, (seats i).map Seat.user = (rooms.roomAt i).users

/-- Whom a member has been told of, and not of their leaving, is listed. -/
def Seating.Present (seats : Seating) (rooms : RoomManager) : Prop :=
  ∀ i, ∀ seat ∈ seats i, ∀ id ∈ announced seat.heard, ∃ u ∈ (rooms.roomAt i).users, u.id = id

section
variable {cfg : Config} {fb : FlatBuffers} {s t : State} {seats : Seating}

theorem step_kicks {l : Label} (h : s.step cfg fb l = some t) (hl : ∀ choice, l ≠ .logic choice) :
    t.rooms = s.rooms.thin fun i u => !s.kicks (.server l) i u := by
  have hsame : (s.rooms.thin fun _ _ => !false) = s.rooms := s.rooms.thin_true
  cases l with
  | accepted w acceptSocket =>
    obtain ⟨-, -, rfl⟩ := step_accepted h
    exact hsame.symm
  | arrive conn data =>
    obtain ⟨-, -, -, rfl⟩ := step_arrive h
    exact hsame.symm
  | recvDone w conn result =>
    obtain ⟨-, -, rfl⟩ := step_recvDone h
    exact hsame.symm
  | sendDone w conn result =>
    obtain ⟨-, -, rfl⟩ := step_sendDone h
    exact hsame.symm
  | worker w ok =>
    obtain ⟨pc, u, pc', hpc, hw, rfl⟩ := step_worker h
    cases hw with
    | kick =>
      simp only [State.kicks, hpc]
      exact RoomManager.kickDisconnected_eq_thin _ _ _
    | _ =>
      simp only [State.kicks, hpc]
      exact hsame.symm
  | tick =>
    obtain ⟨-, -, rfl⟩ := step_tick h
    exact hsame.symm
  | logic choice => exact absurd rfl (hl choice)

/-- Only a kick takes users out of rooms outside the handlers. -/
theorem roomStep_kicks {l : RoomLabel} (h : s.roomStep cfg fb l = some t)
    (hl : ∀ choice, l ≠ .server (.logic choice)) :
    t.rooms = s.rooms.thin fun i u => !s.kicks l i u := by
  cases l with
  | server l => exact step_kicks h fun choice he => hl choice (by rw [he])
  | kickRoom w room =>
    obtain ⟨conn, hpc, rfl⟩ := roomStep_kickRoom h
    simp only [State.kicks, hpc, RoomManager.kickRoom_eq_thin]
    congr 1
    funext i u
    simp [bne]
  | kicked w =>
    obtain ⟨conn, -, rfl⟩ := roomStep_kicked h
    exact s.rooms.thin_true.symm

/-! ## The seats -/

theorem Seating.Seats.update {rooms : RoomManager} {room : Room} {i : Nat} {list : List Seat}
    (h : seats.Seats rooms) (hi : i < rooms.rooms.length)
    (hlist : list.map Seat.user = room.users) :
    Seating.Seats (Function.update seats i list) (rooms.setRoom i room) := by
  intro j
  rw [roomAt_setRoom rooms i j room hi]
  by_cases hij : i = j
  · subst hij
    simpa using hlist
  · rw [Function.update_of_ne (Ne.symm hij), if_neg hij]
    exact h j

theorem leave_users {room left : Room} {userId : Nat} {found : User} {others : List User}
    (h : room.leave userId = some (found, others, left)) :
    left.users = room.users.eraseP fun u => u.id == userId := by
  unfold Room.leave at h
  split at h
  · simp at h
  · simp only [Option.some.injEq, Prod.mk.injEq] at h
    obtain ⟨-, -, rfl⟩ := h
    rfl

theorem Seating.Seats.eraseP {rooms : RoomManager} (h : seats.Seats rooms) (room userId : Nat) :
    ((seats room).eraseP fun seat => seat.user.id == userId).map Seat.user =
      (rooms.roomAt room).users.eraseP fun u => u.id == userId := by
  rw [← h room, List.eraseP_map]
  rfl

/-- The handlers of joining and leaving move users; all other steps leave everyone in place. -/
theorem LogicStep.moves {choice : Choice} (seats : Seating) (hs : LogicStep s choice t) :
    (∃ call room user, s.handler = .joinEnter call room user ∧
      t.rooms = s.rooms.setRoom room ((s.rooms.roomAt room).join user).2) ∨
    (∃ call user room found others left, s.handler = .leaveRoom call user ∧
      s.rooms.getRoom user.roomId = some room ∧
      (s.rooms.roomAt room).leave user.id = some (found, others, left) ∧
      t.rooms = s.rooms.setRoom room left) ∨
    seats.handled fb s choice = seats ∧
      ∀ i, (t.rooms.roomAt i).users = (s.rooms.roomAt i).users := by
  cases hs with
  | joinEnter hpc _ => exact .inl ⟨_, _, _, hpc, rfl⟩
  | leaveRoom hpc hg hl _ => exact .inr (.inl ⟨_, _, _, _, _, _, hpc, hg, hl, rfl⟩)
  | joinRoom hpc =>
    exact .inr (.inr ⟨by simp only [Seating.handled, hpc], fun i => getOrCreate_users s.rooms i⟩)
  | leaveFault hpc hg =>
    exact .inr (.inr ⟨by simp only [Seating.handled, hpc, hg], fun _ => rfl⟩)
  | leaveMissing hpc hg hl =>
    exact .inr (.inr ⟨by simp only [Seating.handled, hpc, hg, hl], fun _ => rfl⟩)
  | skip hpc _ | startJoin _ _ hpc _ | startLeave _ hpc _ | startChat _ _ hpc _ | reject hpc _ _
  | rejectClosed hpc _ _ | reset hpc
  | joinNoSession hpc | joinSession hpc _ | joinExists hpc _ | joinUser hpc _ _ | joinReply hpc _
  | leaveNobody hpc _ | leaveFind hpc _ | leaveReply hpc _ | leaveRemove hpc | chatNobody hpc _
  | chatFind hpc _ | chatNoRoom hpc | chatSend hpc _ =>
    exact .inr (.inr ⟨by simp only [Seating.handled, hpc], fun _ => rfl⟩)

theorem Seating.Seats.logic {r : Roster} {choice : Choice} (hh : Housed s r)
    (h : seats.Seats s.rooms) (hs : LogicStep s choice t) :
    (seats.handled fb s choice).Seats t.rooms := by
  rcases hs.moves seats with ⟨call, room, user, hpc, hrooms⟩ |
    ⟨call, user, room, found, others, left, hpc, hg, hl, hrooms⟩ | ⟨hsame, husers⟩
  · rw [hrooms]
    simp only [Seating.handled, hpc]
    refine h.update (hh.place _ (by rw [hpc]; rfl)) ?_
    rw [List.map_append, tell_users, h]
    rfl
  · rw [hrooms]
    simp only [Seating.handled, hpc, hg, hl]
    refine h.update (getRoom_spec hg).1 ?_
    rw [tell_users, h.eraseP, leave_users hl]
  · rw [hsame]
    intro i
    rw [husers]
    exact h i

theorem Seating.Seats.thin (h : seats.Seats s.rooms) {l : RoomLabel}
    (hrooms : t.rooms = s.rooms.thin fun i u => !s.kicks l i u) :
    Seating.Seats (fun room => (seats room).filter fun seat => !s.kicks l room seat.user)
      t.rooms := by
  intro i
  rw [hrooms, RoomManager.roomAt_thin, ← h i, List.filter_map]
  rfl

/-! ## The invariant -/

/-- A room is replaced, and what its members know is listed in the new one. -/
theorem Seating.Present.update {rooms : RoomManager} {room : Room} {i : Nat} {list : List Seat}
    (h : seats.Present rooms) (hi : i < rooms.rooms.length)
    (hlist : ∀ seat ∈ list, ∀ id ∈ announced seat.heard, ∃ u ∈ room.users, u.id = id) :
    Seating.Present (Function.update seats i list) (rooms.setRoom i room) := by
  intro j seat hseat
  rw [roomAt_setRoom rooms i j room hi]
  by_cases hij : i = j
  · subst hij
    rw [Function.update_self] at hseat
    rw [if_pos rfl]
    exact hlist seat hseat
  · rw [Function.update_of_ne (Ne.symm hij)] at hseat
    rw [if_neg hij]
    exact h j seat hseat

/-- `Room::Join`: whoever is told of the new user finds it in the room. -/
theorem Seating.Present.join {room roomId : Nat} {user : User} {refused : List Nat}
    (h : seats.Present s.rooms) (hi : room < s.rooms.rooms.length) :
    Seating.Present (Function.update seats room
      (tell fb s (.userJoinedBroadcast roomId user.id user.username) refused (fun _ => true) 0
        (seats room) ++ [⟨user, []⟩]))
      (s.rooms.setRoom room ((s.rooms.roomAt room).join user).2) := by
  refine h.update hi fun seat hseat id hid => ?_
  rcases List.mem_append.mp hseat with hseat | hseat
  · obtain ⟨old, hold, -, ⟨-, hheard⟩ | ⟨hheard, -⟩⟩ := mem_tell hseat
    · rw [hheard, announced_append] at hid
      rcases List.mem_append.mp hid with hid | hid
      · obtain ⟨u, hu, huid⟩ := h room old hold id hid
        exact ⟨u, List.mem_append_left _ hu, huid⟩
      · exact ⟨user, by simp [Room.join], (List.mem_singleton.mp hid).symm⟩
    · obtain ⟨u, hu, huid⟩ := h room old hold id (hheard ▸ hid)
      exact ⟨u, List.mem_append_left _ hu, huid⟩
  · rw [List.mem_singleton.mp hseat] at hid
    simp [announced] at hid

/-- `Room::Leave`: whoever knew of the user is told, or is another user with its id. -/
theorem Seating.Present.leave {choice : Choice} {call : Call} {room : Nat} {user found : User}
    {others : List User} {left : Room} (h : seats.Present s.rooms) (hs : seats.Seats s.rooms)
    (hok : Announces fb (s, seats) (.server (.logic choice)))
    (hpc : s.handler = .leaveRoom call user) (hg : s.rooms.getRoom user.roomId = some room)
    (hl : (s.rooms.roomAt room).leave user.id = some (found, others, left)) :
    Seating.Present (Function.update seats room
      (tell fb s (.userLeftBroadcast user.id found.username) choice.refused (notUser user.id) 0
        ((seats room).eraseP fun seat => seat.user.id == user.id)))
      (s.rooms.setRoom room left) := by
  have htold := hok.2 choice call user room found others left rfl hpc hg hl
  have hstays : ∀ old ∈ seats room, ∀ id ∈ announced old.heard, id ≠ user.id →
      ∃ u ∈ left.users, u.id = id := by
    intro old hold id hid hne
    obtain ⟨u, hu, huid⟩ := h room old hold id hid
    rw [leave_users hl]
    exact ⟨u, (List.mem_eraseP_of_neg (by simpa [huid] using hne)).mpr hu, huid⟩
  refine h.update (getRoom_spec hg).1 fun seat hseat id hid => ?_
  obtain ⟨old, hold, -, ⟨-, hheard⟩ | ⟨hheard, hmiss⟩⟩ := mem_tell hseat
  · rw [hheard, announced_append] at hid
    obtain ⟨hid, hne⟩ := List.mem_filter.mp hid
    exact hstays old (List.mem_of_mem_eraseP hold) id hid (by simpa using hne)
  · rw [hheard] at hid
    by_cases hne : id = user.id
    · subst hne
      cases hwhom : notUser user.id old.user with
      | true =>
        obtain ⟨i, hat, hfail⟩ := hmiss hwhom
        obtain ⟨hposts, hrefused⟩ := htold i old hat (toldOf_of_announced hid)
        rcases hfail with hfail | hfail
        · simp [hposts] at hfail
        · exact absurd (by simpa using hfail) hrefused
      | false =>
        refine ⟨old.user, ?_, by simpa [notUser] using hwhom⟩
        rw [leave_users hl, ← hs.eraseP]
        exact List.mem_map_of_mem hold
    · exact hstays old (List.mem_of_mem_eraseP hold) id hid hne

theorem Seating.Present.logic {r : Roster} {choice : Choice} (hh : Housed s r)
    (h : seats.Present s.rooms) (hseats : seats.Seats s.rooms)
    (hok : Announces fb (s, seats) (.server (.logic choice))) (hs : LogicStep s choice t) :
    (seats.handled fb s choice).Present t.rooms := by
  rcases hs.moves seats with ⟨call, room, user, hpc, hrooms⟩ |
    ⟨call, user, room, found, others, left, hpc, hg, hl, hrooms⟩ | ⟨hsame, husers⟩
  · rw [hrooms]
    simp only [Seating.handled, hpc]
    exact h.join (hh.place _ (by rw [hpc]; rfl))
  · rw [hrooms]
    simp only [Seating.handled, hpc, hg, hl]
    exact h.leave hseats hok hpc hg hl
  · rw [hsame]
    intro i
    rw [husers]
    exact h i

/-- A kick: nobody who stays knows of one who goes. -/
theorem Seating.Present.thin {l : RoomLabel} (h : seats.Present s.rooms)
    (hseats : seats.Seats s.rooms) (hok : Announces fb (s, seats) l)
    (hrooms : t.rooms = s.rooms.thin fun i u => !s.kicks l i u) :
    Seating.Present (fun room => (seats room).filter fun seat => !s.kicks l room seat.user)
      t.rooms := by
  intro i seat hseat id hid
  obtain ⟨hseat, hstays⟩ := List.mem_filter.mp hseat
  obtain ⟨u, hu, huid⟩ := h i seat hseat id hid
  rw [hrooms, RoomManager.roomAt_thin]
  refine ⟨u, List.mem_filter.mpr ⟨hu, ?_⟩, huid⟩
  rw [← hseats i] at hu
  obtain ⟨gone, hgone, rfl⟩ := List.mem_map.mp hu
  cases hkick : s.kicks l i gone.user with
  | false => rfl
  | true =>
    have hnot := hok.1 i gone hgone seat hseat hkick (by simpa using hstays)
    rw [huid, toldOf_of_announced hid] at hnot
    exact absurd hnot (by simp)

theorem seated_step {p q : State × Seating} {l : RoomLabel}
    (hr : (seatedServer cfg fb).Reach (Announces fb) p)
    (h : p.2.Seats p.1.rooms ∧ p.2.Present p.1.rooms) (hok : Announces fb p l)
    (hs : (seatedServer cfg fb).step p l = some q) :
    q.2.Seats q.1.rooms ∧ q.2.Present q.1.rooms := by
  obtain ⟨hstep, hnote⟩ := System.recording_step hs
  have hany : (roomServer cfg fb).Reach System.always p.1 := hr.forget fun _ _ _ => trivial
  obtain ⟨r, hh⟩ := housed_of_reach hany
  by_cases hl : ∃ choice, l = .server (.logic choice)
  · obtain ⟨choice, rfl⟩ := hl
    have hlogic := logicStep_inv hstep
    rw [hnote]
    exact ⟨h.1.logic hh hlogic, h.2.logic hh h.1 hok hlogic⟩
  · have hrooms := roomStep_kicks hstep fun choice he => hl ⟨choice, he⟩
    have hkept : q.2 = fun room => (p.2 room).filter fun seat => !p.1.kicks l room seat.user := by
      rw [hnote]
      unfold Seating.note
      split
      · exact absurd ⟨_, rfl⟩ hl
      · rfl
    rw [hkept]
    exact ⟨h.1.thin hrooms, h.2.thin h.1 hok hrooms⟩

end

/-- **An announced member is a present member**, as long as every step announces who goes. -/
theorem announced_member_present (cfg : Config) (fb : FlatBuffers) {p : State × Seating}
    (h : (seatedServer cfg fb).Reach (Announces fb) p) :
    (∀ i, (p.2 i).map Seat.user = (p.1.rooms.roomAt i).users) ∧
    ∀ i, ∀ seat ∈ p.2 i, ∀ id ∈ announced seat.heard,
      ∃ u ∈ (p.1.rooms.roomAt i).users, u.id = id :=
  h.invariant (I := fun p => p.2.Seats p.1.rooms ∧ p.2.Present p.1.rooms)
    ⟨fun i => by simp [seatedServer, System.recording, roomServer, roomAt_new],
      fun i seat hseat => by simp [seatedServer, System.recording] at hseat⟩
    fun hr hi hok hs => seated_step hr hi hok hs

/-- Two clients join a room, and the first is told of the second. -/
def twoJoin : List RoomLabel :=
  (accepts 0 4 ++ accepts 1 5 ++ receives 0 ⟨0, 1⟩ (frameBytes joinBytes) 1 ++
    receives 1 ⟨1, 1⟩ (frameBytes joinBytes) 1 ++ ticks 12).map .server

def WorkerPc.kicking : WorkerPc → Bool
  | .kickDisconnected _ => true
  | _ => false

/-- Nobody is being taken out of a room. -/
def Staying (p : State × Seating) (_ : RoomLabel) : Bool :=
  p.1.workers.all (fun pc => !pc.kicking) && p.1.handler.leaving.isNone

theorem Staying.announces {fb : FlatBuffers} {p : State × Seating} {l : RoomLabel}
    (h : Staying p l = true) : Announces fb p l := by
  obtain ⟨hworkers, hhandler⟩ := (Bool.and_eq_true _ _).mp h
  have hno : ∀ (w : Nat) conn, p.1.workers[w]? ≠ some (WorkerPc.kickDisconnected conn) := by
    intro w conn hw
    simpa [WorkerPc.kicking] using List.all_eq_true.mp hworkers _ (List.mem_of_getElem? hw)
  constructor
  · intro room gone _ stay _ hkick
    unfold State.kicks at hkick
    split at hkick
    · split at hkick
      · exact absurd ‹_› (hno _ _)
      · simp at hkick
    · split at hkick
      · exact absurd ‹_› (hno _ _)
      · simp at hkick
    · simp at hkick
  · intro choice call user room found others left _ hpc
    simp [hpc, HandlerPc.leaving] at hhandler

theorem announced_member_present_two : ∃ p,
    (seatedServer smallServer conversation).Reach (Announces conversation) p ∧
      ∃ seat ∈ p.2 0, announced seat.heard = [1] ∧ ∃ u ∈ (p.1.rooms.roomAt 0).users, u.id = 1 := by
  obtain ⟨p, hr, hp⟩ := System.reach_of_exec (seatedServer smallServer conversation)
    (fun p l => Staying p l = true) twoJoin
    (fun p => (p.2 0).any fun seat => announced seat.heard == [1]) (by decide +kernel)
  obtain ⟨seat, hseat, hheard⟩ := List.any_eq_true.mp hp
  rw [beq_iff_eq] at hheard
  have hr' : (seatedServer smallServer conversation).Reach (Announces conversation) p :=
    hr.mono fun p l => Staying.announces
  exact ⟨p, hr', seat, hseat, hheard, (announced_member_present smallServer conversation hr').2 0
    seat hseat 1 (by rw [hheard]; exact List.mem_singleton.mpr rfl)⟩

/-- The second client disconnects: it is no longer in the room, and the first still believes it
is. -/
theorem kicked_member_announced : ∃ p,
    (seatedServer smallServer conversation).Reach System.always p ∧ p.1.handler = .ready ∧
      p.1.workers.all (· == .idle) = true ∧
      ∃ seat ∈ p.2 0, seat.user ∈ (p.1.rooms.roomAt 0).users ∧ 1 ∈ announced seat.heard ∧
        ∀ u ∈ (p.1.rooms.roomAt 0).users, u.id ≠ 1 := by
  obtain ⟨p, hr, hp⟩ := System.reach_of_exec (seatedServer smallServer conversation) System.always
    (twoJoin ++ (disconnects 0 ⟨1, 1⟩).map .server)
    (fun p => p.1.handler.isReady && p.1.workers.all (· == .idle) &&
      ((p.1.rooms.roomAt 0).users.all fun u => u.id != 1) &&
      (p.2 0).any fun seat => (p.1.rooms.roomAt 0).users.contains seat.user &&
        (announced seat.heard).contains 1) (by decide +kernel)
  simp only [Bool.and_eq_true, HandlerPc.isReady_iff, List.any_eq_true, List.contains_iff_mem] at hp
  obtain ⟨⟨⟨hready, hidle⟩, hgone⟩, seat, hseat, huser, hheard⟩ := hp
  refine ⟨p, hr, hready, hidle, seat, hseat, huser, hheard, fun u hu => ?_⟩
  simpa using List.all_eq_true.mp hgone u hu

end Highp.Chat

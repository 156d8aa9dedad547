import Highp.Chat.Identity

/-! Whose session a lookup by client finds, and whose sessions and users `Disconnect` removes.
The code compares the sockets that two `Client` objects have at the moment. All clients without a
socket compare equal, and so do a client that is just being closed and the next one to get its
handle. -/

namespace Highp.Chat
open Highp.Lib Highp.Network

/-! ## What the functions are for -/

/-- The registry without the sessions that were created for a `Client` object. -/
def SessionManager.without (m : SessionManager) (client : Slot) : SessionManager :=
  { m with sessions := m.sessions.filter fun session => session.tcpClient != client }

def RoomManager.without (m : RoomManager) (client : Slot) : RoomManager :=
  { m with rooms := m.rooms.map fun room =>
      { room with users := room.users.filter fun user => user.session.tcpClient != client } }

/-- The sessions of all users that a room lists. -/
def RoomManager.listed (m : RoomManager) : List Session :=
  m.rooms.flatMap fun room => room.users.map User.session

/-! ## The comparison -/

theorem filter_eq_filter_iff {α : Type} {p q : α → Bool} (l : List α) :
    l.filter p = l.filter q ↔ ∀ a ∈ l, p a = q a := by
  constructor
  · intro h a ha
    have hiff : a ∈ l.filter p ↔ a ∈ l.filter q := by rw [h]
    simp only [List.mem_filter, ha, true_and] at hiff
    exact Bool.eq_iff_iff.mpr hiff
  · exact List.filter_congr

variable {cfg : Config} {fb : FlatBuffers} {s t : State} {client : Slot} {session : Session}

/-- The handle of this client is named by no slot of another that has one of these sessions. -/
def unshared (s : State) (client : Slot) (sessions : List Session) : Bool :=
  sessions.all fun session => session.tcpClient == client ||
    (s.pool client).socket.all fun h => (s.pool session.tcpClient).socket != some h

/-- When no handle is given out that a slot still names, none is named by two slots. -/
theorem SocketsOwned.unshared (h : SocketsOwned s) (client : Slot) (sessions : List Session) :
    unshared s client sessions = true := by
  simp only [Chat.unshared, List.all_eq_true, Bool.or_eq_true, beq_iff_eq, Option.all_eq_true,
    bne_iff_ne]
  intro session _
  refine or_iff_not_imp_left.mpr fun hne k hk hk' => hne ?_
  exact Sum.inl.inj (h.unique (i := .inl session.tcpClient) (j := .inl client) hk' hk)

/-- No session of `sessions` is taken for another client's. -/
theorem toldApart_iff (sessions : List Session) :
    toldApart s client sessions = true ∧ unshared s client sessions = true ↔
      ∀ session ∈ sessions,
        session.isSameSession s.pool client = (session.tcpClient == client) := by
  simp only [toldApart, unshared, Bool.or_eq_true, List.all_eq_true, beq_iff_eq]
  constructor
  · rintro ⟨hapart, hshared⟩ session hm
    rw [Bool.eq_iff_iff, beq_iff_eq]
    refine ⟨fun hsame => ?_, fun he => he ▸ session.isSameSession_self s.pool⟩
    simp only [Session.isSameSession, beq_iff_eq] at hsame
    cases hc : (s.pool client).socket with
    | none =>
      -- neither has a socket
      rw [hc] at hsame
      simpa [Client.isConnected, hc, hsame] using hapart.resolve_left (by simp [Client.isConnected,
        hc]) session hm
    | some k =>
      rw [hc] at hsame
      simpa [hc, hsame] using hshared session hm
  · intro hall
    have hother : ∀ session ∈ sessions, session.tcpClient ≠ client →
        (s.pool session.tcpClient).socket ≠ (s.pool client).socket := by
      intro session hm hne hsame
      have heq := hall session hm
      rw [Session.isSameSession, hsame, beq_self_eq_true, eq_comm, beq_iff_eq] at heq
      exact hne heq
    refine ⟨?_, fun session hm => or_iff_not_imp_left.mpr fun hne => ?_⟩
    · refine or_iff_not_imp_left.mpr fun hclosed session hm => ?_
      refine or_iff_not_imp_left.mpr fun hne => ?_
      have hsocket := hother session hm hne
      simp only [Client.isConnected, Bool.not_eq_true, Option.isSome_eq_false_iff,
        Option.isNone_iff_eq_none] at hclosed
      rw [hclosed] at hsocket
      exact Option.isSome_iff_ne_none.mpr hsocket
    · rw [Option.all_eq_true]
      exact fun k hk => bne_iff_ne.mpr fun hk' => hother session hm hne (hk'.trans hk.symm)

theorem getSessionByClient_exact_iff :
    (∀ order session, s.sessions.getSessionByClient s.pool client order = some session →
      session.tcpClient = client) ↔
      toldApart s client s.sessions.sessions = true ∧
        unshared s client s.sessions.sessions = true := by
  rw [toldApart_iff]
  constructor
  · intro hexact session hm
    rw [Bool.eq_iff_iff]
    constructor
    · intro hsame
      have hfound : session ∈ s.sessions.sessions.filter fun x => x.isSameSession s.pool client :=
        List.mem_filter.mpr ⟨hm, hsame⟩
      obtain ⟨i, hi, hget⟩ := List.mem_iff_getElem.mp hfound
      -- the iteration order that comes to this session first
      have hfirst : s.sessions.getSessionByClient s.pool client i = some session := by
        rw [SessionManager.getSessionByClient, firstMatch, Nat.mod_eq_of_lt hi,
          List.getElem?_eq_getElem hi, hget]
      exact beq_iff_eq.mpr (hexact i session hfirst)
    · intro he
      rw [← beq_iff_eq.mp he]
      exact session.isSameSession_self s.pool
  · intro hall order session hg
    obtain ⟨hm, hsame⟩ := List.mem_filter.mp (firstMatch_mem hg)
    rw [hall session hm] at hsame
    exact beq_iff_eq.mp hsame

theorem removeByClient_exact_iff :
    s.sessions.removeByClient s.pool client = s.sessions.without client ↔
      toldApart s client s.sessions.sessions = true ∧
        unshared s client s.sessions.sessions = true := by
  rw [toldApart_iff, SessionManager.removeByClient, SessionManager.without]
  simp only [SessionManager.mk.injEq, and_true]
  rw [filter_eq_filter_iff]
  refine forall₂_congr fun session _ => ?_
  rw [bne, Bool.not_inj_iff]

theorem kickDisconnected_exact_iff :
    s.rooms.kickDisconnected s.pool client = s.rooms.without client ↔
      toldApart s client s.rooms.listed = true ∧ unshared s client s.rooms.listed = true := by
  rw [toldApart_iff, RoomManager.kickDisconnected, RoomManager.without]
  simp only [RoomManager.mk.injEq, and_true, List.map_inj_left, Room.kickByDisconnected,
    Room.mk.injEq, true_and, filter_eq_filter_iff, RoomManager.listed, List.mem_flatMap,
    List.mem_map]
  constructor
  · rintro hall session ⟨room, hr, user, hu, rfl⟩
    exact Bool.not_inj_iff.mp (hall room hr user hu)
  · intro hall room hr user hu
    exact Bool.not_inj_iff.mpr (hall user.session ⟨room, hr, user, hu, rfl⟩)

/-! ## The steps of `GameLoop::Disconnect` -/

/-- What `KickDisconnected` does, and what it leaves alone. -/
theorem kick_step {w : Nat} {ok : Bool} {conn : Conn}
    (hpc : s.workers[w]? = some (.kickDisconnected conn))
    (hs : s.step cfg fb (.worker w ok) = some t) :
    t.rooms = s.rooms.kickDisconnected s.pool conn.client ∧ t.sessions = s.sessions ∧
      t.users = s.users := by
  obtain ⟨pc, u, pc', hpc', hw, rfl⟩ := step_worker hs
  rw [hpc] at hpc'
  cases hpc'
  cases hw
  exact ⟨rfl, rfl, rfl⟩

theorem remove_step {w : Nat} {ok : Bool} {conn : Conn}
    (hpc : s.workers[w]? = some (.removeByClient conn))
    (hs : s.step cfg fb (.worker w ok) = some t) :
    t.sessions = s.sessions.removeByClient s.pool conn.client ∧ t.rooms = s.rooms ∧
      t.users = s.users := by
  obtain ⟨pc, u, pc', hpc', hw, rfl⟩ := step_worker hs
  rw [hpc] at hpc'
  cases hpc'
  cases hw
  exact ⟨rfl, rfl, rfl⟩

/-- **When lookup by client is exact.** In every state and for every client, connected or not:
`GetSessionByClient` finds the client's own sessions only, and each of the two steps of
`Disconnect` removes exactly what belongs to the client and nothing else, if and only if the
client has a socket or nobody else without a socket has a session (for the kick: is listed in a
room), and nobody else whose slot names the handle of the client has one. The latter is always so
in a run in which the system gives out no handle that a slot still names. -/
theorem lookup_exact_iff (cfg : Config) (fb : FlatBuffers) (s : State) :
    (∀ client, (∀ order session,
      s.sessions.getSessionByClient s.pool client order = some session →
        session.tcpClient = client) ↔
      toldApart s client s.sessions.sessions = true ∧
        unshared s client s.sessions.sessions = true) ∧
    (∀ w ok conn t, s.workers[w]? = some (.kickDisconnected conn) →
      s.step cfg fb (.worker w ok) = some t →
      t.sessions = s.sessions ∧ t.users = s.users ∧
        (t.rooms = s.rooms.without conn.client ↔ toldApart s conn.client s.rooms.listed = true ∧
          unshared s conn.client s.rooms.listed = true)) ∧
    (∀ w ok conn t, s.workers[w]? = some (.removeByClient conn) →
      s.step cfg fb (.worker w ok) = some t →
      t.rooms = s.rooms ∧ t.users = s.users ∧
        (t.sessions = s.sessions.without conn.client ↔
          toldApart s conn.client s.sessions.sessions = true ∧
            unshared s conn.client s.sessions.sessions = true)) ∧
    ((chatServer cfg fb).Reach (fun s l => FreshSockets s l = true) s →
      ∀ client sessions, unshared s client sessions = true) := by
  refine ⟨fun client => getSessionByClient_exact_iff, ?_, ?_, fun h => ?_⟩
  · intro w ok conn t hpc hs
    obtain ⟨hrooms, hsessions, husers⟩ := kick_step hpc hs
    rw [hrooms]
    exact ⟨hsessions, husers, kickDisconnected_exact_iff⟩
  · intro w ok conn t hpc hs
    obtain ⟨hsessions, hrooms, husers⟩ := remove_step hpc hs
    rw [hsessions]
    exact ⟨hrooms, husers, removeByClient_exact_iff⟩
  · exact (socketsOwned_of_reach (fun _ _ hok => hok) h).unshared

/-- Two clients connect, and the second one disconnects while the first is still there: only its
own session goes. -/
theorem lookup_exact_iff_two : ∃ s t,
    (chatServer smallServer sample).Reach (fun s l => FreshSockets s l = true) s ∧
    s.step smallServer sample (.worker 1 true) = some t ∧
    t.sessions = s.sessions.without 1 ∧ t.sessions.sessions = [⟨0, 0, 1⟩] := by
  obtain ⟨s, hr, hp⟩ := System.reach_of_exec (chatServer smallServer sample)
    (fun s l => FreshSockets s l = true)
    (accepts 0 4 ++ accepts 1 5 ++ [.recvDone 1 ⟨1, 1⟩ (.done []), .worker 1 true])
    (fun s => s.workers[1]? == some (.removeByClient ⟨1, 1⟩) &&
      toldApart s 1 s.sessions.sessions && s.sessions.sessions == [⟨0, 0, 1⟩, ⟨1, 1, 1⟩])
    (by decide +kernel)
  simp only [Bool.and_eq_true, beq_iff_eq] at hp
  obtain ⟨⟨hpc, hapart⟩, hsessions⟩ := hp
  obtain ⟨t, ht⟩ : ∃ t, s.step smallServer sample (.worker 1 true) = some t := by
    simp [State.step, hpc]
  obtain ⟨-, -, hremove, hfresh⟩ := lookup_exact_iff smallServer sample s
  have hexact := (hremove 1 true ⟨1, 1⟩ t hpc ht).2.2.mpr ⟨hapart, hfresh hr 1 _⟩
  refine ⟨s, t, hr, ht, hexact, ?_⟩
  rw [hexact, SessionManager.without, hsessions]
  rfl

/-- The server has closed two clients because of oversized frames. Neither has been disconnected,
and a lookup for the first one may find the session of the second. -/
theorem lookup_finds_another : ∃ s, (chatServer smallServer sample).Reach System.always s ∧
    ∃ order session, s.sessions.getSessionByClient s.pool 0 order = some session ∧
      session.tcpClient ≠ 0 := by
  obtain ⟨s, hr, hp⟩ := System.reach_of_exec (chatServer smallServer sample) System.always
    (accepts 0 4 ++ accepts 1 5 ++ refuses 0 ⟨0, 1⟩ [255, 255, 255, 255] ++
      refuses 1 ⟨1, 1⟩ [255, 255, 255, 255])
    (fun s => s.sessions.getSessionByClient s.pool 0 1 == some ⟨1, 1, 1⟩) (by decide +kernel)
  exact ⟨s, hr, 1, ⟨1, 1, 1⟩, beq_iff_eq.mp hp, by decide⟩

/-- A worker is between the two parts of the `Close` of the first client when its handle is given
to a second one: a lookup for the second may find the session of the first. -/
theorem lookup_finds_predecessor : ∃ s, (chatServer smallServer sample).Reach System.always s ∧
    toldApart s 1 s.sessions.sessions = true ∧
    ∃ order session, s.sessions.getSessionByClient s.pool 1 order = some session ∧
      session.tcpClient ≠ 1 := by
  obtain ⟨s, hr, hp⟩ := System.reach_of_exec (chatServer smallServer sample) System.always
    (accepts 0 4 ++ [.arrive ⟨0, 1⟩ [255, 255, 255, 255],
      .recvDone 0 ⟨0, 1⟩ (.done [255, 255, 255, 255]), .worker 0 true, .worker 0 true] ++
      accepts 1 4)
    (fun s => toldApart s 1 s.sessions.sessions &&
      s.sessions.getSessionByClient s.pool 1 0 == some ⟨0, 0, 1⟩) (by decide +kernel)
  simp only [Bool.and_eq_true, beq_iff_eq] at hp
  exact ⟨s, hr, hp.1, 0, ⟨0, 0, 1⟩, hp.2, by decide⟩

end Highp.Chat

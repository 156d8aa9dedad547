import Highp.Chat.Conversation
import Highp.Chat.Standing
import Highp.Network.LegalStream

/-! The bytes of one connection. Between the kernel and the dispatch they are in the receive buffer
of the slot, in the frame buffer, in the queue or in the batch, and nothing else is in between. -/

namespace Highp.Chat
open Highp.Lib Highp.Network

/-! ## History -/

/-- What was received on a connection, and the payloads of its commands that were dispatched. -/
structure Inflow where
  stream : List UInt8
  taken : List (List UInt8)

def Inflow.note (conn : Conn) (s : State) (l : RoomLabel) (_ : State) (h : Inflow) : Inflow :=
  match l with
  | .server (.arrive c data) => if c = conn then { h with stream := h.stream ++ data } else h
  | .server (.logic _) =>
    match s.handler, s.batch with
    | .ready, cmd :: _ => { h with taken := h.taken ++ payloadsOn conn [cmd] }
    | _, _ => h
  | _ => h

/-! ## The invariant -/

/-- The bytes in the receive buffer that no worker has been told of. -/
def State.landed (s : State) (conn : Conn) : List UInt8 :=
  s.arrived.flatMap fun a => if a.1 = conn then a.2 else []

/-- The bytes in the receive buffer that a worker is about to append. -/
def State.inHand (s : State) (conn : Conn) : WorkerPc → List UInt8
  | .append c n => if c = conn then s.received c.client n else []
  | _ => []

/-- The worker is past `SetupClient`, and not about to close the client. -/
def WorkerPc.attending : WorkerPc → Bool
  | .kickDisconnected _ => true
  | .removeByClient _ => true
  | .closeClient _ => true
  | .append _ _ => true
  | .assemble _ => true
  | .postNextRecv _ => true
  | _ => false

/-- A worker is at work on a slot. -/
def WorkerPc.serves (client : Slot) (pc : WorkerPc) : Bool :=
  pc.conn.any fun c => c.client == client

/-- The receives of a slot: the kernel or a worker has one. -/
def State.tokens (s : State) (client : Slot) : Nat :=
  s.recvs.countP (fun c => c.client == client) + s.workers.countP fun pc => pc.serves client

/-- The slot is in the hands of one connection, and its receive buffer holds what has arrived. -/
structure Attended (conn : Conn) (s : State) : Prop where
  current : s.current conn.client = conn
  recvs : ∀ c ∈ s.recvs, c.client = conn.client → c = conn
  arrived : ∀ a ∈ s.arrived, a.1.client = conn.client →
    a.1 = conn ∧ s.received conn.client a.2.length = a.2
  landed : (s.arrived.countP fun a => a.1.client == conn.client) ≤
    s.recvs.countP fun c => c.client == conn.client
  served : ∀ pc ∈ s.workers, ∀ c, pc.conn = some c → c.client = conn.client →
    c = conn ∧ pc.attending = true
  commands : ∀ cmd ∈ s.batch ++ s.queue, cmd.client = conn.client → cmd.conn = conn
  once : s.tokens conn.client ≤ 1

/-- The commands of the connection that have become frames, dispatched or not. -/
def Inflow.frames (conn : Conn) (s : State) (h : Inflow) : List (List UInt8) :=
  h.taken ++ payloadsOn conn (s.batch ++ s.queue)

/-- What has not become a frame. -/
def State.unframed (conn : Conn) (s : State) : List UInt8 :=
  (s.pool conn.client).frameBuf.data ++ (s.landed conn ++ s.workers.flatMap (s.inHand conn))

/-- All bytes are accounted for. -/
structure Conserved (fb : FlatBuffers) (conn : Conn) (s : State) (h : Inflow) : Prop where
  legal : ∀ p ∈ h.frames conn s, Legal fb p
  stream : h.stream = wire (h.frames conn s) ++ s.unframed conn

section
variable {cfg : Config} {fb : FlatBuffers} {s t u : State} {conn : Conn} {h h' : Inflow}
  {workers : List WorkerPc} {w : Nat} {ok : Bool} {old new pc pc' : WorkerPc} {client : Slot}

/-! ## One worker among the others -/

theorem split_worker (hw : workers[w]? = some old) :
    ∃ pre post, workers = pre ++ old :: post ∧ ∀ new, workers.set w new = pre ++ new :: post := by
  induction workers generalizing w with
  | nil => simp at hw
  | cons first rest ih =>
    cases w with
    | zero =>
      rw [List.getElem?_cons_zero, Option.some.injEq] at hw
      exact ⟨[], rest, by simp [hw], fun new => rfl⟩
    | succ w =>
      obtain ⟨pre, post, hsplit, hset⟩ := ih (w := w) (by simpa using hw)
      exact ⟨first :: pre, post, by simp [hsplit], fun new => by simp [hset]⟩

theorem inHand_congr (hbuf : t.recvBufs conn.client = s.recvBufs conn.client) :
    t.inHand conn = s.inHand conn := by
  funext pc
  cases pc with
  | append c n =>
    by_cases hc : c = conn
    · simp [State.inHand, State.received, hc, hbuf]
    · simp [State.inHand, hc]
  | _ => rfl

/-- A worker goes on with the same bytes in its hands. -/
theorem inHand_set (hw : s.workers[w]? = some old) (hsame : s.inHand conn new = s.inHand conn old) :
    (s.workers.set w new).flatMap (s.inHand conn) = s.workers.flatMap (s.inHand conn) := by
  obtain ⟨pre, post, hsplit, hset⟩ := split_worker hw
  rw [hset, hsplit]
  simp [hsame]

theorem serves_iff :
    pc.serves client = true ↔ ∃ c, pc.conn = some c ∧ c.client = client := by
  cases hc : pc.conn with
  | none => simp [WorkerPc.serves, hc]
  | some c => simp [WorkerPc.serves, hc]

theorem serves_of_inHand (h : s.inHand conn pc ≠ []) : pc.serves conn.client = true := by
  cases pc with
  | append c n =>
    by_cases hc : c = conn
    · exact serves_iff.mpr ⟨c, rfl, by rw [hc]⟩
    · simp [State.inHand, hc] at h
  | _ => exact absurd rfl h

theorem inHand_nil {pcs : List WorkerPc}
    (hnone : pcs.countP (fun pc => pc.serves conn.client) = 0) :
    pcs.flatMap (s.inHand conn) = [] := by
  rw [List.countP_eq_zero] at hnone
  rw [List.flatMap_eq_nil_iff]
  intro pc hpc
  by_contra hne
  exact hnone pc hpc (serves_of_inHand hne)

/-- Nothing has arrived for a slot that has no receive. -/
theorem Attended.landed_nil (h : Attended conn s)
    (hnone : (s.arrived.countP fun a => a.1.client == conn.client) = 0) : s.landed conn = [] := by
  rw [List.countP_eq_zero] at hnone
  rw [State.landed, List.flatMap_eq_nil_iff]
  intro a ha
  rw [if_neg]
  rintro rfl
  exact hnone a ha (by simp)

/-- Only one worker has bytes of the connection, and nothing more has arrived. -/
theorem Attended.inHand_alone (h : Attended conn s) (hw : s.workers[w]? = some old)
    (hserves : old.serves conn.client = true) :
    s.landed conn = [] ∧ s.workers.flatMap (s.inHand conn) = s.inHand conn old ∧
      ∀ new, (s.workers.set w new).flatMap (s.inHand conn) = s.inHand conn new := by
  obtain ⟨pre, post, hsplit, hset⟩ := split_worker hw
  have honce := h.once
  have hlanded := h.landed
  simp only [State.tokens, hsplit, List.countP_append, List.countP_cons, hserves, if_true] at honce
  have hpre : pre.flatMap (s.inHand conn) = [] := inHand_nil (by omega)
  have hpost : post.flatMap (s.inHand conn) = [] := inHand_nil (by omega)
  refine ⟨h.landed_nil (by omega), ?_, fun new => ?_⟩
  · rw [hsplit]
    simp [hpre, hpost]
  · rw [hset]
    simp [hpre, hpost]

/-- While a receive is pending no worker serves the slot. -/
theorem Attended.unserved (h : Attended conn s) (hm : conn ∈ s.recvs) :
    s.workers.countP (fun pc => pc.serves conn.client) = 0 ∧
      (s.recvs.countP fun c => c.client == conn.client) = 1 := by
  have honce := h.once
  have hpos : 0 < s.recvs.countP fun c => c.client == conn.client :=
    List.countP_pos_iff.mpr ⟨conn, hm, by simp⟩
  rw [State.tokens] at honce
  constructor
  · omega
  · omega

/-- A worker goes on, and the slot stays in the hands of the connection. -/
theorem Attended.worker (h : Attended conn s) (hw : s.workers[w]? = some old)
    (hworkers : t.workers = s.workers.set w new)
    (hepoch : t.epoch conn.client = s.epoch conn.client)
    (hnew : ∀ c, new.conn = some c → c.client = conn.client → c = conn ∧ new.attending = true)
    (hrecvs : ∀ c ∈ t.recvs, c.client = conn.client → c = conn)
    (hbuf : t.recvBufs conn.client = s.recvBufs conn.client)
    (harrived : ∀ a ∈ t.arrived, a ∈ s.arrived)
    (hlanded : (t.arrived.countP fun a => a.1.client == conn.client) ≤
      t.recvs.countP fun c => c.client == conn.client)
    (hcommands : ∀ cmd ∈ t.batch ++ t.queue, cmd.client = conn.client → cmd.conn = conn)
    (hcount : (t.recvs.countP fun c => c.client == conn.client) +
        (if new.serves conn.client then 1 else 0) ≤
      (s.recvs.countP fun c => c.client == conn.client) +
        if old.serves conn.client then 1 else 0) : Attended conn t where
  current := by
    rw [State.current, hepoch]
    exact h.current
  recvs := hrecvs
  arrived a ha hslot := by
    rw [State.received, hbuf]
    exact h.arrived a (harrived a ha) hslot
  landed := hlanded
  served pc hpc := by
    rw [hworkers] at hpc
    rcases List.mem_or_eq_of_mem_set hpc with hpc | rfl
    · exact h.served pc hpc
    · exact hnew
  commands := hcommands
  once := by
    obtain ⟨pre, post, hsplit, hset⟩ := split_worker hw
    have honce := h.once
    rw [State.tokens, hsplit] at honce
    rw [State.tokens, hworkers, hset]
    simp only [List.countP_append, List.countP_cons] at honce ⊢
    omega

/-- The slot is not touched by a step. -/
structure Elsewhere (client : Slot) (s t : State) : Prop where
  frameBuf : (t.pool client).frameBuf = (s.pool client).frameBuf
  epoch : t.epoch client = s.epoch client
  recvBufs : t.recvBufs = s.recvBufs
  arrived : t.arrived = s.arrived
  batch : t.batch = s.batch
  queue : ∃ cmds, t.queue = s.queue ++ cmds ∧ ∀ cmd ∈ cmds, cmd.client ≠ client
  recvs : ∃ conns, t.recvs = s.recvs ++ conns ∧ ∀ c ∈ conns, c.client ≠ client

theorem elsewhere_same (hpool : (t.pool client).frameBuf = (s.pool client).frameBuf)
    (hepoch : t.epoch client = s.epoch client) (hbufs : t.recvBufs = s.recvBufs)
    (harrived : t.arrived = s.arrived) (hbatch : t.batch = s.batch) (hqueue : t.queue = s.queue)
    (hrecvs : t.recvs = s.recvs) : Elsewhere client s t :=
  ⟨hpool, hepoch, hbufs, harrived, hbatch, ⟨[], by simp [hqueue], nofun⟩,
    ⟨[], by simp [hrecvs], nofun⟩⟩

/-- A worker at work on another slot. -/
theorem WorkerStep.elsewhere (h : WorkerStep cfg fb s ok pc t pc')
    (hpc : ∀ c, pc.conn = some c → c.client ≠ client)
    (hassign : ∀ k, pc ≠ .assignSocket k client) :
    Elsewhere client s t ∧ ∀ c, pc'.conn = some c → c.client ≠ client := by
  cases h with
  | found | full => exact ⟨elsewhere_same rfl rfl rfl rfl rfl rfl rfl, nofun⟩
  | @assign k client' =>
    have hne : client ≠ client' := by
      rintro rfl
      exact hassign k rfl
    refine ⟨elsewhere_same ?_ ?_ rfl rfl rfl rfl rfl, ?_⟩
    · simp [hne]
    · simp [hne]
    · rintro c he
      cases he
      exact hne.symm
  | @firstRecv conn' _ =>
    refine ⟨⟨rfl, rfl, rfl, rfl, rfl, ⟨[], by simp [State.postRecv], nofun⟩, ?_⟩, hpc⟩
    refine ⟨[s.current conn'.client], rfl, ?_⟩
    intro c hc
    rw [List.mem_singleton.mp hc]
    exact hpc conn' rfl
  | @nextRecv conn' _ =>
    refine ⟨⟨rfl, rfl, rfl, rfl, rfl, ⟨[], by simp [State.postRecv], nofun⟩, ?_⟩, nofun⟩
    refine ⟨[s.current conn'.client], rfl, ?_⟩
    intro c hc
    rw [List.mem_singleton.mp hc]
    exact hpc conn' rfl
  | @command conn' payloadType payload frameSize _ =>
    have hne : client ≠ conn'.client := (hpc conn' rfl).symm
    refine ⟨⟨by simp [State.setClient, hne], rfl, rfl, rfl, rfl, ?_,
      ⟨[], by simp [State.setClient], nofun⟩⟩, hpc⟩
    refine ⟨[⟨conn'.client, payloadType, payload, conn'.epoch⟩], rfl, ?_⟩
    intro cmd hm
    rw [List.mem_singleton.mp hm]
    exact hne.symm
  | @associate conn' _ => exact ⟨elsewhere_same rfl rfl rfl rfl rfl rfl rfl, hpc⟩
  | @incomplete conn' _ => exact ⟨elsewhere_same rfl rfl rfl rfl rfl rfl rfl, hpc⟩
  | @onAccept conn' | @nextRecvClosed conn' _ | @alreadyClosed conn' _ =>
    exact ⟨elsewhere_same rfl rfl rfl rfl rfl rfl rfl, nofun⟩
  | @kick conn' => exact ⟨elsewhere_same rfl rfl rfl rfl rfl rfl rfl, hpc⟩
  | @remove conn' => exact ⟨elsewhere_same rfl rfl rfl rfl rfl rfl rfl, hpc⟩
  | @mark conn' =>
    have hne : client ≠ conn'.client := (hpc conn' rfl).symm
    exact ⟨elsewhere_same (by simp [hne]) rfl rfl rfl rfl rfl rfl, hpc⟩
  | @associateFailed conn' _ | @firstRecvFailed conn' _ | @overflow conn' _ _ | @tooLarge conn' _
  | @invalid conn' _ _ =>
    have hne : client ≠ conn'.client := (hpc conn' rfl).symm
    exact ⟨elsewhere_same (by simp [State.closeSocket, hne]) rfl rfl rfl rfl rfl rfl,
      fun c hc => hpc c (congrArg some (conn_behindClose hc).symm)⟩
  | @close conn' _ | @nextRecvFailed conn' _ _ =>
    have hne : client ≠ conn'.client := (hpc conn' rfl).symm
    exact ⟨elsewhere_same (by simp [State.closeSocket, hne]) rfl rfl rfl rfl rfl rfl, hpc⟩
  | @reset conn' next =>
    have hne : client ≠ conn'.client := (hpc conn' rfl).symm
    have hreset : WorkerStep cfg fb s ok (.resetSocket conn' next) _ (next.pc conn') := .reset
    exact ⟨elsewhere_same (by simp [State.resetSocket, hne]) rfl rfl rfl rfl rfl rfl,
      fun c hc => hpc c (hreset.conn (by simp) hc)⟩
  | @append conn' _ _ _ | @consume conn' _ =>
    have hne : client ≠ conn'.client := (hpc conn' rfl).symm
    exact ⟨elsewhere_same (by simp [State.setClient, hne]) rfl rfl rfl rfl rfl rfl, hpc⟩

theorem wire_append (xs ys : List (List UInt8)) : wire (xs ++ ys) = wire xs ++ wire ys := by
  simp [wire]

theorem payloadsOn_append (xs ys : List PacketCommand) :
    payloadsOn conn (xs ++ ys) = payloadsOn conn xs ++ payloadsOn conn ys := by
  simp [payloadsOn]

theorem payloadsOn_elsewhere {cmds : List PacketCommand}
    (hcmds : ∀ cmd ∈ cmds, cmd.client ≠ conn.client) : payloadsOn conn cmds = [] := by
  rw [payloadsOn, List.map_eq_nil_iff, List.filter_eq_nil_iff]
  intro cmd hm
  have hne : cmd.conn ≠ conn := fun he => hcmds cmd hm (congrArg Conn.client he)
  simpa using hne

theorem Attended.elsewhere (h : Attended conn s) (hw : s.workers[w]? = some pc)
    (he : Elsewhere conn.client s t) (hworkers : t.workers = s.workers.set w pc')
    (hpc' : ∀ c, pc'.conn = some c → c.client ≠ conn.client) : Attended conn t := by
  obtain ⟨cmds, hqueue, hcmds⟩ := he.queue
  obtain ⟨conns, hrecvs, hconns⟩ := he.recvs
  have hnone : conns.countP (fun c => c.client == conn.client) = 0 := by
    rw [List.countP_eq_zero]
    intro c hc
    simpa using hconns c hc
  refine h.worker hw hworkers he.epoch (fun c hc hslot => absurd hslot (hpc' c hc)) ?_
    (by rw [he.recvBufs]) (fun a ha => he.arrived ▸ ha) ?_ ?_ ?_
  · intro c hc hslot
    rw [hrecvs] at hc
    rcases List.mem_append.mp hc with hc | hc
    · exact h.recvs c hc hslot
    · exact absurd hslot (hconns c hc)
  · rw [he.arrived, hrecvs, List.countP_append, hnone]
    exact h.landed
  · intro cmd hm hslot
    rw [he.batch, hqueue, ← List.append_assoc] at hm
    rcases List.mem_append.mp hm with hm | hm
    · exact h.commands cmd hm hslot
    · exact absurd hslot (hcmds cmd hm)
  · have hidle : pc'.serves conn.client = false := by
      rw [← Bool.not_eq_true, serves_iff]
      rintro ⟨c, hc, hslot⟩
      exact hpc' c hc hslot
    rw [hrecvs, List.countP_append, hnone, hidle]
    simp

/-- Nothing is added for the connection, and nothing taken. -/
theorem Conserved.elsewhere (h : Conserved fb conn s h') (he : Elsewhere conn.client s t)
    (hworkers : t.workers.flatMap (s.inHand conn) = s.workers.flatMap (s.inHand conn)) :
    Conserved fb conn t h' := by
  obtain ⟨cmds, hqueue, hcmds⟩ := he.queue
  have hframes : h'.frames conn t = h'.frames conn s := by
    rw [Inflow.frames, Inflow.frames, he.batch, hqueue, ← List.append_assoc, payloadsOn_append,
      payloadsOn_elsewhere hcmds, List.append_nil]
  have hunframed : t.unframed conn = s.unframed conn := by
    rw [State.unframed, State.unframed, he.frameBuf, State.landed, he.arrived,
      inHand_congr (congrFun he.recvBufs conn.client), hworkers]
    rfl
  exact ⟨hframes ▸ h.legal, by rw [hframes, hunframed]; exact h.stream⟩

theorem inHand_other (hpc : ∀ c, pc.conn = some c → c.client ≠ conn.client) :
    s.inHand conn pc = [] := by
  by_contra hne
  obtain ⟨c, hc, hslot⟩ := serves_iff.mp (serves_of_inHand hne)
  exact hpc c hc hslot

/-! ## A worker on the slot -/

theorem legal_of_emit {buf p r : List UInt8} (h : nextFrame (parses fb) buf = .emit p r) :
    Legal fb p := by
  rcases frame_cases buf with hc | ⟨h4, hn⟩ | ⟨h4, hn, hs⟩ | ⟨hn, hs⟩
  · simp [nextFrame_short hc] at h
  · simp [nextFrame_large h4 hn] at h
  · simp [nextFrame_pending h4 hn hs] at h
  · rw [nextFrame_full hn hs] at h
    split at h
    · rename_i hparses
      simp only [Next.emit.injEq] at h
      obtain ⟨rfl, -⟩ := h
      refine ⟨?_, hparses⟩
      rw [List.length_take]
      omega
    · cases h

/-- A worker goes on serving the connection, or has done with it. -/
theorem Attended.serve (h : Attended conn s) (hw : s.workers[w]? = some old)
    (hold : old.conn = some conn)
    (hnew : new.conn = some conn ∧ new.attending = true ∨ new.conn = none)
    (hworkers : t.workers = s.workers.set w new) (hepoch : t.epoch = s.epoch)
    (hbufs : t.recvBufs = s.recvBufs) (harrived : t.arrived = s.arrived)
    (hrecvs : t.recvs = s.recvs ∨ new.conn = none ∧ t.recvs = s.recvs ++ [conn])
    (hcommands : ∀ cmd ∈ t.batch ++ t.queue, cmd.client = conn.client → cmd.conn = conn) :
    Attended conn t := by
  have hserves : old.serves conn.client = true := serves_iff.mpr ⟨conn, hold, rfl⟩
  refine h.worker hw hworkers (by rw [hepoch]) ?_ ?_ (by rw [hbufs])
    (fun a ha => harrived ▸ ha) ?_ hcommands ?_
  · intro c hc _
    rcases hnew with ⟨hconn, hattending⟩ | hnone
    · rw [hconn] at hc
      exact ⟨(Option.some.inj hc).symm, hattending⟩
    · rw [hnone] at hc
      cases hc
  · intro c hc hslot
    rcases hrecvs with he | ⟨-, he⟩
    · exact h.recvs c (he ▸ hc) hslot
    · rw [he] at hc
      rcases List.mem_append.mp hc with hc | hc
      · exact h.recvs c hc hslot
      · exact List.mem_singleton.mp hc
  · rw [harrived]
    refine Nat.le_trans h.landed ?_
    rcases hrecvs with he | ⟨-, he⟩
    · rw [he]
    · rw [he, List.countP_append]
      exact Nat.le_add_right _ _
  · rw [hserves]
    rcases hrecvs with he | ⟨hnone, he⟩
    · rw [he]
      split <;> simp
    · rw [he]
      simp [WorkerPc.serves, hnone]

/-- What `Close` does first, the handle of a client that stays does not survive. -/
theorem closeSocket_not_open (hopen : (s.pool client).isConnected = true)
    (hkept : ∀ k, (s.pool client).socket = some k → k ∈ (s.closeSocket client).sockets) :
    False := by
  obtain ⟨k, hk⟩ := Option.isSome_iff_exists.mp hopen
  have hm := hkept k hk
  simp [State.closeSocket, hk] at hm

/-- A worker that serves the connection, while the client stays. -/
theorem WorkerStep.here (h : WorkerStep cfg fb s ok pc u pc') (hpc : pc.conn = some conn)
    (hattending : pc.attending = true) (hopen : (s.pool conn.client).isConnected = true)
    (hkept : ∀ k, (s.pool conn.client).socket = some k → k ∈ u.sockets)
    (hremove : pc ≠ .removeByClient conn)
    (ha : Attended conn s) (hc : Conserved fb conn s h') (hw : s.workers[w]? = some pc) :
    Attended conn { u with workers := s.workers.set w pc' } ∧
      Conserved fb conn { u with workers := s.workers.set w pc' } h' := by
  have hserves : pc.serves conn.client = true := serves_iff.mpr ⟨conn, hpc, rfl⟩
  obtain ⟨hlanded, hbefore, hafter⟩ := ha.inHand_alone hw hserves
  have hstream := hc.stream
  rw [State.unframed, hlanded, hbefore, List.nil_append] at hstream
  cases h with
  | found | full | assign => cases hpc
  | associate | associateFailed | firstRecv | firstRecvFailed | mark | onAccept | consume | reset =>
    cases hattending
  | close | overflow | tooLarge | invalid | nextRecvFailed =>
    cases hpc
    exact (closeSocket_not_open hopen hkept).elim
  | remove =>
    cases hpc
    exact absurd rfl hremove
  | alreadyClosed hdown | nextRecvClosed hdown =>
    cases hpc
    rw [hdown] at hopen
    cases hopen
  | @kick c =>
    cases hpc
    refine ⟨ha.serve hw rfl (.inl ⟨rfl, rfl⟩) rfl rfl rfl rfl (.inl rfl) ha.commands, ?_⟩
    exact hc.elsewhere (elsewhere_same rfl rfl rfl rfl rfl rfl rfl) (inHand_set hw rfl)
  | @append c n frameBuf happend =>
    cases hpc
    obtain ⟨-, hdata⟩ := append_true happend
    refine ⟨ha.serve hw rfl (.inl ⟨rfl, rfl⟩) rfl rfl rfl rfl (.inl rfl) ha.commands, hc.legal, ?_⟩
    show _ = wire (h'.frames conn s) ++ (_ ++ (s.landed conn ++
      (s.workers.set w (.assemble conn)).flatMap (s.inHand conn)))
    rw [hlanded, hafter, hstream]
    simp [State.setClient, hdata, State.inHand]
  | @incomplete c hinspect =>
    cases hpc
    refine ⟨ha.serve hw rfl (.inl ⟨rfl, rfl⟩) rfl rfl rfl rfl (.inl rfl) ha.commands, ?_⟩
    exact hc.elsewhere (elsewhere_same rfl rfl rfl rfl rfl rfl rfl) (inHand_set hw rfl)
  | @command c payloadType payload frameSize hinspect =>
    cases hpc
    have hemit := inspect_spec fb (s.pool conn.client).frameBuf.data
    rw [hinspect] at hemit
    set cmd : PacketCommand := ⟨conn.client, payloadType, payload, conn.epoch⟩ with hcmd
    have hone : payloadsOn conn [cmd] = [payload] := payloadsOn_one cmd
    refine ⟨ha.serve hw rfl (.inl ⟨rfl, rfl⟩) rfl rfl rfl rfl (.inl rfl) ?_, ?_⟩
    · intro x hx hslot
      have hx : x ∈ (s.batch ++ s.queue) ++ [cmd] := by
        rw [List.append_assoc]
        exact hx
      rcases List.mem_append.mp hx with hx | hx
      · exact ha.commands x hx hslot
      · rw [List.mem_singleton.mp hx]
        rfl
    · have hframes : h'.taken ++ payloadsOn conn (s.batch ++ (s.queue ++ [cmd])) =
          h'.frames conn s ++ [payload] := by
        rw [← List.append_assoc s.batch, payloadsOn_append, hone, Inflow.frames, List.append_assoc]
      constructor
      · show ∀ p ∈ h'.taken ++ payloadsOn conn (s.batch ++ (s.queue ++ [cmd])), Legal fb p
        rw [hframes]
        intro p hp
        rcases List.mem_append.mp hp with hp | hp
        · exact hc.legal p hp
        · rw [List.mem_singleton.mp hp]
          exact legal_of_emit hemit
      · show h'.stream = wire (h'.taken ++ payloadsOn conn (s.batch ++ (s.queue ++ [cmd]))) ++
          (_ ++ (s.landed conn ++ (s.workers.set w (.assemble conn)).flatMap (s.inHand conn)))
        rw [hframes, hlanded, hafter, hstream, nextFrame_emit_eq hemit]
        simp [State.setClient, State.inHand, wire]
  | nextRecv =>
    cases hpc
    refine ⟨ha.serve hw rfl (.inr rfl) rfl rfl rfl rfl (.inr ⟨rfl, ?_⟩) ha.commands, hc.legal, ?_⟩
    · rw [← ha.current]
      rfl
    · show _ = wire (h'.frames conn s) ++ (_ ++ (s.landed conn ++
        (s.workers.set w .idle).flatMap (s.inHand conn)))
      rw [hlanded, hafter, hstream]
      rfl

theorem Attended.same (h : Attended conn s) (hepoch : t.epoch = s.epoch)
    (hbufs : t.recvBufs = s.recvBufs) (harrived : t.arrived = s.arrived)
    (hrecvs : t.recvs = s.recvs) (hworkers : t.workers = s.workers)
    (hcommands : ∀ cmd ∈ t.batch ++ t.queue, cmd ∈ s.batch ++ s.queue) : Attended conn t where
  current := by
    rw [State.current, hepoch]
    exact h.current
  recvs := hrecvs ▸ h.recvs
  arrived := by
    rw [harrived, show t.received = s.received by unfold State.received; rw [hbufs]]
    exact h.arrived
  landed := by
    rw [harrived, hrecvs]
    exact h.landed
  served := hworkers ▸ h.served
  commands cmd hm := h.commands cmd (hcommands cmd hm)
  once := by
    rw [State.tokens, hrecvs, hworkers]
    exact h.once

theorem unframed_same (hpool : ∀ i, (t.pool i).frameBuf = (s.pool i).frameBuf)
    (hbufs : t.recvBufs = s.recvBufs) (harrived : t.arrived = s.arrived)
    (hworkers : t.workers = s.workers) : t.unframed conn = s.unframed conn := by
  rw [State.unframed, State.unframed, hpool, State.landed, harrived,
    inHand_congr (congrFun hbufs conn.client), hworkers]
  rfl

theorem Conserved.same (h : Conserved fb conn s h')
    (hunframed : t.unframed conn = s.unframed conn)
    (hframes : h'.frames conn t = h'.frames conn s) : Conserved fb conn t h' :=
  ⟨hframes ▸ h.legal, by rw [hframes, hunframed]; exact h.stream⟩

/-! ## A receive -/

theorem onRecvDequeued_conn (c : Conn) (result : IoResult) :
    (onRecvDequeued c result).conn = none ∨
      (onRecvDequeued c result).conn = some c ∧ (onRecvDequeued c result).attending = true := by
  rcases onRecvDequeued_cases c result with ⟨-, he⟩ | ⟨-, he | ⟨n, he⟩⟩
  · rw [he]
    exact .inl rfl
  · rw [he]
    exact .inr ⟨rfl, rfl⟩
  · rw [he]
    exact .inr ⟨rfl, rfl⟩

theorem countP_erase_slot {recvs : List Conn} {c : Conn} (hm : c ∈ recvs) :
    ((recvs.erase c).countP fun x => x.client == client) + (if c.client = client then 1 else 0) =
      recvs.countP fun x => x.client == client := by
  rw [(List.perm_cons_erase hm).countP_eq, List.countP_cons]
  simp

/-- The receives of the slot are those of the connection. -/
theorem Attended.count_recvs (h : Attended conn s) :
    (s.recvs.countP fun c => c.client == conn.client) = s.recvs.count conn := by
  rw [List.count]
  refine List.countP_congr fun c hc => ?_
  simp only [beq_iff_eq]
  exact ⟨h.recvs c hc, fun he => he ▸ rfl⟩

theorem Attended.count_arrived (h : Attended conn s) :
    (s.arrived.countP fun a => a.1.client == conn.client) =
      (s.arrived.filter fun a => a.1 == conn).length := by
  rw [← List.countP_eq_length_filter]
  refine List.countP_congr fun a ha => ?_
  simp only [beq_iff_eq]
  exact ⟨fun hslot => (h.arrived a ha hslot).1, fun he => he ▸ rfl⟩

/-- For the receive that is pending on the slot nothing has arrived. -/
theorem Attended.none_landed (h : Attended conn s) (hpending : s.pending conn = true) :
    conn ∈ s.recvs ∧ (s.arrived.countP fun a => a.1.client == conn.client) = 0 := by
  simp only [State.pending, decide_eq_true_eq] at hpending
  have hm : conn ∈ s.recvs := List.count_pos_iff.mp (by omega)
  have hone := (h.unserved hm).2
  rw [h.count_recvs] at hone
  exact ⟨hm, by rw [h.count_arrived]; omega⟩

/-- Bytes arrive, for this slot or another one. -/
theorem Attended.arrive {c : Conn} {data : List UInt8} (ha : Attended conn s)
    (hc : Conserved fb conn s h') (hpending : s.pending c = true) :
    let t := { s with
      recvBufs := Function.update s.recvBufs c.client
        (data ++ (s.recvBufs c.client).drop data.length)
      arrived := s.arrived ++ [(c, data)] }
    Attended conn t ∧ Conserved fb conn t (Inflow.note conn s (.server (.arrive c data)) t h') := by
  intro t
  by_cases hslot : c.client = conn.client
  · have hm : c ∈ s.recvs := by
      simp only [State.pending, decide_eq_true_eq] at hpending
      exact List.count_pos_iff.mp (by omega)
    obtain rfl := ha.recvs c hm hslot
    obtain ⟨-, hzero⟩ := ha.none_landed hpending
    obtain ⟨hidle, hone⟩ := ha.unserved hm
    have hold : ∀ a ∈ s.arrived, a.1.client ≠ c.client := by
      intro a ha
      simpa using List.countP_eq_zero.mp hzero a ha
    have hreceived : t.received c.client data.length = data := by
      simp [t, State.received]
    refine ⟨⟨ha.current, ha.recvs, ?_, ?_, ha.served, ha.commands, ha.once⟩, ?_⟩
    · intro a hm hslot
      rcases List.mem_append.mp hm with hm | hm
      · exact absurd hslot (hold a hm)
      · rw [List.mem_singleton.mp hm]
        exact ⟨rfl, hreceived⟩
    · show (s.arrived ++ [(c, data)]).countP _ ≤ s.recvs.countP _
      rw [List.countP_append, hzero, hone]
      simp
    · have hstream := hc.stream
      rw [State.unframed, ha.landed_nil hzero, inHand_nil hidle] at hstream
      have hworkers : t.workers.flatMap (t.inHand c) = [] := inHand_nil hidle
      have hlanded : t.landed c = data := by
        have hnone := ha.landed_nil hzero
        rw [State.landed] at hnone
        simp [t, State.landed, hnone]
      simp only [Inflow.note, if_true]
      refine ⟨hc.legal, ?_⟩
      show h'.stream ++ data = wire (h'.frames c s) ++
        ((s.pool c.client).frameBuf.data ++ (t.landed c ++ t.workers.flatMap (t.inHand c)))
      rw [hlanded, hworkers, hstream]
      simp
  · have hne : c ≠ conn := fun he => hslot (he ▸ rfl)
    have hbuf : t.recvBufs conn.client = s.recvBufs conn.client := by
      simp [t, Ne.symm hslot]
    have hlanded : t.landed conn = s.landed conn := by
      simp [t, State.landed, hne]
    refine ⟨⟨ha.current, ha.recvs, ?_, ?_, ha.served, ha.commands, ha.once⟩, ?_⟩
    · intro a hm hslot'
      rw [State.received, hbuf]
      rcases List.mem_append.mp hm with hm | hm
      · exact ha.arrived a hm hslot'
      · rw [List.mem_singleton.mp hm] at hslot'
        exact absurd hslot' hslot
    · show (s.arrived ++ [(c, data)]).countP _ ≤ s.recvs.countP _
      simpa [List.countP_append, hslot] using ha.landed
    · simp only [Inflow.note, if_neg hne]
      refine hc.same ?_ rfl
      rw [State.unframed, hlanded, inHand_congr hbuf]
      rfl

/-- What a dequeued receive leaves of what has arrived. -/
theorem Attended.stillArrived {c : Conn} {result : IoResult} (ha : Attended conn s)
    (hm : c ∈ s.recvs) (hreports : s.reports c result = true) :
    ((s.stillArrived c result).countP fun a => a.1.client == conn.client) ≤
      ((s.recvs.erase c).countP fun x => x.client == conn.client) := by
  have hcount : _ = s.recvs.countP fun x => x.client == conn.client := countP_erase_slot hm
  have hless : (s.stillArrived c result).countP (fun a => a.1.client == conn.client) ≤
      s.arrived.countP fun a => a.1.client == conn.client := by
    cases result with
    | done data => exact List.erase_sublist.countP_le
    | failed error => exact Nat.le_refl _
  have hlanded := ha.landed
  by_cases hslot : c.client = conn.client
  · obtain rfl := ha.recvs c hm hslot
    rw [if_pos rfl] at hcount
    have hone := (ha.unserved hm).2
    -- the bytes of the one receive go with it
    have hnone : (s.stillArrived c result).countP (fun a => a.1.client == c.client) = 0 := by
      by_cases hpending : s.pending c = true
      · have hzero := (ha.none_landed hpending).2
        omega
      · cases result with
        | failed error => exact absurd hreports hpending
        | done data =>
          cases data with
          | nil => exact absurd hreports hpending
          | cons byte data =>
            have harrived : (c, byte :: data) ∈ s.arrived := List.contains_iff_mem.mp hreports
            have hperm := (List.perm_cons_erase harrived).countP_eq
              fun a => a.1.client == c.client
            rw [List.countP_cons] at hperm
            simp only [beq_self_eq_true, if_true] at hperm
            show (s.arrived.erase (c, byte :: data)).countP _ = 0
            omega
    omega
  · rw [if_neg hslot] at hcount
    omega

/-- A receive is dequeued. -/
theorem Attended.recvDone {c : Conn} {result : IoResult} (h : Attended conn s)
    (hw : s.workers[w]? = some .idle) (hm : c ∈ s.recvs) (hreports : s.reports c result = true) :
    Attended conn { s with recvs := s.recvs.erase c
                           arrived := s.stillArrived c result
                           workers := s.workers.set w (onRecvDequeued c result) } := by
  refine h.worker hw rfl rfl ?_ ?_ rfl (fun a ha => ?_) (h.stillArrived hm hreports) h.commands ?_
  · intro c' hc' hslot
    rcases onRecvDequeued_conn c result with hnone | ⟨hconn, hattending⟩
    · rw [hnone] at hc'
      cases hc'
    · rw [hconn] at hc'
      cases hc'
      exact ⟨h.recvs c hm hslot, hattending⟩
  · intro c' hc' hslot
    exact h.recvs c' (List.mem_of_mem_erase hc') hslot
  · cases result with
    | done data => exact List.mem_of_mem_erase ha
    | failed error => exact ha
  · have hcount : _ = s.recvs.countP fun x => x.client == conn.client := countP_erase_slot hm
    rw [← hcount]
    rcases onRecvDequeued_conn c result with hnone | ⟨hconn, -⟩
    · simp only [WorkerPc.serves, hnone, Option.any_none]
      simp
      omega
    · simp only [WorkerPc.serves, hconn, Option.any_some, beq_iff_eq]
      split <;> simp

theorem landed_erase {arrived : List (Conn × List UInt8)} {a : Conn × List UInt8}
    (ha : a.1 ≠ conn) :
    ((arrived.erase a).flatMap fun b => if b.1 = conn then b.2 else []) =
      arrived.flatMap fun b => if b.1 = conn then b.2 else [] := by
  induction arrived with
  | nil => rfl
  | cons b arrived ih =>
    by_cases hb : b = a
    · subst hb
      simp [ha]
    · rw [List.erase_cons_tail (by simpa using hb), List.flatMap_cons, List.flatMap_cons, ih]

/-- The one receive of the slot goes, and its bytes into the hands of the worker. -/
theorem Attended.taken_up {result : IoResult} (ha : Attended conn s) (hm : conn ∈ s.recvs)
    (hreports : s.reports conn result = true) :
    s.landed conn = s.inHand conn (onRecvDequeued conn result) := by
  have hone := (ha.unserved hm).2
  have hquiet : s.pending conn = true →
      (∀ n, onRecvDequeued conn result ≠ .append conn n) →
      s.landed conn = s.inHand conn (onRecvDequeued conn result) := by
    intro hpending hnot
    rw [ha.landed_nil (ha.none_landed hpending).2]
    cases hpc : onRecvDequeued conn result with
    | append c n =>
      have hc : c = conn := by
        rcases onRecvDequeued_conn conn result with hnone | ⟨hconn, -⟩
        · rw [hpc] at hnone
          cases hnone
        · rw [hpc] at hconn
          exact Option.some.inj hconn
      exact absurd (hc ▸ hpc) (hnot n)
    | _ => rfl
  cases result with
  | failed error =>
    refine hquiet hreports fun n he => ?_
    have hnone := onRecvDequeued_failed conn error
    rw [he] at hnone
    cases hnone
  | done data =>
    cases data with
    | nil => exact hquiet hreports nofun
    | cons byte data =>
      have harrived : (conn, byte :: data) ∈ s.arrived := List.contains_iff_mem.mp hreports
      obtain ⟨pre, post, hsplit⟩ := List.append_of_mem harrived
      have hlanded := ha.landed
      rw [hone, hsplit, List.countP_append, List.countP_cons] at hlanded
      simp only [beq_self_eq_true, if_true] at hlanded
      have hnone : ∀ xs : List (Conn × List UInt8),
          (xs.countP fun a => a.1.client == conn.client) = 0 →
          (xs.flatMap fun a => if a.1 = conn then a.2 else []) = [] := by
        intro xs hzero
        rw [List.flatMap_eq_nil_iff]
        intro a hmem
        rw [if_neg]
        rintro rfl
        exact List.countP_eq_zero.mp hzero a hmem (by simp)
      have hheld := (ha.arrived _ harrived rfl).2
      rw [onRecvDequeued_cons, State.landed, hsplit, List.flatMap_append, List.flatMap_cons,
        hnone pre (by omega), hnone post (by omega)]
      simpa [State.inHand] using hheld.symm

theorem Conserved.recvDone {c : Conn} {result : IoResult} (hc : Conserved fb conn s h')
    (ha : Attended conn s) (hw : s.workers[w]? = some .idle) (hm : c ∈ s.recvs)
    (hreports : s.reports c result = true) :
    Conserved fb conn { s with recvs := s.recvs.erase c
                               arrived := s.stillArrived c result
                               workers := s.workers.set w (onRecvDequeued c result) } h' := by
  refine hc.same ?_ rfl
  rw [State.unframed, State.unframed]
  refine congrArg ((s.pool conn.client).frameBuf.data ++ ·) ?_
  show State.landed _ conn ++ (s.workers.set w (onRecvDequeued c result)).flatMap (s.inHand conn) =
    s.landed conn ++ s.workers.flatMap (s.inHand conn)
  by_cases hslot : c.client = conn.client
  · obtain rfl := ha.recvs c hm hslot
    obtain ⟨hidle, hone⟩ := ha.unserved hm
    have hgone : State.landed { s with recvs := s.recvs.erase c
                                       arrived := s.stillArrived c result
                                       workers := s.workers.set w (onRecvDequeued c result) } c =
        [] := by
      refine (ha.recvDone hw hm hreports).landed_nil ?_
      have hless := ha.stillArrived hm hreports
      have hcount : _ = s.recvs.countP fun x => x.client == c.client := countP_erase_slot hm
      rw [if_pos rfl] at hcount
      show (s.stillArrived c result).countP _ = 0
      omega
    obtain ⟨pre, post, hsplit, hset⟩ := split_worker hw
    rw [hsplit, List.countP_append, List.countP_cons] at hidle
    rw [hgone, hset, hsplit, ha.taken_up hm hreports]
    simp only [List.flatMap_append, List.flatMap_cons]
    rw [inHand_nil (by omega : pre.countP _ = 0), inHand_nil (by omega : post.countP _ = 0)]
    simp [State.inHand]
  · have hne : c ≠ conn := fun he => hslot (he ▸ rfl)
    have hother : s.inHand conn (onRecvDequeued c result) = [] := by
      refine inHand_other fun c' hc' => ?_
      rcases onRecvDequeued_conn c result with hnone | ⟨hconn, -⟩
      · rw [hnone] at hc'
        cases hc'
      · rw [hconn] at hc'
        cases hc'
        exact hslot
    rw [inHand_set hw hother]
    refine congrArg (· ++ s.workers.flatMap (s.inHand conn)) ?_
    cases result with
    | failed error => rfl
    | done data => exact landed_erase hne

/-! ## The logic thread -/

/-- A command that leaves the batch is written down, and nothing else happens to the commands. -/
theorem LogicStep.inflow {choice : Choice} (hs : LogicStep s choice t) (h : Inflow) :
    (h.note conn s (.server (.logic choice)) t).frames conn t = h.frames conn s ∧
      (h.note conn s (.server (.logic choice)) t).stream = h.stream ∧
      ∀ cmd ∈ t.batch ++ t.queue, cmd ∈ s.batch ++ s.queue := by
  by_cases hready : s.handler = .ready
  · obtain ⟨cmd, batch, hb, ht⟩ := hs.dispatched hready
    have hrest : t.batch = batch ∧ t.queue = s.queue := by
      rcases ht with rfl | ⟨pc, -, rfl⟩ | ⟨pc, sequence, rfl, -⟩
      · exact ⟨rfl, rfl⟩
      · exact ⟨rfl, rfl⟩
      · exact ⟨rfl, rfl⟩
    simp only [Inflow.note, hready, hb, Inflow.frames, hrest.1, hrest.2]
    refine ⟨?_, trivial, fun x hx => List.mem_cons_of_mem cmd hx⟩
    rw [List.append_assoc, ← payloadsOn_append]
    rfl
  · have hnote : h.note conn s (.server (.logic choice)) t = h := by
      simp only [Inflow.note]
      split
      · exact absurd ‹_› hready
      · rfl
    have hsame : t.batch = s.batch ∧ t.queue = s.queue := by
      cases hs with
      | skip hh | startJoin _ _ hh | startLeave _ hh | startChat _ _ hh | reject hh
      | rejectClosed hh => exact absurd hh hready
      | _ => exact ⟨rfl, rfl⟩
    rw [hnote, Inflow.frames, Inflow.frames, hsame.1, hsame.2]
    exact ⟨rfl, rfl, fun _ hx => hx⟩

theorem Attended.logic {choice : Choice} (ha : Attended conn s) (hc : Conserved fb conn s h')
    (hs : s.logicStep fb choice = some t) :
    Attended conn t ∧ Conserved fb conn t (h'.note conn s (.server (.logic choice)) t) := by
  have hstep := logicStep_inv hs
  obtain ⟨hframes, hstream, hcommands⟩ :
    (h'.note conn s (.server (.logic choice)) t).frames conn t = h'.frames conn s ∧
      (h'.note conn s (.server (.logic choice)) t).stream = h'.stream ∧
      ∀ cmd ∈ t.batch ++ t.queue, cmd ∈ s.batch ++ s.queue := hstep.inflow h'
  obtain ⟨hworkers, hrecvs⟩ := hstep.network
  obtain ⟨harrived, hbufs⟩ := hstep.buffers
  refine ⟨ha.same hstep.noNewSocket.epoch hbufs harrived hrecvs hworkers hcommands, ?_, ?_⟩
  · rw [hframes]
    exact hc.legal
  · rw [hframes, hstream, unframed_same (logicStep_frameBuf hs) hbufs harrived hworkers]
    exact hc.stream

/-! ## Any thread -/

/-- A worker does not put another socket into the slot while the client stays. -/
theorem Stays.not_assign {k : SocketHandle}
    (hstays : Stays cfg fb client s (.server (.worker w ok))) (howned : SocketsOwned s)
    (hs : s.step cfg fb (.worker w ok) = some t) :
    s.workers[w]? ≠ some (.assignSocket k client) := by
  intro hw
  have hsocket := hstays.socket (t := t) hs
  have ht : (t.pool client).socket = some k := by
    simp only [State.step, hw, Option.some.injEq] at hs
    rw [← hs]
    simp [State.workerStep, State.setWorker]
  have hheld : s.holds (.inr w) = some k := by
    rw [State.holds, hw]
    rfl
  have hslot : s.holds (.inl client) = some k := by
    rw [State.holds, ← hsocket, ht]
  cases howned.unique hheld hslot

theorem Attended.step {l : RoomLabel} (ha : Attended conn s) (hc : Conserved fb conn s h')
    (howned : SocketsOwned s) (hopen : (s.pool conn.client).isConnected = true)
    (hstays : Stays cfg fb conn.client s l) (hs : s.roomStep cfg fb l = some t) :
    Attended conn t ∧ Conserved fb conn t (h'.note conn s l t) := by
  have hquiet : ∀ {new : WorkerPc} {w : Nat} {u : State}, s.workers[w]? = some .idle →
      new.conn = none → u.workers = s.workers.set w new → Elsewhere conn.client s u →
      Attended conn u ∧ Conserved fb conn u h' := by
    intro new w u hw hnew hworkers he
    have hnone : ∀ c, new.conn = some c → c.client ≠ conn.client := by
      rw [hnew]
      nofun
    refine ⟨ha.elsewhere hw he hworkers hnone, hc.elsewhere he ?_⟩
    rw [hworkers]
    exact inHand_set hw (inHand_other hnone)
  cases l with
  | kickRoom w room =>
    obtain ⟨c, -, rfl⟩ := roomStep_kickRoom hs
    exact ⟨ha.same rfl rfl rfl rfl rfl fun _ hm => hm, hc.same rfl rfl⟩
  | kicked w =>
    obtain ⟨c, hw, rfl⟩ := roomStep_kicked hs
    have hold := ha.served _ (List.mem_of_getElem? hw) c rfl
    refine ⟨ha.worker hw rfl rfl ?_ ha.recvs rfl (fun _ hm => hm) ha.landed ha.commands
      (Nat.le_refl _), ?_⟩
    · rintro c' he hslot
      cases he
      exact ⟨(hold hslot).1, rfl⟩
    · exact hc.elsewhere (elsewhere_same rfl rfl rfl rfl rfl rfl rfl) (inHand_set hw rfl)
  | server l =>
    have hs : s.step cfg fb l = some t := hs
    cases l with
    | accepted w k =>
      obtain ⟨hw, -, rfl⟩ := step_accepted hs
      exact hquiet hw rfl rfl (elsewhere_same rfl rfl rfl rfl rfl rfl rfl)
    | sendDone w c result =>
      obtain ⟨hw, -, rfl⟩ := step_sendDone hs
      refine hquiet hw ?_ rfl (elsewhere_same rfl rfl rfl rfl rfl rfl rfl)
      rcases onSendDequeued_cases c result with he | he
      · rw [he]
        rfl
      · rw [he]
        rfl
    | arrive c data =>
      obtain ⟨hpending, -, -, rfl⟩ := step_arrive hs
      exact ha.arrive hc hpending
    | recvDone w c result =>
      have hreports := step_reports hs
      obtain ⟨hw, hm, rfl⟩ := step_recvDone hs
      exact ⟨ha.recvDone hw hm hreports, hc.recvDone ha hw hm hreports⟩
    | tick =>
      obtain ⟨-, hbatch, rfl⟩ := step_tick hs
      refine ⟨ha.same rfl rfl rfl rfl rfl ?_, hc.same rfl ?_⟩
      · simp [hbatch]
      · simp [Inflow.frames, hbatch]
    | logic choice => exact ha.logic hc hs
    | worker w ok =>
      obtain ⟨pc, u, pc', hw, hstep, rfl⟩ := step_worker hs
      by_cases hslot : ∃ c, pc.conn = some c ∧ c.client = conn.client
      · obtain ⟨c, hpc, hslot⟩ := hslot
        obtain ⟨rfl, hattending⟩ := ha.served pc (List.mem_of_getElem? hw) c hpc hslot
        refine hstep.here hpc hattending hopen ?_ ?_ ha hc hw
        · intro k hk
          refine hstays.open hs k ?_
          rw [hstays.socket hs, hk]
        · rintro rfl
          exact hstays.session hw rfl
      · have hother : ∀ c, pc.conn = some c → c.client ≠ conn.client :=
          fun c hc he => hslot ⟨c, hc, he⟩
        have hassign : ∀ k, pc ≠ .assignSocket k conn.client := by
          rintro k rfl
          exact hstays.not_assign howned hs hw
        obtain ⟨he, hother'⟩ := hstep.elsewhere hother hassign
        have he' : Elsewhere conn.client s { u with workers := s.workers.set w pc' } :=
          ⟨he.frameBuf, he.epoch, he.recvBufs, he.arrived, he.batch, he.queue, he.recvs⟩
        refine ⟨ha.elsewhere hw he' rfl hother', hc.elsewhere he' (inHand_set hw ?_)⟩
        rw [inHand_other hother, inHand_other hother']

end

/-! ## Whole runs -/

/-- What a payload asks for. -/
def askOf (fb : FlatBuffers) (payload : List UInt8) : Option Ask :=
  match fb.getPacket payload with
  | none => none
  | some packet =>
    match packet.payload with
    | .joinRoomRequest (some _) => some .join
    | .leaveRoomRequest (some _) => some .leave
    | .sendMessageRequest (some _) => some .say
    | _ => none

section
variable {cfg : Config} {fb : FlatBuffers} {s t : State} {conn : Conn} {h : Inflow}
  {choice : Choice}

/-- The handler that a command begins is the one that its payload asks for. -/
theorem asked_dispatch (hready : s.handler = .ready) (cmd : PacketCommand)
    (batch : List PacketCommand) :
    (({ s with batch } : State).dispatch fb cmd).handler.asked.map
        (fun asked => (asked.1.cmd, asked.2)) = (askOf fb cmd.data).map fun ask => (cmd, ask) := by
  unfold State.dispatch askOf
  cases fb.getPacket cmd.data with
  | none => simp [hready, HandlerPc.asked]
  | some packet =>
    simp only
    cases packet.payload with
    | joinRoomRequest table =>
      cases table with
      | none => simp [hready, HandlerPc.asked]
      | some payload => rfl
    | leaveRoomRequest table =>
      cases table with
      | none => simp [hready, HandlerPc.asked]
      | some payload => rfl
    | sendMessageRequest table =>
      cases table with
      | none => simp [hready, HandlerPc.asked]
      | some payload => rfl
    | other type =>
      cases hc : (s.pool cmd.client).isConnected with
      | true => simp [HandlerPc.asked]
      | false => simp [State.closeSocket, hready, HandlerPc.asked]

/-- What is dispatched for the slot is what the payloads that are taken ask for. -/
theorem Attended.asks (ha : Attended conn s) (hs : s.logicStep fb choice = some t) :
    (h.note conn s (.server (.logic choice)) t).taken.filterMap (askOf fb) =
      h.taken.filterMap (askOf fb) ++ dispatched conn.client s (.server (.logic choice)) t := by
  by_cases hready : s.handler = .ready
  · cases hb : s.batch with
    | nil => simp [State.logicStep, hready, hb] at hs
    | cons cmd batch =>
      have hcommand : cmd.client = conn.client → cmd.conn = conn :=
        ha.commands cmd (by simp [hb])
      have ht : ({ s with batch } : State).dispatch fb cmd = t := by
        simpa [State.logicStep, hready, hb] using hs
      have hasked : t.handler.asked.map (fun asked => (asked.1.cmd, asked.2)) =
          (askOf fb cmd.data).map fun ask => (cmd, ask) := by
        rw [← ht]
        exact asked_dispatch hready cmd batch
      simp only [Inflow.note, hready, hb, List.filterMap_append]
      congr 1
      simp only [dispatched, hready]
      cases hpc : t.handler.asked with
      | none =>
        rw [hpc, Option.map_none, eq_comm, Option.map_eq_none_iff] at hasked
        by_cases hown : cmd.conn = conn
        · simp [payloadsOn, hown, hasked]
        · simp [payloadsOn, hown]
      | some asked =>
        obtain ⟨call, ask⟩ := asked
        rw [hpc, Option.map_some, eq_comm, Option.map_eq_some_iff] at hasked
        obtain ⟨ask', hask, he⟩ := hasked
        simp only [Prod.mk.injEq] at he
        obtain ⟨hcmd, rfl⟩ := he
        by_cases hown : cmd.conn = conn
        · have hclient : call.cmd.client = conn.client := by rw [← hcmd, ← hown]; rfl
          simp [payloadsOn, hown, hask, hclient]
        · have hclient : call.cmd.client ≠ conn.client := by
            rw [← hcmd]
            exact fun he => hown (hcommand he)
          simp [payloadsOn, hown, hclient]
  · have hnote : h.note conn s (.server (.logic choice)) t = h := by
      simp only [Inflow.note]
      split
      · exact absurd ‹_› hready
      · rfl
    have hnone : dispatched conn.client s (.server (.logic choice)) t = [] := by
      unfold dispatched
      split
      · rename_i he _
        exact absurd he hready
      · rfl
    rw [hnote, hnone, List.append_nil]

theorem Attended.all_asks {l : RoomLabel} (ha : Attended conn s)
    (hs : s.roomStep cfg fb l = some t) :
    (h.note conn s l t).taken.filterMap (askOf fb) =
      h.taken.filterMap (askOf fb) ++ dispatched conn.client s l t := by
  by_cases hlogic : ∃ choice, l = .server (.logic choice)
  · obtain ⟨choice, rfl⟩ := hlogic
    exact ha.asks hs
  · have hnote : (h.note conn s l t).taken = h.taken := by
      unfold Inflow.note
      split
      · split <;> rfl
      · exact absurd ⟨_, rfl⟩ hlogic
      · rfl
    have hnone : dispatched conn.client s l t = [] := by
      unfold dispatched
      split
      · exact absurd ⟨_, rfl⟩ hlogic
      · rfl
    rw [hnote, hnone, List.append_nil]

end

/-- A connection has been set up, and nothing is left on its slot of any other. -/
structure Opened (conn : Conn) (s : State) : Prop where
  handler : s.handler = .ready
  current : s.current conn.client = conn
  connected : (s.pool conn.client).isConnected = true
  session : ∃ session ∈ s.sessions.sessions, session.tcpClient = conn.client
  users : ∀ u ∈ s.users.users, ∀ v ∈ s.users.users, u.session.tcpClient = conn.client →
    v.session.tcpClient = conn.client → u = v
  recvs : (s.recvs.filter fun c => c.client == conn.client) = [conn]
  arrived : ∀ a ∈ s.arrived, a.1.client ≠ conn.client
  workers : ∀ pc ∈ s.workers, ∀ c, pc.conn = some c → c.client ≠ conn.client
  commands : ∀ cmd ∈ s.batch ++ s.queue, cmd.client ≠ conn.client
  empty : (s.pool conn.client).frameBuf.data = []

/-- The server with what a connection sends and what becomes of it. -/
def inflowServer (cfg : Config) (fb : FlatBuffers) (conn : Conn) (s₀ : State) :
    System (State × Inflow) RoomLabel :=
  ((roomServer cfg fb).recording ⟨[], []⟩ (Inflow.note conn)).startingAt (s₀, ⟨[], []⟩)

section
variable {cfg : Config} {fb : FlatBuffers} {s₀ : State} {conn : Conn} {p : State × Inflow}

theorem Opened.attended (h : Opened conn s₀) : Attended conn s₀ where
  current := h.current
  recvs c hc hslot := by
    have hm : c ∈ s₀.recvs.filter fun c => c.client == conn.client :=
      List.mem_filter.mpr ⟨hc, by simpa using hslot⟩
    rw [h.recvs] at hm
    exact List.mem_singleton.mp hm
  arrived a ha hslot := absurd hslot (h.arrived a ha)
  landed := by
    rw [List.countP_eq_zero.mpr fun a ha => by simpa using h.arrived a ha]
    exact Nat.zero_le _
  served pc hpc c hc hslot := absurd hslot (h.workers pc hpc c hc)
  commands cmd hm hslot := absurd hslot (h.commands cmd hm)
  once := by
    have hzero : s₀.workers.countP (fun pc => pc.serves conn.client) = 0 := by
      rw [List.countP_eq_zero]
      intro pc hpc hserves
      obtain ⟨c, hc, hslot⟩ := serves_iff.mp hserves
      exact h.workers pc hpc c hc hslot
    rw [State.tokens, List.countP_eq_length_filter, h.recvs, hzero]
    rfl

theorem Opened.conserved (h : Opened conn s₀) : Conserved fb conn s₀ ⟨[], []⟩ := by
  have hframes : (⟨[], []⟩ : Inflow).frames conn s₀ = [] := by
    rw [Inflow.frames, payloadsOn_elsewhere h.commands]
    rfl
  have hlanded : s₀.landed conn = [] :=
    h.attended.landed_nil (List.countP_eq_zero.mpr fun a ha => by simpa using h.arrived a ha)
  have hworkers : s₀.workers.flatMap (s₀.inHand conn) = [] := by
    rw [List.flatMap_eq_nil_iff]
    intro pc hpc
    exact inHand_other (h.workers pc hpc)
  refine ⟨?_, ?_⟩
  · rw [hframes]
    nofun
  · rw [hframes, State.unframed, h.empty, hlanded, hworkers]
    rfl

/-- The client stands where the commands have put it, and all of its bytes are accounted for. -/
theorem inflow_of_reach
    (h₀ : (roomServer cfg fb).Reach (fun s l => FreshHandles s l = true) s₀)
    (hopened : Opened conn s₀)
    (h : (inflowServer cfg fb conn s₀).Reach (fun p l => Stays cfg fb conn.client p.1 l) p) :
    (Standing conn.client ((p.2.taken.filterMap (askOf fb)).foldl Ask.after
      (s₀.member conn.client)) p.1 ∧ SocketsOwned p.1) ∧
        Attended conn p.1 ∧ Conserved fb conn p.1 p.2 := by
  refine h.invariant (I := fun p => (Standing conn.client ((p.2.taken.filterMap
    (askOf fb)).foldl Ask.after (s₀.member conn.client)) p.1 ∧ SocketsOwned p.1) ∧
      Attended conn p.1 ∧ Conserved fb conn p.1 p.2) ?_ ?_
  · refine ⟨⟨?_, socketsOwned_of_roomReach h₀⟩, hopened.attended, hopened.conserved⟩
    exact standing_start h₀ hopened.handler hopened.connected hopened.session hopened.users
  · intro p q l _ hi hok hs
    have hs : ((roomServer cfg fb).recording ⟨[], []⟩ (Inflow.note conn)).step p l = some q := hs
    obtain ⟨hstep, hnote⟩ := System.recording_step hs
    obtain ⟨⟨hstanding, howned⟩, hattended, hconserved⟩ := hi
    refine ⟨⟨?_, howned.roomStep hok.fresh hstep⟩, ?_⟩
    · rw [hnote, hattended.all_asks hstep, List.foldl_append]
      exact hstanding.step howned hok hstep
    · rw [hnote]
      exact hattended.step hconserved howned hstanding.connected hok hstep

end

/-- **No byte is lost and none comes twice.** In every run from a connection that was just set up,
while the client stays, what was received is what was dispatched, what waits in the batch and in
the queue, what the frame buffer holds and what is still in the receive buffer, one behind the
other. -/
theorem received_bytes_accounted (cfg : Config) (fb : FlatBuffers) (conn : Conn) {s₀ : State}
    {p : State × Inflow}
    (h₀ : (roomServer cfg fb).Reach (fun s l => FreshHandles s l = true) s₀)
    (hopened : Opened conn s₀)
    (h : (inflowServer cfg fb conn s₀).Reach (fun p l => Stays cfg fb conn.client p.1 l) p) :
    p.2.stream = wire p.2.taken ++ (wire (payloadsOn conn (p.1.batch ++ p.1.queue)) ++
        ((p.1.pool conn.client).frameBuf.data ++
          (p.1.landed conn ++ p.1.workers.flatMap (p.1.inHand conn)))) ∧
      ∀ payload ∈ p.2.taken ++ payloadsOn conn (p.1.batch ++ p.1.queue), Legal fb payload := by
  obtain ⟨-, -, hconserved⟩ := inflow_of_reach h₀ hopened h
  refine ⟨?_, hconserved.legal⟩
  have hstream := hconserved.stream
  rw [Inflow.frames, wire_append, List.append_assoc] at hstream
  exact hstream

/-- The checks of `Opened` that a run can make. -/
def State.justOpened (conn : Conn) (s : State) : Bool :=
  s.handler.isReady && s.current conn.client == conn && (s.pool conn.client).isConnected &&
    s.sessions.sessions.any (fun session => session.tcpClient == conn.client) &&
    !s.member conn.client && (s.recvs.filter fun c => c.client == conn.client) == [conn] &&
    s.arrived.all (fun a => a.1.client != conn.client) &&
    s.workers.all (fun pc => !pc.serves conn.client) &&
    (s.batch ++ s.queue).all (fun cmd => cmd.client != conn.client) &&
    (s.pool conn.client).frameBuf.data == []

theorem opened_of_check {conn : Conn} {s : State} (h : s.justOpened conn = true) :
    Opened conn s ∧ s.member conn.client = false := by
  simp only [State.justOpened, Bool.and_eq_true, beq_iff_eq, Bool.not_eq_true', List.any_eq_true,
    List.all_eq_true, bne_iff_ne, HandlerPc.isReady_iff] at h
  obtain ⟨⟨⟨⟨⟨⟨⟨⟨⟨hready, hcurrent⟩, hopen⟩, hsession⟩, hmember⟩, hrecvs⟩, harrived⟩, hworkers⟩,
    hcommands⟩, hempty⟩ := h
  refine ⟨⟨hready, hcurrent, hopen, hsession, ?_, hrecvs, harrived, ?_, hcommands, hempty⟩,
    hmember⟩
  · intro u hu v _ hcu
    have hnone := member_eq_true.mpr ⟨u, hu, hcu⟩
    rw [hmember] at hnone
    cases hnone
  · intro pc hpc c hc hslot
    have hserves := serves_iff.mpr ⟨c, hc, hslot⟩
    rw [hworkers pc hpc] at hserves
    cases hserves

/-- Four commands in two receives, and a second client in between. -/
theorem received_bytes_accounted_twice : ∃ (s : State) (p : State × Inflow),
    (inflowServer smallServer conversation ⟨0, 1⟩ s).Reach
        (fun p l => Stays smallServer conversation 0 p.1 l) p ∧
      p.2.taken = [joinBytes, chatBytes, leaveBytes, joinBytes] ∧ p.2.stream = wire p.2.taken := by
  have hrun : (((roomServer smallServer conversation).exec (fun s l => FreshHandles s l = true)
      (State.new smallServer) bothConnect).bind fun s =>
        ((inflowServer smallServer conversation ⟨0, 1⟩ s).exec
          (fun p l => Stays smallServer conversation 0 p.1 l) (s, ⟨[], []⟩) comesBack).map fun p =>
            s.justOpened ⟨0, 1⟩ && (p.2.taken == [joinBytes, chatBytes, leaveBytes, joinBytes] &&
              (payloadsOn ⟨0, 1⟩ (p.1.batch ++ p.1.queue) == [] &&
                ((p.1.pool 0).frameBuf.data == [] && (p.1.landed ⟨0, 1⟩ == [] &&
                  p.1.workers.flatMap (p.1.inHand ⟨0, 1⟩) == []))))) = some true := by
    decide +kernel
  obtain ⟨s, hs, hrest⟩ := Option.bind_eq_some_iff.mp hrun
  obtain ⟨p, hp, hcheck⟩ := Option.map_eq_some_iff.mp hrest
  simp only [Bool.and_eq_true, beq_iff_eq] at hcheck
  obtain ⟨hopened, htaken, hqueue, hbuf, hlanded, hworkers⟩ := hcheck
  have h₀ : (roomServer smallServer conversation).Reach (fun s l => FreshHandles s l = true) s :=
    System.Reach.start.exec hs
  have h := System.Reach.start.exec hp
  obtain ⟨hstream, -⟩ := received_bytes_accounted smallServer conversation ⟨0, 1⟩ h₀
    (opened_of_check hopened).1 h
  refine ⟨s, p, h, htaken, ?_⟩
  rw [hstream, hqueue, hbuf, hlanded, hworkers]
  simp [wire]

end Highp.Chat

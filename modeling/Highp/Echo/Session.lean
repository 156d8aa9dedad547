import Mathlib.Algebra.BigOperators.Group.List.Basic
import Mathlib.Algebra.GroupWithZero.Nat
import Highp.Client.PacketStream

/-! The echo client and the echo server on one connection, and what the calls of `Send` print. -/

namespace Highp.Echo
open Highp.Lib Highp.Network
open Highp.Client (sendFrameBytes sendFrameBytes_eq INT_MAX)

/-- How a call of `Send` ends. -/
inductive SendEnd
  | sendFailed
  | recvFailed
  | received (data : List UInt8)
  deriving DecidableEq

def SendEnd.failed : SendEnd → Bool
  | .received _ => false
  | _ => true

/-- The client in `Send`, with the message. -/
inductive SendPc
  | outside
  /-- In `SendAll`, with what is still to be sent. -/
  | sending (message rest : List UInt8)
  /-- In `RecvExact`, with what it has received: of the header, or of a payload of this size. -/
  | header (message got : List UInt8)
  | payload (message : List UInt8) (size : Nat) (got : List UInt8)
  deriving DecidableEq

/-- `messages` are those that `main` has not sent yet, and `printed` is how the calls of `Send` have
ended. `client` is the one of the server. Its kernel sends the bytes of the send buffer one by one;
`sends` says for each send how many have gone, and of how many. The connection may break off, and
once a call on the socket of the echo client has failed (`dead`), so do those after it. -/
structure EchoSession where
  messages : List (List UInt8)
  pc : SendPc
  printed : List SendEnd
  dead : Bool
  broken : Bool
  toServer : List UInt8
  client : Client
  sends : List (Nat × Nat)
  toClient : List UInt8

inductive SessionLabel
  /-- The client goes on without a call on its socket. -/
  | go
  /-- `send` or `recv` moves so many bytes. -/
  | send (n : Nat)
  | recv (n : Nat)
  /-- It fails. -/
  | fail
  /-- A receive of the server completes, and `WSASend` accepts what `OnRecv` sends back or not. -/
  | received (n : Nat) (accepted : Bool)
  /-- The kernel of the server sends a byte. -/
  | transmit
  | breakOff

namespace EchoSession

/-- The end of `Send`. -/
def finish (x : EchoSession) (sendEnd : SendEnd) : EchoSession :=
  { x with pc := .outside, printed := x.printed ++ [sendEnd] }

def go (x : EchoSession) : Option EchoSession :=
  match x.pc with
  | .outside =>
    match x.messages with
    | [] => none
    | message :: messages =>
      some { x with messages, pc := .sending message (sendFrameBytes message) }
  | .sending message rest => if rest = [] then some { x with pc := .header message [] } else none
  | .header message got =>
    if got.length < kHeaderSize then none
    else if byteSwap32 (loadLE32 got) > maxFrameSize then some (x.finish .recvFailed)
    else if byteSwap32 (loadLE32 got) = 0 then some (x.finish (.received []))
    else some { x with pc := .payload message (byteSwap32 (loadLE32 got)) [] }
  | .payload _ size got => if got.length < size then none else some (x.finish (.received got))

def send (x : EchoSession) (n : Nat) : Option EchoSession :=
  match x.pc with
  | .sending message rest =>
    if x.dead = false ∧ 0 < n ∧ n ≤ min rest.length INT_MAX then
      some { x with
        pc := .sending message (rest.drop n), toServer := x.toServer ++ rest.take n }
    else none
  | _ => none

def recv (x : EchoSession) (n : Nat) : Option EchoSession :=
  if x.dead = false ∧ 0 < n ∧ n ≤ x.toClient.length then
    match x.pc with
    | .header message got =>
      if got.length + n ≤ kHeaderSize then
        some { x with
          pc := .header message (got ++ x.toClient.take n), toClient := x.toClient.drop n }
      else none
    | .payload message size got =>
      if got.length + n ≤ size then
        some { x with
          pc := .payload message size (got ++ x.toClient.take n), toClient := x.toClient.drop n }
      else none
    | _ => none
  else none

/-- Only a call fails: `Send` has something to send or to receive. -/
def fail (x : EchoSession) : Option EchoSession :=
  if x.broken then
    match x.pc with
    | .sending _ (_ :: _) => some ({ x with dead := true }.finish .sendFailed)
    | .header _ got =>
      if got.length < kHeaderSize then some ({ x with dead := true }.finish .recvFailed) else none
    | .payload _ size got =>
      if got.length < size then some ({ x with dead := true }.finish .recvFailed) else none
    | _ => none
  else none

/-- `HandleRecv` with `OnRecv`, which sends back what came. -/
def received (x : EchoSession) (n : Nat) (accepted : Bool) : Option EchoSession :=
  if x.broken = false ∧ 0 < n ∧ n ≤ min x.toServer.length recvBufferSize then
    let client := x.client.fillSend (x.toServer.take n)
    if accepted then
      some { x with
        toServer := x.toServer.drop n, client
        sends := x.sends ++ [(0, client.sendOverlapped.len)] }
    -- `CloseClient`
    else some { x with toServer := x.toServer.drop n, client, broken := true }
  else none

/-- The bytes of the send buffer. -/
def sendBuffer (x : EchoSession) : List UInt8 := List.ofFn x.client.sendOverlapped.buf

def transmit (x : EchoSession) : Option EchoSession :=
  match x.sends with
  | [] => none
  | (gone, len) :: sends =>
    (x.sendBuffer[gone]?).map fun byte =>
      { x with
        toClient := x.toClient ++ [byte]
        sends := if gone + 1 < len then (gone + 1, len) :: sends else sends }

def step (x : EchoSession) : SessionLabel → Option EchoSession
  | .go => x.go
  | .send n => x.send n
  | .recv n => x.recv n
  | .fail => x.fail
  | .received n accepted => x.received n accepted
  | .transmit => x.transmit
  | .breakOff => some { x with broken := true }

end EchoSession

/-- The session of a client that has connected, with the messages of its `main`. -/
def echoSession (client : Client) (messages : List (List UInt8)) :
    System EchoSession SessionLabel where
  start := ⟨messages, .outside, [], false, false, [], client, [], []⟩
  step := EchoSession.step

/-- What `Send` has still to write. -/
def SendPc.rest : SendPc → List UInt8
  | .sending _ rest => rest
  | _ => []

/-- A receive brings a whole frame: all that `Send` writes, and nothing is cut. -/
def WholeFrames (x : EchoSession) : SessionLabel → Prop
  | .received n _ => x.pc.rest = [] ∧ n = x.toServer.length
  | _ => True

instance : ∀ (x : EchoSession) (l : SessionLabel), Decidable (WholeFrames x l)
  | x, .received n _ => inferInstanceAs (Decidable (x.pc.rest = [] ∧ n = x.toServer.length))
  | _, .go | _, .send _ | _, .recv _ | _, .fail | _, .transmit | _, .breakOff => .isTrue trivial

/-! ## The bytes of a message -/

/-- The frame of the message that is under way. -/
def SendPc.frame : SendPc → List UInt8
  | .outside => []
  | .sending message _ | .header message _ | .payload message _ _ => frameBytes message

/-- What has come back of it. -/
def SendPc.got : SendPc → List UInt8
  | .header _ got => got
  | .payload message _ got => storeLE32 (byteSwap32 message.length) ++ got
  | _ => []

def SendPc.message : SendPc → List (List UInt8)
  | .outside => []
  | .sending message _ | .header message _ | .payload message _ _ => [message]

/-- The lengths that `RecvExact` compares. -/
def SendPc.Sized : SendPc → Prop
  | .header _ got => got.length ≤ kHeaderSize
  | .payload message size got => size = message.length ∧ got.length ≤ size
  | _ => True

namespace EchoSession

/-- What of the send buffer has not gone yet. -/
def unsent (x : EchoSession) : List UInt8 :=
  x.sends.flatMap fun op => (x.sendBuffer.take op.2).drop op.1

/-- As long as no call has failed, the frame is somewhere on its way to the server and back, or a
part of it is lost with the connection. The server has nothing to send before it has all of it. -/
structure Running (x : EchoSession) (lost : List UInt8) : Prop where
  bytes : x.pc.frame =
    x.pc.got ++ (x.toClient ++ (x.unsent ++ (lost ++ (x.toServer ++ x.pc.rest))))
  kept : x.broken = false → lost = []
  fresh : x.toServer ++ x.pc.rest ≠ [] → x.pc.got = [] ∧ x.toClient = [] ∧ x.sends = []
  ops : ∀ op ∈ x.sends, op.1 < op.2 ∧ op.2 ≤ sendBufferSize
  sized : x.pc.Sized

/-- Behind a failed call there is nothing but calls of `send` that fail. -/
def Over (x : EchoSession) : Prop :=
  x.broken = true ∧ (x.pc = .outside ∨ ∃ message byte rest, x.pc = .sending message (byte :: rest))

/-- The messages up to the first failure came back, and the calls after it failed. -/
def Told (messages : List (List UInt8)) (x : EchoSession) : Prop :=
  ∃ back lost fails, messages = back ++ (lost ++ (x.pc.message ++ x.messages)) ∧
    x.printed = back.map SendEnd.received ++ fails ∧ fails.length = lost.length ∧
    (∀ e ∈ fails, e.failed = true) ∧ (x.dead = false → lost = [])

structure Kept (messages : List (List UInt8)) (x : EchoSession) : Prop where
  running : x.dead = false → ∃ lost, x.Running lost
  ended : x.dead = true → x.Over
  told : x.Told messages

end EchoSession

section
variable {messages : List (List UInt8)} {x y : EchoSession} {n : Nat}

/-- A message of the session fits. -/
theorem EchoSession.Told.fits (h : x.Told messages)
    (hfits : ∀ message ∈ messages, 4 + message.length ≤ sendBufferSize) {message : List UInt8}
    (hm : message ∈ x.pc.message ++ x.messages) : 4 + message.length ≤ sendBufferSize := by
  obtain ⟨back, lost, fails, hmessages, -⟩ := h
  apply hfits
  rw [hmessages]
  exact List.mem_append_right _ (List.mem_append_right _ hm)

/-- The frame is not longer than the send buffer. -/
theorem EchoSession.Told.frame_le (h : x.Told messages)
    (hfits : ∀ message ∈ messages, 4 + message.length ≤ sendBufferSize) :
    x.pc.frame.length ≤ sendBufferSize := by
  have hframe : ∀ message, message ∈ x.pc.message ++ x.messages →
      (frameBytes message).length ≤ sendBufferSize := by
    intro message hm
    have hle := h.fits hfits hm
    have hlength : (frameBytes message).length = 4 + message.length := by
      rw [frameBytes, List.length_append]
      rfl
    rw [hlength]
    exact hle
  cases hpc : x.pc with
  | outside => exact Nat.zero_le _
  | sending message _ | header message _ | payload message _ _ =>
    exact hframe message (by simp [hpc, SendPc.message])

/-! ## The send buffer -/

theorem sendBuffer_fillSend (client : Client) {data : List UInt8}
    (h : data.length ≤ sendBufferSize) :
    (client.fillSend data).sendOverlapped.len = data.length ∧
      (List.ofFn (client.fillSend data).sendOverlapped.buf).take data.length = data := by
  have hlen : data.length % 2 ^ 32 = data.length :=
    Nat.mod_eq_of_lt (Nat.lt_of_le_of_lt h (by decide))
  refine ⟨hlen, List.ext_getElem (by simp [h]) fun i hi hi' => ?_⟩
  rw [List.getElem_take, List.getElem_ofFn]
  show (client.sendOverlapped.buf.copyIn 0 (data.take (data.length % 2 ^ 32))) _ = _
  rw [hlen, List.take_length, Block.copyIn, if_pos (Nat.zero_le _)]
  simp [List.getElem?_eq_getElem hi']

/-- A byte goes from the buffer to the wire. -/
theorem EchoSession.transmit_bytes (hops : ∀ op ∈ x.sends, op.1 < op.2 ∧ op.2 ≤ sendBufferSize)
    (hs : x.transmit = some y) : ∃ byte sends,
      y = { x with toClient := x.toClient ++ [byte], sends } ∧ x.unsent = byte :: y.unsent ∧
        ∀ op ∈ sends, op.1 < op.2 ∧ op.2 ≤ sendBufferSize := by
  unfold transmit at hs
  cases hsends : x.sends with
  | nil =>
    rw [hsends] at hs
    cases hs
  | cons op sends =>
    obtain ⟨gone, len⟩ := op
    rw [hsends] at hs hops
    obtain ⟨byte, hbyte, rfl⟩ := Option.map_eq_some_iff.mp hs
    obtain ⟨hgone, hlen⟩ := hops _ (List.mem_cons_self ..)
    have hdrop : (x.sendBuffer.take len).drop gone =
        byte :: (x.sendBuffer.take len).drop (gone + 1) := by
      have hget : (x.sendBuffer.take len)[gone]? = some byte := by
        rw [List.getElem?_take_of_lt hgone]
        exact hbyte
      obtain ⟨hlt, rfl⟩ := List.getElem?_eq_some_iff.mp hget
      exact List.drop_eq_getElem_cons hlt
    refine ⟨byte, _, rfl, ?_, ?_⟩
    · unfold unsent
      rw [hsends, List.flatMap_cons, hdrop]
      by_cases hmore : gone + 1 < len
      · simp only [if_pos hmore, List.flatMap_cons, sendBuffer, List.cons_append]
      · have hnil : (x.sendBuffer.take len).drop (gone + 1) = [] :=
          List.drop_eq_nil_of_le (by rw [List.length_take]; omega)
        rw [hnil]
        simp only [if_neg hmore, sendBuffer, List.cons_append, List.nil_append]
    · intro op hop
      split at hop
      · rcases List.mem_cons.mp hop with rfl | hop
        · exact ⟨by omega, hlen⟩
        · exact hops op (List.mem_cons_of_mem _ hop)
      · exact hops op (List.mem_cons_of_mem _ hop)

/-! ## One step -/

theorem EchoSession.Told.keep (h : x.Told messages)
    (hsaid : y.pc.message ++ y.messages = x.pc.message ++ x.messages)
    (hprinted : y.printed = x.printed) (hdead : y.dead = x.dead) : y.Told messages := by
  obtain ⟨back, lost, fails, hmessages, htold, hlength, hfails, hlost⟩ := h
  refine ⟨back, lost, fails, ?_, ?_, hlength, hfails, ?_⟩
  · rw [hsaid]
    exact hmessages
  · rw [hprinted]
    exact htold
  · rw [hdead]
    exact hlost

/-- A call that prints its message. -/
theorem EchoSession.Told.received (h : x.Told messages) (hdead : x.dead = false)
    {message : List UInt8} (hpc : x.pc.message = [message]) :
    (x.finish (.received message)).Told messages := by
  obtain ⟨back, lost, fails, hmessages, htold, hlength, -, hlost⟩ := h
  have hnil := hlost hdead
  subst hnil
  have hnone : fails = [] := List.length_eq_zero_iff.mp hlength
  subst hnone
  refine ⟨back ++ [message], [], [], ?_, ?_, rfl, nofun, fun _ => rfl⟩
  · rw [hmessages, hpc]
    simp [finish, SendPc.message]
  · show x.printed ++ [.received message] = _
    rw [htold]
    simp

/-- A call that fails. -/
theorem EchoSession.Told.failed (h : x.Told messages) {message : List UInt8}
    (hpc : x.pc.message = [message]) {e : SendEnd} (he : e.failed = true) :
    (EchoSession.finish { x with dead := true } e).Told messages := by
  obtain ⟨back, lost, fails, hmessages, htold, hlength, hfails, -⟩ := h
  refine ⟨back, lost ++ [message], fails ++ [e], ?_, ?_, ?_, ?_, nofun⟩
  · rw [hmessages, hpc]
    simp [finish, SendPc.message]
  · show x.printed ++ [e] = _
    rw [htold, List.append_assoc]
  · rw [List.length_append, List.length_append, hlength]
    rfl
  · intro other hother
    rcases List.mem_append.mp hother with hother | hother
    · exact hfails other hother
    · rw [List.mem_singleton.mp hother]
      exact he

variable {lost : List UInt8}

theorem EchoSession.Kept.of_running (lost : List UInt8) (h : x.Running lost)
    (halive : x.dead = false) (htold : x.Told messages) : x.Kept messages :=
  ⟨fun _ => ⟨lost, h⟩, fun hdead => absurd (halive.symm.trans hdead) (by decide), htold⟩

/-- `Send` returns with everything back. -/
theorem EchoSession.Running.outside (h : x.Running lost)
    (hnil : x.toClient ++ (x.unsent ++ (lost ++ (x.toServer ++ x.pc.rest))) = [])
    (e : SendEnd) : (x.finish e).Running lost := by
  have hserver : x.toServer = [] := by
    simp only [List.append_eq_nil_iff] at hnil
    exact hnil.2.2.2.1
  have hrest : x.pc.rest = [] := by
    simp only [List.append_eq_nil_iff] at hnil
    exact hnil.2.2.2.2
  refine ⟨?_, h.kept, ?_, h.ops, trivial⟩
  · rw [hrest] at hnil
    exact hnil.symm
  · intro hne
    exact absurd (List.append_eq_nil_iff.mpr ⟨hserver, rfl⟩) hne

/-- Between two calls nothing is under way. -/
theorem EchoSession.Running.nothing (h : x.Running lost) (hpc : x.pc = .outside) :
    x.toClient = [] ∧ x.sends = [] ∧ lost = [] ∧ x.toServer = [] := by
  have hbytes := h.bytes
  rw [hpc] at hbytes
  have hnil := hbytes.symm
  simp only [SendPc.frame, SendPc.got, SendPc.rest, List.append_eq_nil_iff] at hnil
  obtain ⟨-, hclient, hunsent, hlost, hserver, -⟩ := hnil
  refine ⟨hclient, ?_, hlost, hserver⟩
  cases hsends : x.sends with
  | nil => rfl
  | cons op sends =>
    -- a send that has not gone has something left
    have hop := h.ops op (by rw [hsends]; exact List.mem_cons_self ..)
    rw [EchoSession.unsent, hsends, List.flatMap_cons, List.append_eq_nil_iff,
      List.drop_eq_nil_iff, List.length_take, EchoSession.sendBuffer, List.length_ofFn] at hunsent
    omega

/-- The header has come back, and it is the one that was sent. -/
theorem EchoSession.Running.header (h : x.Running lost) {message got : List UInt8}
    (hpc : x.pc = .header message got) (hlength : ¬ got.length < kHeaderSize) :
    got = storeLE32 (byteSwap32 message.length) ∧
      message = x.toClient ++ (x.unsent ++ (lost ++ (x.toServer ++ x.pc.rest))) := by
  have hbytes := h.bytes
  have hsized := h.sized
  rw [hpc] at hbytes hsized
  have hsame : (storeLE32 (byteSwap32 message.length)).length = got.length :=
    Nat.le_antisymm (Nat.not_lt.mp hlength) hsized
  rw [hpc]
  obtain ⟨hheader, hmessage⟩ := List.append_inj hbytes hsame
  exact ⟨hheader.symm, hmessage⟩

theorem EchoSession.Kept.alive_of_connected (h : x.Kept messages) (hbroken : x.broken = false) :
    x.dead = false := by
  cases hdead : x.dead with
  | false => rfl
  | true => exact absurd (hbroken.symm.trans (h.ended hdead).1) (by decide)

/-- Behind a failed call `Send` does not come to its `RecvFrame`. -/
theorem EchoSession.Kept.alive (h : x.Kept messages) (hpc : x.pc ≠ .outside)
    (hrest : x.pc.rest = []) : x.dead = false := by
  cases hdead : x.dead with
  | false => rfl
  | true =>
    rcases (h.ended hdead).2 with hout | ⟨message, byte, rest, hsending⟩
    · exact absurd hout hpc
    · rw [hsending] at hrest
      cases hrest

theorem EchoSession.Kept.go (h : x.Kept messages)
    (hfits : ∀ message ∈ messages, 4 + message.length ≤ sendBufferSize)
    (hs : x.go = some y) : y.Kept messages := by
  unfold EchoSession.go at hs
  cases hpc : x.pc with
  | outside =>
    cases hmessages : x.messages with
    | nil => simp [hpc, hmessages] at hs
    | cons message rest =>
      simp only [hpc, hmessages, Option.some.injEq] at hs
      subst hs
      have hm : message ∈ x.pc.message ++ x.messages :=
        List.mem_append_right _ (hmessages ▸ List.mem_cons_self ..)
      have hle := h.told.fits hfits hm
      have hsmall : message.length ≤ maxFrameSize :=
        Nat.le_trans (Nat.le_of_add_left_le hle) (by decide)
      refine ⟨fun hdead => ?_, fun hdead => ?_, ?_⟩
      · obtain ⟨lost, hrun⟩ := h.running hdead
        obtain ⟨hclient, hsends, hlost, hserver⟩ := hrun.nothing hpc
        refine ⟨[], ?_, fun _ => rfl, fun _ => ⟨rfl, hclient, hsends⟩, hrun.ops, trivial⟩
        have hunsent : x.unsent = [] := by
          rw [EchoSession.unsent, hsends]
          rfl
        show frameBytes message =
          [] ++ (x.toClient ++ (x.unsent ++ ([] ++ (x.toServer ++ sendFrameBytes message))))
        rw [hclient, hunsent, hserver, sendFrameBytes_eq hsmall]
        rfl
      · refine ⟨(h.ended hdead).1, Or.inr ⟨message, ?_⟩⟩
        obtain ⟨byte, rest, hframe⟩ : ∃ byte rest, sendFrameBytes message = byte :: rest :=
          ⟨_, _, rfl⟩
        exact ⟨byte, rest, by rw [← hframe]⟩
      · exact h.told.keep (by simp [hpc, hmessages, SendPc.message]) rfl rfl
  | sending message rest =>
    simp only [hpc, Option.ite_none_right_eq_some, Option.some.injEq] at hs
    obtain ⟨rfl, rfl⟩ := hs
    have halive : x.dead = false := h.alive (by simp [hpc]) (by rw [hpc]; rfl)
    obtain ⟨lost, hrun⟩ := h.running halive
    have hbytes := hrun.bytes
    have hfresh := hrun.fresh
    rw [hpc] at hbytes hfresh
    exact .of_running lost ⟨hbytes, hrun.kept, hfresh, hrun.ops, Nat.zero_le _⟩ halive
      (h.told.keep (by rw [hpc]; rfl) rfl rfl)
  | header message got =>
    have halive : x.dead = false := h.alive (by simp [hpc]) (by rw [hpc]; rfl)
    obtain ⟨lost, hrun⟩ := h.running halive
    have hm : message ∈ x.pc.message ++ x.messages := by
      rw [hpc]
      exact List.mem_cons_self ..
    have hle := h.told.fits hfits hm
    have hsmall : message.length ≤ maxFrameSize :=
      Nat.le_trans (Nat.le_of_add_left_le hle) (by decide)
    simp only [hpc] at hs
    by_cases hmore : got.length < kHeaderSize
    · rw [if_pos hmore] at hs
      cases hs
    · rw [if_neg hmore] at hs
      obtain ⟨rfl, hmessage⟩ := hrun.header hpc hmore
      have hsize : byteSwap32 (loadLE32 (storeLE32 (byteSwap32 message.length))) =
          message.length := by
        have hstore := ofBE32_store message.length (Nat.lt_of_le_of_lt hsmall (by decide)) []
        rw [List.append_nil] at hstore
        rw [byteSwap32_load, hstore]
      rw [hsize, if_neg (Nat.not_lt.mpr hsmall)] at hs
      by_cases hzero : message.length = 0
      · rw [if_pos hzero, Option.some.injEq] at hs
        subst hs
        have hnil : message = [] := List.length_eq_zero_iff.mp hzero
        subst hnil
        exact .of_running lost (hrun.outside hmessage.symm _) halive
          (h.told.received halive (by rw [hpc]; rfl))
      · rw [if_neg hzero, Option.some.injEq] at hs
        subst hs
        have hbytes := hrun.bytes
        have hfresh := hrun.fresh
        rw [hpc] at hbytes hfresh
        refine .of_running lost ⟨?_, hrun.kept, ?_, hrun.ops, rfl, Nat.zero_le _⟩ halive
          (h.told.keep (by rw [hpc]; rfl) rfl rfl)
        · show frameBytes message = (storeLE32 (byteSwap32 message.length) ++ []) ++ _
          rw [List.append_nil]
          exact hbytes
        · intro hne
          exact absurd (hfresh hne).1 (by simp [SendPc.got, storeLE32])
  | payload message size got =>
    have halive : x.dead = false := h.alive (by simp [hpc]) (by rw [hpc]; rfl)
    obtain ⟨lost, hrun⟩ := h.running halive
    simp only [hpc, Option.ite_none_left_eq_some, Option.some.injEq] at hs
    obtain ⟨hmore, rfl⟩ := hs
    have hsized := hrun.sized
    have hbytes := hrun.bytes
    rw [hpc] at hsized hbytes
    obtain ⟨hsize, hgot⟩ := hsized
    have hbytes : message =
        got ++ (x.toClient ++ (x.unsent ++ (lost ++ (x.toServer ++ [])))) := by
      rw [SendPc.frame, SendPc.got, frameBytes, List.append_assoc] at hbytes
      exact List.append_cancel_left hbytes
    have hback : message = got ∧ x.toClient ++ (x.unsent ++ (lost ++ (x.toServer ++ []))) = [] := by
      have hnil : (x.toClient ++ (x.unsent ++ (lost ++ (x.toServer ++ [])))).length = 0 := by
        have hlength := congrArg List.length hbytes
        rw [List.length_append] at hlength
        omega
      have hnil := List.length_eq_zero_iff.mp hnil
      rw [hnil, List.append_nil] at hbytes
      exact ⟨hbytes, hnil⟩
    obtain ⟨rfl, hnil⟩ := hback
    exact .of_running lost (hrun.outside (by rw [hpc]; exact hnil) _) halive
      (h.told.received halive (by rw [hpc]; rfl))

theorem EchoSession.Kept.send (h : x.Kept messages) (hs : x.send n = some y) :
    y.Kept messages := by
  unfold EchoSession.send at hs
  cases hpc : x.pc with
  | sending message rest =>
    simp only [hpc, Option.ite_none_right_eq_some, Option.some.injEq] at hs
    obtain ⟨⟨halive, hpos, hle⟩, rfl⟩ := hs
    obtain ⟨lost, hrun⟩ := h.running halive
    have hbytes := hrun.bytes
    have hfresh := hrun.fresh
    rw [hpc] at hbytes hfresh
    refine .of_running lost ⟨?_, hrun.kept, fun _ => hfresh ?_, hrun.ops, trivial⟩ halive
      (h.told.keep (by rw [hpc]; rfl) rfl rfl)
    · show frameBytes message = [] ++ (x.toClient ++ (x.unsent ++ (lost ++
        (x.toServer ++ rest.take n ++ rest.drop n))))
      rw [List.append_assoc x.toServer, List.take_append_drop]
      exact hbytes
    · intro hnil
      have hrest : rest = [] := (List.append_eq_nil_iff.mp hnil).2
      rw [hrest, List.length_nil] at hle
      omega
  | outside | header message got | payload message size got => simp [hpc] at hs

theorem EchoSession.Kept.recv (h : x.Kept messages) (hs : x.recv n = some y) :
    y.Kept messages := by
  unfold EchoSession.recv at hs
  rw [Option.ite_none_right_eq_some] at hs
  obtain ⟨⟨halive, hpos, hle⟩, hs⟩ := hs
  obtain ⟨lost, hrun⟩ := h.running halive
  have hbytes := hrun.bytes
  have hfresh := hrun.fresh
  -- what comes back is there only when the server has the whole frame
  have hsome : x.toServer ++ x.pc.rest = [] := by
    by_contra hne
    have hnone := (hfresh hne).2.1
    rw [hnone, List.length_nil] at hle
    omega
  cases hpc : x.pc with
  | header message got =>
    simp only [hpc, Option.ite_none_right_eq_some, Option.some.injEq] at hs
    obtain ⟨hroom, rfl⟩ := hs
    rw [hpc] at hbytes hsome
    refine .of_running lost ⟨?_, hrun.kept, fun hne => absurd hsome hne, hrun.ops, ?_⟩ halive
      (h.told.keep (by rw [hpc]; rfl) rfl rfl)
    · show frameBytes message = (got ++ x.toClient.take n) ++ (x.toClient.drop n ++ _)
      rw [List.append_assoc, ← List.append_assoc (x.toClient.take n), List.take_append_drop]
      exact hbytes
    · show (got ++ x.toClient.take n).length ≤ kHeaderSize
      rw [List.length_append, List.length_take]
      omega
  | payload message size got =>
    simp only [hpc, Option.ite_none_right_eq_some, Option.some.injEq] at hs
    obtain ⟨hroom, rfl⟩ := hs
    have hsized := hrun.sized
    rw [hpc] at hbytes hsome hsized
    refine .of_running lost
      ⟨?_, hrun.kept, fun hne => absurd hsome hne, hrun.ops, hsized.1, ?_⟩ halive
      (h.told.keep (by rw [hpc]; rfl) rfl rfl)
    · show frameBytes message = (storeLE32 (byteSwap32 message.length) ++
        (got ++ x.toClient.take n)) ++ (x.toClient.drop n ++ _)
      rw [← List.append_assoc (storeLE32 _) got, List.append_assoc (_ ++ got),
        ← List.append_assoc (x.toClient.take n), List.take_append_drop]
      exact hbytes
    · show (got ++ x.toClient.take n).length ≤ size
      rw [List.length_append, List.length_take]
      omega
  | outside | sending message rest => simp [hpc] at hs

theorem EchoSession.Kept.fail (h : x.Kept messages) (hs : x.fail = some y) :
    y.Kept messages := by
  unfold EchoSession.fail at hs
  rw [Option.ite_none_right_eq_some] at hs
  obtain ⟨hbroken, hs⟩ := hs
  have hgives : ∀ message e, x.pc.message = [message] → e.failed = true →
      (EchoSession.finish { x with dead := true } e).Kept messages :=
    fun message e hpc he => ⟨nofun, fun _ => ⟨hbroken, Or.inl rfl⟩, h.told.failed hpc he⟩
  cases hpc : x.pc with
  | outside => simp [hpc] at hs
  | sending message rest =>
    cases rest with
    | nil => simp [hpc] at hs
    | cons byte rest =>
      simp only [hpc, Option.some.injEq] at hs
      exact hs ▸ hgives message .sendFailed (by rw [hpc]; rfl) rfl
  | header message got =>
    simp only [hpc, Option.ite_none_right_eq_some, Option.some.injEq] at hs
    exact hs.2 ▸ hgives message .recvFailed (by rw [hpc]; rfl) rfl
  | payload message size got =>
    simp only [hpc, Option.ite_none_right_eq_some, Option.some.injEq] at hs
    exact hs.2 ▸ hgives message .recvFailed (by rw [hpc]; rfl) rfl

theorem EchoSession.Kept.received {accepted : Bool} (h : x.Kept messages)
    (hfits : ∀ message ∈ messages, 4 + message.length ≤ sendBufferSize)
    (hwhole : WholeFrames x (.received n accepted)) (hs : x.received n accepted = some y) :
    y.Kept messages := by
  unfold EchoSession.received at hs
  rw [Option.ite_none_right_eq_some] at hs
  obtain ⟨⟨hbroken, hpos, -⟩, hs⟩ := hs
  obtain ⟨hrest, rfl⟩ := hwhole
  have halive : x.dead = false := h.alive_of_connected hbroken
  obtain ⟨lost, hrun⟩ := h.running halive
  have hne : x.toServer ≠ [] := List.length_pos_iff.mp hpos
  obtain ⟨hgot, hclient, hsends⟩ := hrun.fresh (by simp [hne])
  have hlost := hrun.kept hbroken
  have hframe : x.pc.frame = x.toServer := by
    rw [hrun.bytes, hgot, hclient, hlost, hrest, EchoSession.unsent, hsends]
    simp
  have hlen : x.toServer.length ≤ sendBufferSize := hframe ▸ h.told.frame_le hfits
  obtain ⟨hcopied, hbuffer⟩ := sendBuffer_fillSend x.client hlen
  rw [List.take_length, List.drop_length] at hs
  cases accepted with
  | true =>
    simp only [if_true, Option.some.injEq] at hs
    subst hs
    refine .of_running [] ⟨?_, fun _ => rfl, fun hsome => ?_, ?_, hrun.sized⟩ halive
      (h.told.keep rfl rfl rfl)
    · show x.pc.frame = x.pc.got ++ (x.toClient ++ ((x.sends ++
        [(0, (x.client.fillSend x.toServer).sendOverlapped.len)]).flatMap (fun op : Nat × Nat =>
          ((List.ofFn (x.client.fillSend x.toServer).sendOverlapped.buf).take op.2).drop op.1) ++
            ([] ++ ([] ++ x.pc.rest))))
      rw [hgot, hclient, hsends, hrest, hcopied, hframe]
      simp [hbuffer]
    · exact absurd (by rw [hrest]; rfl) hsome
    · intro op hop
      have hop : op ∈ x.sends ++ [(0, (x.client.fillSend x.toServer).sendOverlapped.len)] := hop
      rw [hsends, hcopied, List.nil_append, List.mem_singleton] at hop
      subst hop
      exact ⟨hpos, hlen⟩
  | false =>
    simp only [Bool.false_eq_true, if_false, Option.some.injEq] at hs
    subst hs
    refine .of_running x.toServer ⟨?_, nofun, fun hsome => ?_, hrun.ops, hrun.sized⟩ halive
      (h.told.keep rfl rfl rfl)
    · show x.pc.frame = x.pc.got ++ (x.toClient ++ (x.sends.flatMap (fun op : Nat × Nat =>
          ((List.ofFn (x.client.fillSend x.toServer).sendOverlapped.buf).take op.2).drop op.1) ++
            (x.toServer ++ ([] ++ x.pc.rest))))
      rw [hgot, hclient, hsends, hrest, hframe]
      simp
    · exact absurd (by rw [hrest]; rfl) hsome

/-- The kernel touches nothing else. -/
theorem EchoSession.transmit_eq (hs : x.transmit = some y) : x.sends ≠ [] ∧
    ∃ toClient sends, y = { x with toClient, sends } := by
  unfold transmit at hs
  cases hsends : x.sends with
  | nil => simp [hsends] at hs
  | cons op sends =>
    simp only [hsends] at hs
    obtain ⟨byte, -, rfl⟩ := Option.map_eq_some_iff.mp hs
    exact ⟨nofun, _, _, rfl⟩

theorem EchoSession.Kept.transmit (h : x.Kept messages) (hs : x.transmit = some y) :
    y.Kept messages := by
  obtain ⟨hsends, toClient, sends, heq⟩ := transmit_eq hs
  refine ⟨fun hdead => ?_, fun hdead => ?_, h.told.keep (by rw [heq]) (by rw [heq]) (by rw [heq])⟩
  · obtain ⟨lost, hrun⟩ := h.running (by rw [heq] at hdead; exact hdead)
    obtain ⟨byte, sends, rfl, hunsent, hops⟩ := transmit_bytes hrun.ops hs
    refine ⟨lost, ?_, hrun.kept, fun hne => absurd (hrun.fresh hne).2.2 hsends, hops, hrun.sized⟩
    have hbytes := hrun.bytes
    rw [hunsent] at hbytes
    show x.pc.frame = x.pc.got ++ ((x.toClient ++ [byte]) ++ _)
    rw [List.append_assoc]
    exact hbytes
  · have hover := h.ended (by rw [heq] at hdead; exact hdead)
    rw [heq]
    exact hover

theorem EchoSession.Kept.step {l : SessionLabel} (h : x.Kept messages)
    (hfits : ∀ message ∈ messages, 4 + message.length ≤ sendBufferSize) (hwhole : WholeFrames x l)
    (hs : x.step l = some y) : y.Kept messages := by
  cases l with
  | go => exact h.go hfits hs
  | send n => exact h.send hs
  | recv n => exact h.recv hs
  | fail => exact h.fail hs
  | received n accepted => exact h.received hfits hwhole hs
  | transmit => exact h.transmit hs
  | breakOff =>
    cases hs
    refine ⟨fun hdead => ?_, fun hdead => ⟨rfl, (h.ended hdead).2⟩, h.told.keep rfl rfl rfl⟩
    obtain ⟨lost, hrun⟩ := h.running hdead
    exact ⟨lost, hrun.bytes, nofun, hrun.fresh, hrun.ops, hrun.sized⟩

theorem kept_of_reach {client : Client}
    (hfits : ∀ message ∈ messages, 4 + message.length ≤ sendBufferSize)
    (h : (echoSession client messages).Reach WholeFrames x) : x.Kept messages := by
  refine h.invariant (I := EchoSession.Kept messages) ?_ fun _ hi hok hs => hi.step hfits hok hs
  refine ⟨fun _ => ⟨[], rfl, fun _ => rfl, fun hne => absurd rfl hne, nofun, trivial⟩, nofun, ?_⟩
  exact ⟨[], [], [], rfl, rfl, rfl, nofun, fun _ => rfl⟩

/-! ## The session goes on -/

/-- Anything but a break of the connection. -/
def SessionLabel.moves : SessionLabel → Bool
  | .breakOff => false
  | _ => true

/-- As long as the connection holds, somebody can do something, or all is printed. -/
theorem EchoSession.goes_on (h : x.Kept messages)
    (hfits : ∀ message ∈ messages, 4 + message.length ≤ sendBufferSize)
    (hbroken : x.broken = false) : x.printed = messages.map .received ∨
      ∃ l, l.moves = true ∧ WholeFrames x l ∧ (x.step l).isSome = true := by
  have halive : x.dead = false := h.alive_of_connected hbroken
  obtain ⟨lost, hrun⟩ := h.running halive
  -- a part of the frame that has not come back can move
  have hmoves : x.pc.rest = [] → x.pc.got.length < x.pc.frame.length → x.toClient = [] →
      ∃ l, l.moves = true ∧ WholeFrames x l ∧ (x.step l).isSome = true := by
    intro hrest hpart hclient
    cases hsends : x.sends with
    | nil =>
      have hunsent : x.unsent = [] := by
        rw [unsent, hsends]
        rfl
      have hlength := congrArg List.length hrun.bytes
      rw [hclient, hunsent, hrun.kept hbroken, hrest] at hlength
      simp only [List.length_append, List.length_nil] at hlength
      have hserver : 0 < x.toServer.length := by omega
      have hle := h.told.frame_le hfits
      have hsize : sendBufferSize ≤ recvBufferSize := by decide
      refine ⟨.received x.toServer.length true, rfl, ⟨hrest, rfl⟩, ?_⟩
      simp only [step, received]
      rw [if_pos ⟨hbroken, hserver, by omega⟩]
      rfl
    | cons op sends =>
      obtain ⟨hgone, hlen⟩ := hrun.ops op (by rw [hsends]; exact List.mem_cons_self ..)
      have hlt : op.1 < x.sendBuffer.length := by
        rw [sendBuffer, List.length_ofFn]
        omega
      have hbyte : x.sendBuffer[op.1]? = some x.sendBuffer[op.1] := List.getElem?_eq_getElem hlt
      refine ⟨.transmit, rfl, trivial, ?_⟩
      simp only [step, transmit, hsends, hbyte, Option.map_some]
      rfl
  cases hpc : x.pc with
  | outside =>
    cases hmessages : x.messages with
    | nil =>
      obtain ⟨back, lost, fails, hsaid, hprinted, hlength, -, hlost⟩ := h.told
      have hnil := hlost halive
      subst hnil
      have hnone : fails = [] := List.length_eq_zero_iff.mp hlength
      subst hnone
      rw [hpc, hmessages] at hsaid
      refine Or.inl ?_
      rw [hprinted, hsaid]
      simp [SendPc.message]
    | cons message rest =>
      refine Or.inr ⟨.go, rfl, trivial, ?_⟩
      simp only [step, go, hpc, hmessages]
      rfl
  | sending message rest =>
    refine Or.inr ?_
    cases rest with
    | nil =>
      refine ⟨.go, rfl, trivial, ?_⟩
      simp only [step, go, hpc, if_true]
      rfl
    | cons byte rest =>
      refine ⟨.send 1, rfl, trivial, ?_⟩
      simp only [step, send, hpc]
      rw [if_pos ⟨halive, Nat.one_pos, by simp [INT_MAX]⟩]
      rfl
  | header message got =>
    refine Or.inr ?_
    by_cases hmore : got.length < kHeaderSize
    · cases hclient : x.toClient with
      | nil =>
        refine hmoves (by rw [hpc]; rfl) ?_ hclient
        have hheader : kHeaderSize ≤ (frameBytes message).length := by
          rw [frameBytes, List.length_append]
          exact Nat.le_add_right 4 _
        rw [hpc]
        exact Nat.lt_of_lt_of_le hmore hheader
      | cons byte toClient =>
        refine ⟨.recv 1, rfl, trivial, ?_⟩
        simp only [step, recv, hpc]
        rw [if_pos ⟨halive, Nat.one_pos, by simp [hclient]⟩, if_pos (by omega)]
        rfl
    · refine ⟨.go, rfl, trivial, ?_⟩
      simp only [step, go, hpc, if_neg hmore]
      split <;> rename_i hsize
      · rfl
      · split <;> rfl
  | payload message size got =>
    refine Or.inr ?_
    have hsized := hrun.sized
    rw [hpc] at hsized
    by_cases hmore : got.length < size
    · cases hclient : x.toClient with
      | nil =>
        refine hmoves (by rw [hpc]; rfl) ?_ hclient
        rw [hpc]
        simp only [SendPc.got, SendPc.frame, frameBytes, List.length_append]
        have hsame := hsized.1
        omega
      | cons byte toClient =>
        refine ⟨.recv 1, rfl, trivial, ?_⟩
        simp only [step, recv, hpc]
        rw [if_pos ⟨halive, Nat.one_pos, by simp [hclient]⟩, if_pos (by omega)]
        rfl
    · refine ⟨.go, rfl, trivial, ?_⟩
      simp only [step, go, hpc, if_neg hmore]
      rfl

/-! ## The session ends -/

def SendPc.phase : SendPc → Nat
  | .sending _ _ => 3
  | .header _ _ => 2
  | .payload _ _ _ => 1
  | .outside => 0

namespace EchoSession

/-- How much is left to do: every byte has four ways to go, and less with every step. -/
def rank (x : EchoSession) : Nat :=
  (x.messages.map fun message => 4 * message.length + 20).sum + x.pc.phase +
    (4 * x.pc.rest.length + 3 * x.toServer.length +
      2 * (x.sends.map fun op => op.2 - op.1).sum + x.toClient.length)

/-- A send that is under way has something left. -/
def Pending (x : EchoSession) : Prop := ∀ op ∈ x.sends, op.1 < op.2

theorem length_sendFrameBytes (message : List UInt8) :
    (sendFrameBytes message).length = 4 + message.length := by
  show (storeLE32 (byteSwap32 (message.length % 2 ^ 32)) ++
    if byteSwap32 (message.length % 2 ^ 32) > 0 then message
    else List.replicate message.length 0).length = 4 + message.length
  rw [List.length_append]
  split
  · rfl
  · rw [List.length_replicate]
    rfl

theorem rank_go (hs : x.go = some y) : y.sends = x.sends ∧ y.rank < x.rank := by
  unfold go at hs
  cases hpc : x.pc with
  | outside =>
    cases hmessages : x.messages with
    | nil => simp [hpc, hmessages] at hs
    | cons message rest =>
      simp only [hpc, hmessages, Option.some.injEq] at hs
      subst hs
      refine ⟨rfl, ?_⟩
      simp only [rank, hpc, hmessages, SendPc.phase, SendPc.rest, List.map_cons, List.sum_cons,
        length_sendFrameBytes, List.length_nil]
      omega
  | sending message rest =>
    simp only [hpc, Option.ite_none_right_eq_some, Option.some.injEq] at hs
    obtain ⟨rfl, rfl⟩ := hs
    refine ⟨rfl, ?_⟩
    simp only [rank, hpc, SendPc.phase, SendPc.rest]
    omega
  | header message got =>
    simp only [hpc, Option.ite_none_left_eq_some] at hs
    obtain ⟨-, hs⟩ := hs
    split at hs
    · cases hs
      refine ⟨rfl, ?_⟩
      simp only [rank, finish, hpc, SendPc.phase, SendPc.rest]
      omega
    · split at hs
      · cases hs
        refine ⟨rfl, ?_⟩
        simp only [rank, finish, hpc, SendPc.phase, SendPc.rest]
        omega
      · cases hs
        refine ⟨rfl, ?_⟩
        simp only [rank, hpc, SendPc.phase, SendPc.rest]
        omega
  | payload message size got =>
    simp only [hpc, Option.ite_none_left_eq_some, Option.some.injEq] at hs
    obtain ⟨-, rfl⟩ := hs
    refine ⟨rfl, ?_⟩
    simp only [rank, finish, hpc, SendPc.phase, SendPc.rest]
    omega

theorem rank_send (hs : x.send n = some y) : y.sends = x.sends ∧ y.rank < x.rank := by
  unfold send at hs
  cases hpc : x.pc with
  | sending message rest =>
    simp only [hpc, Option.ite_none_right_eq_some, Option.some.injEq] at hs
    obtain ⟨⟨-, hpos, hle⟩, rfl⟩ := hs
    refine ⟨rfl, ?_⟩
    simp only [rank, hpc, SendPc.phase, SendPc.rest, List.length_append, List.length_drop,
      List.length_take]
    omega
  | outside | header message got | payload message size got => simp [hpc] at hs

theorem rank_recv (hs : x.recv n = some y) : y.sends = x.sends ∧ y.rank < x.rank := by
  unfold recv at hs
  rw [Option.ite_none_right_eq_some] at hs
  obtain ⟨⟨-, hpos, hle⟩, hs⟩ := hs
  cases hpc : x.pc with
  | header message got | payload message size got =>
    simp only [hpc, Option.ite_none_right_eq_some, Option.some.injEq] at hs
    obtain ⟨-, rfl⟩ := hs
    refine ⟨rfl, ?_⟩
    simp only [rank, hpc, SendPc.phase, SendPc.rest, List.length_drop]
    omega
  | outside | sending message rest => simp [hpc] at hs

theorem rank_fail (hs : x.fail = some y) : y.sends = x.sends ∧ y.rank < x.rank := by
  unfold fail at hs
  rw [Option.ite_none_right_eq_some] at hs
  obtain ⟨-, hs⟩ := hs
  cases hpc : x.pc with
  | outside => simp [hpc] at hs
  | sending message rest =>
    cases rest with
    | nil => simp [hpc] at hs
    | cons byte rest =>
      simp only [hpc, Option.some.injEq] at hs
      subst hs
      refine ⟨rfl, ?_⟩
      simp only [rank, finish, hpc, SendPc.phase, SendPc.rest, List.length_nil, List.length_cons]
      omega
  | header message got | payload message size got =>
    simp only [hpc, Option.ite_none_right_eq_some, Option.some.injEq] at hs
    obtain ⟨-, rfl⟩ := hs
    refine ⟨rfl, ?_⟩
    simp only [rank, finish, hpc, SendPc.phase, SendPc.rest]
    omega

theorem rank_received {accepted : Bool} (h : x.Pending) (hs : x.received n accepted = some y) :
    y.Pending ∧ y.rank < x.rank := by
  unfold received at hs
  rw [Option.ite_none_right_eq_some] at hs
  obtain ⟨⟨-, hpos, hle⟩, hs⟩ := hs
  have hsize : recvBufferSize < 2 ^ 32 := by decide
  have hlen : (x.client.fillSend (x.toServer.take n)).sendOverlapped.len = n := by
    show (x.toServer.take n).length % 2 ^ 32 = n
    rw [List.length_take, Nat.mod_eq_of_lt (by omega)]
    omega
  cases accepted with
  | true =>
    simp only [if_true, Option.some.injEq] at hs
    subst hs
    refine ⟨fun op hop => ?_, ?_⟩
    · rcases List.mem_append.mp hop with hop | hop
      · exact h op hop
      · rw [List.mem_singleton.mp hop]
        exact hlen.symm ▸ hpos
    · simp only [rank, hlen, List.map_append, List.sum_append, List.map_singleton,
        List.sum_singleton, List.length_drop]
      omega
  | false =>
    simp only [Bool.false_eq_true, if_false, Option.some.injEq] at hs
    subst hs
    refine ⟨h, ?_⟩
    simp only [rank, List.length_drop]
    omega

theorem rank_transmit (h : x.Pending) (hs : x.transmit = some y) :
    y.Pending ∧ y.rank < x.rank := by
  unfold transmit at hs
  cases hsends : x.sends with
  | nil => simp [hsends] at hs
  | cons op sends =>
    obtain ⟨gone, len⟩ := op
    simp only [hsends] at hs
    obtain ⟨byte, -, rfl⟩ := Option.map_eq_some_iff.mp hs
    rw [Pending, hsends] at h
    have hgone : gone < len := h (gone, len) (List.mem_cons_self ..)
    have hothers : ∀ op ∈ sends, op.1 < op.2 := fun op hop => h op (List.mem_cons_of_mem _ hop)
    by_cases hmore : gone + 1 < len
    · refine ⟨fun op hop => ?_, ?_⟩
      · simp only [if_pos hmore] at hop
        rcases List.mem_cons.mp hop with rfl | hop
        · exact hmore
        · exact hothers op hop
      · simp only [rank, hsends, if_pos hmore, List.map_cons, List.sum_cons, List.length_append,
          List.length_singleton]
        omega
    · refine ⟨fun op hop => ?_, ?_⟩
      · simp only [if_neg hmore] at hop
        exact hothers op hop
      · simp only [rank, hsends, if_neg hmore, List.map_cons, List.sum_cons, List.length_append,
          List.length_singleton]
        omega

/-- Every step but a break leaves less to do. -/
theorem rank_step {l : SessionLabel} (h : x.Pending) (hs : x.step l = some y) :
    y.Pending ∧ y.rank + l.moves.toNat ≤ x.rank := by
  have hkeep : y.sends = x.sends ∧ y.rank < x.rank → y.Pending ∧ y.rank + 1 ≤ x.rank := by
    rintro ⟨hsends, hlt⟩
    refine ⟨?_, hlt⟩
    rw [Pending, hsends]
    exact h
  cases l with
  | go => exact hkeep (rank_go hs)
  | send n => exact hkeep (rank_send hs)
  | recv n => exact hkeep (rank_recv hs)
  | fail => exact hkeep (rank_fail hs)
  | received n accepted => exact rank_received h hs
  | transmit => exact rank_transmit h hs
  | breakOff =>
    cases hs
    exact ⟨h, Nat.le_refl _⟩

/-- A run has no more steps than there is to do. -/
theorem rank_exec {client : Client} {ls : List SessionLabel} (h : x.Pending)
    (hs : (echoSession client messages).exec System.always x ls = some y) :
    ls.countP SessionLabel.moves ≤ x.rank := by
  induction ls generalizing x with
  | nil => exact Nat.zero_le _
  | cons l ls ih =>
    rw [System.exec, Option.ite_none_right_eq_some] at hs
    obtain ⟨z, hz, hs⟩ := Option.bind_eq_some_iff.mp hs.2
    obtain ⟨hpending, hle⟩ := rank_step h hz
    have hrest := ih hpending hs
    rw [List.countP_cons]
    cases hmoves : l.moves with
    | true =>
      rw [hmoves] at hle
      simp only [if_true]
      simp only [Bool.toNat_true] at hle
      omega
    | false =>
      rw [hmoves] at hle
      simp only [Bool.false_eq_true, if_false]
      simp only [Bool.toNat_false] at hle
      omega

end EchoSession

end

/-- **What is sent is printed**, message after message, up to a break of the connection, when
receives bring whole frames. The calls behind the break fail, and without one the session goes on
until everything is printed. It does not go on for ever, whatever the receives bring. -/
theorem echoes_printed (client : Client) (messages : List (List UInt8))
    (hfits : ∀ message ∈ messages, 4 + message.length ≤ sendBufferSize) {x : EchoSession}
    (h : (echoSession client messages).Reach WholeFrames x) :
    (∃ k fails, x.printed = (messages.take k).map SendEnd.received ++ fails ∧
      ∀ e ∈ fails, e.failed = true) ∧
    (x.broken = false → (∃ k, x.printed = (messages.take k).map SendEnd.received) ∧
      (x.printed = messages.map SendEnd.received ∨
        ∃ l, l.moves = true ∧ WholeFrames x l ∧ (x.step l).isSome = true)) ∧
    ∀ ls, ((echoSession client messages).exec System.always
        (echoSession client messages).start ls).isSome = true →
      ls.countP SessionLabel.moves ≤ (messages.map fun message => 4 * message.length + 20).sum := by
  have hkept := kept_of_reach hfits h
  obtain ⟨back, lost, fails, hsaid, hprinted, hlength, hfails, hlost⟩ := hkept.told
  have hback : messages.take back.length = back := by
    rw [hsaid, List.take_left]
  refine ⟨⟨back.length, fails, by rw [hback]; exact hprinted, hfails⟩,
    fun hbroken => ⟨?_, ?_⟩, fun ls hls => ?_⟩
  · have halive : x.dead = false := hkept.alive_of_connected hbroken
    have hnone : fails = [] := by
      rw [hlost halive] at hlength
      exact List.length_eq_zero_iff.mp hlength
    refine ⟨back.length, ?_⟩
    rw [hback, hprinted, hnone, List.append_nil]
  · exact EchoSession.goes_on hkept hfits hbroken
  · obtain ⟨y, hy⟩ := Option.isSome_iff_exists.mp hls
    have hpending : (echoSession client messages).start.Pending := nofun
    exact EchoSession.rank_exec hpending hy

/-- One message comes back in pieces, and the connection breaks off in the middle of the next. -/
def oneGreeting : List SessionLabel :=
  [.go, .send 2, .send 4, .go, .received 6 true, .transmit, .transmit, .transmit, .recv 3,
   .transmit, .recv 1, .go, .transmit, .transmit, .recv 2, .go,
   .go, .send 5, .go, .breakOff, .fail]

theorem echoes_printed_once : ∃ x,
    (echoSession connected [[104, 105], [33]]).Reach WholeFrames x ∧
      x.printed = [.received [104, 105], .recvFailed] ∧
      ∃ k fails, x.printed = ([[104, 105], [33]].take k).map SendEnd.received ++ fails ∧
        ∀ e ∈ fails, e.failed = true := by
  obtain ⟨x, hr, hx⟩ := System.reach_of_exec (echoSession connected [[104, 105], [33]])
    WholeFrames oneGreeting
    (fun x => x.printed == [.received [104, 105], .recvFailed]) (by decide +kernel)
  exact ⟨x, hr, eq_of_beq hx, (echoes_printed connected [[104, 105], [33]] (by decide) hr).1⟩

/-- A frame that is cut: the second half is copied over the first before that has gone. -/
def cutGreeting : List SessionLabel :=
  [.go, .send 8, .go, .received 4 true, .transmit, .transmit, .transmit, .transmit, .recv 4, .go,
   .received 2 true, .received 2 true, .transmit, .transmit, .transmit, .transmit, .recv 4, .go]

theorem cut_frame_garbled : ∃ x,
    (echoSession connected [[1, 2, 3, 4]]).Reach System.always x ∧
      x.printed = [.received [3, 4, 3, 4]] := by
  obtain ⟨x, hr, hx⟩ := System.reach_of_exec (echoSession connected [[1, 2, 3, 4]])
    System.always cutGreeting (fun x => x.printed == [.received [3, 4, 3, 4]]) (by decide +kernel)
  exact ⟨x, hr, eq_of_beq hx⟩

end Highp.Echo

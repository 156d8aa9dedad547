import Highp.Chat.Inflow
import Highp.Client.RequestPath

/-! What the prompt says. The console shows the nickname as soon as it has asked to join, and the
server makes a user when it comes to the command. In between are the wire, the receives of the
server, the queue and the other clients. -/

namespace Highp.Console
open Highp.Lib Highp.Network Highp.Client Highp.Chat

/-! ## What is asked -/

def Intent.ask : Intent → Ask
  | .join => .join
  | .leave => .leave
  | .say _ => .say

/-- The console and the server mean the same by a command. -/
theorem turn_after {intent : Intent} {joined joined' : Bool}
    (h : intent.turn joined = some joined') : intent.ask.after joined = joined' := by
  cases intent <;> cases joined <;> cases h <;> rfl

theorem turns_after {intents : List Intent} {joined joined' : Bool}
    (h : intents.foldlM Intent.turn joined = some joined') :
    (intents.map Intent.ask).foldl Ask.after joined = joined' := by
  induction intents generalizing joined with
  | nil => simpa using h
  | cons intent intents ih =>
    rw [List.foldlM_cons] at h
    obtain ⟨next, hturn, hrest⟩ := Option.bind_eq_some_iff.mp h
    rw [List.map_cons, List.foldl_cons, turn_after hturn]
    exact ih hrest

/-- The first commands take turns too. -/
theorem turns_take {intents : List Intent} {joined joined' : Bool}
    (h : intents.foldlM Intent.turn joined = some joined') (k : Nat) :
    ∃ between, (intents.take k).foldlM Intent.turn joined = some between := by
  rw [← List.take_append_drop k intents, List.foldlM_append] at h
  obtain ⟨between, hfront, -⟩ := Option.bind_eq_some_iff.mp h
  exact ⟨between, hfront⟩

theorem ask_packet {fb : FlatBuffers} {build : ClientPacket → List UInt8} {nickname : Text}
    {sequence : Nat} (intent : Intent)
    (hread : parsePacket fb (build (intent.packet nickname sequence)) =
      some (intent.packet nickname sequence).read) :
    askOf fb (build (intent.packet nickname sequence)) = some intent.ask := by
  have hget : fb.getPacket (build (intent.packet nickname sequence)) =
      some (intent.packet nickname sequence).read := by
    unfold parsePacket at hread
    split at hread
    · exact hread
    · cases hread
  unfold askOf
  rw [hget]
  cases intent <;> rfl

/-- The payloads of the requests ask for what the lines stand for. -/
theorem asks_packets {fb : FlatBuffers} {build : ClientPacket → List UInt8} {inputs : List Input}
    (hread : ∀ packet ∈ packetsOf inputs, parsePacket fb (build packet) = some packet.read) :
    (packetsOf inputs).map (fun packet => askOf fb (build packet)) =
      (script false (lines inputs).tail).map fun intent => some intent.ask := by
  apply List.ext_getElem?
  intro i
  rw [List.getElem?_map, List.getElem?_map]
  cases hintent : (script false (lines inputs).tail)[i]? with
  | none => simp [packetsOf, hintent]
  | some intent =>
    have hpacket : (packetsOf inputs)[i]? =
        some (intent.packet (nicknameOf inputs) ((1 + i) % 2 ^ 32)) := by
      simp [packetsOf, hintent]
    rw [hpacket, Option.map_some, Option.map_some]
    exact congrArg some (ask_packet intent (hread _ (List.mem_of_getElem? hpacket)))

/-! ## What has arrived -/

/-- Frames that are the front of a stream of frames are its first frames. -/
theorem prefix_of_wire {fb : FlatBuffers} {xs ys : List (List UInt8)} {rest : List UInt8}
    (hxs : ∀ x ∈ xs, Legal fb x) (hys : ∀ y ∈ ys, Legal fb y) (h : wire xs ++ rest = wire ys) :
    ∃ zs, ys = xs ++ zs ∧ rest = wire zs := by
  induction xs generalizing ys with
  | nil => exact ⟨ys, rfl, h⟩
  | cons x xs ih =>
    have hcons : ∀ z zs, wire (z :: zs) = frameBytes z ++ wire zs := fun _ _ => by simp [wire]
    cases ys with
    | nil =>
      have hlength := congrArg List.length h
      simp only [hcons, List.length_append, length_frameBytes] at hlength
      simp [wire] at hlength
    | cons y ys =>
      rw [hcons, hcons, List.append_assoc] at h
      have hx := nextFrame_frameBytes (hxs x (.head _)) (wire xs ++ rest)
      have hy := nextFrame_frameBytes (hys y (.head _)) (wire ys)
      rw [h, hy] at hx
      simp only [Next.emit.injEq] at hx
      obtain ⟨rfl, hrest⟩ := hx
      obtain ⟨zs, rfl, hzs⟩ := ih (fun z hz => hxs z (.tail _ hz)) (fun z hz => hys z (.tail _ hz))
        hrest.symm
      exact ⟨zs, rfl, hzs⟩

theorem wire_eq_nil {zs : List (List UInt8)} (h : wire zs = []) : zs = [] := by
  cases zs with
  | nil => rfl
  | cons z zs =>
    have hlength := congrArg List.length h
    simp [wire] at hlength

/-- Nothing of what a connection has sent is on its way through the server. -/
def Settled (conn : Conn) (s : State) : Prop :=
  payloadsOn conn (s.batch ++ s.queue) = [] ∧ s.unframed conn = []

/-- What the first requests ask for, by the lines behind them. -/
theorem asks_taken {fb : FlatBuffers} {build : ClientPacket → List UInt8} {inputs : List Input}
    (hread : ∀ packet ∈ packetsOf inputs, parsePacket fb (build packet) = some packet.read)
    (k : Nat) :
    (((packetsOf inputs).take k).map build).filterMap (askOf fb) =
      ((script false (lines inputs).tail).take k).map Intent.ask := by
  have hasks := congrArg (fun asks => (asks.take k).filterMap id) (asks_packets hread)
  simp only [← List.map_take, List.filterMap_map] at hasks ⊢
  calc ((packetsOf inputs).take k).filterMap (askOf fb ∘ build)
      = ((script false (lines inputs).tail).take k).filterMap (some ∘ Intent.ask) := hasks
    _ = ((script false (lines inputs).tail).take k).map Intent.ask := by rw [List.filterMap_eq_map]

/-- The commands that were dispatched are the first that the console has sent. -/
theorem taken_typed {net : Transport} (hnet : net.Splits) {build : ClientPacket → List UInt8}
    {fb : FlatBuffers} {sends recvs : Nat} {inputs : List Input} (hopen : Input.closed ∉ inputs)
    (hread : ∀ packet ∈ packetsOf inputs, parsePacket fb (build packet) = some packet.read)
    (hsize : ∀ packet ∈ packetsOf inputs, (build packet).length ≤ maxFrameSize)
    {conn : Conn} {s : State} {i : Inflow} (hconserved : Conserved fb conn s i)
    (harrived : i.stream <+: (console net build ⟨[], sends, recvs⟩ inputs).client.pipe.bytes) :
    i.taken = ((packetsOf inputs).take i.taken.length).map build := by
  have hlegal : ∀ q ∈ (packetsOf inputs).map build, Legal fb q := by
    intro q hq
    obtain ⟨packet, hpacket, rfl⟩ := List.mem_map.mp hq
    exact ⟨hsize packet hpacket, by rw [parses, hread packet hpacket]; rfl⟩
  rw [console_wire hnet hopen sends recvs hsize] at harrived
  obtain ⟨later, hlater⟩ := harrived
  rw [hconserved.stream, List.append_assoc] at hlater
  obtain ⟨zs, hframes, -⟩ := prefix_of_wire hconserved.legal hlegal hlater
  rw [Inflow.frames, List.append_assoc] at hframes
  rw [List.map_take, hframes, List.take_left]

/-- **The prompt is right.** A client is connected and its lines are typed. In every run of the
server in which it stays, whatever the network does to the stream and whatever the other clients do,
the commands that were dispatched are its first ones, and between two commands the server keeps a
user for it exactly if these leave the console with a nickname in the prompt. When all has been
received and dispatched that is what the prompt shows. -/
theorem prompt_as_member (net : Transport) (hnet : net.Splits) (build : ClientPacket → List UInt8)
    (cfg : Config) (fb : FlatBuffers) (sends recvs : Nat) (inputs : List Input)
    (hopen : Input.closed ∉ inputs)
    (hread : ∀ packet ∈ packetsOf inputs, parsePacket fb (build packet) = some packet.read)
    (hsize : ∀ packet ∈ packetsOf inputs, (build packet).length ≤ maxFrameSize)
    (conn : Conn) {s₀ : State} {p : State × Inflow}
    (h₀ : (roomServer cfg fb).Reach (fun s l => FreshHandles s l = true) s₀)
    (hopened : Opened conn s₀)
    (hnew : s₀.member conn.client = false)
    (h : (inflowServer cfg fb conn s₀).Reach (fun p l => Stays cfg fb conn.client p.1 l) p)
    (harrived : p.2.stream <+: (console net build ⟨[], sends, recvs⟩ inputs).client.pipe.bytes)
    (hready : p.1.handler = .ready) :
    (∃ k, p.2.taken = ((packetsOf inputs).take k).map build ∧
      ((script false (lines inputs).tail).take k).foldlM Intent.turn false =
        some (p.1.member conn.client)) ∧
    (p.2.stream = (console net build ⟨[], sends, recvs⟩ inputs).client.pipe.bytes →
      Settled conn p.1 →
      p.1.member conn.client = (console net build ⟨[], sends, recvs⟩ inputs).joined) := by
  obtain ⟨⟨hstanding, -⟩, -, hconserved⟩ := inflow_of_reach h₀ hopened h
  have hmember := hstanding.idle hready rfl nofun
  rw [hnew] at hmember
  have htaken := taken_typed hnet hopen hread hsize hconserved harrived
  have hlegal : ∀ q ∈ (packetsOf inputs).map build, Legal fb q := by
    intro q hq
    obtain ⟨packet, hpacket, rfl⟩ := List.mem_map.mp hq
    exact ⟨hsize packet hpacket, by rw [parses, hread packet hpacket]; rfl⟩
  rw [console_wire hnet hopen sends recvs hsize]
  have hjoined : (script false (lines inputs).tail).foldlM Intent.turn false =
      some (console net build ⟨[], sends, recvs⟩ inputs).joined :=
    (console_went net build ⟨[], sends, recvs⟩ inputs).joined
  have hturns : ((script false (lines inputs).tail).take p.2.taken.length).foldlM Intent.turn
      false = some (p.1.member conn.client) := by
    obtain ⟨between, hbetween⟩ := turns_take hjoined p.2.taken.length
    rw [hbetween, hmember, htaken, asks_taken hread, turns_after hbetween]
  refine ⟨⟨p.2.taken.length, htaken, hturns⟩, fun hall hsettled => ?_⟩
  obtain ⟨hqueue, hunframed⟩ := hsettled
  have hstream := hconserved.stream
  rw [hall, Inflow.frames, hqueue, hunframed, List.append_nil, List.append_nil] at hstream
  obtain ⟨ys, hys, hnil⟩ := prefix_of_wire (fun x hx => hconserved.legal x
    (List.mem_append_left _ hx)) hlegal ((List.append_nil _).trans hstream.symm)
  rw [wire_eq_nil hnil.symm, List.append_nil] at hys
  have hlength : p.2.taken.length = (script false (lines inputs).tail).length := by
    rw [← hys]
    simp [packetsOf]
  rw [hlength, List.take_length] at hturns
  exact Option.some.inj (hturns.symm.trans hjoined)

/-- The nickname and one command. -/
def annJoins : List Input := [.line ann, .line (ascii "/join")]

/-- The request arrives in two parts, among the commands of another client. -/
def joinsInParts : List RoomLabel :=
  (receives 0 ⟨0, 1⟩ ((frameBytes joinBytes).take 5) 0 ++
    receives 1 ⟨1, 1⟩ (frameBytes joinBytes) 1 ++
    receives 0 ⟨0, 1⟩ ((frameBytes joinBytes).drop 5) 1 ++ ticks 12).map .server

theorem prompt_as_member_ann : ∃ (s : State) (p : State × Inflow),
    (inflowServer smallServer sample ⟨0, 1⟩ s).Reach
        (fun p l => Stays smallServer sample 0 p.1 l) p ∧
      (console byteByByte annBuild ⟨[], 0, 0⟩ annJoins).joined = true ∧
      p.1.member 0 = (console byteByByte annBuild ⟨[], 0, 0⟩ annJoins).joined := by
  have hpackets : packetsOf annJoins = [.joinRoomRequest ann 1] := by decide
  have hsize : ∀ packet ∈ packetsOf annJoins, (annBuild packet).length ≤ maxFrameSize := by
    rw [hpackets]
    decide
  have hread : ∀ packet ∈ packetsOf annJoins,
      parsePacket sample (annBuild packet) = some packet.read := by
    rw [hpackets]
    intro packet hp
    rw [List.mem_singleton.mp hp]
    rfl
  have hopen : Input.closed ∉ annJoins := by decide
  have hbytes : (console byteByByte annBuild ⟨[], 0, 0⟩ annJoins).client.pipe.bytes =
      frameBytes joinBytes := by
    rw [console_wire byteByByte_splits hopen 0 0 hsize, hpackets]
    rfl
  have hjoined : (script false (lines annJoins).tail).foldlM Intent.turn false =
      some (console byteByByte annBuild ⟨[], 0, 0⟩ annJoins).joined :=
    (console_went byteByByte annBuild ⟨[], 0, 0⟩ annJoins).joined
  have hrun : (((roomServer smallServer sample).exec (fun s l => FreshHandles s l = true)
      (State.new smallServer) bothConnect).bind fun s =>
        ((inflowServer smallServer sample ⟨0, 1⟩ s).exec
          (fun p l => Stays smallServer sample 0 p.1 l) (s, ⟨[], []⟩) joinsInParts).map fun p =>
            s.justOpened ⟨0, 1⟩ && (p.2.stream == frameBytes joinBytes &&
              (p.1.handler.isReady && (payloadsOn ⟨0, 1⟩ (p.1.batch ++ p.1.queue) == [] &&
                p.1.unframed ⟨0, 1⟩ == [])))) = some true := by
    decide +kernel
  obtain ⟨s, hs, hrest⟩ := Option.bind_eq_some_iff.mp hrun
  obtain ⟨p, hp, hcheck⟩ := Option.map_eq_some_iff.mp hrest
  simp only [Bool.and_eq_true, beq_iff_eq, HandlerPc.isReady_iff] at hcheck
  obtain ⟨hchecked, hstream, hready, hsettled⟩ := hcheck
  obtain ⟨hopened, hnew⟩ := opened_of_check hchecked
  have h := System.Reach.start.exec hp
  have hall : p.2.stream = (console byteByByte annBuild ⟨[], 0, 0⟩ annJoins).client.pipe.bytes := by
    rw [hstream, hbytes]
  have hprompt := prompt_as_member byteByByte byteByByte_splits annBuild smallServer sample 0 0
    annJoins hopen hread hsize ⟨0, 1⟩ (System.Reach.start.exec hs) hopened hnew h
    (hall ▸ List.prefix_refl _) hready
  refine ⟨s, p, h, ?_, hprompt.2 hall hsettled⟩
  exact Option.some.inj (hjoined.symm.trans (by decide))

end Highp.Console

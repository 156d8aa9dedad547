import Highp.Lib.Transition
import Highp.Network.Segmentation

/-! The send side of one client. Every `PostSend` copies into the same buffer, and the kernel
reads that buffer whenever it likes until it delivers the completion. -/

namespace Highp.Network
open Highp.Lib

/-- A send that `WSASend` accepted. `data` is the argument of `PostSend`; `got` is what the
kernel last read at each offset of the range it was given. -/
structure SendOp where
  data : List UInt8
  got : List (Option UInt8)
  completed : Bool

structure SendPath where
  client : Client
  sends : List SendOp

inductive SendLabel
  /-- A call of `PostSend`; `accepted` is the answer of `WSASend`. -/
  | postSend (data : List UInt8) (accepted : Bool)
  /-- The kernel reads one byte for the `i`-th send. -/
  | kernelRead (i off : Nat)
  /-- The kernel has everything and delivers the completion of the `i`-th send. -/
  | complete (i : Nat)

namespace SendPath

/-- The byte at an offset of `sendOverlapped.buf`. -/
def bufferAt (x : SendPath) (off : Nat) : Option UInt8 :=
  if h : off < sendBufferSize then some (x.client.sendOverlapped.buf ⟨off, h⟩) else none

def step (x : SendPath) : SendLabel → Option SendPath
  | .postSend data accepted =>
    let client := x.client.fillSend data
    if accepted then
      if client.isConnected then
        some ⟨client, x.sends ++ [⟨data, List.replicate client.sendOverlapped.len none, false⟩]⟩
      else none
    else some { x with client }
  | .kernelRead i off =>
    match x.sends[i]?, x.bufferAt off with
    | some op, some byte =>
      if op.completed || op.got.length ≤ off then none
      else some { x with sends := x.sends.set i { op with got := op.got.set off (some byte) } }
    | _, _ => none
  | .complete i =>
    match x.sends[i]? with
    | some op =>
      if op.completed || op.got.contains none then none
      else some { x with sends := x.sends.set i { op with completed := true } }
    | none => none

/-- The data arguments of the calls that returned `Ok`, in call order. -/
def posted (x : SendPath) : List UInt8 := x.sends.flatMap SendOp.data

/-- What goes out on the wire: TCP takes the sends in the order they were posted. -/
def transmitted (x : SendPath) : List UInt8 := x.sends.flatMap fun op => op.got.filterMap id

/-- As far as the kernel has read the sends without a gap. -/
def onWire : List SendOp → List UInt8
  | [] => []
  | op :: ops =>
    if op.got.contains none then (op.got.takeWhile Option.isSome).filterMap id
    else op.got.filterMap id ++ onWire ops

def idle (x : SendPath) : Bool := x.sends.all SendOp.completed

/-- Every byte read is the byte posted, and once all sends are complete the kernel has
transmitted what was posted. -/
def SendsPosted (x : SendPath) : Prop :=
  (∀ op ∈ x.sends, ∀ (off : Nat) (byte : UInt8), op.got[off]? = some (some byte) →
      op.data[off]? = some byte) ∧
    (x.idle = true → x.transmitted = x.posted)

end SendPath

def sendSystem (client : Client) : System SendPath SendLabel where
  start := ⟨client, []⟩
  step := SendPath.step

/-- What the API reference asks of the callers of `PostSend`: the last send is complete, and the
data fits the buffer. -/
def PostsInTurn (x : SendPath) : SendLabel → Prop
  | .postSend data _ => x.idle = true ∧ data.length ≤ sendBufferSize
  | .kernelRead _ _ => True
  | .complete _ => True

instance : ∀ (x : SendPath) (l : SendLabel), Decidable (PostsInTurn x l)
  | x, .postSend data _ =>
    inferInstanceAs (Decidable (x.idle = true ∧ data.length ≤ sendBufferSize))
  | _, .kernelRead _ _ => .isTrue trivial
  | _, .complete _ => .isTrue trivial

/-- A send in good order: the kernel has read nothing but its data, everything if it is
complete, and will go on doing so as long as the buffer holds the data. -/
structure SendOp.Intact (x : SendPath) (op : SendOp) : Prop where
  length : op.got.length = op.data.length
  read : ∀ (off : Nat) (byte : UInt8), op.got[off]? = some (some byte) → op.data[off]? = some byte
  complete : op.completed = true → none ∉ op.got
  buffer : op.completed = false → ∀ off byte, off < op.data.length →
    x.bufferAt off = some byte → op.data[off]? = some byte

namespace SendPath
variable {x y : SendPath} {op : SendOp} {data : List UInt8}

theorem bufferAt_fillSend (h : data.length ≤ sendBufferSize) {off : Nat} {byte : UInt8}
    (hoff : off < data.length)
    (hb : bufferAt ⟨x.client.fillSend data, x.sends⟩ off = some byte) : data[off]? = some byte := by
  have hlen : data.length % 2 ^ 32 = data.length :=
    Nat.mod_eq_of_lt (Nat.lt_of_le_of_lt h (by decide))
  simp only [bufferAt, Client.fillSend, hlen, List.take_length, Block.copyIn] at hb
  rw [dif_pos (by omega)] at hb
  simpa [List.getElem?_eq_getElem hoff] using hb

/-- `PostSend` on an idle client: the older sends are complete and past caring. -/
theorem intact_postSend (h : ∀ op ∈ x.sends, op.Intact x) (hidle : x.idle = true)
    (hlen : data.length ≤ sendBufferSize) {accepted : Bool}
    (hs : x.step (.postSend data accepted) = some y) : ∀ op ∈ y.sends, op.Intact y := by
  have hall : ∀ op ∈ x.sends, op.completed = true := List.all_eq_true.mp hidle
  have hold : ∀ z : SendPath, ∀ op ∈ x.sends, op.Intact z := by
    intro z op hop
    have hi := h op hop
    exact ⟨hi.length, hi.read, hi.complete, by simp [hall op hop]⟩
  simp only [step] at hs
  split at hs
  · split at hs
    · cases hs
      intro op hop
      rcases List.mem_append.mp hop with hop | hop
      · exact hold _ op hop
      · rw [List.mem_singleton.mp hop]
        refine ⟨?_, ?_, by simp, ?_⟩
        · show (List.replicate (data.length % 2 ^ 32) none).length = data.length
          rw [List.length_replicate]
          exact Nat.mod_eq_of_lt (Nat.lt_of_le_of_lt hlen (by decide))
        · intro off byte hg
          simp [List.getElem?_replicate] at hg
        · intro _ off byte hoff hb
          exact bufferAt_fillSend (x := x) hlen hoff hb
    · simp at hs
  · cases hs
    exact hold _

/-- A read takes a byte of the buffer, which still is a byte of the data. -/
theorem intact_kernelRead (h : ∀ op ∈ x.sends, op.Intact x) {i off : Nat}
    (hs : x.step (.kernelRead i off) = some y) : ∀ op ∈ y.sends, op.Intact y := by
  simp only [step] at hs
  split at hs
  · rename_i op byte hop hb
    split at hs
    · simp at hs
    · rename_i hc
      cases hs
      have hi := h op (List.mem_of_getElem? hop)
      simp only [Bool.or_eq_true, decide_eq_true_eq, not_or, Bool.not_eq_true] at hc
      intro op' hop'
      rcases List.mem_or_eq_of_mem_set hop' with hop' | rfl
      · have hi' := h op' hop'
        exact ⟨hi'.length, hi'.read, hi'.complete, hi'.buffer⟩
      · refine ⟨by simpa using hi.length, ?_, by simp [hc.1], hi.buffer⟩
        intro off' byte' hg
        by_cases ho : off = off'
        · subst ho
          rw [List.getElem?_set_self (by omega)] at hg
          cases hg
          exact hi.buffer hc.1 off byte (by rw [← hi.length]; omega) hb
        · rw [List.getElem?_set_ne ho] at hg
          exact hi.read off' byte' hg
  · simp at hs

theorem intact_complete (h : ∀ op ∈ x.sends, op.Intact x) {i : Nat}
    (hs : x.step (.complete i) = some y) : ∀ op ∈ y.sends, op.Intact y := by
  simp only [step] at hs
  split at hs
  · rename_i op hop
    split at hs
    · simp at hs
    · rename_i hc
      cases hs
      have hi := h op (List.mem_of_getElem? hop)
      intro op' hop'
      rcases List.mem_or_eq_of_mem_set hop' with hop' | rfl
      · have hi' := h op' hop'
        exact ⟨hi'.length, hi'.read, hi'.complete, hi'.buffer⟩
      · refine ⟨hi.length, hi.read, ?_, by simp⟩
        intro _ hm
        simp [hm] at hc
  · simp at hs

/-- Everything the kernel was given has been read, and read right. -/
theorem got_eq (h : op.Intact x) (hread : none ∉ op.got) : op.got = op.data.map some := by
  apply List.ext_getElem?
  intro off
  by_cases ho : off < op.got.length
  · cases hg : op.got[off]? with
    | none => simp at hg; omega
    | some cell =>
      cases cell with
      | none => exact absurd (List.mem_of_getElem? hg) hread
      | some byte => simp [h.read off byte hg]
  · rw [List.getElem?_eq_none (by omega), List.getElem?_eq_none (by simp [← h.length]; omega)]

/-- What has been read without a gap is a front of the data. -/
theorem read_front {got : List (Option UInt8)} {data : List UInt8}
    (h : ∀ (off : Nat) (byte : UInt8), got[off]? = some (some byte) → data[off]? = some byte) :
    (got.takeWhile Option.isSome).filterMap id <+: data := by
  induction got generalizing data with
  | nil => exact List.nil_prefix
  | cons cell got ih =>
    cases cell with
    | none => exact List.nil_prefix
    | some byte =>
      cases data with
      | nil => exact absurd (h 0 byte rfl) (by simp)
      | cons first data =>
        obtain rfl : first = byte := Option.some.inj (h 0 byte rfl)
        have hrest : (got.takeWhile Option.isSome).filterMap id <+: data :=
          ih fun off byte hg => h (off + 1) byte hg
        simpa using hrest

theorem onWire_front {ops : List SendOp} (h : ∀ op ∈ ops, op.Intact x) :
    onWire ops <+: ops.flatMap SendOp.data := by
  induction ops with
  | nil => exact List.nil_prefix
  | cons op ops ih =>
    obtain ⟨hop, hops⟩ := List.forall_mem_cons.mp h
    rw [List.flatMap_cons, onWire]
    split
    · exact (read_front hop.read).trans (List.prefix_append _ _)
    · rename_i hread
      have hgot := got_eq hop (by simpa using hread)
      rw [hgot, List.filterMap_map]
      simpa using ih hops

theorem sendsPosted_of_intact (h : ∀ op ∈ x.sends, op.Intact x) : x.SendsPosted := by
  refine ⟨fun op hop => (h op hop).read, fun hidle => ?_⟩
  have hall : ∀ op ∈ x.sends, op.completed = true := List.all_eq_true.mp hidle
  rw [transmitted, posted]
  apply List.flatMap_congr
  intro op hop
  rw [got_eq (h op hop) ((h op hop).complete (hall op hop)), List.filterMap_map]
  simp

theorem intact_of_reach {client : Client} (h : (sendSystem client).Reach PostsInTurn x) :
    ∀ op ∈ x.sends, op.Intact x := by
  refine h.invariant (I := fun x => ∀ op ∈ x.sends, op.Intact x) ?_ ?_
  · simp [sendSystem]
  · intro s t l _ hi hok hs
    cases l with
    | postSend data accepted => exact intact_postSend hi hok.1 hok.2 hs
    | kernelRead i off => exact intact_kernelRead hi hs
    | complete i => exact intact_complete hi hs

end SendPath

/-- The network brings a front of what a client's sends put on the wire, when each of them is posted
behind the completion of the one before. -/
def ConveysInTurn (sends : List (List UInt8)) (bytes : List UInt8) : Prop :=
  ∃ (client : Client) (x : SendPath), (sendSystem client).Reach PostsInTurn x ∧
    x.sends.map SendOp.data = sends ∧ bytes <+: SendPath.onWire x.sends

theorem ConveysInTurn.front {sends : List (List UInt8)} {bytes : List UInt8}
    (h : ConveysInTurn sends bytes) : bytes <+: sends.flatten := by
  obtain ⟨client, x, hr, rfl, hbytes⟩ := h
  rw [← List.flatMap_def]
  exact hbytes.trans (SendPath.onWire_front (SendPath.intact_of_reach hr))

/-- **What is posted is what is sent**, in every run in which `PostSend` is called in turn and
with data that fits, whatever the kernel does in between. -/
theorem posted_is_sent (client : Client) {x : SendPath}
    (h : (sendSystem client).Reach PostsInTurn x) : x.SendsPosted := by
  exact SendPath.sendsPosted_of_intact (SendPath.intact_of_reach h)

/-- The kernel takes the `n` bytes of the `i`-th send and completes it. -/
def drain (i n : Nat) : List SendLabel :=
  (List.range n).map (SendLabel.kernelRead i) ++ [.complete i]

/-- Two responses, the second one posted after the completion of the first. -/
theorem posted_is_sent_in_turn : ∃ x, (sendSystem connected).Reach PostsInTurn x ∧
    x.posted = frameBytes joinedBytes ++ frameBytes leftBytes ∧ x.transmitted = x.posted := by
  obtain ⟨x, hr, hp⟩ := System.reach_of_exec (sendSystem connected) PostsInTurn
    (.postSend (frameBytes joinedBytes) true :: drain 0 48 ++
      .postSend (frameBytes leftBytes) true :: drain 1 48)
    (fun x => x.idle && x.posted == frameBytes joinedBytes ++ frameBytes leftBytes)
    (by decide +kernel)
  simp only [Bool.and_eq_true, beq_iff_eq] at hp
  exact ⟨x, hr, hp.2, (posted_is_sent connected hr).2 hp.1⟩

/-- The responses to a join and a leave of one tick: the second overwrites the first before the
kernel has read it, and the client receives the second one twice. -/
theorem second_send_overwrites_first : ∃ x, (sendSystem connected).Reach System.always x ∧
    x.posted = frameBytes joinedBytes ++ frameBytes leftBytes ∧
    x.transmitted = frameBytes leftBytes ++ frameBytes leftBytes ∧ ¬ x.SendsPosted := by
  obtain ⟨x, hr, hp⟩ := System.reach_of_exec (sendSystem connected) System.always
    (.postSend (frameBytes joinedBytes) true :: .postSend (frameBytes leftBytes) true ::
      drain 0 48 ++ drain 1 48)
    (fun x => x.idle && x.posted == frameBytes joinedBytes ++ frameBytes leftBytes &&
      x.transmitted == frameBytes leftBytes ++ frameBytes leftBytes)
    (by decide +kernel)
  simp only [Bool.and_eq_true, beq_iff_eq] at hp
  obtain ⟨⟨hidle, hposted⟩, hsent⟩ := hp
  refine ⟨x, hr, hposted, hsent, fun h => ?_⟩
  have hne : frameBytes leftBytes ++ frameBytes leftBytes ≠
      frameBytes joinedBytes ++ frameBytes leftBytes := by decide
  exact hne (hsent ▸ hposted ▸ h.2 hidle)

end Highp.Network

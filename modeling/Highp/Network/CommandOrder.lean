import Highp.Network.CommandQueue

/-! Commands reach their handlers once and in the order of the bytes: the calls of `Receive` for
one slot against a reference parse, and what `Tick` makes of both. -/

namespace Highp.Network
open Highp.Lib

/-! ## The reference -/

/-- The frames found so far, each with the connection that completed it, and the bytes that wait
for more. -/
structure Parsed where
  frames : List (Conn × List UInt8)
  rest : List UInt8
  deriving DecidableEq

/-- The reference for one call of `Receive`: the chunk is parsed behind the bytes that wait, unless
it does not fit. -/
def Parsed.call (verifies : List UInt8 → Bool) (x : Parsed) (call : Conn × List UInt8) : Parsed :=
  if maxFrameSize < x.rest.length + call.2.length then x
  else ⟨x.frames ++ (decode verifies (x.rest ++ call.2)).frames.map (Prod.mk call.1),
    (decode verifies (x.rest ++ call.2)).rest⟩

/-- The reference for successive calls, behind the bytes `rest` of the frame buffer. -/
def parseCalls (verifies : List UInt8 → Bool) (rest : List UInt8)
    (calls : List (Conn × List UInt8)) : Parsed :=
  calls.foldl (Parsed.call verifies) ⟨[], rest⟩

theorem parseCalls_snoc (verifies : List UInt8 → Bool) (rest : List UInt8)
    (calls : List (Conn × List UInt8)) (call : Conn × List UInt8) :
    parseCalls verifies rest (calls ++ [call]) =
      (parseCalls verifies rest calls).call verifies call := by
  rw [parseCalls, List.foldl_append]
  rfl

/-- No chunk but the last one overflows the buffer or completes a bad frame. -/
def Unbroken (verifies : List UInt8 → Bool) (chunks : List (List UInt8)) : Prop :=
  ∀ pre data post, chunks = pre ++ data :: post →
    (decode verifies pre.flatten).failed = false ∧
    (decode verifies pre.flatten).rest.length + data.length ≤ maxFrameSize

/-- A connection that found the frame buffer empty: behind what was parsed before come the frames
of its own bytes, as long as its stream has no break. -/
theorem parseCalls_stream {verifies : List UInt8 → Bool} {rest : List UInt8} {conn : Conn}
    {before : List (Conn × List UInt8)} {chunks : List (List UInt8)}
    (hempty : (parseCalls verifies rest before).rest = []) (h : Unbroken verifies chunks) :
    parseCalls verifies rest (before ++ chunks.map (Prod.mk conn)) =
      ⟨(parseCalls verifies rest before).frames ++
        (decode verifies chunks.flatten).frames.map (Prod.mk conn),
      (decode verifies chunks.flatten).rest⟩ := by
  induction chunks using List.reverseRecOn with
  | nil =>
    cases hx : parseCalls verifies rest before with
    | mk frames r =>
      rw [hx] at hempty
      simp only at hempty
      simp [hx, hempty]
  | append_singleton chunks data ih =>
    have hpre : Unbroken verifies chunks := by
      intro pre d post he
      exact h pre d (post ++ [data]) (by simp [he])
    obtain ⟨hsound, hfits⟩ := h chunks data [] rfl
    rw [List.map_append, List.map_singleton, ← List.append_assoc, parseCalls_snoc, ih hpre,
      Parsed.call, if_neg (by simpa using hfits)]
    simp [decode_append data hsound, Decoded.after]

/-- Every frame belongs to one of the calls. -/
theorem mem_calls_of_mem_frames {verifies : List UInt8 → Bool} {rest : List UInt8}
    {calls : List (Conn × List UInt8)} {f : Conn × List UInt8}
    (h : f ∈ (parseCalls verifies rest calls).frames) : ∃ call ∈ calls, f.1 = call.1 := by
  induction calls using List.reverseRecOn with
  | nil => simp [parseCalls] at h
  | append_singleton calls call ih =>
    rw [parseCalls_snoc, Parsed.call] at h
    have hold : f ∈ (parseCalls verifies rest calls).frames →
        ∃ c ∈ calls ++ [call], f.1 = c.1 := by
      intro hf
      obtain ⟨c, hc, he⟩ := ih hf
      exact ⟨c, List.mem_append_left _ hc, he⟩
    split at h
    · exact hold h
    · rcases List.mem_append.mp h with hf | hf
      · exact hold hf
      · obtain ⟨p, -, rfl⟩ := List.mem_map.mp hf
        exact ⟨call, by simp, rfl⟩

/-- The payloads pushed for a slot, in lock order, each with its connection. -/
def payloadsOf (slot : Slot) (cmds : List PacketCommand) : List (Conn × List UInt8) :=
  (cmds.filter fun cmd => cmd.client == slot).map fun cmd => (cmd.conn, cmd.data)

theorem payloadsOf_append (slot : Slot) (xs ys : List PacketCommand) :
    payloadsOf slot (xs ++ ys) = payloadsOf slot xs ++ payloadsOf slot ys := by
  simp [payloadsOf]

/-- The calls of `Receive` for the slot follow one another; other slots are unconstrained. -/
def Successive (workerCount : Nat) (slot : Slot) (s : CommandFlow) : FlowLabel → Prop
  | .receive _ conn _ =>
    conn.client = slot → ∀ w, w < workerCount → (s.producers w).slot ≠ some slot
  | .producer _ | .leave _ | .logic | .stop | .close _ | .assign _ _ => True

instance (workerCount : Nat) (slot : Slot) :
    ∀ (s : CommandFlow) (l : FlowLabel), Decidable (Successive workerCount slot s l)
  | s, .receive _ conn _ => inferInstanceAs (Decidable (conn.client = slot →
      ∀ w, w < workerCount → (s.producers w).slot ≠ some slot))
  | _, .producer _ => .isTrue trivial
  | _, .leave _ => .isTrue trivial
  | _, .logic => .isTrue trivial
  | _, .stop => .isTrue trivial
  | _, .close _ => .isTrue trivial
  | _, .assign _ _ => .isTrue trivial

/-- What the assembly loop of a call on `conn` will have pushed and left when it gets to its end. -/
def CommandFlow.parsed (verifies : List UInt8 → Bool) (s : CommandFlow) (conn : Conn) : Parsed :=
  let d := decode verifies (s.clients conn.client).frameBuf.data
  ⟨payloadsOf conn.client s.pushes ++ d.frames.map (Prod.mk conn), d.rest⟩

/-- One worker at most is in `Receive` for the slot, and the commands pushed so far, completed by
those that this worker has still to push, are those of the reference. -/
structure InOrder (verifies : List UInt8 → Bool) (rest : List UInt8) (slot : Slot)
    (s : CommandFlow) : Prop where
  alone : ∀ v w, (s.producers v).slot = some slot → (s.producers w).slot = some slot → v = w
  within : ∀ w conn, conn.client = slot → s.producers w = .assemble conn →
    s.parsed verifies conn = parseCalls verifies rest (s.calls slot)
  between : (∀ w conn, conn.client = slot → s.producers w ≠ .assemble conn) →
    Parsed.mk (payloadsOf slot s.pushes) (s.clients slot).frameBuf.data =
      parseCalls verifies rest (s.calls slot)

section
variable {fb : FlatBuffers} {workerCount w : Nat} {s t : CommandFlow} {slot : Slot}
  {rest : List UInt8} {verifies : List UInt8 → Bool} {pc : ProducerPc}

/-- A worker that stays with its slot or returns from `Receive` meets nobody new. -/
theorem InOrder.alone_update (h : InOrder verifies rest slot s)
    (hpc : pc.slot = some slot → (s.producers w).slot = some slot) :
    ∀ u v, (Function.update s.producers w pc u).slot = some slot →
      (Function.update s.producers w pc v).slot = some slot → u = v := by
  have hold : ∀ v, (Function.update s.producers w pc v).slot = some slot →
      (s.producers v).slot = some slot := by
    intro v hv
    by_cases hvw : v = w
    · subst hvw
      exact hpc (by simpa using hv)
    · simpa [Function.update_of_ne hvw] using hv
  intro u v hu hv
  exact h.alone u v (hold u hu) (hold v hv)

/-- A worker that is not in the assembly loop for the slot, neither before nor after. -/
theorem assembles_update {f : Nat → ProducerPc}
    (hold : ∀ conn : Conn, conn.client = slot → f w ≠ .assemble conn)
    (hnew : ∀ conn : Conn, conn.client = slot → pc ≠ .assemble conn) :
    ∀ v (conn : Conn), conn.client = slot →
      (Function.update f w pc v = .assemble conn ↔ f v = .assemble conn) := by
  intro v conn hc
  by_cases hvw : v = w
  · subst hvw
    rw [Function.update_self]
    exact ⟨fun he => absurd he (hnew conn hc), fun he => absurd he (hold conn hc)⟩
  · rw [Function.update_of_ne hvw]

theorem not_assembles_of_slot (h : pc.slot ≠ some slot) :
    ∀ conn : Conn, conn.client = slot → pc ≠ .assemble conn := by
  rintro conn rfl rfl
  exact h rfl

/-- A step that changes neither the slot's data nor who assembles for it. -/
theorem InOrder.keep (h : InOrder verifies rest slot s)
    (halone : ∀ u v, (t.producers u).slot = some slot → (t.producers v).slot = some slot → u = v)
    (hasm : ∀ v (conn : Conn), conn.client = slot →
      (t.producers v = .assemble conn ↔ s.producers v = .assemble conn))
    (hbuf : (t.clients slot).frameBuf = (s.clients slot).frameBuf)
    (hpay : payloadsOf slot t.pushes = payloadsOf slot s.pushes)
    (hcalls : t.calls slot = s.calls slot) : InOrder verifies rest slot t := by
  refine ⟨halone, ?_, ?_⟩
  · rintro v conn rfl hv
    simp only [CommandFlow.parsed, hbuf, hpay, hcalls]
    exact h.within v conn rfl ((hasm v conn rfl).mp hv)
  · intro hn
    rw [hbuf, hpay, hcalls]
    exact h.between fun v conn hc he => hn v conn hc ((hasm v conn hc).mpr he)

/-- With the only worker of the slot elsewhere, nobody assembles for it. -/
theorem InOrder.none_assembles (h : InOrder verifies rest slot s)
    (hw : (s.producers w).slot = some slot)
    (hpc : ∀ conn : Conn, conn.client = slot → pc ≠ .assemble conn) (v : Nat) (conn : Conn)
    (hc : conn.client = slot) : Function.update s.producers w pc v ≠ .assemble conn := by
  by_cases hvw : v = w
  · subst hvw
    rw [Function.update_self]
    exact hpc conn hc
  · rw [Function.update_of_ne hvw]
    intro he
    exact hvw (h.alone v w (by rw [he, ← hc]; rfl) hw)

/-- The worker of the slot returns from `Receive`. -/
theorem InOrder.returns (h : InOrder verifies rest slot s) (hw : (s.producers w).slot = some slot)
    (ht : t.producers = Function.update s.producers w .idle)
    (he : Parsed.mk (payloadsOf slot t.pushes) (t.clients slot).frameBuf.data =
      parseCalls verifies rest (t.calls slot)) : InOrder verifies rest slot t := by
  refine ⟨?_, ?_, fun _ => he⟩
  · rw [ht]
    exact h.alone_update (fun hn => by simp [ProducerPc.slot] at hn)
  · intro v conn hc hv
    rw [ht] at hv
    exact absurd hv (h.none_assembles hw (by simp) v conn hc)

/-- The worker of the slot is at the head of the assembly loop. -/
theorem InOrder.assembling {conn : Conn} (h : InOrder verifies rest conn.client s)
    (hw : (s.producers w).slot = some conn.client)
    (ht : t.producers = Function.update s.producers w (.assemble conn))
    (he : t.parsed verifies conn = parseCalls verifies rest (t.calls conn.client)) :
    InOrder verifies rest conn.client t := by
  refine ⟨?_, ?_, ?_⟩
  · rw [ht]
    exact h.alone_update (fun _ => hw)
  · intro v conn' hc hv
    have hvw : v = w := by
      by_contra hne
      rw [ht, Function.update_of_ne hne] at hv
      exact hne (h.alone v w (by rw [hv, ← hc]; rfl) hw)
    rw [ht, hvw, Function.update_self, ProducerPc.assemble.injEq] at hv
    rw [← hv]
    exact he
  · intro hn
    exact absurd (by rw [ht, Function.update_self]) (hn w conn rfl)

theorem InOrder.append {conn : Conn} (h : InOrder verifies rest conn.client s)
    {data : List UInt8} (hp : s.producers w = .append conn data)
    (hs : s.producerStep fb w = some t) : InOrder verifies rest conn.client t := by
  have hw : (s.producers w).slot = some conn.client := by rw [hp]; rfl
  have hbefore := h.between fun v conn' hc => by
    have hv : Function.update s.producers w (s.producers w) v ≠ .assemble conn' :=
      h.none_assembles hw (by simp [hp]) v conn' hc
    rwa [Function.update_eq_self] at hv
  simp only [CommandFlow.producerStep, hp] at hs
  by_cases ho : maxFrameSize < (s.clients conn.client).frameBuf.len + data.length
  · rw [FrameBuffer.append_overflow ho] at hs
    cases hs
    refine h.returns hw rfl ?_
    simp only [CommandFlow.setProducer, CommandFlow.setClient, Function.update_self]
    rw [parseCalls_snoc, ← hbefore, Parsed.call, if_pos (by simpa using ho)]
    rfl
  · obtain ⟨hok, hd⟩ := FrameBuffer.append_ok (Nat.not_lt.mp ho)
    cases ha : (s.clients conn.client).frameBuf.append data with
    | mk ok frameBuf =>
      rw [ha] at hok hd hs
      simp only at hok hd
      subst hok
      cases hs
      refine h.assembling hw rfl ?_
      simp only [CommandFlow.parsed, CommandFlow.setProducer, CommandFlow.setClient,
        Function.update_self]
      rw [parseCalls_snoc, ← hbefore, Parsed.call, if_neg (by simpa using ho)]
      simp only [Client.setFrameBuf_frameBuf, hd]

theorem InOrder.assemble {conn : Conn} (h : InOrder (parses fb) rest conn.client s)
    (hp : s.producers w = .assemble conn) (hs : s.producerStep fb w = some t) :
    InOrder (parses fb) rest conn.client t := by
  have hw : (s.producers w).slot = some conn.client := by rw [hp]; rfl
  have hnow := h.within w conn rfl hp
  have hr := round_spec fb conn ⟨s.clients conn.client, s.writeQueue⟩
  simp only [CommandFlow.producerStep, hp, Option.some.injEq] at hs
  simp only [CommandFlow.parsed] at hnow
  cases hn : nextFrame (parses fb) (s.clients conn.client).frameBuf.data with
  | more =>
    simp only [hn] at hr
    rw [hr] at hs
    rw [decode_more hn, List.map_nil, List.append_nil] at hnow
    subst hs
    refine h.returns hw rfl ?_
    simpa [CommandFlow.setProducer] using hnow
  | fail r =>
    simp only [hn] at hr
    obtain ⟨y, hy, hq, -, hf⟩ := hr
    rw [hy] at hs
    rw [decode_fail hn, List.map_nil, List.append_nil] at hnow
    subst hs
    refine h.returns hw rfl ?_
    simpa [CommandFlow.setProducer, hq, hf] using hnow
  | emit p r =>
    simp only [hn] at hr
    obtain ⟨type, y, hy, hq, -, hf⟩ := hr
    rw [hy] at hs
    rw [decode_emit hn] at hnow
    subst hs
    refine h.assembling hw rfl ?_
    simp only [CommandFlow.parsed, CommandFlow.setProducer, Function.update_self, hq, hf,
      List.drop_left, payloadsOf_append]
    simpa [payloadsOf, PacketCommand.conn, Decoded.after] using hnow

/-- A worker that is in `Receive` for another slot. -/
theorem InOrder.elsewhere (h : InOrder verifies rest slot s)
    (hw : (s.producers w).slot ≠ some slot) (hs : s.producerStep fb w = some t) :
    InOrder verifies rest slot t := by
  -- no program counter that the worker can go to belongs to the slot either
  have hkeep : ∀ pc, t.producers = Function.update s.producers w pc → pc.slot ≠ some slot →
      (t.clients slot).frameBuf = (s.clients slot).frameBuf →
      payloadsOf slot t.pushes = payloadsOf slot s.pushes → t.calls slot = s.calls slot →
      InOrder verifies rest slot t := by
    intro pc hpc hne hbuf hpay hcalls
    refine h.keep ?_ ?_ hbuf hpay hcalls
    · rw [hpc]
      exact h.alone_update fun he => absurd he hne
    · rw [hpc]
      exact assembles_update (not_assembles_of_slot hw) (not_assembles_of_slot hne)
  cases hp : s.producers w with
  | idle => simp [CommandFlow.producerStep, hp] at hs
  | left => simp [CommandFlow.producerStep, hp] at hs
  | enter conn data =>
    simp only [CommandFlow.producerStep, hp, Option.some.injEq] at hs
    rw [hp] at hw
    subst hs
    refine hkeep _ rfl ?_ rfl rfl rfl
    split
    · simp [ProducerPc.slot]
    · exact hw
  | append conn data =>
    rw [hp] at hw
    have hne : slot ≠ conn.client := fun he => hw (by rw [he]; rfl)
    simp only [CommandFlow.producerStep, hp] at hs
    split at hs
    · cases hs
      refine hkeep _ rfl (by simp [ProducerPc.slot]) ?_ rfl ?_
      · simp [CommandFlow.setProducer, CommandFlow.setClient, Function.update_of_ne hne]
      · simp [CommandFlow.setProducer, CommandFlow.setClient, Function.update_of_ne hne]
    · cases hs
      refine hkeep _ rfl hw ?_ rfl ?_
      · simp [CommandFlow.setProducer, CommandFlow.setClient, Function.update_of_ne hne]
      · simp [CommandFlow.setProducer, CommandFlow.setClient, Function.update_of_ne hne]
  | assemble conn =>
    rw [hp] at hw
    have hne : slot ≠ conn.client := fun he => hw (by rw [he]; rfl)
    obtain ⟨new, hnew, hclient⟩ := round_appends fb conn ⟨s.clients conn.client, s.writeQueue⟩
    have hnil : payloadsOf slot new = [] := by
      rw [payloadsOf, List.filter_eq_nil_iff.mpr, List.map_nil]
      intro cmd hc
      simp [hclient cmd hc, Ne.symm hne]
    simp only [CommandFlow.producerStep, hp, Option.some.injEq] at hs
    subst hs
    refine hkeep _ rfl ?_ ?_ ?_ rfl
    · split
      · exact hw
      · simp [ProducerPc.slot]
    · simp [CommandFlow.setProducer, Function.update_of_ne hne]
    · simp only [CommandFlow.setProducer, hnew, List.drop_left, payloadsOf_append, hnil,
        List.append_nil]

theorem InOrder.producer (h : InOrder (parses fb) rest slot s)
    (hs : s.producerStep fb w = some t) : InOrder (parses fb) rest slot t := by
  by_cases hw : (s.producers w).slot = some slot
  · cases hp : s.producers w with
    | idle => simp [hp, ProducerPc.slot] at hw
    | left => simp [hp, ProducerPc.slot] at hw
    | enter conn data =>
      simp only [CommandFlow.producerStep, hp, Option.some.injEq] at hs
      subst hs
      refine h.keep (h.alone_update fun _ => hw) (assembles_update ?_ ?_) rfl rfl rfl
      · simp [hp]
      · intro conn' _
        split
        · simp
        · simp
    | append conn data =>
      simp only [hp, ProducerPc.slot, Option.some.injEq] at hw
      subst hw
      exact h.append hp hs
    | assemble conn =>
      simp only [hp, ProducerPc.slot, Option.some.injEq] at hw
      subst hw
      exact h.assemble hp hs
  · exact h.elsewhere hw hs

/-- A worker that begins a call for the slot finds nobody else in one. -/
theorem InOrder.receive (h : InOrder verifies rest slot s) (ha : Accounted workerCount s)
    {conn : Conn} {data : List UInt8} (hidle : s.producers w = .idle)
    (hok : Successive workerCount slot s (.receive w conn data)) :
    InOrder verifies rest slot (s.setProducer w (.enter conn data)) := by
  have hnone : conn.client = slot → ∀ v, (s.producers v).slot ≠ some slot := by
    intro hc v
    rcases Nat.lt_or_ge v workerCount with hv | hv
    · exact hok hc v hv
    · rw [ha.outside v hv]
      simp
  refine h.keep ?_ (assembles_update (by simp [hidle]) (by simp)) rfl rfl rfl
  by_cases hc : conn.client = slot
  · have honly : ∀ v, ((s.setProducer w (.enter conn data)).producers v).slot = some slot →
        v = w := by
      intro v hv
      by_contra hvw
      simp only [CommandFlow.setProducer, Function.update_of_ne hvw] at hv
      exact hnone hc v hv
    intro u v hu hv
    rw [honly u hu, honly v hv]
  · exact h.alone_update fun he => absurd (by simpa [ProducerPc.slot] using he) hc

/-- The steps of the other threads, seen from the slot. -/
theorem InOrder.other (h : InOrder verifies rest slot s) (hp : t.producers = s.producers)
    (hbuf : (t.clients slot).frameBuf = (s.clients slot).frameBuf) (hpay : t.pushes = s.pushes)
    (hcalls : t.calls = s.calls) : InOrder verifies rest slot t :=
  h.keep (by rw [hp]; exact h.alone) (fun v conn _ => by rw [hp]) hbuf (by rw [hpay])
    (by rw [hcalls])

theorem logicStep_frame (hs : s.logicStep = some t) :
    t.producers = s.producers ∧ t.clients = s.clients ∧ t.pushes = s.pushes ∧
      t.calls = s.calls := by
  unfold CommandFlow.logicStep at hs
  split at hs
  · cases hs; exact ⟨rfl, rfl, rfl, rfl⟩
  · cases hs; exact ⟨rfl, rfl, rfl, rfl⟩
  · cases hs; exact ⟨rfl, rfl, rfl, rfl⟩
  · split at hs
    · cases hs; exact ⟨rfl, rfl, rfl, rfl⟩
    · cases hs; exact ⟨rfl, rfl, rfl, rfl⟩
  · simp at hs

theorem stopStep_frame (hs : s.stopStep workerCount = some t) :
    t.producers = s.producers ∧ t.clients = s.clients ∧ t.pushes = s.pushes ∧
      t.calls = s.calls := by
  unfold CommandFlow.stopStep at hs
  split at hs
  · cases hs; exact ⟨rfl, rfl, rfl, rfl⟩
  · split at hs
    · cases hs; exact ⟨rfl, rfl, rfl, rfl⟩
    · simp at hs
  · cases hs; exact ⟨rfl, rfl, rfl, rfl⟩
  · cases hs; exact ⟨rfl, rfl, rfl, rfl⟩
  · split at hs
    · cases hs; exact ⟨rfl, rfl, rfl, rfl⟩
    · simp at hs
  · simp at hs

theorem InOrder.setClient (h : InOrder verifies rest slot s) (c : Slot) {client : Client}
    (hbuf : client.frameBuf = (s.clients c).frameBuf) :
    InOrder verifies rest slot (s.setClient c client) := by
  refine h.other rfl ?_ rfl rfl
  by_cases hc : slot = c
  · subst hc
    simpa [CommandFlow.setClient] using hbuf
  · simp [CommandFlow.setClient, Function.update_of_ne hc]

theorem inOrder_step (h : InOrder (parses fb) rest slot s) (ha : Accounted workerCount s)
    {l : FlowLabel} (hok : Successive workerCount slot s l)
    (hs : s.step fb workerCount l = some t) : InOrder (parses fb) rest slot t := by
  cases l with
  | receive w conn data =>
    simp only [CommandFlow.step] at hs
    split at hs
    · rename_i hc
      cases hs
      exact h.receive ha hc.2 hok
    · simp at hs
  | producer w => exact h.producer hs
  | leave w =>
    simp only [CommandFlow.step] at hs
    split at hs
    · rename_i hidle
      cases hs
      refine h.keep (h.alone_update fun he => ?_) (assembles_update (by simp [hidle]) (by simp))
        rfl rfl rfl
      simp [ProducerPc.slot] at he
    · simp at hs
  | logic =>
    obtain ⟨hp, hc, hpush, hcalls⟩ := logicStep_frame hs
    exact h.other hp (by rw [hc]) hpush hcalls
  | stop =>
    obtain ⟨hp, hc, hpush, hcalls⟩ := stopStep_frame hs
    exact h.other hp (by rw [hc]) hpush hcalls
  | close c =>
    cases hs
    exact h.setClient c rfl
  | assign c socket =>
    cases hs
    exact h.setClient c rfl

theorem inOrder_of_reach {clients : Slot → Client}
    (h : (commandSystem fb workerCount clients).Reach (Successive workerCount slot) s) :
    InOrder (parses fb) (clients slot).frameBuf.data slot s := by
  refine h.invariant ?_ fun hr hi hok hs => inOrder_step hi (accounted_of_reach hr) hok hs
  refine ⟨?_, ?_, fun _ => rfl⟩
  · intro v w hv
    simp [commandSystem, ProducerPc.slot] at hv
  · intro w conn _ hw
    simp [commandSystem] at hw

/-- What is dispatched is a part of the reference, and all of it in the end. -/
theorem InOrder.dispatched (h : InOrder verifies rest slot s) (ha : Accounted workerCount s) :
    payloadsOf slot s.dispatched <+: (parseCalls verifies rest (s.calls slot)).frames ∧
    (s.main = .stopped →
      payloadsOf slot s.dispatched = (parseCalls verifies rest (s.calls slot)).frames) := by
  have hpre : payloadsOf slot s.dispatched <+: payloadsOf slot s.pushes := by
    rw [← ha.taken, ← ha.processed, payloadsOf_append, payloadsOf_append, List.append_assoc]
    exact List.prefix_append _ _
  constructor
  · refine hpre.trans ?_
    by_cases hw : ∃ w conn, conn.client = slot ∧ s.producers w = .assemble conn
    · obtain ⟨w, conn, rfl, hw⟩ := hw
      rw [← h.within w conn rfl hw]
      exact List.prefix_append _ _
    · have hall := h.between fun w conn hc he => hw ⟨w, conn, hc, he⟩
      exact hall ▸ List.prefix_rfl
  · intro hm
    have hexit : s.logic = .exited := ha.ended hm
    have hempty : s.writeQueue = [] := ha.drained (by rw [hexit]; rfl)
    have hstop : s.stopRequested = true := ha.final (by rw [hexit]; rfl)
    have hrem : s.remaining = [] := by rw [CommandFlow.remaining, hexit]
    have hall : s.dispatched = s.pushes := by
      rw [← ha.taken, ← ha.processed, hempty, hrem, List.append_nil, List.append_nil]
    rw [hall, ← h.between]
    intro w conn _ he
    have hq := ha.quiet hstop w
    simp [he, ProducerPc.slot] at hq

end

/-- The payloads of one connection. -/
def payloadsOn (conn : Conn) (cmds : List PacketCommand) : List (List UInt8) :=
  (cmds.filter fun cmd => decide (cmd.conn = conn)).map PacketCommand.data

/-- Those of the slot that carry the connection. -/
theorem payloadsOn_eq (conn : Conn) (cmds : List PacketCommand) :
    payloadsOn conn cmds =
      ((payloadsOf conn.client cmds).filter fun f => decide (f.1 = conn)).map Prod.snd := by
  have hfilter : cmds.filter (fun cmd => decide (cmd.conn = conn)) =
      cmds.filter fun cmd => decide (cmd.conn = conn) && cmd.client == conn.client := by
    apply List.filter_congr
    intro cmd _
    by_cases hc : cmd.conn = conn
    · have hclient : cmd.client = conn.client := by rw [← hc]; rfl
      simp [hc, hclient]
    · simp [hc]
  rw [payloadsOn, hfilter, payloadsOf, List.filter_map, List.map_map, List.filter_filter]
  rfl

/-- The frames of one connection in the reference, when it found an empty buffer. -/
theorem frames_of_conn {verifies : List UInt8 → Bool} {rest : List UInt8} {conn : Conn}
    {before : List (Conn × List UInt8)} {chunks : List (List UInt8)}
    (hnew : ∀ call ∈ before, call.1 ≠ conn)
    (hempty : (parseCalls verifies rest before).rest = []) (h : Unbroken verifies chunks) :
    ((parseCalls verifies rest (before ++ chunks.map (Prod.mk conn))).frames.filter
      fun f => decide (f.1 = conn)).map Prod.snd = (decode verifies chunks.flatten).frames := by
  have hold : (parseCalls verifies rest before).frames.filter (fun f => decide (f.1 = conn)) =
      [] := by
    rw [List.filter_eq_nil_iff]
    intro f hf
    obtain ⟨call, hc, he⟩ := mem_calls_of_mem_frames hf
    simp [he, hnew call hc]
  rw [parseCalls_stream hempty h]
  simp [hold, List.filter_map, Function.comp_def]

/-- **Exactly once and in order.** In every run the batches of `Tick` and the queue together are
the pushes in lock order; when `Server::Stop` is over everything has been dispatched. If the calls
of `Receive` for a slot follow one another, its commands are dispatched in the order of their
frames, and a connection that found an empty frame buffer gets the frames of its own bytes. -/
theorem commands_dispatched_once_in_order (fb : FlatBuffers) (workerCount : Nat)
    (clients : Slot → Client) :
    (∀ s, (commandSystem fb workerCount clients).Reach System.always s →
      s.batches.flatten ++ s.writeQueue = s.pushes ∧
      s.dispatched ++ s.remaining = s.batches.flatten ∧
      (s.main = .stopped →
        s.batches.flatten = s.pushes ∧ s.dispatched = s.pushes ∧ s.writeQueue = [])) ∧
    (∀ slot s, (commandSystem fb workerCount clients).Reach (Successive workerCount slot) s →
      let frames := (parseCalls (parses fb) (clients slot).frameBuf.data (s.calls slot)).frames
      payloadsOf slot s.dispatched <+: frames ∧
      (s.main = .stopped → payloadsOf slot s.dispatched = frames) ∧
      ∀ (conn : Conn) (before : List (Conn × List UInt8)) (chunks : List (List UInt8)),
        conn.client = slot → s.calls slot = before ++ chunks.map (Prod.mk conn) →
        (∀ call ∈ before, call.1 ≠ conn) →
        (parseCalls (parses fb) (clients slot).frameBuf.data before).rest = [] →
        Unbroken (parses fb) chunks →
        payloadsOn conn s.dispatched <+: (decode (parses fb) chunks.flatten).frames ∧
        (s.main = .stopped →
          payloadsOn conn s.dispatched = (decode (parses fb) chunks.flatten).frames)) := by
  refine ⟨?_, ?_⟩
  · intro s hr
    have ha := accounted_of_reach hr
    refine ⟨ha.taken, ha.processed, fun hm => ?_⟩
    have hexit : s.logic = .exited := ha.ended hm
    have hempty : s.writeQueue = [] := ha.drained (by rw [hexit]; rfl)
    have hbatches : s.batches.flatten = s.pushes := by rw [← ha.taken, hempty, List.append_nil]
    refine ⟨hbatches, ?_, hempty⟩
    rw [← hbatches, ← ha.processed, CommandFlow.remaining, hexit, List.append_nil]
  · intro slot s hr
    obtain ⟨hpre, hall⟩ := (inOrder_of_reach hr).dispatched (accounted_of_reach hr)
    refine ⟨hpre, hall, ?_⟩
    rintro conn before chunks rfl hcalls hnew hempty hun
    rw [← frames_of_conn hnew hempty hun, ← hcalls, payloadsOn_eq]
    exact ⟨(hpre.filter _).map _, fun hm => by rw [hall hm]⟩

/-- Two workers in turn receive a frame cut in its header, with a tick in between, and the server
stops: the one command is dispatched by the last `Tick`. -/
def splitFrameRun : List FlowLabel :=
  [.receive 0 ⟨0, 1⟩ [0, 0], .producer 0, .producer 0, .producer 0, .logic, .logic, .logic, .logic,
   .receive 1 ⟨0, 1⟩ (0 :: 44 :: leaveBytes ++ [0]), .logic, .producer 1, .logic, .producer 1,
   .logic, .producer 1, .logic, .producer 1, .stop, .leave 0, .leave 1, .stop, .stop, .stop,
   .logic, .logic, .logic, .logic, .logic, .stop]

theorem unbroken_split_header :
    Unbroken (parses sample) [[0, 0], 0 :: 44 :: leaveBytes ++ [0]] := by
  intro pre data post he
  cases pre with
  | nil =>
    cases he
    simp [maxFrameSize]
  | cons chunk pre =>
    obtain ⟨rfl, he⟩ := List.cons.inj he
    cases pre with
    | nil =>
      cases he
      rw [decode_more (nextFrame_short (by decide))]
      decide
    | cons chunk' pre =>
      have hlen := congrArg List.length he
      simp at hlen

theorem split_frame_dispatched : ∃ s,
    (commandSystem sample 2 fun _ => connected).Reach System.always s ∧
    s.dispatched = s.pushes ∧ payloadsOn ⟨0, 1⟩ s.dispatched = [leaveBytes] := by
  obtain ⟨s, hr, hp⟩ := System.reach_of_exec (commandSystem sample 2 fun _ => connected)
    (Successive 2 0) splitFrameRun
    (fun s => s.main == .stopped && s.calls 0 ==
      ([[0, 0], 0 :: 44 :: leaveBytes ++ [0]] : List (List UInt8)).map (Prod.mk ⟨0, 1⟩))
    (by decide +kernel)
  simp only [Bool.and_eq_true, beq_iff_eq] at hp
  obtain ⟨hm, hcalls⟩ := hp
  obtain ⟨honce, horder⟩ := commands_dispatched_once_in_order sample 2 fun _ => connected
  have hr' := hr.mono fun _ _ _ => trivial
  refine ⟨s, hr', ((honce s hr').2.2 hm).2.1, ?_⟩
  exact ((horder 0 s hr).2.2 ⟨0, 1⟩ [] [[0, 0], 0 :: 44 :: leaveBytes ++ [0]] rfl hcalls (by simp)
    rfl unbroken_split_header).2 hm

end Highp.Network

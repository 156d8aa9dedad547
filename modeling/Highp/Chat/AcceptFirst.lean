import Highp.Chat.Teardown

/-! Whether `OnAccept` is the first thing the application hears of a connection. `SetupClient`
posts the first receive before it notifies the application, so this is a matter of the other
workers, which may dequeue that receive at once. -/

namespace Highp.Chat
open Highp.Lib Highp.Network

/-- The connection that a worker is setting up, from the assignment of the socket to the end of
`SetupClient`. -/
def WorkerPc.setup : WorkerPc → Option Conn
  | .associateSocket conn => some conn
  | .postFirstRecv conn => some conn
  | .markConnectionEstablished conn => some conn
  | .onAccept conn => some conn
  | .resetSocket conn .setupClient => some conn
  | _ => none

/-- The slot for which a worker is about to call `PostRecv`. -/
def WorkerPc.posting : WorkerPc → Option Slot
  | .postFirstRecv conn => some conn.client
  | .postNextRecv conn => some conn.client
  | _ => none

/-- The command that a handler is working on. -/
def HandlerPc.call : HandlerPc → Option Call
  | .ready => none
  | .joinRoom call _ => some call
  | .joinSession call _ _ => some call
  | .joinUser call _ _ _ => some call
  | .joinEnter call _ _ => some call
  | .joinReply call _ => some call
  | .leaveFind call => some call
  | .leaveRoom call _ => some call
  | .leaveReply call _ => some call
  | .leaveRemove call _ => some call
  | .chatFind call _ => some call
  | .chatSend call _ _ => some call
  | .resetSocket _ => none
  | .fault => none

/-- The connection of an `OnRecv` or `OnDisconnect`. -/
def Event.attends : Event → Option Conn
  | .onRecv conn => some conn
  | .onDisconnect conn => some conn
  | _ => none

/-- Between `OnAccept` and whatever else the application hears of the connection there is an order,
and `OnAccept` does not come again. -/
def AnnouncedFirst (log : List Event) : Prop :=
  ∀ pre e post c, log = pre ++ e :: post → e.attends = some c →
    .onAccept c ∈ pre ∧ .onAccept c ∉ post

/-! ## The condition -/

/-- A receive is not dequeued while a worker is between posting it and `OnAccept`, and no
`PostRecv` is called on a slot whose current connection another worker is setting up. -/
def AcceptsFirst (s : State) (l : Label) : Prop :=
  (match l with
  | .recvDone _ conn _ => s.workers.all fun pc => pc.establishing != some conn
  | .worker w _ =>
    match s.workers[w]? with
    | some pc => pc.posting.all fun client =>
        (s.workers.eraseIdx w).all fun other => other.setup != some (s.current client)
    | none => true
  | _ => true) = true

instance (s : State) (l : Label) : Decidable (AcceptsFirst s l) :=
  inferInstanceAs (Decidable (_ = true))

/-! ## The log -/

theorem AnnouncedFirst.snoc {log : List Event} {e : Event} (h : AnnouncedFirst log)
    (hnew : ∀ c, e.attends = some c → .onAccept c ∈ log)
    (hfirst : ∀ c, e = .onAccept c → .onAccept c ∉ log) : AnnouncedFirst (log ++ [e]) := by
  intro pre e' post c hl hc
  rcases List.eq_nil_or_concat post with rfl | ⟨post', last, rfl⟩
  · -- the event is the new one
    obtain ⟨rfl, he⟩ := List.append_inj' hl rfl
    rw [List.cons.injEq] at he
    exact ⟨hnew c (he.1 ▸ hc), by simp⟩
  · have hl' : log ++ [e] = (pre ++ e' :: post') ++ [last] := by simpa using hl
    obtain ⟨hlog, he⟩ := List.append_inj' hl' rfl
    rw [List.cons.injEq] at he
    obtain ⟨hpre, hpost⟩ := h pre e' post' c hlog hc
    refine ⟨hpre, ?_⟩
    intro hm
    rw [List.concat_eq_append] at hm
    rcases List.mem_append.mp hm with hm | hm
    · exact hpost hm
    · apply hfirst c (he.1.trans (List.mem_singleton.mp hm).symm)
      rw [hlog]
      exact List.mem_append_left _ hpre

/-- Events that say nothing about the life of a connection. -/
def Event.isNeutral : Event → Bool
  | .posted _ _ _ => true
  | .touched _ _ => true
  | _ => false

theorem AnnouncedFirst.append_neutral {log evs : List Event} (h : AnnouncedFirst log)
    (hn : ∀ e ∈ evs, e.isNeutral = true) : AnnouncedFirst (log ++ evs) := by
  induction evs generalizing log with
  | nil => simpa using h
  | cons e evs ih =>
    have he : e.isNeutral = true := hn e (List.mem_cons_self ..)
    have hone : AnnouncedFirst (log ++ [e]) := by
      apply h.snoc
      · intro c hc
        cases e <;> simp [Event.isNeutral, Event.attends] at he hc
      · rintro c rfl
        simp [Event.isNeutral] at he
    have hrest := ih hone fun e' he' => hn e' (List.mem_cons_of_mem _ he')
    rwa [List.append_assoc] at hrest

variable {cfg : Config} {fb : FlatBuffers} {s t : State} {w : Nat} {ok : Bool}
  {pc pc' : WorkerPc} {c : Conn}

/-- The logic thread logs nothing but sends and users. -/
theorem LogicStep.log {choice : Choice} (h : LogicStep s choice t) :
    ∃ evs, t.log = s.log ++ evs ∧ ∀ e ∈ evs, e.isNeutral = true := by
  have hsent : ∀ pool evs, Sent s pool evs → ∀ e ∈ evs, e.isNeutral = true := by
    intro pool evs hs e he
    obtain ⟨conn, packet, accepted, rfl⟩ := hs.posted e he
    rfl
  cases h with
  | joinExists => exact ⟨_, rfl, by simp [Event.isNeutral]⟩
  | joinUser => exact ⟨_, rfl, by simp [Event.isNeutral]⟩
  | joinEnter _ hs => exact ⟨_, rfl, hsent _ _ hs⟩
  | joinReply _ hs => exact ⟨_, rfl, hsent _ _ hs⟩
  | leaveFind => exact ⟨_, rfl, by simp [Event.isNeutral]⟩
  | leaveRoom _ _ _ hs => exact ⟨_, rfl, hsent _ _ hs⟩
  | leaveReply _ hs => exact ⟨_, rfl, hsent _ _ hs⟩
  | leaveRemove =>
    refine ⟨_, rfl, ?_⟩
    intro e he
    obtain ⟨user, -, rfl⟩ := List.mem_map.mp he
    rfl
  | chatFind => exact ⟨_, rfl, by simp [Event.isNeutral]⟩
  | chatSend _ hs => exact ⟨_, rfl, hsent _ _ hs⟩
  | _ => exact ⟨[], by simp [State.closeSocket, State.resetSocket], by simp⟩

/-- What a worker logs: the connection it handles, or the one it announces. -/
theorem WorkerStep.log (h : WorkerStep cfg fb s ok pc t pc') :
    t.log = s.log ∨
      (∃ c e, pc.handling = some c ∧ Event.attends e = some c ∧ t.log = s.log ++ [e]) ∨
      ∃ c, pc = .onAccept c ∧ t.log = s.log ++ [.onAccept c] := by
  cases h with
  | onAccept => exact Or.inr (Or.inr ⟨_, rfl, rfl⟩)
  | @kick conn => exact Or.inr (Or.inl ⟨conn, .onDisconnect conn, rfl, rfl, rfl⟩)
  | @overflow conn => exact Or.inr (Or.inl ⟨conn, .onRecv conn, rfl, rfl, rfl⟩)
  | @append conn => exact Or.inr (Or.inl ⟨conn, .onRecv conn, rfl, rfl, rfl⟩)
  | _ => exact Or.inl rfl

theorem WorkerStep.mem_log (h : WorkerStep cfg fb s ok pc t pc') {e : Event} (he : e ∈ s.log) :
    e ∈ t.log := by
  rcases h.log with hl | ⟨_, _, -, -, hl⟩ | ⟨_, -, hl⟩
  · exact hl ▸ he
  · exact hl ▸ List.mem_append_left _ he
  · exact hl ▸ List.mem_append_left _ he

/-! ## Announced at most once -/

/-- A connection that is being set up has not been announced, and one worker is at it. -/
structure SetupOnce (s : State) : Prop where
  logged : ∀ c, .onAccept c ∈ s.log → c.epoch ≤ s.epoch c.client
  begun : ∀ pc ∈ s.workers, ∀ c, pc.setup = some c → c.epoch ≤ s.epoch c.client
  unannounced : ∀ pc ∈ s.workers, ∀ c, pc.setup = some c → .onAccept c ∉ s.log
  alone : ∀ (i j : Nat) (c : Conn) (pc pc' : WorkerPc), s.workers[i]? = some pc →
    s.workers[j]? = some pc' → pc.setup = some c → pc'.setup = some c → i = j

theorem setup_pc (conn : Conn) (next : AfterClose) : (next.pc conn).setup = none := by
  cases next <;> rfl

theorem setup_behindClose {conn : Conn} {next : AfterClose}
    (h : (s.behindClose conn next).setup = some c) : next = .setupClient ∧ c = conn := by
  rcases behindClose_cases s conn next with he | he
  · rw [he] at h
    cases next with
    | setupClient => exact ⟨rfl, (Option.some.inj h).symm⟩
    | handleRecv | postNextRecv | consume _ => simp [WorkerPc.setup] at h
  · rw [he, setup_pc] at h
    cases h

theorem WorkerStep.setup (h : WorkerStep cfg fb s ok pc t pc')
    (hpc : ∀ k client, pc ≠ .assignSocket k client) (hc : pc'.setup = some c) :
    pc.setup = some c := by
  cases h with
  | assign => exact absurd rfl (hpc _ _)
  | associate => exact hc
  | firstRecv => exact hc
  | mark => exact hc
  | associateFailed | firstRecvFailed => exact congrArg some (setup_behindClose hc).2.symm
  | overflow | tooLarge | invalid => cases (setup_behindClose hc).1
  | @reset conn next =>
    rw [setup_pc] at hc
    cases hc
  | _ => simp [WorkerPc.setup] at hc

/-- The worker at place `w` of the list after a step. -/
theorem getElem?_set_cases {workers : List WorkerPc} {i : Nat} {q : WorkerPc}
    (h : (workers.set w pc')[i]? = some q) : i = w ∧ q = pc' ∨ i ≠ w ∧ workers[i]? = some q := by
  by_cases hi : i = w
  · subst hi
    rw [List.getElem?_set_self' ] at h
    cases hw : workers[i]? with
    | none => simp [hw] at h
    | some old =>
      simp only [hw, Option.map_eq_map, Option.map_some, Function.const_apply,
        Option.some.injEq] at h
      exact Or.inl ⟨rfl, h.symm⟩
  · rw [List.getElem?_set_ne (Ne.symm hi)] at h
    exact Or.inr ⟨hi, h⟩

/-- A worker that takes up no new connection. -/
theorem SetupOnce.replace {log : List Event} (h : SetupOnce s) (hw : s.workers[w]? = some pc)
    (hsetup : ∀ c, pc'.setup = some c → pc.setup = some c)
    (hlog : ∀ c, .onAccept c ∈ log → .onAccept c ∈ s.log ∨
      pc.setup = some c ∧ pc'.setup = none)
    (hworkers : t.workers = s.workers.set w pc') (hepoch : t.epoch = s.epoch)
    (htlog : t.log = log) : SetupOnce t := by
  have hmem := List.mem_of_getElem? hw
  refine ⟨?_, ?_, ?_, ?_⟩
  · intro c hc
    rw [hepoch]
    rcases hlog c (htlog ▸ hc) with hc | ⟨hc, -⟩
    · exact h.logged c hc
    · exact h.begun pc hmem c hc
  · intro q hq c hc
    rw [hepoch]
    rcases List.mem_or_eq_of_mem_set (hworkers ▸ hq) with hq | rfl
    · exact h.begun q hq c hc
    · exact h.begun pc hmem c (hsetup c hc)
  · intro q hq c hc hl
    obtain ⟨i, hi⟩ := List.mem_iff_getElem?.mp hq
    rw [hworkers] at hi
    rcases getElem?_set_cases hi with ⟨rfl, rfl⟩ | ⟨hiw, hi⟩
    · rcases hlog c (htlog ▸ hl) with hl | ⟨-, hn⟩
      · exact h.unannounced pc hmem c (hsetup c hc) hl
      · simp [hn] at hc
    · rcases hlog c (htlog ▸ hl) with hl | ⟨hpc, -⟩
      · exact h.unannounced q (List.mem_of_getElem? hi) c hc hl
      · exact hiw (h.alone i w c q pc hi hw hc hpc)
  · intro i j c q q' hi hj hc hc'
    rw [hworkers] at hi hj
    rcases getElem?_set_cases hi with ⟨rfl, rfl⟩ | ⟨hiw, hq⟩
    · rcases getElem?_set_cases hj with ⟨rfl, rfl⟩ | ⟨hjw, hq'⟩
      · rfl
      · exact h.alone i j c pc q' hw hq' (hsetup c hc) hc'
    · rcases getElem?_set_cases hj with ⟨rfl, rfl⟩ | ⟨hjw, hq'⟩
      · exact h.alone i j c q pc hq hw hc (hsetup c hc')
      · exact h.alone i j c q q' hq hq' hc hc'

/-- The new connection of a slot has an epoch that nobody has seen. -/
theorem SetupOnce.assign {k : SocketHandle} {client : Slot} (h : SetupOnce s)
    (hw : s.workers[w]? = some (.assignSocket k client))
    (hs : WorkerStep cfg fb s ok (.assignSocket k client) t pc') :
    SetupOnce { t with workers := s.workers.set w pc' } := by
  cases hs
  have hle : ∀ c : Conn, c.epoch ≤ s.epoch c.client →
      c.epoch ≤ Function.update s.epoch client (s.epoch client + 1) c.client := by
    intro c hc
    by_cases hcl : c.client = client
    · rw [hcl] at hc ⊢
      simp only [Function.update_self]
      omega
    · rwa [Function.update_of_ne hcl]
  have hfresh : ¬ s.epoch client + 1 ≤ s.epoch client := by omega
  refine ⟨fun c hc => hle c (h.logged c hc), ?_, ?_, ?_⟩
  · intro q hq c hc
    rcases List.mem_or_eq_of_mem_set hq with hq | rfl
    · exact hle c (h.begun q hq c hc)
    · cases hc
      simp
  · intro q hq c hc
    rcases List.mem_or_eq_of_mem_set hq with hq | rfl
    · exact h.unannounced q hq c hc
    · cases hc
      exact fun hl => hfresh (h.logged _ hl)
  · intro i j c q q' hi hj hc hc'
    rcases getElem?_set_cases hi with ⟨rfl, rfl⟩ | ⟨hiw, hq⟩
    · rcases getElem?_set_cases hj with ⟨rfl, rfl⟩ | ⟨hjw, hq'⟩
      · rfl
      · cases hc
        exact absurd (h.begun q' (List.mem_of_getElem? hq') _ hc') hfresh
    · rcases getElem?_set_cases hj with ⟨rfl, rfl⟩ | ⟨hjw, hq'⟩
      · cases hc'
        exact absurd (h.begun q (List.mem_of_getElem? hq) _ hc) hfresh
      · exact h.alone i j c q q' hq hq' hc hc'

theorem SetupOnce.worker (h : SetupOnce s) (hw : s.workers[w]? = some pc)
    (hs : WorkerStep cfg fb s ok pc t pc') :
    SetupOnce { t with workers := s.workers.set w pc' } := by
  by_cases hpc : ∃ k client, pc = .assignSocket k client
  · obtain ⟨k, client, rfl⟩ := hpc
    exact h.assign hw hs
  · have hpc : ∀ k client, pc ≠ .assignSocket k client := fun k client he => hpc ⟨k, client, he⟩
    refine h.replace (t := { t with workers := s.workers.set w pc' }) hw
      (fun c hc => hs.setup hpc hc) ?_ rfl (hs.noNewSocket hpc).epoch rfl
    intro c hc
    rcases hs.log with hl | ⟨c', e, -, he, hl⟩ | ⟨c', rfl, hl⟩
    · exact Or.inl (hl ▸ hc)
    · rw [hl] at hc
      rcases List.mem_append.mp hc with hc | hc
      · exact Or.inl hc
      · rw [← List.mem_singleton.mp hc] at he
        simp [Event.attends] at he
    · rw [hl] at hc
      rcases List.mem_append.mp hc with hc | hc
      · exact Or.inl hc
      · cases List.mem_singleton.mp hc
        cases hs
        exact Or.inr ⟨rfl, rfl⟩

theorem SetupOnce.step {l : Label} (h : SetupOnce s) (hs : s.step cfg fb l = some t) :
    SetupOnce t := by
  cases l with
  | accepted w acceptSocket =>
    obtain ⟨hw, -, rfl⟩ := step_accepted hs
    exact h.replace hw (by simp [WorkerPc.setup]) (fun c hc => Or.inl hc) rfl rfl rfl
  | arrive conn data =>
    obtain ⟨-, -, -, rfl⟩ := step_arrive hs
    exact ⟨h.logged, h.begun, h.unannounced, h.alone⟩
  | recvDone w conn result =>
    obtain ⟨hw, -, rfl⟩ := step_recvDone hs
    refine h.replace hw ?_ (fun c hc => Or.inl hc) rfl rfl rfl
    intro c hc
    rcases onRecvDequeued_cases conn result with ⟨-, he⟩ | ⟨-, he | ⟨data, he⟩⟩
    · simp [he, WorkerPc.setup] at hc
    · simp [he, WorkerPc.setup] at hc
    · simp [he, WorkerPc.setup] at hc
  | sendDone w conn result =>
    obtain ⟨hw, -, rfl⟩ := step_sendDone hs
    refine h.replace hw ?_ (fun c hc => Or.inl hc) rfl rfl rfl
    intro c hc
    rcases onSendDequeued_cases conn result with he | he
    · simp [he, WorkerPc.setup] at hc
    · simp [he, WorkerPc.setup] at hc
  | worker w ok =>
    obtain ⟨pc, u, pc', hw, hstep, rfl⟩ := step_worker hs
    exact h.worker hw hstep
  | tick =>
    obtain ⟨-, -, rfl⟩ := step_tick hs
    exact ⟨h.logged, h.begun, h.unannounced, h.alone⟩
  | logic choice =>
    have hl := logicStep_inv hs
    obtain ⟨evs, hlog, hn⟩ := hl.log
    have hsub : ∀ c, .onAccept c ∈ t.log → .onAccept c ∈ s.log := by
      intro c hc
      rw [hlog] at hc
      rcases List.mem_append.mp hc with hc | hc
      · exact hc
      · simpa [Event.isNeutral] using hn _ hc
    have hepoch := hl.noNewSocket.epoch
    have hworkers := hl.network.1
    refine ⟨?_, ?_, ?_, ?_⟩
    · intro c hc
      rw [hepoch]
      exact h.logged c (hsub c hc)
    · rw [hworkers, hepoch]
      exact h.begun
    · rw [hworkers]
      exact fun q hq c hc hm => h.unannounced q hq c hc (hsub c hm)
    · rw [hworkers]
      exact h.alone

/-! ## Announced before anything else -/

/-- What is pending, handled or queued belongs to announced connections; only the first receive
may be ahead of `OnAccept`, and the current connection of a slot may still be in setup. -/
structure Announced (s : State) : Prop where
  recvs : ∀ c ∈ s.recvs, .onAccept c ∈ s.log ∨ ∃ pc ∈ s.workers, pc.establishing = some c
  handled : ∀ pc ∈ s.workers, ∀ c, pc.handling = some c → .onAccept c ∈ s.log
  slots : ∀ i, (s.pool i).isConnected = true →
    .onAccept (s.current i) ∈ s.log ∨ ∃ pc ∈ s.workers, pc.setup = some (s.current i)
  queued : ∀ cmd ∈ s.queue, .onAccept cmd.conn ∈ s.log
  batched : ∀ cmd ∈ s.batch, .onAccept cmd.conn ∈ s.log
  called : ∀ call, s.handler.call = some call → .onAccept call.cmd.conn ∈ s.log
  ordered : AnnouncedFirst s.log

/-- A worker between the first receive and `OnAccept` gets to `OnAccept`. -/
theorem WorkerStep.establishing_kept (h : WorkerStep cfg fb s ok pc t pc')
    (hc : pc.establishing = some c) : pc'.establishing = some c ∨ .onAccept c ∈ t.log := by
  cases h with
  | mark => exact Or.inl hc
  | onAccept =>
    cases hc
    exact Or.inr (by simp)
  | _ => simp [WorkerPc.establishing] at hc

/-- The failed setup of a connection is over when its slot has no socket. -/
theorem behindClose_setup (s : State) (conn : Conn) :
    (s.behindClose conn .setupClient).setup = some conn ∨
      (s.pool conn.client).isConnected = false := by
  unfold State.behindClose
  split
  · exact .inl rfl
  · exact .inr (Bool.eq_false_iff.mpr ‹_›)

/-- A worker in setup goes on, announces the connection or closes the slot. -/
theorem WorkerStep.setup_kept (h : WorkerStep cfg fb s ok pc t pc') (hc : pc.setup = some c) :
    pc'.setup = some c ∨ .onAccept c ∈ t.log ∨ (t.pool c.client).isConnected = false := by
  cases h with
  | associate => exact Or.inl hc
  | associateFailed | firstRecvFailed =>
    cases hc
    rcases behindClose_setup s c with he | hclosed
    · exact Or.inl he
    · exact Or.inr (Or.inr (by simpa [State.closeSocket, Client.isConnected] using hclosed))
  | firstRecv => exact Or.inl hc
  | @reset conn next =>
    cases next with
    | setupClient =>
      cases hc
      exact Or.inr (Or.inr (by simp [State.resetSocket, Client.isConnected]))
    | handleRecv | postNextRecv | consume _ => simp [WorkerPc.setup] at hc
  | mark => exact Or.inl hc
  | onAccept =>
    cases hc
    exact Or.inr (Or.inl (by simp))
  | _ => simp [WorkerPc.setup] at hc

theorem WorkerStep.posts (h : WorkerStep cfg fb s ok pc t pc') :
    t.recvs = s.recvs ∨ ∃ client, pc.posting = some client ∧
      (s.pool client).isConnected = true ∧ t.recvs = s.recvs ++ [s.current client] ∧
      ∀ c, pc.setup = some c → pc'.establishing = some c := by
  cases h with
  | firstRecv hp =>
    exact Or.inr ⟨_, rfl, (Bool.and_eq_true_iff.mp hp).2, rfl, fun c hc => hc⟩
  | nextRecv hp =>
    exact Or.inr ⟨_, rfl, (Bool.and_eq_true_iff.mp hp).2, rfl, by simp [WorkerPc.setup]⟩
  | _ => exact Or.inl rfl

theorem WorkerStep.queue (h : WorkerStep cfg fb s ok pc t pc') :
    t.batch = s.batch ∧ (t.queue = s.queue ∨
      ∃ cmd, pc.handling = some cmd.conn ∧ t.queue = s.queue ++ [cmd]) := by
  cases h with
  | command => exact ⟨rfl, Or.inr ⟨_, rfl, rfl⟩⟩
  | _ => exact ⟨rfl, Or.inl rfl⟩

theorem LogicStep.commands {choice : Choice} (h : LogicStep s choice t) :
    t.queue = s.queue ∧ (∀ cmd ∈ t.batch, cmd ∈ s.batch) ∧
      ∀ call, t.handler.call = some call → s.handler.call = some call ∨ call.cmd ∈ s.batch := by
  have htail : ∀ {cmd batch}, s.batch = cmd :: batch → ∀ cmd' ∈ batch, cmd' ∈ s.batch := by
    intro cmd batch hb cmd' hm
    rw [hb]
    exact List.mem_cons_of_mem _ hm
  cases h with
  | skip hh hb => exact ⟨rfl, htail hb, by simp [hh, HandlerPc.call]⟩
  | startJoin _ _ hh hb => exact ⟨rfl, htail hb, by simp [hb, HandlerPc.call]⟩
  | startLeave _ hh hb => exact ⟨rfl, htail hb, by simp [hb, HandlerPc.call]⟩
  | startChat _ _ hh hb => exact ⟨rfl, htail hb, by simp [hb, HandlerPc.call]⟩
  | reject hh hb _ => exact ⟨rfl, htail hb, by simp [HandlerPc.call]⟩
  | rejectClosed hh hb _ => exact ⟨rfl, htail hb, by simp [hh, State.closeSocket, HandlerPc.call]⟩
  | joinRoom hh => exact ⟨rfl, fun _ hm => hm, by simp [hh, HandlerPc.call]⟩
  | joinSession hh => exact ⟨rfl, fun _ hm => hm, by simp [hh, HandlerPc.call]⟩
  | joinUser hh => exact ⟨rfl, fun _ hm => hm, by simp [hh, HandlerPc.call]⟩
  | joinEnter hh => exact ⟨rfl, fun _ hm => hm, by simp [hh, HandlerPc.call]⟩
  | leaveFind hh => exact ⟨rfl, fun _ hm => hm, by simp [hh, HandlerPc.call]⟩
  | leaveMissing hh => exact ⟨rfl, fun _ hm => hm, by simp [hh, HandlerPc.call]⟩
  | leaveRoom hh => exact ⟨rfl, fun _ hm => hm, by simp [hh, HandlerPc.call]⟩
  | leaveReply hh => exact ⟨rfl, fun _ hm => hm, by simp [hh, HandlerPc.call]⟩
  | chatFind hh => exact ⟨rfl, fun _ hm => hm, by simp [hh, HandlerPc.call]⟩
  | _ => exact ⟨rfl, fun _ hm => hm, by simp [HandlerPc.call]⟩

/-- `PostRecv` on a slot: by the condition the current connection is announced, or the worker
itself is the one that will announce it. -/
theorem Announced.posted (h : Announced s) (hw : s.workers[w]? = some pc)
    (hok : AcceptsFirst s (.worker w ok)) {client : Slot} (hp : pc.posting = some client)
    (hopen : (s.pool client).isConnected = true) :
    .onAccept (s.current client) ∈ s.log ∨ pc.setup = some (s.current client) := by
  refine (h.slots client hopen).imp id ?_
  rintro ⟨q, hm, hq⟩
  simp only [AcceptsFirst, hw, hp, Option.all_some, List.all_eq_true, bne_iff_ne] at hok
  obtain ⟨j, hj⟩ := List.mem_iff_getElem?.mp hm
  by_cases hjw : j = w
  · subst hjw
    rw [hw, Option.some.injEq] at hj
    rwa [hj]
  · exact absurd hq (hok q (List.mem_eraseIdx_iff_getElem?.mpr ⟨j, hjw, hj⟩))

theorem Announced.worker_recvs (h : Announced s) (hw : s.workers[w]? = some pc)
    (hok : AcceptsFirst s (.worker w ok)) (hs : WorkerStep cfg fb s ok pc t pc') :
    ∀ c ∈ t.recvs, .onAccept c ∈ t.log ∨
      ∃ q ∈ s.workers.set w pc', q.establishing = some c := by
  have hold : ∀ c ∈ s.recvs, .onAccept c ∈ t.log ∨
      ∃ q ∈ s.workers.set w pc', q.establishing = some c := by
    intro c hc
    rcases h.recvs c hc with hl | ⟨q, hm, hq⟩
    · exact Or.inl (hs.mem_log hl)
    · by_cases hqp : q = pc
      · subst hqp
        rcases hs.establishing_kept hq with he | hl
        · exact Or.inr ⟨pc', mem_set_self hw, he⟩
        · exact Or.inl hl
      · exact Or.inr ⟨q, mem_set_of_ne hw hm hqp, hq⟩
  intro c hc
  rcases hs.posts with he | ⟨client, hp, hopen, he, hest⟩
  · exact hold c (he ▸ hc)
  · rw [he] at hc
    rcases List.mem_append.mp hc with hc | hc
    · exact hold c hc
    · rw [List.mem_singleton.mp hc]
      rcases h.posted hw hok hp hopen with hl | hsetup
      · exact Or.inl (hs.mem_log hl)
      · exact Or.inr ⟨pc', mem_set_self hw, hest _ hsetup⟩

theorem Announced.worker_slots (h : Announced s) (hw : s.workers[w]? = some pc)
    (hs : WorkerStep cfg fb s ok pc t pc') (i : Slot) (hi : (t.pool i).isConnected = true) :
    .onAccept (t.current i) ∈ t.log ∨
      ∃ q ∈ s.workers.set w pc', q.setup = some (t.current i) := by
  by_cases hpc : ∃ k client, pc = .assignSocket k client
  · obtain ⟨k, client, rfl⟩ := hpc
    cases hs
    by_cases hic : i = client
    · subst hic
      exact Or.inr ⟨_, mem_set_self hw, by simp [WorkerPc.setup, State.current]⟩
    · have hi' : (s.pool i).isConnected = true := by simpa [Function.update_of_ne hic] using hi
      rcases h.slots i hi' with hl | ⟨q, hm, hq⟩
      · exact Or.inl (by simpa [State.current, Function.update_of_ne hic] using hl)
      · refine Or.inr ⟨q, mem_set_of_ne hw hm ?_, ?_⟩
        · rintro rfl
          simp [WorkerPc.setup] at hq
        · simpa [State.current, Function.update_of_ne hic] using hq
  · have hnew := hs.noNewSocket fun k client he => hpc ⟨k, client, he⟩
    have hcur : t.current i = s.current i := by rw [State.current, hnew.epoch, State.current]
    rw [hcur]
    rcases h.slots i (hnew.isConnected hi) with hl | ⟨q, hm, hq⟩
    · exact Or.inl (hs.mem_log hl)
    · by_cases hqp : q = pc
      · subst hqp
        rcases hs.setup_kept hq with he | hl | hclosed
        · exact Or.inr ⟨pc', mem_set_self hw, he⟩
        · exact Or.inl hl
        · have hcl : (t.pool i).isConnected = false := hclosed
          simp [hcl] at hi
      · exact Or.inr ⟨q, mem_set_of_ne hw hm hqp, hq⟩

theorem Announced.worker_ordered (h : Announced s) (hset : SetupOnce s)
    (hw : s.workers[w]? = some pc) (hs : WorkerStep cfg fb s ok pc t pc') :
    AnnouncedFirst t.log := by
  have hmem := List.mem_of_getElem? hw
  rcases hs.log with hl | ⟨c, e, hc, he, hl⟩ | ⟨c, rfl, hl⟩
  · exact hl ▸ h.ordered
  · rw [hl]
    apply h.ordered.snoc
    · intro c' hc'
      rw [he, Option.some.injEq] at hc'
      exact hc' ▸ h.handled pc hmem c hc
    · rintro c' rfl
      simp [Event.attends] at he
  · rw [hl]
    apply h.ordered.snoc
    · simp [Event.attends]
    · rintro c' he
      cases he
      exact hset.unannounced _ hmem c rfl

theorem Announced.worker (h : Announced s) (hset : SetupOnce s) (hw : s.workers[w]? = some pc)
    (hok : AcceptsFirst s (.worker w ok)) (hs : WorkerStep cfg fb s ok pc t pc') :
    Announced { t with workers := s.workers.set w pc' } := by
  have hmem := List.mem_of_getElem? hw
  obtain ⟨hbatch, hqueue⟩ := hs.queue
  have hhandler := hs.registry.2.1
  have hrecvs := h.worker_recvs hw hok hs
  have hslots := h.worker_slots hw hs
  have hordered := h.worker_ordered hset hw hs
  refine ⟨hrecvs, ?_, hslots, ?_, ?_, ?_, hordered⟩
  · intro q hq c hc
    rcases List.mem_or_eq_of_mem_set hq with hq | rfl
    · exact hs.mem_log (h.handled q hq c hc)
    · exact hs.mem_log (h.handled pc hmem c (hs.handling hc))
  · intro cmd hcmd
    rcases hqueue with he | ⟨new, hc, he⟩
    · exact hs.mem_log (h.queued cmd (he ▸ hcmd))
    · rcases List.mem_append.mp (he ▸ hcmd : cmd ∈ s.queue ++ [new]) with hcmd | hcmd
      · exact hs.mem_log (h.queued cmd hcmd)
      · rw [List.mem_singleton.mp hcmd]
        exact hs.mem_log (h.handled pc hmem _ hc)
  · intro cmd hcmd
    exact hs.mem_log (h.batched cmd (hbatch ▸ hcmd))
  · intro call hcall
    exact hs.mem_log (h.called call (hhandler ▸ hcall))

/-- An idle worker that takes up a completion. -/
theorem Announced.dequeue (h : Announced s) (hw : s.workers[w]? = some .idle)
    (hnew : ∀ c, pc.handling = some c → .onAccept c ∈ s.log)
    (hworkers : t.workers = s.workers.set w pc) (hrecvs : ∀ c ∈ t.recvs, c ∈ s.recvs)
    (hpool : t.pool = s.pool) (hepoch : t.epoch = s.epoch) (hlog : t.log = s.log)
    (hqueue : t.queue = s.queue) (hbatch : t.batch = s.batch) (hhandler : t.handler = s.handler) :
    Announced t := by
  have hbusy : ∀ q ∈ s.workers, q ≠ .idle → q ∈ t.workers := by
    intro q hm hq
    rw [hworkers]
    exact mem_set_of_ne hw hm hq
  refine ⟨?_, ?_, ?_, ?_, ?_, ?_, hlog ▸ h.ordered⟩
  · intro c hc
    rw [hlog]
    refine (h.recvs c (hrecvs c hc)).imp id ?_
    rintro ⟨q, hm, hq⟩
    exact ⟨q, hbusy q hm (by rintro rfl; simp [WorkerPc.establishing] at hq), hq⟩
  · intro q hq c hc
    rw [hlog]
    rcases List.mem_or_eq_of_mem_set (hworkers ▸ hq) with hq | rfl
    · exact h.handled q hq c hc
    · exact hnew c hc
  · intro i hi
    rw [hlog, State.current, hepoch]
    refine (h.slots i (hpool ▸ hi)).imp id ?_
    rintro ⟨q, hm, hq⟩
    exact ⟨q, hbusy q hm (by rintro rfl; simp [WorkerPc.setup] at hq), hq⟩
  · rw [hqueue, hlog]
    exact h.queued
  · rw [hbatch, hlog]
    exact h.batched
  · rw [hhandler, hlog]
    exact h.called

theorem Announced.logic {choice : Choice} (h : Announced s) (hs : LogicStep s choice t) :
    Announced t := by
  obtain ⟨evs, hlog, hn⟩ := hs.log
  obtain ⟨hworkers, hrecvs⟩ := hs.network
  obtain ⟨hqueue, hbatch, hcall⟩ := hs.commands
  have hnew := hs.noNewSocket
  have hmem : ∀ e ∈ s.log, e ∈ t.log := by
    intro e he
    rw [hlog]
    exact List.mem_append_left _ he
  refine ⟨?_, ?_, ?_, ?_, ?_, ?_, ?_⟩
  · rw [hrecvs, hworkers]
    exact fun c hc => (h.recvs c hc).imp (hmem _) id
  · rw [hworkers]
    exact fun q hq c hc => hmem _ (h.handled q hq c hc)
  · intro i hi
    rw [State.current, hnew.epoch, hworkers]
    exact (h.slots i (hnew.isConnected hi)).imp (hmem _) id
  · rw [hqueue]
    exact fun cmd hc => hmem _ (h.queued cmd hc)
  · exact fun cmd hc => hmem _ (h.batched cmd (hbatch cmd hc))
  · intro call hc
    rcases hcall call hc with hc | hc
    · exact hmem _ (h.called call hc)
    · exact hmem _ (h.batched call.cmd hc)
  · rw [hlog]
    exact h.ordered.append_neutral hn

theorem Announced.step {l : Label} (h : Announced s) (hset : SetupOnce s) (hok : AcceptsFirst s l)
    (hs : s.step cfg fb l = some t) : Announced t := by
  cases l with
  | accepted w acceptSocket =>
    obtain ⟨hw, -, rfl⟩ := step_accepted hs
    exact h.dequeue hw (by simp [WorkerPc.handling]) rfl (fun _ hc => hc) rfl rfl rfl rfl rfl rfl
  | arrive conn data =>
    obtain ⟨-, -, -, rfl⟩ := step_arrive hs
    exact ⟨h.recvs, h.handled, h.slots, h.queued, h.batched, h.called, h.ordered⟩
  | recvDone w conn result =>
    obtain ⟨hw, hm, rfl⟩ := step_recvDone hs
    refine h.dequeue hw ?_ rfl (fun c hc => List.mem_of_mem_erase hc) rfl rfl rfl rfl rfl rfl
    intro c hc
    obtain ⟨-, rfl⟩ := handling_onRecvDequeued hc
    simp only [AcceptsFirst, List.all_eq_true, bne_iff_ne] at hok
    rcases h.recvs c hm with hl | ⟨q, hq, he⟩
    · exact hl
    · exact absurd he (hok q hq)
  | sendDone w conn result =>
    obtain ⟨hw, -, rfl⟩ := step_sendDone hs
    refine h.dequeue hw ?_ rfl (fun _ hc => hc) rfl rfl rfl rfl rfl rfl
    simp [handling_onSendDequeued]
  | worker w ok =>
    obtain ⟨pc, u, pc', hw, hstep, rfl⟩ := step_worker hs
    exact h.worker hset hw hok hstep
  | tick =>
    obtain ⟨-, -, rfl⟩ := step_tick hs
    exact ⟨h.recvs, h.handled, h.slots, by simp, h.queued, h.called, h.ordered⟩
  | logic choice => exact h.logic (logicStep_inv hs)

/-! ## The session of an announced connection -/

def Event.isAccept : Event → Bool
  | .onAccept _ => true
  | _ => false

/-- How many sessions `GameLoop::Connect` has made. -/
def announcements (log : List Event) : Nat := log.countP Event.isAccept

/-- A call of `RemoveByClient`: the connection whose `Disconnect` it belongs to, and the sessions it
takes away. -/
structure Removal where
  conn : Conn
  sessions : List Session

def Removal.note (s : State) (l : Label) (_ : State) (removals : List Removal) : List Removal :=
  match l with
  | .worker w _ =>
    match s.workers[w]? with
    | some (.removeByClient conn) => removals ++
        [⟨conn, s.sessions.sessions.filter fun session => session.isSameSession s.pool conn.client⟩]
    | _ => removals
  | _ => removals

/-- Runs with the calls of `RemoveByClient`. -/
def removalServer (cfg : Config) (fb : FlatBuffers) : System (State × List Removal) Label :=
  (chatServer cfg fb).recording [] Removal.note

/-- Sessions are numbered in the order of their `OnAccept`, and go away in `RemoveByClient` only, as
long as the counter has not come round. -/
structure SessionsKept (s : State) (removals : List Removal) : Prop where
  counter : s.sessions.sessionCounter = announcements s.log % 2 ^ 64
  ids : ∀ session ∈ s.sessions.sessions, ∃ j < announcements s.log, session.id = j % 2 ^ 64
  kept : announcements s.log ≤ 2 ^ 64 → ∀ c, .onAccept c ∈ s.log →
    (∃ session ∈ s.sessions.sessions, session.conn = c) ∨
      ∃ r ∈ removals, ∃ session ∈ r.sessions, session.conn = c
  removing : ∀ c, .removeByClient c ∈ s.workers → .onDisconnect c ∈ s.log
  removed : ∀ r ∈ removals, .onDisconnect r.conn ∈ s.log

section
variable {removals : List Removal}

/-- A step that neither announces a connection nor touches the sessions. -/
theorem SessionsKept.pass (h : SessionsKept s removals) {evs : List Event}
    (hlog : t.log = s.log ++ evs) (hn : ∀ e ∈ evs, e.isAccept = false)
    (hsess : t.sessions = s.sessions)
    (hrem : ∀ c, .removeByClient c ∈ t.workers → .onDisconnect c ∈ t.log) :
    SessionsKept t removals := by
  have hcount : announcements t.log = announcements s.log := by
    rw [hlog, announcements, List.countP_append, announcements, Nat.add_eq_left,
      List.countP_eq_zero]
    intro e he
    simp [hn e he]
  refine ⟨by rw [hcount, hsess]; exact h.counter, by rw [hcount, hsess]; exact h.ids, ?_, hrem,
    fun r hr => hlog ▸ List.mem_append_left _ (h.removed r hr)⟩
  intro hle c hc
  rw [hcount] at hle
  rw [hsess]
  rw [hlog] at hc
  refine h.kept hle c ?_
  rcases List.mem_append.mp hc with hc | hc
  · exact hc
  · simpa [Event.isAccept] using hn _ hc

theorem SessionsKept.same (h : SessionsKept s removals) (hlog : t.log = s.log)
    (hsess : t.sessions = s.sessions)
    (hrem : ∀ c, .removeByClient c ∈ t.workers → .onDisconnect c ∈ t.log) :
    SessionsKept t removals :=
  h.pass (by rw [hlog, List.append_nil]) (by simp) hsess hrem

/-- A worker that does not go on to remove a session. -/
theorem SessionsKept.removing_set (h : SessionsKept s removals)
    (hne : ∀ c, pc' ≠ .removeByClient c) (c : Conn)
    (hc : .removeByClient c ∈ s.workers.set w pc') : .onDisconnect c ∈ s.log := by
  rcases List.mem_or_eq_of_mem_set hc with hc | hc
  · exact h.removing c hc
  · exact absurd hc.symm (hne c)

/-- `OnAccept`: the new session has a number of its own. -/
theorem SessionsKept.onAccept (h : SessionsKept s removals) {conn : Conn} :
    SessionsKept { s with
      sessions := s.sessions.createSession conn
      log := s.log ++ [.onAccept conn]
      workers := s.workers.set w .idle } removals := by
  have hcount : announcements (s.log ++ [.onAccept conn]) = announcements s.log + 1 := by
    simp [announcements, Event.isAccept]
  refine ⟨?_, ?_, ?_, ?_, fun r hr => List.mem_append_left _ (h.removed r hr)⟩
  · simp only [hcount, SessionManager.createSession, h.counter]
    omega
  · intro session hs
    simp only [hcount]
    rcases List.mem_append.mp hs with hs | hs
    · obtain ⟨j, hj, hid⟩ := h.ids session (List.mem_filter.mp hs).1
      exact ⟨j, by omega, hid⟩
    · rw [List.mem_singleton.mp hs]
      exact ⟨announcements s.log, by omega, h.counter⟩
  · intro hle c hc
    simp only [hcount] at hle
    rcases List.mem_append.mp hc with hc | hc
    · refine (h.kept (by omega) c hc).imp_left ?_
      rintro ⟨session, hs, he⟩
      refine ⟨session, List.mem_append_left _ (List.mem_filter.mpr ⟨hs, ?_⟩), he⟩
      obtain ⟨j, hj, hid⟩ := h.ids session hs
      simp only [bne_iff_ne, ne_eq, hid, h.counter]
      omega
    · cases List.mem_singleton.mp hc
      exact .inl ⟨_, List.mem_append_right _ (List.mem_singleton_self _), rfl⟩
  · intro c hc
    rcases List.mem_or_eq_of_mem_set hc with hc | hc
    · exact List.mem_append_left _ (h.removing c hc)
    · simp at hc

/-- `RemoveByClient`: what is not left is recorded. -/
theorem SessionsKept.remove (h : SessionsKept s removals) {conn : Conn}
    (hw : s.workers[w]? = some (.removeByClient conn)) :
    SessionsKept { s with
      sessions := s.sessions.removeByClient s.pool conn.client
      workers := s.workers.set w (.closeClient conn) }
      (removals ++ [⟨conn, s.sessions.sessions.filter fun session =>
        session.isSameSession s.pool conn.client⟩]) := by
  refine ⟨h.counter, fun session hs => h.ids session (List.mem_filter.mp hs).1, ?_,
    h.removing_set (by simp), ?_⟩
  · intro hle c hc
    rcases h.kept hle c hc with ⟨session, hs, he⟩ | ⟨r, hr, hgone⟩
    · cases hsame : session.isSameSession s.pool conn.client with
      | true => exact .inr ⟨_, List.mem_append_right _ (List.mem_singleton_self _), session,
          List.mem_filter.mpr ⟨hs, hsame⟩, he⟩
      | false => exact .inl ⟨session, List.mem_filter.mpr ⟨hs, by simp [hsame]⟩, he⟩
    · exact .inr ⟨r, List.mem_append_left _ hr, hgone⟩
  · intro r hr
    rcases List.mem_append.mp hr with hr | hr
    · exact h.removed r hr
    · rw [List.mem_singleton.mp hr]
      exact h.removing conn (List.mem_of_getElem? hw)

theorem pc_ne_removeByClient (conn : Conn) (next : AfterClose) (c : Conn) :
    next.pc conn ≠ .removeByClient c := by cases next <;> simp [AfterClose.pc]

theorem behindClose_ne_removeByClient (s : State) (conn : Conn) (next : AfterClose) (c : Conn) :
    s.behindClose conn next ≠ .removeByClient c := by
  rcases behindClose_cases s conn next with he | he
  · simp [he]
  · exact he ▸ pc_ne_removeByClient conn next c

theorem SessionsKept.worker (h : SessionsKept s removals) (hw : s.workers[w]? = some pc)
    (hs : WorkerStep cfg fb s ok pc t pc') :
    SessionsKept { t with workers := s.workers.set w pc' }
      (Removal.note s (.worker w ok) t removals) := by
  have hrem : (∀ c, pc' ≠ .removeByClient c) →
      ∀ c, .removeByClient c ∈ s.workers.set w pc' → .onDisconnect c ∈ t.log :=
    fun hne c hc => hs.mem_log (h.removing_set hne c hc)
  simp only [Removal.note, hw]
  cases hs with
  | onAccept => exact h.onAccept
  | @kick conn =>
    refine h.pass rfl (by simp [Event.isAccept]) rfl ?_
    intro c hc
    rcases List.mem_or_eq_of_mem_set hc with hc | hc
    · exact List.mem_append_left _ (h.removing c hc)
    · cases hc
      exact List.mem_append_right _ (List.mem_singleton_self _)
  | remove => exact h.remove hw
  | overflow =>
    exact h.pass rfl (by simp [Event.isAccept]) rfl (hrem (behindClose_ne_removeByClient s _ _))
  | append => exact h.pass rfl (by simp [Event.isAccept]) rfl (hrem (by simp))
  | associateFailed | firstRecvFailed | tooLarge | invalid =>
    exact h.same rfl rfl (hrem (behindClose_ne_removeByClient s _ _))
  | reset => exact h.same rfl rfl (hrem (pc_ne_removeByClient _ _))
  | _ => exact h.same rfl rfl (hrem (by simp))

theorem LogicStep.sessions {choice : Choice} (h : LogicStep s choice t) :
    t.sessions = s.sessions := by
  cases h <;> rfl

theorem SessionsKept.step {l : Label} (h : SessionsKept s removals)
    (hs : s.step cfg fb l = some t) : SessionsKept t (Removal.note s l t removals) := by
  cases l with
  | accepted w acceptSocket =>
    obtain ⟨hw, -, rfl⟩ := step_accepted hs
    exact h.same rfl rfl (h.removing_set (by simp))
  | arrive conn data =>
    obtain ⟨-, -, -, rfl⟩ := step_arrive hs
    exact h.same rfl rfl h.removing
  | recvDone w conn result =>
    obtain ⟨hw, -, rfl⟩ := step_recvDone hs
    refine h.same rfl rfl (h.removing_set ?_)
    intro c he
    rcases onRecvDequeued_cases conn result with ⟨-, hd⟩ | ⟨-, hd | ⟨data, hd⟩⟩
    · simp [hd] at he
    · simp [hd] at he
    · simp [hd] at he
  | sendDone w conn result =>
    obtain ⟨hw, -, rfl⟩ := step_sendDone hs
    refine h.same rfl rfl (h.removing_set ?_)
    intro c he
    rcases onSendDequeued_cases conn result with hd | hd
    · simp [hd] at he
    · simp [hd] at he
  | worker w ok =>
    obtain ⟨pc, u, pc', hw, hstep, rfl⟩ := step_worker hs
    exact h.worker hw hstep
  | tick =>
    obtain ⟨-, -, rfl⟩ := step_tick hs
    exact h.same rfl rfl h.removing
  | logic choice =>
    have hl := logicStep_inv hs
    obtain ⟨evs, hlog, hn⟩ := hl.log
    refine h.pass hlog ?_ hl.sessions ?_
    · intro e he
      cases e with
      | onAccept conn => simpa [Event.isNeutral] using hn _ he
      | _ => rfl
    · rw [hl.network.1, hlog]
      exact fun c hc => List.mem_append_left _ (h.removing c hc)

theorem sessionsKept_of_reach {ok : State × List Removal → Label → Prop}
    (h : (removalServer cfg fb).Reach ok (s, removals)) : SessionsKept s removals := by
  refine h.invariant (I := fun p => SessionsKept p.1 p.2) ?_ fun _ hi _ hs => ?_
  · refine ⟨rfl, ?_, ?_, ?_, ?_⟩
    · simp [removalServer, System.recording, chatServer, State.new, SessionManager.new]
    · simp [removalServer, System.recording, chatServer, State.new]
    · simp [removalServer, System.recording, chatServer, State.new]
    · simp [removalServer, System.recording]
  · obtain ⟨hstep, hnote⟩ := System.recording_step hs
    rw [hnote]
    exact hi.step hstep

end

/-! ## The result -/

/-- The commands that are queued, waiting in the batch, or being handled. -/
def State.commands (s : State) : List PacketCommand :=
  s.queue ++ s.batch ++ (s.handler.call.map Call.cmd).toList

/-- The peer resets while worker 0 is between `PostRecv` and `MarkConnectionEstablished`: worker 1
handles the end of the connection first, and the session is created after it is torn down. -/
def resetDuringSetup : List Label :=
  .accepted 0 4 :: List.replicate 4 (.worker 0 true) ++ disconnects 1 ⟨0, 1⟩ ++
    List.replicate 2 (.worker 0 true)

end Highp.Chat

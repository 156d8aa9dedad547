import Highp.Client.SharedSocket

/-! What the process has of the system for the chat client, in every state of a run. -/

namespace Highp.Client
open Highp.Lib Highp.Network

/-- What holds of the client between two steps. -/
structure ChatClient.Owns (c : ChatClient) : Prop where
  threads : c.threads.Inv
  app : c.inApp.fits c.threads.app = true
  recv : ∀ holder, c.inRecv holder ≠ .begin →
    c.threads.place holder = some .close ∧ (c.inRecv holder).inClose = true
  alone : c.inApp.inClose = true → c.threads.quiet = true
  object : c.inApp.inClose = true ∨ c.recvInside = true → c.tcpClientSocket.isSome = true
  named : c.inApp.inHandle = true ∨ (∃ holder, (c.inRecv holder).inHandle = true) →
    c.handle.isSome = true
  session : c.inApp.between = false → c.wsaSession = c.tcpClientSocket.isSome
  assigned : ∀ k, c.inApp = .assignSocket k → c.wsaSession = true
  dropped : c.inApp = .resetSession → c.tcpClientSocket.isSome = false
  socket : c.inApp ≠ .resetSession → c.threads.socket = c.tcpClientSocket.isSome
  connected : c.threads.isConnected = true → c.handle.isSome = true
  connecting : c.threads.app = .connectStore → c.handle.isSome = true ∧ c.threads.quiet = true
  attended : c.handle.isSome = true → c.threads.isConnected = true ∨
    c.threads.app.attending = true ∨ ∃ holder, c.threads.place holder = some .close
  settled : c.threads.app.settled = true → c.threads.socket = false
  holds : Holds c.resources c.sessions c.sockets []

namespace ChatClient
variable {c c' : ChatClient} {inside : Inside} {next : Option Inside}

namespace Owns

/-- The client has a session as long as it has a socket. -/
theorem sessions_ne_zero (h : c.Owns) (hsome : c.tcpClientSocket.isSome = true) :
    c.sessions ≠ 0 := by
  unfold sessions
  split
  · exact Nat.succ_ne_zero _
  · exact Nat.succ_ne_zero _
  · rename_i hno₁ hno₂
    have hbetween : c.inApp.between = false := by
      cases hi : c.inApp with
      | assignSocket k => exact absurd hi (hno₂ k)
      | resetSession =>
        rw [h.dropped hi] at hsome
        cases hsome
      | _ => rfl
    rw [h.session hbetween, hsome]
    exact Nat.one_ne_zero

theorem recv_begin (h : c.Owns) {holder : Holder} (hplace : c.threads.place holder ≠ some .close) :
    c.inRecv holder = .begin := by
  by_contra hne
  exact hplace (h.recv holder hne).1

theorem quiet_begin (h : c.Owns) (hquiet : c.threads.quiet = true) (holder : Holder) :
    c.inRecv holder = .begin :=
  h.recv_begin (ClientThreads.quiet_iff.mp hquiet holder).2

theorem nobody (h : c.Owns) (hquiet : c.threads.quiet = true) : c.recvInside = false := by
  simp [recvInside, h.quiet_begin hquiet]

/-- Nobody is in `Close`. -/
theorem not_inside (hc : c.inApp.inClose = true ∨ c.recvInside = true)
    (hbegin : ∀ holder, c.inRecv holder = .begin) (happ : c.inApp.inClose = false) : False := by
  simp [happ, recvInside, hbegin] at hc

theorem not_inHandle (hc : c.inApp.inHandle = true ∨ ∃ holder, (c.inRecv holder).inHandle = true)
    (hbegin : ∀ holder, c.inRecv holder = .begin) (happ : c.inApp.inClose = false) : False := by
  obtain hc | ⟨holder, hc⟩ := hc
  · rw [Inside.inClose_of_inHandle hc] at happ
    cases happ
  · rw [hbegin] at hc
    cases hc

theorem closed_app (h : c.Owns) (hquiet : c.threads.quiet = true) :
    c.closed = (c.inApp == .reset) := by
  simp [closed, h.quiet_begin hquiet]

theorem recv_inside (h : c.Owns) (holder : Holder) :
    c.inRecv holder = .begin ∨ (c.inRecv holder).inClose = true := by
  by_cases hb : c.inRecv holder = .begin
  · exact .inl hb
  · exact .inr (h.recv holder hb).2

theorem recvInside_of_inClose {holder : Holder} (h : (c.inRecv holder).inClose = true) :
    c.recvInside = true := by
  have hne : c.inRecv holder ≠ .begin := by
    intro he
    rw [he] at h
    cases h
  cases holder <;> simp [recvInside, hne]

theorem exists_of_recvInside (h : c.recvInside = true) : ∃ holder, c.inRecv holder ≠ .begin := by
  simp only [recvInside, Bool.or_eq_true, bne_iff_ne] at h
  rcases h with h | h
  · exact ⟨.current, h⟩
  · exact ⟨.temporary, h⟩

/-- Only this receive thread has gone on in `Close`. -/
theorem only_there {holder other : Holder} {place : Inside}
    (hother : ∀ other, other ≠ holder → c.inRecv other = .begin)
    (hne : Function.update c.inRecv holder place other ≠ .begin) :
    other = holder ∧ Function.update c.inRecv holder place other = place := by
  by_cases he : other = holder
  · subst he
    exact ⟨rfl, Function.update_self ..⟩
  · rw [Function.update_of_ne he] at hne
    exact absurd (hother other he) hne

theorem closed_update {holder : Holder} {place : Inside} (hnot : c.inApp.inClose = false)
    (hother : ∀ other, other ≠ holder → c.inRecv other = .begin) (happ : c'.inApp = c.inApp)
    (hrecv : c'.inRecv = Function.update c.inRecv holder place) :
    c'.closed = (place == .reset) := by
  have hreset : (c.inApp == .reset) = false := by
    rw [beq_eq_false_iff_ne]
    intro he
    rw [he] at hnot
    cases hnot
  cases holder with
  | current => simp [closed, happ, hrecv, hreset, hother .temporary (by decide)]
  | temporary => simp [closed, happ, hrecv, hreset, hother .current (by decide)]

/-- The other receive thread is not in `Close`, and neither is the thread that uses the client. -/
theorem closing_alone (h : c.Owns) {holder : Holder}
    (hplace : c.threads.place holder = some .close) :
    c.inApp.inClose = false ∧ ∀ other, other ≠ holder → c.inRecv other = .begin := by
  refine ⟨?_, fun other hne => h.recv_begin fun hother => hne (h.threads.close_once hother hplace)⟩
  by_contra hclose
  have hquiet := h.alone (by simpa using hclose)
  exact (ClientThreads.quiet_iff.mp hquiet holder).2 hplace

/-! ## Steps -/

variable {t : ClientThreads} {answers : Answers} {ok : Bool} {holder : Holder}

/-- A receive thread in `Close`. -/
theorem recv_close (h : c.Owns) (hplace : c.threads.place holder = some .close)
    (hs : c.closeStep (c.inRecv holder) = (c', next)) :
    Owns { c' with inRecv := Function.update c'.inRecv holder (next.getD .begin) } ∧
      (next = none → c'.handle = none) := by
  obtain ⟨hnot, hother⟩ := h.closing_alone hplace
  have hholds : Holds c.resources c.sessions ((if c.inRecv holder = .reset then []
      else c.handle.toList) ++ c.inApp.fresh.toList) [] := by
    have hheld := h.holds
    rw [sockets, closed_update hnot hother rfl (Function.update_eq_self ..).symm] at hheld
    by_cases hreset : c.inRecv holder = .reset
    · simpa [hreset] using hheld
    · simpa [hreset] using hheld
  have hcloses := closeStep_spec (h.recv_inside holder)
    (fun hc => h.object (.inr (recvInside_of_inClose hc)))
    (fun hc => h.named (.inr ⟨holder, hc⟩)) h.sessions_ne_zero hholds hs
  refine ⟨?_, hcloses.through⟩
  have hthreads : c'.threads = c.threads := by rw [hcloses.same]
  have hsession : c'.wsaSession = c.wsaSession := by rw [hcloses.same]
  have hinApp : c'.inApp = c.inApp := by rw [hcloses.same]
  have hinRecv : c'.inRecv = c.inRecv := by rw [hcloses.same]
  have hthere : next.getD .begin ≠ .begin →
      (next.getD .begin).inClose = true ∧ c.tcpClientSocket.isSome = true ∧
        ((next.getD .begin).inHandle = true → c'.handle.isSome = true) := by
    cases next with
    | none => exact fun hne => absurd rfl hne
    | some y => exact fun _ => hcloses.goes y rfl
  constructor
  case threads => exact hthreads ▸ h.threads
  case app =>
    simp only [hthreads, hinApp]
    exact h.app
  case recv =>
    simp only [hthreads, hinRecv]
    intro other hne
    obtain ⟨rfl, heq⟩ := only_there hother hne
    rw [heq] at hne ⊢
    exact ⟨hplace, (hthere hne).1⟩
  case alone =>
    intro hc
    rw [hinApp, hnot] at hc
    cases hc
  case object =>
    rintro (hc | hc)
    · rw [hinApp, hnot] at hc
      cases hc
    · obtain ⟨other, hne⟩ := exists_of_recvInside hc
      simp only [hinRecv] at hne
      obtain ⟨rfl, heq⟩ := only_there hother hne
      rw [heq] at hne
      exact hcloses.object.trans (hthere hne).2.1
  case named =>
    simp only [hinApp, hinRecv]
    rintro (hc | ⟨other, hc⟩)
    · rw [Inside.inClose_of_inHandle hc] at hnot
      cases hnot
    · have hne : Function.update c.inRecv holder (next.getD .begin) other ≠ .begin := by
        intro hb
        rw [hb] at hc
        cases hc
      obtain ⟨rfl, heq⟩ := only_there hother hne
      rw [heq] at hc hne
      exact (hthere hne).2.2 hc
  case session =>
    simp only [hinApp, hsession, hcloses.object]
    exact h.session
  case assigned =>
    simp only [hinApp, hsession]
    exact h.assigned
  case dropped =>
    simp only [hinApp, hcloses.object]
    exact h.dropped
  case socket =>
    simp only [hinApp, hthreads, hcloses.object]
    exact h.socket
  case connected =>
    simp only [hthreads, h.threads.offline_of_close hplace]
    intro hno
    cases hno
  case connecting =>
    simp only [hthreads]
    exact fun hc => absurd hplace (ClientThreads.quiet_iff.mp (h.connecting hc).2 holder).2
  case attended =>
    simp only [hthreads]
    exact fun _ => .inr (.inr ⟨holder, hplace⟩)
  case settled =>
    simp only [hthreads]
    exact h.settled
  case holds =>
    have hd : closed { c' with
        inRecv := Function.update c'.inRecv holder (next.getD .begin) } =
          (next.getD .begin == .reset) :=
      closed_update hnot hother hinApp
        (congrArg (fun f => Function.update f holder (next.getD .begin)) hinRecv)
    have hheld := hcloses.holds
    rw [← sessions_congr hsession hinApp hcloses.object, ← hinApp] at hheld
    rw [sockets, hd]
    show Holds c'.resources c'.sessions
      ((if (next.getD .begin == .reset) = true then [] else c'.handle.toList) ++
        c'.inApp.fresh.toList) []
    cases next with
    | none => exact hheld
    | some y =>
      by_cases hy : y = .reset
      · simpa [hy] using hheld
      · simpa [hy] using hheld

/-- A step of a receive thread that is not in `Close` or has come to its end. -/
theorem recv_goes (h : c.Owns) (hbegin : c.inRecv holder = .begin)
    (hthrough : c.threads.place holder = some .close → c.handle = none)
    (hok : Apart c.threads (.recv holder ok)) (ht : c.threads.recvStep holder ok = some t) :
    Owns { c with threads := t } := by
  obtain ⟨happ, hsocket, hother, hcon, hstored⟩ := ClientThreads.recv_frame ht
  have hquiet : c.threads.quiet = true → c.threads.app.offline = true → t.quiet = true :=
    fun hq hoff => ClientThreads.quiet_recv hq (h.threads.offline hoff) ht
  constructor
  case threads => exact ClientThreads.inv_step h.threads hok ht
  case app =>
    simp only [happ]
    exact h.app
  case recv =>
    intro other hi
    obtain ⟨hclose, hin⟩ := h.recv other hi
    have hne : other ≠ holder := by
      rintro rfl
      exact hi hbegin
    exact ⟨(hother other hne).trans hclose, hin⟩
  case alone =>
    intro hclose
    obtain ⟨wasConnected, caller, hpc⟩ := Inside.close_of_fits h.app hclose
    exact hquiet (h.alone hclose) (by rw [hpc]; rfl)
  case object => exact h.object
  case named => exact h.named
  case session => exact h.session
  case assigned => exact h.assigned
  case dropped => exact h.dropped
  case socket =>
    simp only [hsocket]
    exact h.socket
  case connected => exact fun hc => h.connected (hcon hc)
  case connecting =>
    simp only [happ]
    intro hpc
    obtain ⟨hhandle, hq⟩ := h.connecting hpc
    exact ⟨hhandle, hquiet hq (by rw [hpc]; rfl)⟩
  case attended =>
    simp only [happ]
    intro hhandle
    rcases h.attended hhandle with hc | hattending | ⟨other, hclose⟩
    · exact (hstored hc).imp id fun hclose => .inr ⟨holder, hclose⟩
    · exact .inr (.inl hattending)
    · have hne : other ≠ holder := by
        rintro rfl
        have hhandle : c.handle.isSome = true := hhandle
        rw [hthrough hclose] at hhandle
        cases hhandle
      exact .inr (.inr ⟨other, (hother other hne).trans hclose⟩)
  case settled =>
    simp only [happ, hsocket]
    exact h.settled
  case holds => exact h.holds

theorem recv_step (h : c.Owns) (hok : Undisturbed c (.thread (.recv holder ok)))
    (hs : c.recvStep holder ok = some c') : c'.Owns := by
  unfold recvStep at hs
  by_cases hplace : c.threads.place holder = some .close
  · rw [if_pos hplace] at hs
    cases hstep : c.closeStep (c.inRecv holder) with
    | mk d next =>
      obtain ⟨howns, hthrough⟩ := h.recv_close hplace hstep
      rw [hstep] at hs
      cases next with
      | some y =>
        cases hs
        exact howns
      | none =>
        obtain ⟨t, ht, rfl⟩ := Option.map_eq_some_iff.mp hs
        have hok : Apart d.threads (.recv holder ok) := closeStep_threads hstep ▸ hok.1
        exact howns.recv_goes (Function.update_self ..) (fun _ => hthrough rfl) hok ht
  · rw [if_neg hplace] at hs
    obtain ⟨t, ht, rfl⟩ := Option.map_eq_some_iff.mp hs
    exact h.recv_goes (h.recv_begin hplace) (fun hno => absurd hno hplace) hok.1 ht

/-- A step of the thread that uses the client at which it leaves the socket alone. -/
theorem control (h : c.Owns) (happ : c.inApp = .begin) (hinv : t.Inv) (hgoes : c.threads.Goes t)
    (hclose : ∀ wasConnected caller, c.threads.app = .close wasConnected caller →
      c.handle = none) :
    Owns { c with threads := t, inApp := .begin } := by
  have hsame : { c with threads := t, inApp := .begin } = { c with threads := t } := by rw [← happ]
  rw [hsame]
  constructor
  case threads => exact hinv
  case app =>
    simp only [happ]
    rfl
  case recv =>
    intro holder hne
    obtain ⟨hplace, hin⟩ := h.recv holder hne
    exact ⟨hgoes.place holder hplace, hin⟩
  case alone =>
    simp only [happ]
    intro hno
    cases hno
  case object => exact h.object
  case named => exact h.named
  case session => exact h.session
  case assigned => exact h.assigned
  case dropped => exact h.dropped
  case socket =>
    simp only [hgoes.socket]
    exact h.socket
  case connected =>
    intro hcon
    rcases hgoes.connected hcon with hcon | hstore
    · exact h.connected hcon
    · exact (h.connecting hstore).1
  case connecting => exact fun hno => absurd hno hgoes.connecting
  case attended =>
    intro hhandle
    rcases h.attended hhandle with hcon | hattending | ⟨holder, hplace⟩
    · exact (hgoes.kept hcon).imp_right .inl
    · by_cases hc : ∃ wasConnected caller, c.threads.app = .close wasConnected caller
      · obtain ⟨wasConnected, caller, hc⟩ := hc
        have hhandle : c.handle.isSome = true := hhandle
        rw [hclose wasConnected caller hc] at hhandle
        cases hhandle
      · have hother := hgoes.attending hattending fun wasConnected caller hno =>
          hc ⟨wasConnected, caller, hno⟩
        exact hother.imp_right .inl
    · exact .inr (.inr ⟨holder, hgoes.place holder hplace⟩)
  case settled =>
    intro hsettled
    have hnone : c.threads.socket = false := by
      rcases hgoes.settled hsettled with hsettled | hnone
      · exact h.settled hsettled
      · exact hnone
    exact hgoes.socket.trans hnone
  case holds => exact h.holds

/-- The thread that uses the client in `Close`. -/
theorem app_close (h : c.Owns) {wasConnected : Bool} {caller : Caller}
    (happ : c.threads.app = .close wasConnected caller) (hquiet : c.threads.quiet = true)
    (hs : c.closeStep c.inApp = (c', next)) :
    Owns { c' with inApp := next.getD .begin } ∧ (next = none → c'.handle = none) := by
  have hfits := h.app
  rw [happ] at hfits
  have hinside := Inside.inClose_of_fits hfits
  obtain ⟨hfresh, hbetween⟩ := Inside.plain_of_inClose hinside
  have hholds : Holds c.resources c.sessions
      ((if c.inApp = .reset then [] else c.handle.toList) ++ []) [] := by
    have hheld := h.holds
    rw [sockets, h.closed_app hquiet, hfresh] at hheld
    by_cases hreset : c.inApp = .reset
    · simpa [hreset] using hheld
    · simpa [hreset] using hheld
  have hcloses := closeStep_spec hinside (fun hc => h.object (.inl hc))
    (fun hc => h.named (.inl hc)) h.sessions_ne_zero hholds hs
  refine ⟨?_, hcloses.through⟩
  have hthreads : c'.threads = c.threads := by rw [hcloses.same]
  have hsession : c'.wsaSession = c.wsaSession := by rw [hcloses.same]
  have hinRecv : c'.inRecv = c.inRecv := by rw [hcloses.same]
  have hbegin : ∀ holder, c'.inRecv holder = .begin := by
    rw [hinRecv]
    exact h.quiet_begin hquiet
  have hthere : next.getD .begin = .begin ∨ (next.getD .begin).inClose = true := by
    cases next with
    | none => exact .inl rfl
    | some y => exact .inr (hcloses.goes y rfl).1
  obtain ⟨hfresh', hbetween'⟩ := Inside.plain_of_inClose hthere
  constructor
  case threads => exact hthreads ▸ h.threads
  case app =>
    simp only [hthreads, happ]
    rcases hthere with hb | hc
    · rw [hb]
      rfl
    · exact Inside.fits_close hc _ _
  case recv => exact fun holder hne => absurd (hbegin holder) hne
  case alone =>
    simp only [hthreads]
    exact fun _ => hquiet
  case object =>
    rintro (hc | hc)
    · cases next with
      | none => cases hc
      | some y => exact hcloses.object.trans (hcloses.goes y rfl).2.1
    · simp [recvInside, hbegin] at hc
  case named =>
    rintro (hc | ⟨holder, hc⟩)
    · cases next with
      | none => cases hc
      | some y => exact (hcloses.goes y rfl).2.2 hc
    · simp only [hbegin] at hc
      cases hc
  case session =>
    simp only [hsession, hcloses.object]
    exact fun _ => h.session hbetween
  case assigned =>
    intro k hk
    have hk : next.getD .begin = .assignSocket k := hk
    rw [hk] at hfresh'
    cases hfresh'
  case dropped =>
    intro hk
    have hk : next.getD .begin = .resetSession := hk
    rw [hk] at hbetween'
    cases hbetween'
  case socket =>
    simp only [hthreads, hcloses.object]
    intro _
    refine h.socket fun hk => ?_
    rw [hk] at hbetween
    cases hbetween
  case connected =>
    simp only [hthreads, h.threads.offline (by rw [happ]; rfl)]
    intro hno
    cases hno
  case connecting =>
    simp only [hthreads, happ]
    intro hno
    cases hno
  case attended =>
    simp only [hthreads, happ]
    exact fun _ => .inr (.inl rfl)
  case settled =>
    simp only [hthreads, happ]
    intro hno
    cases hno
  case holds =>
    have hheld := hcloses.holds
    rw [sessions_plain hfresh] at hheld
    rw [sessions_plain (c := { c' with inApp := next.getD .begin }) hfresh', sockets]
    have hclosed : closed { c' with inApp := next.getD .begin } = (next.getD .begin == .reset) := by
      simp [closed, hbegin]
    rw [hclosed]
    show Holds c'.resources c'.wsaSession.toNat
      ((if (next.getD .begin == .reset) = true then [] else c'.handle.toList) ++
        (next.getD .begin).fresh.toList) []
    rw [hfresh', hsession]
    cases next with
    | none => simpa using hheld
    | some y =>
      by_cases hy : y = .reset
      · simpa [hy] using hheld
      · simpa [hy] using hheld

/-- Neither thread is in `Close` while `Connect` is at work behind its locals. -/
theorem plain (h : c.Owns) (happ : c.threads.app = .tryConnect) : c.inApp.inClose = false := by
  by_contra hclose
  obtain ⟨wasConnected, caller, hno⟩ := Inside.close_of_fits h.app (by simpa using hclose)
  rw [happ] at hno
  cases hno

/-- The locals of `Connect` have a socket. -/
theorem locals (h : c.Owns) (happ : c.threads.app = .tryConnect) {session : Bool} {r : Resources}
    (hinside : inside.fresh.isSome = true)
    (hsession : inside.between = false → session = c.tcpClientSocket.isSome)
    (hassigned : inside.between = true → session = true)
    (hheld : Holds r (c.tcpClientSocket.isSome.toNat + 1)
      ((if c.closed then [] else c.handle.toList) ++ inside.fresh.toList) []) :
    Owns { c with wsaSession := session, resources := r, inApp := inside } := by
  have hplain : inside.inClose = false ∧ inside ≠ .resetSession ∧
      inside.fits .tryConnect = true ∧ (∀ k, inside = .assignSocket k → inside.between = true) := by
    cases inside with
    | assignSession k | assignSocket k => simp [Inside.inClose, Inside.fits, Inside.between]
    | _ => cases hinside
  obtain ⟨hnot, hreset, hfits, hassign⟩ := hplain
  constructor
  case threads => exact h.threads
  case app =>
    simp only [happ]
    exact hfits
  case recv => exact h.recv
  case alone =>
    simp only [hnot]
    intro hno
    cases hno
  case object =>
    simp only [hnot]
    rintro (hno | hc)
    · cases hno
    · exact h.object (.inr hc)
  case named =>
    rintro (hc | hc)
    · have hc : inside.inHandle = true := hc
      rw [Inside.inClose_of_inHandle hc] at hnot
      cases hnot
    · exact h.named (.inr hc)
  case session => exact hsession
  case assigned => exact fun k hk => hassigned (hassign k hk)
  case dropped => exact fun hno => absurd hno hreset
  case socket =>
    refine fun _ => h.socket fun hno => ?_
    have hfits := h.app
    rw [happ, hno] at hfits
    cases hfits
  case connected => exact h.connected
  case connecting => exact h.connecting
  case attended => exact h.attended
  case settled => exact h.settled
  case holds =>
    have hclosed : closed { c with wsaSession := session, resources := r, inApp := inside } =
        c.closed := by
      refine closed_congr rfl ?_
      have hold := h.plain happ
      rw [beq_eq_false_iff_ne.mpr, beq_eq_false_iff_ne.mpr]
      · rintro he
        rw [he] at hold
        cases hold
      · rintro he
        have he : inside = .reset := he
        rw [he] at hnot
        cases hnot
    rw [sockets, hclosed]
    cases inside with
    | assignSession k | assignSocket k => exact hheld
    | _ => cases hinside

/-- The system has given something to the locals of `Connect`, or taken it back. -/
theorem resources (h : c.Owns) {r : Resources} (hr : Holds r c.sessions c.sockets []) :
    Owns { c with resources := r } :=
  ⟨h.threads, h.app, h.recv, h.alone, h.object, h.named, h.session, h.assigned, h.dropped, h.socket,
    h.connected, h.connecting, h.attended, h.settled, hr⟩

/-- `Connect` has failed. -/
theorem fails (h : c.Owns) (happ : c.threads.app = .tryConnect) (hbegin : c.inApp = .begin)
    {r : Resources} (hr : Holds r c.sessions c.sockets [])
    (hs : goOn { c with resources := r } (.app false) = some c') : c'.Owns := by
  obtain ⟨t, ht, rfl⟩ := Option.map_eq_some_iff.mp hs
  have ht : c.threads.step (.app false) = some t := ht
  have hok : Apart c.threads (.app false) := by simp [Apart, happ, AppPc.exchanging]
  refine control (h.resources hr) hbegin (ClientThreads.inv_step h.threads hok ht) ?_ ?_
  · exact ClientThreads.goes_app (fun _ => rfl) (by simp [happ]) (by simp [happ]) ht
  · simp [happ]

theorem create (h : c.Owns) {port : UInt16} (hs : c.create answers port = some c') : c'.Owns := by
  obtain ⟨⟨happ, hbegin⟩, hs⟩ := Option.ite_none_right_eq_some.mp hs
  have hsession : c.wsaSession = c.tcpClientSocket.isSome := h.session (by rw [hbegin]; rfl)
  have hsessions : c.sessions = c.tcpClientSocket.isSome.toNat := by
    rw [sessions, hbegin, hsession]
  cases hstart : c.resources.wsaStartup answers with
  | mk started r =>
    have hr := h.holds.wsaStartup hstart
    rw [hstart] at hs
    cases started with
    | false => exact h.fails happ hbegin hr hs
    | true =>
      have hlocal : Holds r (c.sessions + 1)
          ((⟨true, none⟩ : TcpClientSocket).socketHandle.toList ++ c.sockets) [] := hr
      cases hconnect : TcpClientSocket.connect answers ⟨true, none⟩ port r with
      | mk result rest =>
        obtain ⟨socket, r'⟩ := rest
        obtain ⟨-, hheld, hresult⟩ :=
          TcpClientSocket.connect_spec rfl hlocal (Nat.succ_ne_zero _) hconnect
        have hback : Holds (dropSession true (socket.close r').2) c.sessions c.sockets [] :=
          (Holds.close hheld (fun _ => Nat.succ_ne_zero _) rfl).wsaCleanup
        simp only [hconnect] at hs
        obtain ⟨session, handle⟩ := socket
        cases result with
        | error e => exact h.fails happ hbegin hback hs
        | ok _ =>
          cases handle with
          | none => exact h.fails happ hbegin hback hs
          | some k =>
            cases hs
            refine h.locals happ rfl (fun _ => hsession) (fun hno => by cases hno) ?_
            have hperm := hheld.perm List.perm_append_comm
            rw [sockets, hbegin, hsessions] at hperm
            simpa [Inside.fresh] using hperm

/-- The session goes to the client. -/
theorem assign_session (h : c.Owns) (happ : c.threads.app = .tryConnect) {k : SocketHandle}
    (hat : c.inApp = .assignSession k) :
    Owns { c with
      wsaSession := true
      resources := dropSession (c.wsaSession && c.tcpClientSocket.isNone) c.resources
      inApp := .assignSocket k } := by
  have hsession := h.session (by rw [hat]; rfl)
  have hkept : (c.wsaSession && c.tcpClientSocket.isNone) = false := by
    rw [hsession]
    cases c.tcpClientSocket <;> rfl
  have hheld := h.holds
  rw [sessions, sockets, hat] at hheld
  rw [hkept]
  refine h.locals happ rfl (fun hno => ?_) (fun _ => rfl) hheld
  cases hno

/-- The old socket goes and the new one comes. -/
theorem assign_socket (h : c.Owns) (happ : c.threads.app = .tryConnect) {k : SocketHandle}
    (hat : c.inApp = .assignSocket k) (hquiet : c.threads.quiet = true)
    (hs : goOn { c with
      tcpClientSocket := some ⟨true, some k⟩
      resources := dropSession c.tcpClientSocket.isSome c.destroySocket.resources } (.app true) =
        some c') : c'.Owns := by
  obtain ⟨t, ht, rfl⟩ := Option.map_eq_some_iff.mp hs
  have ht : c.threads.step (.app true) = some t := ht
  have hok : Apart c.threads (.app true) := by simp [Apart, happ, AppPc.exchanging]
  have hinv := ClientThreads.inv_step h.threads hok ht
  have hheld := h.holds
  have hclosed : c.closed = false := by
    rw [h.closed_app hquiet, hat]
    rfl
  rw [sessions, sockets_of_open hclosed, hat] at hheld
  have hdestroyed : Holds c.destroySocket.resources (c.tcpClientSocket.isSome.toNat + 1) [k] [] :=
    destroySocket_holds (fun _ => Nat.succ_ne_zero _) (h.nobody hquiet) hheld
  have hleft : Holds (dropSession c.tcpClientSocket.isSome c.destroySocket.resources) 1 [k] [] := by
    cases hsome : c.tcpClientSocket.isSome with
    | false =>
      rw [hsome] at hdestroyed
      exact hdestroyed
    | true =>
      rw [hsome] at hdestroyed
      exact hdestroyed.wsaCleanup
  rw [ClientThreads.step, ClientThreads.appStep, happ] at ht
  cases ht
  have hsession := h.assigned k hat
  constructor
  case threads => exact hinv
  case app => rfl
  case recv => exact fun holder hne => absurd (h.quiet_begin hquiet holder) hne
  case alone =>
    intro hno
    cases hno
  case object => exact fun _ => rfl
  case named => exact fun _ => rfl
  case session => exact fun _ => hsession
  case assigned =>
    intro _ hno
    cases hno
  case dropped =>
    intro hno
    cases hno
  case socket => exact fun _ => rfl
  case connected => exact fun _ => rfl
  case connecting => exact fun _ => ⟨rfl, hquiet⟩
  case attended => exact fun _ => .inr (.inl rfl)
  case settled =>
    intro hno
    cases hno
  case holds =>
    refine holds_plain rfl (by simp [closed, h.quiet_begin hquiet]) ?_
    show Holds _ c.wsaSession.toNat [k] []
    rw [hsession]
    exact hleft

/-- Behind the join nobody is in `Close`. -/
theorem quiet_of_joined (h : c.threads.Inv) (hjoined : c.threads.app.joined = true)
    (hstarting : c.threads.app.starting = false) : c.threads.quiet = true := by
  rw [ClientThreads.quiet, h.joined hjoined, h.single hstarting]
  rfl

/-- `Disconnect` destroys the socket. -/
theorem reset_socket (h : c.Owns) {wasConnected : Bool} {caller : Caller}
    (happ : c.threads.app = .reset wasConnected caller) (hat : c.inApp ≠ .resetSession) :
    Owns { c.destroySocket with
      resources := dropSession (c.tcpClientSocket.isSome && !c.wsaSession) c.destroySocket.resources
      inApp := .resetSession } := by
  have hquiet : c.threads.quiet = true :=
    quiet_of_joined h.threads (by rw [happ]; rfl) (by rw [happ]; rfl)
  have hbegin : c.inApp = .begin := by
    have hfits := h.app
    rw [happ] at hfits
    cases hi : c.inApp with
    | begin => rfl
    | resetSession => exact absurd hi hat
    | _ =>
      rw [hi] at hfits
      cases hfits
  have hsession := h.session (by rw [hbegin]; rfl)
  have hkept : (c.tcpClientSocket.isSome && !c.wsaSession) = false := by
    rw [hsession]
    exact Bool.and_not_self _
  have hclosed : c.closed = false := by
    rw [h.closed_app hquiet, hbegin]
    rfl
  have hheld := h.holds
  rw [sessions_plain (by rw [hbegin]; rfl), sockets_of_open hclosed, hbegin] at hheld
  have hdestroyed : Holds c.destroySocket.resources c.wsaSession.toNat [] [] := by
    refine destroySocket_holds (fun hsome => ?_) (h.nobody hquiet) hheld
    rw [hsession, hsome]
    exact Nat.one_ne_zero
  obtain ⟨hthreads, hwsa, -, hinRecv, hnone⟩ := c.destroySocket_threads
  have hbegins : ∀ holder, c.destroySocket.inRecv holder = .begin := by
    rw [hinRecv]
    exact h.quiet_begin hquiet
  rw [hkept]
  constructor
  case threads => exact hthreads ▸ h.threads
  case app =>
    simp only [hthreads, happ]
    rfl
  case recv => exact fun holder hne => absurd (hbegins holder) hne
  case alone =>
    intro hno
    cases hno
  case object => exact fun hc => (not_inside hc hbegins rfl).elim
  case named => exact fun hc => (not_inHandle hc hbegins rfl).elim
  case session =>
    intro hno
    cases hno
  case assigned =>
    intro _ hno
    cases hno
  case dropped =>
    simp only [hnone]
    exact fun _ => rfl
  case socket => exact fun hno => absurd rfl hno
  case connected =>
    simp only [hthreads, h.threads.offline (by rw [happ]; rfl)]
    intro hno
    cases hno
  case connecting =>
    simp only [hthreads, happ]
    intro hno
    cases hno
  case attended =>
    simp only [handle, hnone]
    intro hno
    cases hno
  case settled =>
    simp only [hthreads, happ]
    intro hno
    cases hno
  case holds =>
    refine holds_plain rfl (by simp [closed, hbegins]) ?_
    simp only [handle, hnone, hwsa]
    exact hdestroyed

/-- And the session. -/
theorem reset_session (h : c.Owns) {wasConnected : Bool} {caller : Caller}
    (happ : c.threads.app = .reset wasConnected caller) (hat : c.inApp = .resetSession)
    (hs : goOn { c with
      wsaSession := false
      resources := dropSession c.wsaSession c.resources } (.app ok) = some c') :
    c'.Owns ∧ Holds c'.resources 0 [] [] := by
  have hquiet : c.threads.quiet = true :=
    quiet_of_joined h.threads (by rw [happ]; rfl) (by rw [happ]; rfl)
  obtain ⟨t, ht, rfl⟩ := Option.map_eq_some_iff.mp hs
  have ht : c.threads.step (.app ok) = some t := ht
  have hok : Apart c.threads (.app ok) := by simp [Apart, happ, AppPc.exchanging]
  have hinv := ClientThreads.inv_step h.threads hok ht
  have hoff := h.threads.offline (by rw [happ]; rfl)
  have hnone : c.tcpClientSocket = none := by simpa using h.dropped hat
  have hclosed : c.closed = false := by
    rw [h.closed_app hquiet, hat]
    rfl
  have hheld := h.holds
  rw [sessions_plain (by rw [hat]; rfl), sockets_of_open hclosed, handle_of_none hnone, hat]
    at hheld
  have hnothing : Holds (dropSession c.wsaSession c.resources) 0 [] [] := by
    cases hsession : c.wsaSession with
    | false =>
      rw [hsession] at hheld
      exact hheld
    | true =>
      rw [hsession] at hheld
      exact hheld.wsaCleanup
  rw [ClientThreads.step, ClientThreads.appStep, happ] at ht
  cases ht
  refine ⟨?_, hnothing⟩
  constructor
  case threads => exact hinv
  case app => rfl
  case recv => exact fun holder hne => absurd (h.quiet_begin hquiet holder) hne
  case alone =>
    intro hno
    cases hno
  case object => exact fun hc => (not_inside hc (h.quiet_begin hquiet) rfl).elim
  case named => exact fun hc => (not_inHandle hc (h.quiet_begin hquiet) rfl).elim
  case session =>
    simp only [hnone]
    exact fun _ => rfl
  case assigned =>
    intro _ hno
    cases hno
  case dropped =>
    intro hno
    cases hno
  case socket =>
    simp only [hnone]
    exact fun _ => rfl
  case connected =>
    simp only [hoff]
    intro hno
    cases hno
  case connecting =>
    intro hno
    have hno : (if wasConnected then AppPc.onDisconnected caller else caller.pc) = .connectStore :=
      hno
    split at hno
    · cases hno
    · exact absurd hno (ClientThreads.caller_ne_connectStore caller)
  case attended =>
    simp only [handle, hnone]
    intro hno
    cases hno
  case settled => exact fun _ => rfl
  case holds =>
    refine holds_plain rfl (by simp [closed, h.quiet_begin hquiet]) ?_
    simp only [handle, hnone]
    exact hnothing

/-- The new receive thread takes its place, wherever it is. -/
theorem assign (h : c.Owns) (happ : c.threads.app = .assign)
    (hs : c.goOn (.app ok) = some c') :
    Owns { c' with
      inRecv := fun holder => if holder = .current then c'.inRecv .temporary else .begin } := by
  obtain ⟨t, ht, rfl⟩ := Option.map_eq_some_iff.mp hs
  have hok : Apart c.threads (.app ok) := by simp [Apart, happ, AppPc.exchanging]
  have hinv := ClientThreads.inv_step h.threads hok ht
  have hold : c.inRecv .current = .begin :=
    h.recv_begin (ClientThreads.not_close_of_finished (h.threads.replaced happ))
  have hbegin : c.inApp = .begin :=
    Inside.begin_of_fits h.app (by simp [happ]) (by simp [happ]) (by simp [happ])
  rw [ClientThreads.step, ClientThreads.appStep, happ] at ht
  cases ht
  constructor
  case threads => exact hinv
  case app => rfl
  case recv =>
    intro holder hne
    cases holder with
    | current => exact h.recv .temporary hne
    | temporary => exact absurd rfl hne
  case alone =>
    intro hno
    cases hno
  case object =>
    rintro (hc | hc)
    · cases hc
    · refine h.object (.inr ?_)
      simp only [recvInside, hold]
      simpa [recvInside] using hc
  case named =>
    rintro (hc | ⟨holder, hc⟩)
    · cases hc
    · cases holder with
      | current => exact h.named (.inr ⟨.temporary, hc⟩)
      | temporary => cases hc
  case session => exact fun _ => h.session (by rw [hbegin]; rfl)
  case assigned =>
    intro _ hno
    cases hno
  case dropped =>
    intro hno
    cases hno
  case socket => exact fun _ => h.socket (by simp [hbegin])
  case connected => exact h.connected
  case connecting =>
    intro hno
    cases hno
  case attended =>
    intro hhandle
    rcases h.attended hhandle with hcon | hattending | ⟨holder, hplace⟩
    · exact .inl hcon
    · rw [happ] at hattending
      cases hattending
    · cases holder with
      | current =>
        exact absurd hplace
          (ClientThreads.not_close_of_finished (h.threads.replaced happ))
      | temporary => exact .inr (.inr ⟨.current, hplace⟩)
  case settled =>
    intro hno
    cases hno
  case holds =>
    have hheld := h.holds
    rw [sessions_plain (by rw [hbegin]; rfl), sockets, closed, hold, hbegin] at hheld
    rw [sessions_plain rfl, sockets, closed]
    simpa [handle] using hheld

/-- The steps at which nothing happens to the socket. -/
theorem app_plain (h : c.Owns) (hok : Apart c.threads (.app ok))
    (hconnect : c.threads.app ≠ .tryConnect)
    (hclose : ∀ wasConnected caller, c.threads.app ≠ .close wasConnected caller)
    (hreset : ∀ wasConnected caller, c.threads.app ≠ .reset wasConnected caller)
    (hassign : c.threads.app ≠ .assign) (hs : c.goOn (.app ok) = some c') : c'.Owns := by
  obtain ⟨t, ht, rfl⟩ := Option.map_eq_some_iff.mp hs
  have hgoes : c.threads.Goes t :=
    ClientThreads.goes_app (fun hno => absurd hno hconnect) hreset hassign ht
  exact h.control (Inside.begin_of_fits h.app hconnect hclose hreset)
    (ClientThreads.inv_step h.threads hok ht) hgoes
    fun wasConnected caller hno => absurd hno (hclose wasConnected caller)

/-- The calls of the client. -/
theorem call {l : ClientLabel} (h : c.Owns) (hok : Apart c.threads l) (hl : l.isApp = false)
    (hrecv : ∀ holder ok, l ≠ .recv holder ok) (hs : c.goOn l = some c') : c'.Owns := by
  obtain ⟨t, ht, rfl⟩ := Option.map_eq_some_iff.mp hs
  have hidle : c.threads.app = .idle := ClientThreads.idle_of_call hl hrecv ht
  refine h.control (Inside.begin_of_fits h.app ?_ ?_ ?_) (ClientThreads.inv_step h.threads hok ht)
    (ClientThreads.goes_call h.threads hl hrecv ht) ?_
  · simp [hidle]
  · simp [hidle]
  · simp [hidle]
  · simp [hidle]

theorem app_step (h : c.Owns) (hok : Undisturbed c (.thread (.app ok)))
    (hs : c.appStep ok = some c') : c'.Owns := by
  obtain ⟨hapart, htouches⟩ := hok
  unfold appStep at hs
  cases happ : c.threads.app with
  | close wasConnected caller =>
    have hquiet := htouches rfl (by simp [touchesSocket, happ])
    simp only [happ] at hs
    cases hstep : c.closeStep c.inApp with
    | mk d next =>
      obtain ⟨howns, hthrough⟩ := h.app_close happ hquiet hstep
      rw [hstep] at hs
      cases next with
      | some y =>
        cases hs
        exact howns
      | none =>
        obtain ⟨t, ht, rfl⟩ := Option.map_eq_some_iff.mp hs
        have hthreads : d.threads = c.threads := closeStep_threads hstep
        rw [hthreads] at ht
        refine howns.control (t := t) rfl (ClientThreads.inv_step h.threads hapart ht) ?_ ?_
        · show d.threads.Goes t
          rw [hthreads]
          exact ClientThreads.goes_app (by simp [happ]) (by simp [happ]) (by simp [happ]) ht
        · exact fun _ _ _ => hthrough rfl
  | tryConnect =>
    cases hat : c.inApp with
    | assignSession k =>
      simp only [happ, hat, Option.some.injEq] at hs
      exact hs ▸ h.assign_session happ hat
    | assignSocket k =>
      have hquiet := htouches rfl (by simp [touchesSocket, happ, hat])
      simp only [happ, hat] at hs
      exact h.assign_socket happ hat hquiet hs
    | _ => simp [happ, hat] at hs
  | reset wasConnected caller =>
    by_cases hat : c.inApp = .resetSession
    · simp only [happ, hat] at hs
      exact (h.reset_session happ hat hs).1
    · simp only [happ, Option.some.injEq] at hs
      exact hs ▸ h.reset_socket happ hat
  | assign =>
    simp only [happ] at hs
    obtain ⟨d, hd, rfl⟩ := Option.map_eq_some_iff.mp hs
    exact h.assign happ hd
  | _ =>
    simp only [happ] at hs
    exact h.app_plain hapart (by simp [happ]) (by simp [happ]) (by simp [happ]) (by simp [happ]) hs

/-- Nobody is in `Close` of the socket of a connected client. -/
theorem sockets_of_connected (h : c.Owns) (hcon : c.threads.isConnected = true)
    {handle : SocketHandle} (hhandle : c.handle = some handle) : c.sockets = [handle] := by
  have hbegin : c.inApp = .begin := by
    have honline : c.threads.app.offline ≠ true := by
      intro hoff
      rw [h.threads.offline hoff] at hcon
      cases hcon
    refine Inside.begin_of_fits h.app ?_ ?_ ?_
    · exact fun hno => honline (by rw [hno]; rfl)
    · exact fun wasConnected caller hno => honline (by rw [hno]; rfl)
    · exact fun wasConnected caller hno => honline (by rw [hno]; rfl)
  have hrecv : ∀ holder, c.inRecv holder = .begin := by
    refine fun holder => h.recv_begin fun hclose => ?_
    rw [h.threads.offline_of_close hclose] at hcon
    cases hcon
  have hclosed : c.closed = false := by simp [closed, hbegin, hrecv]
  rw [sockets_of_open hclosed, hhandle, hbegin]
  rfl

end Owns

theorem owns_step {answers : Answers} {l : ChatLabel} (h : c.Owns) (hok : Undisturbed c l)
    (hs : c.step answers l = some c') : c'.Owns := by
  cases l with
  | create port => exact h.create hs
  | thread l =>
    cases l with
    | app ok => exact h.app_step hok hs
    | recv holder ok => exact h.recv_step hok hs
    | connect | startRecvLoop | disconnect | destroy => exact h.call hok.1 rfl nofun hs

theorem owns_start (answers : Answers) : (chatClient answers).start.Owns where
  threads := ClientThreads.inv_start
  app := rfl
  recv _ hne := absurd rfl hne
  alone := nofun
  object := by rintro (hc | hc) <;> cases hc
  named := by rintro (hc | ⟨holder, hc⟩) <;> cases hc
  session _ := rfl
  assigned := nofun
  dropped := nofun
  socket _ := rfl
  connected := nofun
  connecting := nofun
  attended := nofun
  settled := nofun
  holds := holds_new

theorem owns_of_reach {answers : Answers} (h : (chatClient answers).Reach Undisturbed c) : c.Owns :=
  h.invariant (owns_start answers) fun _ howns hok hs => owns_step howns hok hs

end ChatClient

/-- So many steps of the two threads. -/
def appSteps (n : Nat) : List ChatLabel := (apps n).map .thread
def recvSteps (n : Nat) : List ChatLabel := (recvs n).map .thread

/-- A call of `Connect`. -/
def connectSteps (port : UInt16) : List ChatLabel :=
  .thread .connect :: appSteps 1 ++ [.create port]

/-- A receive thread has closed the socket that `Disconnect` finds and has not yet forgotten its
handle. -/
theorem socket_closed_twice :
    ∃ c, (chatClient fun _ => true).Reach System.always c ∧ c.resources.misused = true :=
  System.reach_of_exec (chatClient fun _ => true) System.always
    (connectSteps 8080 ++ appSteps 4 ++ .thread .startRecvLoop :: appSteps 3 ++ recvSteps 10 ++
      .thread .disconnect :: appSteps 5)
    (fun c => c.resources.misused) (by decide)

end Highp.Client

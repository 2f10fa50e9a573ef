import Telemetry.Proofs.Gateway.History
/-!
# Only authentic payloads are taken in

Over the whole history of a connection whose client has to authenticate, there is one way to have
data stored or messages taken from the queue: an envelope with the checksum of its payload under
the working password and the session's last nonce. Whatever else is sent, whether it is forged,
repeated, or belongs to a negotiation, leaves both alone.
-/

namespace Telemetry

open Bysant (Envelope Value)

open Security (ChecksumKind checksum)

/-- The turn has neither stored data nor taken messages from a queue. -/
structure Turn.Idle (t : Turn) : Prop where
  received : t.handled.gateway.store.received = t.gateway.store.received
  outgoing : t.handled.gateway.store.outgoing = t.gateway.store.outgoing

/-- The turn has taken in a payload that is authentic under the working password of its session. -/
structure Turn.Admits (t : Turn) (kind : ChecksumKind) (password : String) (s : Session)
    (clear : Bytes) (values : List Value) : Prop where
  opened : t.opened = some s
  /-- The password is held when the envelope arrives, and it is not blank. -/
  credential : s.profile.credential = some password
  proper : Text.isBlank password = false
  /-- The checksum is that of the payload as it was received. -/
  mac : t.envelope.header.bytes? .mac = some (checksum kind (Bytes.ofString s.clientId)
    (Bytes.ofString password) (Bytes.ofString s.profile.nonce) t.envelope.payload)
  judged : (s.authenticate t.envelope t.gateway).result = .ok (.accepted clear)
  deciphered : s.openPayload password t.envelope.payload = .ok clear
  decodes : Bysant.decode clear = .ok values
  /-- One record is kept of the payload, with its messages and nothing else, and the messages queued
  for the client are taken, and no others. -/
  takesIn : t.gateway.TakesIn s.clientId clear values t.handled.gateway

namespace Connection

variable {turns : List Turn} {c : Connection} {g : Gateway} {t : Turn} {s last : Session}
  {kind : ChecksumKind} {password : String} {stays : Bool}

/-! ## One turn -/

theorem idle_of_quiet (quiet : t.gateway.Quiet t.handled.gateway) : t.Idle :=
  ⟨quiet.received, quiet.outgoing⟩

/-- An envelope that belongs to no session is ignored. -/
theorem idle_of_not_opened (none : t.opened = none) : t.Idle := by
  have ignored : t.handled = ⟨⟨[], true⟩, t.session, t.gateway⟩ := by
    rw [Turn.handled, handle, show sessionFor _ _ _ = _ from none]
  rw [Turn.opened] at none
  exact ⟨by rw [ignored], by rw [ignored]⟩

theorem credential_proper (h : s.Secured kind password) : Text.isBlank password = false := by
  have held := h.credential
  unfold Security.Profile.credential at held
  have proper := (Option.filter_eq_some_iff.mp held).2
  simpa using proper

/-- A session with a working password is idle, or admits the payload. -/
theorem idle_or_admits_of_secured (opened : t.opened = some s) (secured : s.Secured kind password) :
    t.Idle ∨ ∃ clear values, t.Admits kind password s clear values := by
  have handles := handles_handleIn secured t.envelope t.gateway
  rw [← handled_of_opened opened] at handles
  generalize handled : t.handled = after at handles
  cases handles with
  | @answered clear values mac deciphered decodes judged =>
    refine .inr ⟨clear, values, ?_⟩
    have quiet := quiet_respond (answerEnvelope s.clientId values t.gateway)
      { s with attempts := 0, peerNonce := t.envelope.header.bytes? .nonce }
      (answeredGateway s.clientId clear values t.gateway)
    rw [← handled] at quiet
    exact {
      opened
      credential := secured.credential
      proper := credential_proper secured
      mac
      judged
      deciphered
      decodes
      takesIn := (takesIn_answeredGateway s.clientId clear values t.gateway).congr
        quiet.received quiet.outgoing }
  | replayed last given judged =>
    refine .inl (idle_of_quiet ?_)
    rw [handled]
    exact quiet_respond _ _ _
  | refused failed continues quiet =>
    refine .inl (idle_of_quiet ?_)
    rwa [handled]

theorem idle_or_admits (opened : t.opened = some s)
    (authentication : s.profile.authentication = some kind) :
    t.Idle ∨ ∃ password clear values, t.Admits kind password s clear values := by
  cases needs : s.profile.needsNegotiation with
  | true =>
    refine .inl (idle_of_quiet ?_)
    rw [handled_of_opened opened]
    exact (handleIn_of_needsNegotiation needs t.envelope t.gateway).2
  | false =>
    obtain ⟨password, secured⟩ := exists_secured authentication needs
    rcases idle_or_admits_of_secured opened secured with idle | admits
    · exact .inl idle
    · exact .inr ⟨password, admits⟩

/-! ## All turns -/

/-- The session of an earlier turn belongs to the same client, which authenticated in the same
way. -/
theorem History.earlier (history : History turns c g stays) (current : c.session = some last)
    (member : t ∈ turns) (opened : t.opened = some s) : ∃ g', s.Continues g' last := by
  have leads := (leads_of_sessionFor opened).trans (history.orderly.leads t member)
  obtain ⟨_, same, continues⟩ := leads.continues s rfl
  obtain rfl := Option.some.inj (current.symm.trans same)
  exact ⟨_, continues⟩

/-- As long as the client of a connection has to authenticate, only an authentic payload touches
the data received from it and the messages queued for it. What is stored then are the messages of
this payload, deciphered if the client uses a cipher. -/
theorem history_idle_or_admits (history : History turns c g stays) (current : c.session = some last)
    (authentication : last.profile.authentication = some kind) : ∀ t ∈ turns, t.Idle ∨
      ∃ s password clear values, s.clientId = last.clientId ∧
        t.Admits kind password s clear values := by
  intro t member
  cases opened : t.opened with
  | none => exact .inl (idle_of_not_opened opened)
  | some s =>
    obtain ⟨_, continues⟩ := history.earlier current member opened
    rcases idle_or_admits opened (continues.authentication.symm.trans authentication) with
      idle | ⟨password, clear, values, admits⟩
    · exact .inl idle
    · exact .inr ⟨s, password, clear, values, continues.client.symm, admits⟩

/-! ## A report of a known client -/

/-- The session that opens for the client. -/
def openingSession : Session := .start securedGateway.store "dev"

theorem secured_openingSession : openingSession.Secured .md5 "pw" :=
  ⟨by decide +kernel, by decide +kernel⟩

/-- What the client wants to report, as it is sent under the first nonce. -/
def sealedReport : Bytes :=
  match (openingSession.device .md5 "pw").sealPayload
    (Bytes.ofString openingSession.profile.nonce) report.payload with
  | .ok ciphered => ciphered
  | .error _ => []

theorem openPayload_sealedReport :
    openingSession.openPayload "pw" sealedReport = .ok report.payload := by
  obtain ⟨ciphered, sent, opened⟩ :=
    Session.openPayload_sealPayload openingSession .md5 "pw" report.payload
  unfold sealedReport
  rw [sent]
  exact opened

def signedReport : Envelope :=
  openingSession.signedRequest .md5 "pw" report (Bytes.ofString "device") sealedReport

theorem senderId?_signedReport : signedReport.senderId? = some "dev" :=
  Session.senderId?_signedRequest

/-- The turn in which a new connection handles the report. -/
def reporting : Turn := ⟨signedReport, none, securedGateway⟩

theorem opened_reporting : reporting.opened = some openingSession := by
  unfold Turn.opened sessionFor
  dsimp only [reporting]
  rw [senderId?_signedReport]
  rfl

theorem handled_reporting : ∃ reply after left,
    reporting.handled = ⟨⟨[reply], false⟩, some after, left⟩ ∧
    Answered openingSession .md5 "pw" report.payload reported (Bytes.ofString "device")
      securedGateway reply after left := by
  obtain ⟨reply, after, left, handles, answered⟩ := handle_signedRequest secured_openingSession
    (by decide +kernel : report.header.contains .challenge = false) openPayload_sealedReport
    decode_report (Bytes.ofString "device") securedGateway
  have own : Turn.opened ⟨signedReport, some openingSession, securedGateway⟩ =
      some openingSession := opened_of_names senderId?_signedReport _
  refine ⟨reply, after, left, ?_, answered⟩
  rw [handled_of_opened opened_reporting]
  exact (handled_of_opened own).symm.trans handles

theorem sound_signedReport : (Value.envelope signedReport).Sound Bysant.maxDepth :=
  Bysant.sound_iff.mpr ⟨by decide +kernel, by decide +kernel⟩

theorem history_reporting : ∃ c after left, History [reporting] c left true ∧
    c.session = some after ∧ after.Secured .md5 "pw" := by
  obtain ⟨reply, after, left, handles, answered⟩ := handled_reporting
  have handles : handle signedReport none securedGateway = ⟨⟨[reply], false⟩, some after, left⟩ :=
    handles
  have sound : ∀ e ∈ [signedReport], (Value.envelope e).Sound Bysant.maxDepth := by
    intro e member
    obtain rfl := List.mem_singleton.mp member
    exact sound_signedReport
  obtain ⟨c, session, history⟩ := exists_history sound securedGateway
  simp only [turnsOf, handleAll, handles] at history session
  exact ⟨c, after, left, history, session, answered.secured⟩

/-- The gateway had received nothing before. -/
theorem not_idle_reporting : ¬ reporting.Idle := by
  intro idle
  obtain ⟨reply, after, left, handles, answered⟩ := handled_reporting
  have recorded := (answered.takesIn.recorded (by decide +kernel)).2
  have nothing : reporting.handled.gateway.store.receivedFrom "dev" = [] :=
    Store.receivedFrom_congr idle.received "dev"
  rw [handles] at nothing
  cases recorded.symm.trans nothing

/-- Only one password, payload and session are possible. -/
theorem eq_of_admits_reporting {s : Session} {clear : Bytes} {values : List Value}
    (admits : reporting.Admits kind password s clear values) :
    s = openingSession ∧ password = "pw" ∧ clear = report.payload ∧ values = reported := by
  obtain rfl := Option.some.inj (admits.opened.symm.trans opened_reporting)
  obtain rfl := Option.some.inj (admits.credential.symm.trans secured_openingSession.credential)
  obtain rfl := Except.ok.inj (admits.deciphered.symm.trans openPayload_sealedReport)
  exact ⟨rfl, rfl, rfl, Except.ok.inj (admits.decodes.symm.trans decode_report)⟩

/-- A new connection is sent the report and admits it. The gateway keeps one record, with what was
reported. -/
theorem history_idle_or_admits_reporting : ∃ c last left,
    (History [reporting] c left true ∧ c.session = some last ∧
      last.profile.authentication = some .md5) ∧
    openingSession.clientId = last.clientId ∧
      reporting.Admits .md5 "pw" openingSession report.payload reported ∧
      reporting.handled.gateway.store.receivedFrom "dev" =
        [(1, ⟨0, [⟨"@sys", [("temp", [⟨0, .int 3⟩])]⟩]⟩)] := by
  obtain ⟨c, last, left, history, current, secured⟩ := history_reporting
  refine ⟨c, last, left, ⟨history, current, secured.authentication⟩, ?_⟩
  rcases history_idle_or_admits history current secured.authentication reporting
    (List.mem_singleton_self _) with idle | ⟨s, password, clear, values, client, admits⟩
  · exact absurd idle not_idle_reporting
  · obtain ⟨rfl, rfl, rfl, rfl⟩ := eq_of_admits_reporting admits
    exact ⟨client, admits, (admits.takesIn.recorded (by decide +kernel)).2⟩

end Connection

end Telemetry

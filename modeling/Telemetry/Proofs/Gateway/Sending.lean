import Telemetry.Device.Client
import Telemetry.Gateway.Http
import Telemetry.Proofs.Bysant.EnvelopeDecoder
import Telemetry.Proofs.Bysant.Plain
import Telemetry.Proofs.Bysant.Shortest
import Telemetry.Proofs.Gateway.Delivery
/-!
# Which settings reach a device

The messages that bring settings to a device are placed in the next reply to it, behind no others.
The device can read this reply as long as the settings are not nested too deep and the reply is not
too long; the encoder, which checks neither, writes others just as well.
-/

namespace Telemetry

open Bysant

/-! ## Messages that bring settings -/

namespace Bysant

theorem everywhereBody_iff {p : Value → Bool} {body : List (String × Value)} :
    everywhereBody p body = true ↔ ∀ entry ∈ body, entry.2.everywhere p = true := by
  induction body with
  | nil => simp [everywhereBody]
  | cons entry rest ih => simp [everywhereBody, ih]

theorem depthBody_le_iff {body : List (String × Value)} {n : Nat} :
    depthBody body ≤ n ↔ ∀ entry ∈ body, entry.2.depth ≤ n := by
  induction body with
  | nil => simp [depthBody]
  | cons entry rest ih => simp [depthBody, ih]

/-- The values of a message are not nested deeper than the message and its body leave room for. -/
def Message.Shallow (m : Message) : Prop := ∀ entry ∈ m.body, entry.2.depth + 2 ≤ maxDepth

instance (m : Message) : Decidable m.Shallow := List.decidableBAll _ _

theorem shallow_iff {m : Message} : m.Shallow ↔ (Value.message m).depth ≤ maxDepth := by
  obtain ⟨path, ticket, body⟩ := m
  have room : (depthBody body + 1 + 1 ≤ maxDepth) ↔ depthBody body ≤ maxDepth - 2 := by
    have : 2 ≤ maxDepth := by decide
    omega
  show (∀ entry ∈ body, entry.2.depth + 2 ≤ maxDepth) ↔ depthBody body + 1 + 1 ≤ maxDepth
  rw [room, depthBody_le_iff]
  refine forall₂_congr fun entry _ => ?_
  have : 2 ≤ maxDepth := by decide
  omega

end Bysant

namespace Admin

/-- The bodies under construction are tables of plain values. -/
def PlainBodies (bodies : Table String (Table String Value)) : Prop :=
  ∀ entry ∈ bodies, Table.Ordered entry.2 ∧ everywhereBody Value.isPlain entry.2 = true

variable {bodies : Table String (Table String Value)} {settings : List (String × Json)}

theorem PlainBodies.addSetting (h : PlainBodies bodies) (setting : String × Json) :
    PlainBodies (Admin.addSetting bodies setting) := by
  unfold Admin.addSetting
  split
  · rename_i path key _
    have old : Table.Ordered ((Table.get? path bodies).getD []) ∧
        everywhereBody Value.isPlain ((Table.get? path bodies).getD []) = true := by
      cases found : Table.get? path bodies with
      | none => exact ⟨List.Pairwise.nil, rfl⟩
      | some body => exact h (path, body) (Table.mem_of_get? found)
    intro entry member
    rcases Table.mem_put member with rfl | inside
    · refine ⟨old.1.put, everywhereBody_iff.mpr fun inner member => ?_⟩
      rcases Table.mem_put member with rfl | inside
      · exact plain_ofJson setting.2
      · exact everywhereBody_iff.mp old.2 inner inside
    · exact h entry inside
  · exact h

theorem plainBodies_foldl (h : PlainBodies bodies) :
    PlainBodies (settings.foldl Admin.addSetting bodies) := by
  induction settings generalizing bodies with
  | nil => exact h
  | cons setting rest ih => exact ih (h.addSetting setting)

theorem plain_messagesToSend (settings : List (String × Json)) :
    ∀ m ∈ messagesToSend settings, (Value.message m).everywhere Value.isPlain = true := by
  intro m member
  obtain ⟨entry, inside, rfl⟩ := List.mem_map.mp member
  have empty : PlainBodies [] := fun entry inside => by cases inside
  obtain ⟨ordered, plain⟩ := plainBodies_foldl empty entry inside
  have tabular : decide ((Table.keys entry.2).Pairwise (· < ·)) = true := decide_eq_true ordered
  simp only [Value.everywhere, Value.isPlain, Value.isCanonical, Value.isTabular, plain, tabular,
    Bool.and_self]

end Admin

/-! ## Replies that can be read -/

/-- A new decoder reads this envelope from its encoding, and the device takes these values from
it. -/
def Bysant.Envelope.Brings (reply : Envelope) (values : List Value) : Prop :=
  ∃ d e, EnvelopeDecoder.new.feed reply.encode = (d, [e], .ok ()) ∧ Client.interpret e = .ok values

/-- A successful reply in clear. -/
def Bysant.Envelope.ofValues (values : List Value) : Envelope :=
  .ofPayload (.ofList [(.status, StatusCode.ok.toValue)]) (encodeAll values)

namespace Bysant

variable {values all : List Value} {messages : List Message} {acknowledged : List Response}
  {e : Envelope}

theorem length_encodeAll_sublist (some : values.Sublist all) :
    (encodeAll values).length ≤ (encodeAll all).length := by
  induction some with
  | slnil => exact Nat.le_refl _
  | cons v _ ih =>
    rw [encodeAll, List.length_append]
    exact Nat.le_trans ih (Nat.le_add_left _ _)
  | cons_cons v _ ih =>
    rw [encodeAll, encodeAll, List.length_append, List.length_append]
    exact Nat.add_le_add_left ih _

/-- What a device takes from an envelope was decoded from its payload. -/
theorem of_interpret (taken : Client.interpret e = .ok values) :
    ∃ all, decode e.payload = .ok all ∧ values.Sublist all := by
  unfold Client.interpret at taken
  dsimp only at taken
  split at taken
  · cases taken
  · cases decoded : decode e.payload with
    | error error =>
      rw [decoded] at taken
      cases taken
    | ok all =>
      rw [decoded] at taken
      obtain rfl := Except.ok.inj taken
      exact ⟨all, rfl, List.filter_sublist⟩

theorem status?_ofValues (values : List Value) :
    (Envelope.ofValues values).status? = some .ok := by
  show StatusCode.ofValue? StatusCode.ok.toValue = _
  decide

/-- A device takes all messages and acknowledgements from a successful reply that it can read. -/
theorem interpret_outgoingValues (succeeds : e.status? = some .ok)
    (decoded : decode e.payload = .ok (outgoingValues messages acknowledged)) :
    Client.interpret e = .ok (outgoingValues messages acknowledged) := by
  unfold Client.interpret
  simp only [succeeds, Option.getD_some, ne_eq, not_true_eq_false, if_false]
  rw [decoded]
  refine congrArg Except.ok (List.filter_eq_self.mpr fun v member => ?_)
  rcases List.mem_append.mp member with message | response
  · obtain ⟨m, -, rfl⟩ := List.mem_map.mp message
    rfl
  · obtain ⟨r, -, rfl⟩ := List.mem_map.mp response
    rfl

theorem sound_ofValues (fits : (encodeAll values).length ≤ maxLength) :
    (Value.envelope (.ofValues values)).Sound maxDepth := by
  have is : Envelope.ofValues values =
    ⟨⟨[(.status, .int 200)]⟩, encodeAll values, []⟩ := rfl
  rw [is]
  exact sound_of_leaves (by decide : KeysFit [.status]) (by decide) fits

theorem sound_outgoingValues
    (plain : ∀ m ∈ messages, (Value.message m).everywhere Value.isPlain = true)
    (shallow : ∀ m ∈ messages, m.Shallow)
    (fits : (encodeAll (outgoingValues messages acknowledged)).length ≤ maxLength) :
    ∀ v ∈ outgoingValues messages acknowledged, v.Sound maxDepth := by
  have all : everywhereAll Value.isPlain (outgoingValues messages acknowledged) = true := by
    refine everywhereAll_iff.mpr fun v member => ?_
    rcases List.mem_append.mp member with message | response
    · obtain ⟨m, inside, rfl⟩ := List.mem_map.mp message
      exact plain m inside
    · obtain ⟨r, -, rfl⟩ := List.mem_map.mp response
      rfl
  have parts := everywhereAll_iff.mp (soundAll_of_plain _ all fits)
  intro v member
  refine ⟨?_, parts v member⟩
  rcases List.mem_append.mp member with message | response
  · obtain ⟨m, inside, rfl⟩ := List.mem_map.mp message
    exact shallow_iff.mp (shallow m inside)
  · obtain ⟨r, -, rfl⟩ := List.mem_map.mp response
    show 1 ≤ maxDepth
    decide

/-- A device can read the messages and acknowledgements of a reply exactly if no message is nested
too deep and all of them together are not too long. -/
theorem brings_iff (plain : ∀ m ∈ messages, (Value.message m).everywhere Value.isPlain = true) :
    (Envelope.ofValues (outgoingValues messages acknowledged)).Brings
        (outgoingValues messages acknowledged) ↔
      (∀ m ∈ messages, m.Shallow) ∧
        (encodeAll (outgoingValues messages acknowledged)).length ≤ maxLength := by
  constructor
  · rintro ⟨d, e, fed, taken⟩
    obtain ⟨all, decoded, some⟩ := of_interpret taken
    refine ⟨fun m member => shallow_iff.mpr ?_, ?_⟩
    · have inside : Value.message m ∈ outgoingValues messages acknowledged :=
        List.mem_append_left _ (List.mem_map_of_mem member)
      exact (sound_of_decode decoded _ (some.subset inside)).shallow
    · exact Nat.le_trans (length_encodeAll_sublist some)
        (Nat.le_trans (length_encodeAll_of_parseFrom (decode_eq_ok_iff.mp decoded))
          (EnvelopeDecoder.length_payload_of_feed fed))
  · rintro ⟨shallow, fits⟩
    obtain ⟨d, fed⟩ := EnvelopeDecoder.feed_encode (sound_ofValues fits)
    have decoded := decode_encodeAll_of_sound (sound_outgoingValues plain shallow fits)
    exact ⟨d, _, fed, interpret_outgoingValues (status?_ofValues _) decoded⟩

end Bysant

/-! ## The next reply -/

open Connection (emptyGateway hello handle)

variable {log before after : List Occurrence} {start connections : List Connection}
  {g g' : Gateway} {t : Turn} {s : Session} {reply : Envelope} {client : String}
  {settings : List (String × Json)}

/-- Settings wait behind what already does. -/
theorem Admin.waiting_send (g : Gateway) (client : String) (settings : List (String × Json)) :
    (Admin.send g client settings).2.store.waiting client =
      g.store.waiting client ++ Admin.messagesToSend settings := by
  unfold Admin.send
  dsimp only
  split
  · rename_i nothing
    rw [List.isEmpty_iff.mp nothing, List.append_nil]
  · rw [Store.waiting_enqueue, if_pos rfl]

/-- Messages that keep to the limits are read from a payload, and the acknowledgements behind
them. -/
theorem decode_outgoingValues {waiting : List Message}
    (sound : ∀ m ∈ waiting, (Value.message m).Sound maxDepth) (messages : List Message) :
    let acknowledged := messages.filterMap Message.acknowledgement?
    decode (encodeAll (outgoingValues waiting acknowledged)) =
      .ok (outgoingValues waiting acknowledged) := by
  refine decode_encodeAll_of_sound fun v member => ?_
  rcases List.mem_append.mp member with message | response
  · obtain ⟨m, inside, rfl⟩ := List.mem_map.mp message
    exact sound m inside
  · obtain ⟨r, inside, rfl⟩ := List.mem_map.mp response
    obtain ⟨⟨path, ticket, body⟩, -, acknowledges⟩ := List.mem_filterMap.mp inside
    cases ticket with
    | none => cases acknowledges
    | some ticket =>
      obtain rfl := Option.some.inj acknowledges
      refine ⟨?_, rfl⟩
      show 1 ≤ maxDepth
      decide

/-- In this turn, the first successful reply is sent to a client since some log began, and nothing
more was queued for the client. -/
structure Turn.NextReply (log : List Occurrence) (client : String) (t : Turn) (s : Session)
    (reply : Envelope) : Prop where
  nothing : ∀ messages, .queued client messages ∉ log
  earlier : ∀ u s', .handled u ∈ log → u.opened = some s' → s'.clientId = client →
    ∀ other ∈ u.handled.reaction.writes, other.status? ≠ some .ok
  opened : t.opened = some s
  client : s.clientId = client
  written : reply ∈ t.handled.reaction.writes
  succeeds : reply.status? = some .ok

namespace Turn.NextReply

theorem queuedIn (next : t.NextReply log client s reply) : Telemetry.queuedIn client log = [] := by
  refine List.flatMap_eq_nil_iff.mpr fun occurrence member => ?_
  cases occurrence with
  | queued other messages =>
    refine if_neg ?_
    rintro rfl
    exact next.nothing messages member
  | handled u => rfl

theorem placedIn (next : t.NextReply log client s reply)
    (accounts : ∀ u, .handled u ∈ log → u.Accounts) : Telemetry.placedIn client log = [] := by
  refine List.flatMap_eq_nil_iff.mpr fun occurrence member => ?_
  cases occurrence with
  | queued other messages => rfl
  | handled u =>
    cases accounts u member with
    | @answered s' _ other accepted writes status bears others =>
      refine others client ?_
      rintro rfl
      obtain ⟨clear, grants, -⟩ := Turn.of_accepted? accepted
      have written : other ∈ u.handled.reaction.writes := by
        rw [writes]
        exact List.mem_singleton_self _
      exact next.earlier u s' member grants.opened rfl other written status
    | replayed opened last judged nothing => exact nothing client
    | silent failed nothing => exact nothing client

end Turn.NextReply

/-- What a client is sent that need not authenticate. -/
theorem Turn.handled_of_free (opened : t.opened = some s) (free : s.profile.authentication = none) :
    t.handled.reaction = match decode t.envelope.payload with
      | .ok values => ⟨[.ofValues (outgoingValues (t.gateway.store.waiting s.clientId)
          (values.filterMap Value.acknowledgement?))], false⟩
      | .error _ => Connection.refuse .badRequest := by
  have needs : s.profile.needsNegotiation = false := by
    rw [Security.Profile.needsNegotiation, free]
    rfl
  rw [Connection.handled_of_opened opened, Connection.handleIn, needs, if_neg (by decide),
    Session.authenticate_of_free free]
  dsimp only
  cases decodes : decode t.envelope.payload with
  | error error => rw [Connection.answer_of_error decodes]
  | ok values =>
    rw [Connection.answer_eq decodes]
    dsimp only
    rw [Connection.respond_of_none rfl]
    rfl

/-- A successful reply to a client that need not authenticate is the answer to its payload. -/
theorem Turn.answered_of_free (opened : t.opened = some s)
    (free : s.profile.authentication = none) (written : reply ∈ t.handled.reaction.writes)
    (succeeds : reply.status? = some .ok) : ∃ values, decode t.envelope.payload = .ok values ∧
      reply = .ofValues (outgoingValues (t.gateway.store.waiting s.clientId)
        (values.filterMap Value.acknowledgement?)) := by
  rw [Turn.handled_of_free opened free] at written
  cases decodes : decode t.envelope.payload with
  | error error =>
    rw [decodes] at written
    obtain rfl := List.mem_singleton.mp written
    cases succeeds
  | ok values =>
    rw [decodes] at written
    exact ⟨values, rfl, List.mem_singleton.mp written⟩

/-- When settings were sent to a client for which nothing waited, its next successful reply brings
their messages, and behind them the acknowledgements of its request, exactly if no value of these
messages is nested too deep and the reply is not too long. -/
theorem Traffic.settings_arrive_iff (empty : g.store.waiting client = [])
    (traffic : Traffic start (Admin.send g client settings).2 log connections g')
    (split : log = before ++ .handled t :: after) (next : t.NextReply before client s reply)
    (free : s.profile.authentication = none) :
    let messages := Admin.messagesToSend settings
    ∃ values, decode t.envelope.payload = .ok values ∧
      let arriving := outgoingValues messages (values.filterMap Value.acknowledgement?)
      (reply.Brings arriving ↔
        (∀ m ∈ messages, m.Shallow) ∧ (encodeAll arriving).length ≤ maxLength) := by
  intro messages
  have conserves := traffic.conserves
  have accounts : ∀ u, .handled u ∈ before → u.Accounts := fun u member =>
    conserves.accounts u (split ▸ List.mem_append_left _ member)
  have waits := conserves.moments before t after split client
  rw [next.queuedIn, next.placedIn accounts, Admin.waiting_send, empty, List.append_nil,
    List.nil_append, List.nil_append] at waits
  obtain ⟨values, decodes, rfl⟩ :=
    Turn.answered_of_free next.opened free next.written next.succeeds
  refine ⟨values, decodes, ?_⟩
  rw [next.client, ← waits]
  exact brings_iff (Admin.plain_messagesToSend settings)

/-! ## Settings that arrive and settings that do not -/

/-- The turn of a new connection of a client that nothing is known of, to which settings were
sent. -/
def settingsTurn (request : Envelope) (settings : List (String × Json)) : Turn :=
  ⟨request, none, (Admin.send emptyGateway "dev" settings).2⟩

variable {request : Envelope} {values : List Value}

theorem nextReply_settingsTurn (settings : List (String × Json))
    (names : request.senderId? = some "dev") (decodes : decode request.payload = .ok values) : ∃ s,
      (settingsTurn request settings).NextReply [] "dev" s (.ofValues (outgoingValues
        (Admin.messagesToSend settings) (values.filterMap Value.acknowledgement?))) ∧
      s.profile.authentication = none := by
  have unknown : (Admin.send emptyGateway "dev" settings).2.store.profile? "dev" = none := by
    unfold Admin.send
    dsimp only
    split <;> rfl
  have opened : (settingsTurn request settings).opened = some (.unsecured "dev") := by
    unfold Turn.opened Connection.sessionFor settingsTurn
    dsimp only
    rw [names]
    dsimp only
    rw [Session.start, unknown]
    rfl
  have waits : (settingsTurn request settings).gateway.store.waiting "dev" =
      Admin.messagesToSend settings := Admin.waiting_send emptyGateway "dev" settings
  have decodes : decode (settingsTurn request settings).envelope.payload = .ok values := decodes
  have handled := Turn.handled_of_free opened rfl
  rw [decodes] at handled
  refine ⟨.unsecured "dev", ⟨?_, ?_, opened, rfl, ?_, rfl⟩, rfl⟩
  · intro messages member
    cases member
  · intro u s' member
    cases member
  · rw [handled, ← waits]
    exact List.mem_singleton_self _

/-- One setting is sent, and the client takes it from the next reply. -/
theorem settings_arrive_oneSetting : ∃ log connections g' s reply,
    (emptyGateway.store.waiting "dev" = [] ∧
      Traffic [] (Admin.send emptyGateway "dev" Traffic.oneSetting).2 log connections g' ∧
      log = [] ++ .handled (settingsTurn hello Traffic.oneSetting) :: [] ∧
      (settingsTurn hello Traffic.oneSetting).NextReply [] "dev" s reply ∧
      s.profile.authentication = none) ∧
    ∃ values, decode hello.payload = .ok values ∧
      reply.Brings (outgoingValues (Admin.messagesToSend Traffic.oneSetting)
        (values.filterMap Value.acknowledgement?)) := by
  have empty : emptyGateway.store.waiting "dev" = [] := rfl
  have sound : (Value.envelope hello).Sound maxDepth :=
    sound_iff.mpr ⟨by decide +kernel, by decide +kernel⟩
  have begun : Traffic [] (Admin.send emptyGateway "dev" Traffic.oneSetting).2 [] []
    (Admin.send emptyGateway "dev" Traffic.oneSetting).2 := .started
  obtain ⟨connections, g', traffic⟩ := begun.visited sound
  obtain ⟨s, next, free⟩ := nextReply_settingsTurn Traffic.oneSetting
    (by decide +kernel : hello.senderId? = some "dev") Connection.decode_nil
  obtain ⟨values, decodes, reads⟩ := Traffic.settings_arrive_iff empty traffic rfl next free
  obtain rfl : [] = values := Except.ok.inj (Connection.decode_nil.symm.trans decodes)
  have shallow : ∀ m ∈ Admin.messagesToSend Traffic.oneSetting, m.Shallow := by decide +kernel
  have fits : (encodeAll (outgoingValues (Admin.messagesToSend Traffic.oneSetting)
      [])).length ≤ maxLength := by decide +kernel
  exact ⟨_, connections, g', s, _, ⟨empty, traffic, rfl, next, free⟩, [], decodes,
    reads.mpr ⟨shallow, fits⟩⟩

/-- Settings are accepted and are not too long, nothing waits for their client, and yet it cannot
take them from the next reply to it. -/
structure Lost (request : Envelope) (settings : List (String × Json)) : Prop where
  accepted : (Admin.send emptyGateway "dev" settings).1.status = 202
  fits : (encodeAll ((Admin.messagesToSend settings).map .message)).length ≤ maxLength
  empty : emptyGateway.store.waiting "dev" = []
  sound : (Value.envelope request).Sound maxDepth
  lost : ∃ values s reply, decode request.payload = .ok values ∧
    (settingsTurn request settings).NextReply [] "dev" s reply ∧
    s.profile.authentication = none ∧
    ¬ reply.Brings (outgoingValues (Admin.messagesToSend settings)
      (values.filterMap Value.acknowledgement?))

/-- A setting with 63 arrays inside each other. -/
def deepText : String :=
  "\x7b\"settings\":[\x7b\"key\":\"light.color\",\"value\":" ++
    String.ofList (List.replicate 63 '[' ++ List.replicate 63 ']') ++ "\x7d]\x7d"

/-- What is sent in a text, if it is well-formed. -/
def settingsIn (text : String) : List (String × Json) :=
  match Json.Shape.readStart Http.settingsShape text with
  | .ok settings => settings
  | .error _ => []

/-- The text is well-formed, and its setting is accepted, though it is too deep. -/
theorem accepted_deepText : (Json.Shape.readStart Http.settingsShape deepText).isOk = true ∧
    (Admin.send emptyGateway "dev" (settingsIn deepText)).1.status = 202 ∧
    (encodeAll ((Admin.messagesToSend (settingsIn deepText)).map .message)).length ≤ maxLength ∧
    ¬ ∀ m ∈ Admin.messagesToSend (settingsIn deepText), m.Shallow := by
  decide +kernel

theorem readStart_deepText :
    Json.Shape.readStart Http.settingsShape deepText = .ok (settingsIn deepText) := by
  have whole := accepted_deepText.1
  unfold settingsIn
  cases read : Json.Shape.readStart Http.settingsShape deepText with
  | ok settings => rfl
  | error fault =>
    rw [read] at whole
    cases whole

theorem lost_deepText : Lost hello (settingsIn deepText) := by
  obtain ⟨-, accepted, fits, deep⟩ := accepted_deepText
  obtain ⟨s, next, free⟩ := nextReply_settingsTurn (settingsIn deepText)
    (by decide +kernel : hello.senderId? = some "dev") Connection.decode_nil
  have sound : (Value.envelope hello).Sound maxDepth :=
    sound_iff.mpr ⟨by decide +kernel, by decide +kernel⟩
  refine ⟨accepted, fits, rfl, sound, [], s, _, Connection.decode_nil, next, free, fun brings => ?_⟩
  exact deep ((brings_iff (Admin.plain_messagesToSend _)).mp brings).1

/-- A message that asks for an acknowledgement, in as few bytes as this takes. -/
def ticketed : Message := ⟨"", some 0, []⟩

/-- A request with so many messages that ask for an acknowledgement. -/
def crowded (n : Nat) : Envelope :=
  ⟨⟨[(.id, .text "dev")]⟩, encodeAll (List.replicate n (.message ticketed)), []⟩

theorem length_encodeAll_replicate (n : Nat) (v : Value) :
    (encodeAll (List.replicate n v)).length = n * (encode v).length := by
  rw [length_encodeAll, List.map_replicate, List.sum_replicate_nat]

theorem sound_crowded {n : Nat} (fits : n * 4 ≤ maxLength) :
    (Value.envelope (crowded n)).Sound maxDepth := by
  have short : (crowded n).payload.length ≤ maxLength :=
    Nat.le_trans (Nat.le_of_eq (length_encodeAll_replicate n _)) fits
  exact sound_of_leaves (by decide : KeysFit [.id]) (by decide) short

theorem decode_crowded (n : Nat) :
    decode (crowded n).payload = .ok (List.replicate n (.message ticketed)) := by
  have sound : (Value.message ticketed).Sound maxDepth :=
    sound_iff.mpr ⟨by decide +kernel, by decide +kernel⟩
  refine decode_encodeAll_of_sound fun v member => ?_
  rw [List.eq_of_mem_replicate member]
  exact sound

theorem acknowledgements_crowded (n : Nat) :
    (List.replicate n (.message ticketed)).filterMap Value.acknowledgement? =
      List.replicate n ⟨0, 0, ""⟩ :=
  List.filterMap_replicate_of_some rfl

/-- The acknowledgements alone may fill a reply. -/
theorem lost_crowded {n : Nat} (full : n * 4 = maxLength) : Lost (crowded n) Traffic.oneSetting where
  accepted := by decide +kernel
  fits := by decide +kernel
  empty := rfl
  sound := sound_crowded (Nat.le_of_eq full)
  lost := by
    obtain ⟨s, next, free⟩ :=
      nextReply_settingsTurn Traffic.oneSetting (rfl : (crowded n).senderId? = _) (decode_crowded n)
    refine ⟨_, s, _, decode_crowded n, next, free, fun brings => ?_⟩
    have fits := ((brings_iff (Admin.plain_messagesToSend _)).mp brings).2
    have some : 0 < (encodeAll ((Admin.messagesToSend Traffic.oneSetting).map .message)).length := by
      decide +kernel
    have crowd := length_encodeAll_replicate n (.response ⟨0, 0, ""⟩)
    rw [show (encode (.response ⟨0, 0, ""⟩)).length = 4 from rfl, full] at crowd
    rw [acknowledgements_crowded, outgoingValues, List.map_replicate, length_encodeAll,
      List.map_append, List.sum_append, ← length_encodeAll, ← length_encodeAll, crowd] at fits
    omega

/-- Not all settings that are accepted arrive: values may be nested too deep for a message, though
not for a request of an administrator, and acknowledgements may leave no room for messages. -/
theorem settings_lost :
    (∃ settings, Json.Shape.readStart Http.settingsShape deepText = .ok settings ∧
      Lost hello settings) ∧ Lost (crowded (2 ^ 24)) Traffic.oneSetting :=
  ⟨⟨settingsIn deepText, readStart_deepText, lost_deepText⟩, lost_crowded (by decide)⟩

end Telemetry

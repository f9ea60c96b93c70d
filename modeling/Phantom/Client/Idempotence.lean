import Mathlib.Data.List.Nodup
import Phantom.Client.Send

namespace Phantom.Client

open Phantom.Lib Phantom.Matrix Phantom.Accounts

def Holds (messages : Messages) (eventId : EventId) (roomId : RoomId) (kind : String) (sender : UserId) :
    Prop :=
  ∃ pdu, getNonOutlierPdu messages eventId = some pdu ∧ pdu.roomId = roomId ∧ pdu.kind = kind ∧ pdu.sender = sender

section Append

variable {messages : Messages} {server : Server} {pdu : Pdu} {transaction : Transaction}
variable {count : ℕ}

@[simp] theorem actOnRedaction_sent : (actOnRedaction server pdu messages).sent = messages.sent := by
  unfold actOnRedaction
  split
  · split <;> rfl
  · rfl

@[simp] theorem actOnRedaction_responses :
    (actOnRedaction server pdu messages).userdevicetxnidResponse = messages.userdevicetxnidResponse := by
  unfold actOnRedaction
  split
  · split <;> rfl
  · rfl

@[simp] theorem recordRelations_sent : (recordRelations pdu count messages).sent = messages.sent := by
  unfold recordRelations
  split <;> rfl

@[simp] theorem recordRelations_responses :
    (recordRelations pdu count messages).userdevicetxnidResponse = messages.userdevicetxnidResponse := by
  unfold recordRelations
  split <;> rfl

@[simp] theorem appendPdu_sent :
    (appendPdu server transaction pdu messages).sent = messages.sent ++ [(transaction, pdu.eventId)] := by
  simp [appendPdu]

@[simp] theorem appendPdu_responses : (appendPdu server transaction pdu messages).userdevicetxnidResponse =
      messages.userdevicetxnidResponse := by
  simp [appendPdu]

end Append

/-- The id of a built event is a valid one that no stored event has. -/
structure Built (parse : String → Option EventId) (messages : Messages) (eventId : EventId) : Prop where
  nonempty : eventId.asStr ≠ ""
  parsed : parse eventId.asStr = some eventId
  fresh : getNonOutlierPdu messages eventId = none

/-- The response that is stored for the transaction id of the request is an event that the request could
    have sent. -/
def RepliesTo (parse : String → Option EventId) (messages : Messages) (request : SendRequest)
    (response : String) : Prop :=
  response ≠ "" ∧ ∃ eventId, parse response = some eventId ∧
    Holds messages eventId request.roomId request.eventType request.senderUser

def Admissible (server : Server) (messages : Messages) (request : SendRequest) : Prop :=
  checkPolicy server request = .ok () ∧ checkDuplicateReaction request messages = .ok () ∧
    checkPublicCallInvite server request = .ok () ∧ checkNestedThread server request messages = .ok ()

/-- A transaction id that has a response is only used again for the room and type of that response, and
    the request still passes the checks. -/
def UsedAlike (parse : String → Option EventId) (server : Server) (messages : Messages)
    (request : SendRequest) : Prop :=
  ∀ response, messages.userdevicetxnidResponse request.key = some response →
    RepliesTo parse messages request response ∧ Admissible server messages request

theorem checkExistingTxnid_of_repliesTo {parse : String → Option EventId} {messages : Messages}
    {req : SendRequest} {response : String} {eventId : EventId}
    (stored : messages.userdevicetxnidResponse req.key = some response) (nonempty : response ≠ "")
    (parsed : parse response = some eventId)
    (holds : Holds messages eventId req.roomId req.eventType req.senderUser) :
    checkExistingTxnid parse req messages = .ok (some eventId) := by
  obtain ⟨pdu, found, room, kind, sender⟩ := holds
  grind [Outcome.ok_bind, legacyTxnidMatches, checkExistingTxnid, legacyTxnidResponse]

section Route

variable {parse : String → Option EventId} {server : Server} {request req : SendRequest} {messages : Messages}

theorem route_repeated {response : String} {eventId : EventId}
    (stored : messages.userdevicetxnidResponse req.key = some response)
    (parsed : parse response = some eventId) (alike : UsedAlike parse server messages req) :
    sendMessageEventRoute parse server req messages = (.ok eventId, messages) := by
  obtain ⟨⟨nonempty, other, parsed', holds⟩, policy, reaction, invite, thread⟩ := alike response stored
  cases parsed.symm.trans parsed'
  have existing := checkExistingTxnid_of_repliesTo stored nonempty parsed holds
  simp only [sendMessageEventRoute, Bind.bind, Pure.pure, Action.lift, Action.get, policy, existing, reaction,
    invite, thread]

def afterSend (server : Server) (request : SendRequest) (eventId : EventId) (messages : Messages) : Messages :=
  let appended := appendPdu server request.transaction
    ⟨eventId, request.roomId, request.eventType, request.senderUser, request.content⟩ messages
  { appended with userdevicetxnidResponse :=
      Function.update appended.userdevicetxnidResponse request.key (some eventId.asStr) }

theorem route_new (absent : messages.userdevicetxnidResponse req.key = none) :
    (sendMessageEventRoute parse server req messages).2 = messages ∨ ∃ eventId, server.built = .ok eventId ∧
      sendMessageEventRoute parse server req messages = (.ok eventId, afterSend server req eventId messages) := by
  have existing : checkExistingTxnid parse req messages = .ok none := by
    simp only [checkExistingTxnid, absent]
  simp only [sendMessageEventRoute, Bind.bind, Pure.pure, Action.lift, Action.get]
  cases checkPolicy server req with
  | error => exact Or.inl rfl
  | ok =>
    simp only [existing]
    cases checkDuplicateReaction req messages with
    | error => exact Or.inl rfl
    | ok =>
      cases checkPublicCallInvite server req with
      | error => exact Or.inl rfl
      | ok =>
        cases checkNestedThread server req messages with
        | error => exact Or.inl rfl
        | ok =>
          cases built : server.built with
          | error error =>
            simp only [buildAndAppendPdu, built]
            exact Or.inl rfl
          | ok eventId =>
            simp only [buildAndAppendPdu, built]
            exact Or.inr ⟨eventId, rfl, rfl⟩

end Route

/-- A request that is served while its transaction id is used alike. -/
structure SendStep (parse : String → Option EventId) (messages : Messages) (label : Server × SendRequest)
    (after : Messages) : Prop where
  built : ∀ eventId, label.1.built = .ok eventId → Built parse messages eventId
  alike : UsedAlike parse label.1 messages label.2
  served : (sendMessageEventRoute parse label.1 label.2 messages).2 = after

/-- What was sent for a transaction is what is stored for it, and it was sent once. -/
structure Answerable (parse : String → Option EventId) (messages : Messages) : Prop where
  response : ∀ transaction eventId, (transaction, eventId) ∈ messages.sent →
    messages.userdevicetxnidResponse transaction.key = some eventId.asStr
  parsed : ∀ transaction eventId, (transaction, eventId) ∈ messages.sent → parse eventId.asStr = some eventId
  once : (messages.sent.map Prod.fst).Nodup

theorem Answerable.step {parse : String → Option EventId} {messages after : Messages}
    {label : Server × SendRequest} (answerable : Answerable parse messages)
    (step : SendStep parse messages label after) : Answerable parse after := by
  obtain ⟨server, req⟩ := label
  obtain ⟨built, alike, served⟩ := step
  cases stored : messages.userdevicetxnidResponse req.key with
  | some response =>
    obtain ⟨⟨_, eventId, parsed, _⟩, _⟩ := alike response stored
    rw [route_repeated stored parsed alike] at served
    cases served
    exact answerable
  | none =>
    rcases route_new stored with same | ⟨eventId, ok, sent⟩
    · rw [same] at served
      cases served
      exact answerable
    · rw [sent] at served
      cases served
      have unused : ∀ transaction other, (transaction, other) ∈ messages.sent → transaction.key ≠ req.key := by
        intro transaction other mem same
        have response := answerable.response transaction other mem
        rw [same, stored] at response
        cases response
      have shape : (afterSend server req eventId messages).sent =
          messages.sent ++ [(req.transaction, eventId)] := appendPdu_sent
      have responses : (afterSend server req eventId messages).userdevicetxnidResponse =
          Function.update messages.userdevicetxnidResponse req.key (some eventId.asStr) := by
        simp only [afterSend, appendPdu_responses]
      refine ⟨?_, ?_, ?_⟩
      · intro transaction other mem
        rw [shape, List.mem_append, List.mem_singleton] at mem
        rw [responses]
        rcases mem with mem | mem
        · grind [Answerable.response]
        · cases mem
          exact Function.update_self ..
      · grind [Answerable.parsed, Built.parsed]
      · rw [shape, List.map_append, List.map_singleton, List.nodup_append]
        refine ⟨answerable.once, List.nodup_singleton _, ?_⟩
        intro transaction mem other last same
        rw [List.mem_singleton.mp last] at same
        obtain ⟨⟨found, sentId⟩, inside, rfl⟩ := List.mem_map.mp mem
        exact unused found sentId inside (congrArg Transaction.key same)

/-- While the transaction ids are used alike, at most one event is sent for each transaction, and every
    repeat of the request is answered with the id of that event. -/
theorem send_idempotent {parse : String → Option EventId} {start messages : Messages}
    {labels : List (Server × SendRequest)} (begins : start.sent = [])
    (run : Run (SendStep parse) start labels messages) : (messages.sent.map Prod.fst).Nodup ∧
    ∀ server request eventId, (request.transaction, eventId) ∈ messages.sent →
      UsedAlike parse server messages request →
      sendMessageEventRoute parse server request messages = (.ok eventId, messages) := by
  have empty : Answerable parse start := by
    refine ⟨?_, ?_, ?_⟩ <;> rw [begins]
    · nofun
    · nofun
    · exact List.nodup_nil
  have answerable := run.invariant (Answerable parse) (fun _ _ _ kept step => kept.step step) empty
  refine ⟨answerable.once, ?_⟩
  intro server request eventId sent alike
  exact route_repeated (answerable.response _ _ sent) (answerable.parsed _ _ sent) alike

namespace Sample

def noMessages : Messages := ⟨[], [], fun _ => none, []⟩

def parse (text : String) : Option EventId := some ⟨text⟩

def building (eventId : String) : Server := ⟨true, false, false, false, fun _ => none, true, .ok ⟨eventId⟩⟩

def message (roomId txnId : String) : SendRequest :=
  ⟨⟨"@alice:phantom"⟩, some ⟨"PHONE"⟩, ⟨roomId⟩, "m.room.message", txnId, .redacted⟩

def reaction : SendRequest :=
  ⟨⟨"@alice:phantom"⟩, some ⟨"PHONE"⟩, ⟨"!lobby"⟩, "m.reaction", "2",
    ⟨some (⟨"$first"⟩, "+1"), some ⟨"$first"⟩, none, true, none⟩⟩

def send (eventId : String) (request : SendRequest) (messages : Messages) :
    Outcome SendError EventId × Messages :=
  sendMessageEventRoute parse (building eventId) request messages

/-- A transaction id that is used in another room in between is forgotten, so the message is sent twice;
    and a reaction that is sent again is refused. -/
theorem repeated_send_not_idempotent : (let first := send "$first" (message "!lobby" "1") noMessages
     let other := send "$other" (message "!office" "1") first.2
     let again := send "$again" (message "!lobby" "1") other.2
     first.1 = .ok ⟨"$first"⟩ ∧ again.1 = .ok ⟨"$again"⟩ ∧
       again.2.sent = [((message "!lobby" "1").transaction, ⟨"$first"⟩),
         ((message "!office" "1").transaction, ⟨"$other"⟩), ((message "!lobby" "1").transaction, ⟨"$again"⟩)]) ∧
    (let first := send "$first" (message "!lobby" "1") noMessages
     let reacted := send "$reaction" reaction first.2
     reacted.1 = .ok ⟨"$reaction"⟩ ∧ (send "$again" reaction reacted.2).1 =
         .fail (.duplicateAnnotationError "Duplicate reactions are not allowed.")) := by
  decide +kernel

theorem send_idempotent_message :
    ∃ messages, Run (SendStep parse) noMessages [(building "$first", message "!lobby" "1")] messages ∧
      (messages.sent.map Prod.fst).Nodup ∧
      send "$again" (message "!lobby" "1") messages = (.ok ⟨"$first"⟩, messages) := by
  have step : SendStep parse noMessages (building "$first", message "!lobby" "1")
      (send "$first" (message "!lobby" "1") noMessages).2 := by
    refine ⟨?_, nofun, rfl⟩
    rintro eventId ⟨⟩
    exact ⟨by decide, rfl, rfl⟩
  have run : Run (SendStep parse) noMessages [(building "$first", message "!lobby" "1")] _ := .cons step (.nil _)
  have alike : UsedAlike parse (building "$again") (send "$first" (message "!lobby" "1") noMessages).2
      (message "!lobby" "1") := by
    rintro response ⟨⟩
    exact ⟨⟨by decide, ⟨"$first"⟩, rfl, _, rfl, rfl, rfl, rfl⟩, rfl, rfl, rfl, rfl⟩
  obtain ⟨once, repeated⟩ := send_idempotent rfl run
  exact ⟨_, run, once, repeated (building "$again") (message "!lobby" "1") ⟨"$first"⟩ List.mem_cons_self alike⟩

end Sample

end Phantom.Client

import Phantom.Accounts.Tokens
import Phantom.Lib.Action

namespace Phantom.Client

open Phantom.Lib Phantom.Matrix Phantom.Accounts

/-- What the code reads out of an event's content: the target and key of a reaction, the event it relates
    to, the root of the thread it is in, whether it has a `rel_type`, and the event it redacts. -/
structure Content where
  reaction : Option (EventId × String)
  related : Option EventId
  thread : Option EventId
  hasRelType : Bool
  redacts : Option EventId
deriving DecidableEq

def Content.redacted : Content := ⟨none, none, none, false, none⟩

structure Pdu where
  eventId : EventId
  roomId : RoomId
  kind : String
  sender : UserId
  content : Content
deriving DecidableEq

/-- The key of `userdevicetxnid_response`. No part of it holds the separator `0xFF`, and a missing device
    is the empty string. -/
structure TxnKey where
  userId : UserId
  deviceId : String
  txnId : String
deriving DecidableEq

structure Transaction where
  key : TxnKey
  roomId : RoomId
  eventType : String
deriving DecidableEq

/-- The timeline in the order of the counts, the relations `(to, from)` by count, and the responses by
    transaction id. What was sent for which transaction is kept beside them. -/
structure Messages where
  pdus : List Pdu
  tofromRelation : List (ℕ × ℕ)
  userdevicetxnidResponse : TxnKey → Option String
  sent : List (Transaction × EventId)

structure SendRequest where
  senderUser : UserId
  senderDevice : Option DeviceId
  roomId : RoomId
  eventType : String
  txnId : String
  content : Content
deriving DecidableEq

namespace SendRequest

def key (request : SendRequest) : TxnKey :=
  ⟨request.senderUser, request.senderDevice.elim "" DeviceId.asStr, request.txnId⟩

def transaction (request : SendRequest) : Transaction := ⟨request.key, request.roomId, request.eventType⟩

end SendRequest

inductive SendError where
  | forbidden (message : String)
  | duplicateAnnotationError (message : String)
  | unknown (message : String)
  | database (message : String)
  | rejected (message : String)
deriving DecidableEq

/-- What a request finds outside the tables: the configuration, the directory, the outliers, and how the
    event it builds fares. -/
structure Server where
  allowEncryption : Bool
  disableLocalRedactions : Bool
  userIsAdmin : Bool
  isPublicRoom : Bool
  outlier : EventId → Option Pdu
  userCanRedact : Bool
  built : Except SendError EventId

abbrev SendCall := Action Messages SendError

def getNonOutlierPdu (messages : Messages) (eventId : EventId) : Option Pdu :=
  messages.pdus.find? fun pdu => pdu.eventId = eventId

def getPduCount (messages : Messages) (eventId : EventId) : Option ℕ :=
  messages.pdus.findIdx? fun pdu => pdu.eventId = eventId

variable (server : Server)

def getPdu (messages : Messages) (eventId : EventId) : Option Pdu :=
  (getNonOutlierPdu messages eventId).or (server.outlier eventId)

def getRelations (messages : Messages) (roomId : RoomId) (target : EventId) : List Pdu :=
  match getPduCount messages target with
  | none => []
  | some count => (messages.tofromRelation.filter fun relation => relation.1 = count).filterMap
      (fun relation => messages.pdus[relation.2]?.filter fun pdu => pdu.roomId = roomId)

def legacyTxnidMatches (pdu : Pdu) (request : SendRequest) : Bool :=
  pdu.roomId = request.roomId && pdu.kind = request.eventType && pdu.sender = request.senderUser

variable (parse : String → Option EventId)

/-- The response that is stored for the transaction id, unless it is the empty one of a to-device
    message. -/
def legacyTxnidResponse (response : String) :
    Outcome SendError (Option EventId) :=
  if response = "" then .ok none
  else match parse response with
    | some eventId => .ok (some eventId)
    | none => .fail (.database "Invalid event_id in txn_id data")

def checkExistingTxnid (request : SendRequest) (messages : Messages) :
    Outcome SendError (Option EventId) :=
  match messages.userdevicetxnidResponse request.key with
  | none => .ok none
  | some response => do
    let found ← legacyTxnidResponse parse response
    match found with
    | none => .ok none
    | some eventId =>
      match getNonOutlierPdu messages eventId with
      | none => .ok none
      | some pdu => if legacyTxnidMatches pdu request then .ok (some eventId) else .ok none

variable (request : SendRequest)

def checkDuplicateReaction (messages : Messages) : Outcome SendError Unit :=
  if request.eventType ≠ "m.reaction" then .ok ()
  else match request.content.reaction with
    | none => .ok ()
    | some (target, key) =>
      let duplicate := (getRelations messages request.roomId target).any fun pdu =>
        pdu.sender = request.senderUser && pdu.kind = "m.reaction" &&
          pdu.content.reaction.any fun reaction => reaction.2 = key
      if duplicate then .fail (.duplicateAnnotationError "Duplicate reactions are not allowed.") else .ok ()

def checkPublicCallInvite : Outcome SendError Unit :=
  if request.eventType = "m.call.invite" ∧ server.isPublicRoom then
    .fail (.forbidden "Room call invites are not allowed in public rooms")
  else .ok ()

def checkNestedThread (messages : Messages) :
    Outcome SendError Unit :=
  match request.content.thread with
  | none => .ok ()
  | some root =>
    if (getPdu server messages root).any (fun pdu => pdu.content.hasRelType) then
      .fail (.unknown "Cannot start threads from an event with a relation.")
    else .ok ()

def checkPolicy : Outcome SendError Unit :=
  if request.eventType = "m.room.encrypted" ∧ !server.allowEncryption then
    .fail (.forbidden "Encryption has been disabled")
  else if request.eventType = "m.room.redaction" ∧ server.disableLocalRedactions ∧ !server.userIsAdmin then
    .fail (.forbidden "Redactions are disabled on this server.")
  else .ok ()

/-- `act_on_redaction`: the redacted event stays, without its content. -/
def actOnRedaction (pdu : Pdu) (messages : Messages) : Messages :=
  match pdu.content.redacts with
  | some redacts =>
    if pdu.kind = "m.room.redaction" ∧ server.userCanRedact then
      { messages with
        pdus := messages.pdus.map fun other =>
          if other.eventId = redacts ∧ other.roomId = pdu.roomId then { other with content := .redacted }
          else other }
    else messages
  | none => messages

def recordRelations (pdu : Pdu) (count : ℕ) (messages : Messages) : Messages :=
  match pdu.content.related.bind (getPduCount messages) with
  | some related => { messages with tofromRelation := messages.tofromRelation ++ [(related, count)] }
  | none => messages

def appendPdu (transaction : Transaction) (pdu : Pdu) (messages : Messages) : Messages :=
  let count := messages.pdus.length
  let inserted := { messages with
    pdus := messages.pdus ++ [pdu]
    sent := messages.sent ++ [(transaction, pdu.eventId)] }
  recordRelations pdu count (actOnRedaction server pdu inserted)

def buildAndAppendPdu : SendCall EventId :=
  match server.built with
  | .error error => Action.lift (.fail error)
  | .ok eventId => do
    let pdu : Pdu := ⟨eventId, request.roomId, request.eventType, request.senderUser, request.content⟩
    Action.modify (appendPdu server request.transaction pdu)
    pure eventId

def addTxnid (key : TxnKey) (eventId : EventId) : SendCall Unit :=
  Action.modify fun messages =>
    { messages with userdevicetxnidResponse :=
        Function.update messages.userdevicetxnidResponse key (some eventId.asStr) }

def sendMessageEventRoute (server : Server) (request : SendRequest) :
    SendCall EventId := do
  Action.lift (checkPolicy server request)
  let messages ← Action.get
  let existing ← Action.lift (checkExistingTxnid parse request messages)
  Action.lift (checkDuplicateReaction request messages)
  Action.lift (checkPublicCallInvite server request)
  Action.lift (checkNestedThread server request messages)
  match existing with
  | some eventId => pure eventId
  | none => do
    let eventId ← buildAndAppendPdu server request
    addTxnid request.key eventId
    pure eventId

end Phantom.Client

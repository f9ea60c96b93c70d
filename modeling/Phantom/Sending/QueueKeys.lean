import Phantom.Lib.Action
import Phantom.Lib.Utf8
import Phantom.Net.Ip
import Phantom.Pdu.RawId
import Phantom.Sending.Worker

namespace Phantom.Sending.QueueKeys

open Phantom.Lib Phantom.Matrix Phantom.Net Phantom.Pdu Action

inductive Event where
  | pdu (id : RawId)
  | edu (value : Bytes)

/-- The identifiers that `parse` accepts. A server name begins with a letter, a digit, a hyphen, a dot or a bracket. -/
structure Identifiers where
  isServerName : String → Bool
  isUserId : String → Bool
  first : ∀ name char, isServerName name = true → name.toList.head? = some char → char ≠ '+' ∧ char ≠ '$'

def asBytes (text : String) : Bytes := utf8 text.toList

def getPrefix : Destination → Bytes
  | .federation server => asBytes server.asStr ++ [0xFF]
  | .appservice server => 43 :: (asBytes server ++ [0xFF])
  | .push user pushkey => 36 :: (asBytes user.asStr ++ 0xFF :: (asBytes pushkey ++ [0xFF]))

/-- The row of one request. Its key has the count that `next_count` gave, unless it is that of a PDU. -/
def queueRequest {σ ε : Type} (nextCount : Action σ ε UInt64) (request : Event × Destination) :
    Action σ ε (Bytes × Bytes) :=
  match request.1 with
  | .pdu value => return (getPrefix request.2 ++ value.asBytes, [])
  | .edu value => do
    let count ← nextCount
    return (getPrefix request.2 ++ toBeBytes count, value)

/-- The rows that are inserted as one batch. -/
def queueRequests {σ ε : Type} (nextCount : Action σ ε UInt64) : List (Event × Destination) →
    Action σ ε (List (Bytes × Bytes))
  | [] => return []
  | request :: requests => do
    let row ← queueRequest nextCount request
    let rows ← queueRequests nextCount requests
    return row :: rows

def parseEvent (event value : Bytes) : Outcome String Event :=
  if value.isEmpty then (Outcome.expect "not implemented: unrecognized RawId length" (RawId.fromBytes event)).map .pdu
  else return .edu value

def text (error : String) (bytes : Bytes) : Outcome String String :=
  Outcome.ofOption error ((decodeUtf8 bytes).map String.ofList)

def identifier (error : String) (valid : String → Bool) (name : String) : Outcome String String :=
  if valid name then return name else .fail error

def parseServercurrentevent (ids : Identifiers) (key value : Bytes) : Outcome String (Destination × Event) :=
  if key.head? = some 43 then do
    let (server, event) ← .ofOption "Invalid bytes in servercurrentpdus." (splitOnce 0xFF (key.drop 1))
    let server ← text "Invalid server bytes in server_currenttransaction" server
    return (.appservice server, ← parseEvent event value)
  else if key.head? = some 36 then do
    let parts := splitOnce 0xFF (key.drop 1)
    let user ← text "Invalid user string in servercurrentevent" (parts.elim (key.drop 1) Prod.fst)
    let user ← identifier "Invalid user id in servercurrentevent" ids.isUserId user
    let (_, rest) ← .ofOption "Invalid bytes in servercurrentpdus." parts
    let pushkey ← text "Invalid pushkey in servercurrentevent" ((splitOnce 0xFF rest).elim rest Prod.fst)
    let (_, event) ← .ofOption "Invalid bytes in servercurrentpdus." (splitOnce 0xFF rest)
    return (.push ⟨user⟩ pushkey, ← parseEvent event value)
  else do
    let (server, event) ← .ofOption "Invalid bytes in servercurrentpdus." (splitOnce 0xFF key)
    let server ← text "Invalid server bytes in server_currenttransaction" server
    let server ← identifier "Invalid server string in server_currenttransaction" ids.isServerName server
    return (.federation ⟨server⟩, ← parseEvent event value)

def Identifiers.Known (ids : Identifiers) : Destination → Prop
  | .federation server => ids.isServerName server.asStr = true
  | .appservice _ => True
  | .push user _ => ids.isUserId user.asStr = true

theorem splitOnce_append {left : Bytes} (free : 0xFF ∉ left) (rest : Bytes) :
    splitOnce 0xFF (left ++ 0xFF :: rest) = some (left, rest) := by
  have apart : ∀ byte ∈ left, decide (byte ≠ 0xFF) = true := fun byte mem =>
    decide_eq_true fun same => free (same ▸ mem)
  rw [splitOnce, if_pos (by simp), List.takeWhile_append_of_pos apart, List.dropWhile_append_of_pos apart]
  simp

theorem splitOnce_asBytes (name : String) (rest : Bytes) :
    splitOnce 0xFF (asBytes name ++ 0xFF :: rest) = some (asBytes name, rest) :=
  splitOnce_append (separator_not_mem_utf8 name.toList) rest

theorem text_asBytes (error name : String) : text error (asBytes name) = .ok name := by
  simp [text, asBytes]

variable {ids : Identifiers} {dest : Destination}

theorem head_server {name : String} (known : ids.isServerName name = true) {rest : Bytes} (sigil : Char)
    (ascii : sigil.toNat < 128) (begins : (asBytes name ++ 0xFF :: rest).head? = some (UInt8.ofNat sigil.toNat)) :
    sigil ≠ '+' ∧ sigil ≠ '$' := by
  cases letters : name.toList with
  | nil =>
    have byte : 0xFF = UInt8.ofNat sigil.toNat := by simpa [asBytes, letters, utf8] using begins
    have number := congrArg UInt8.toNat byte
    rw [UInt8.toNat_ofNat', Nat.mod_eq_of_lt (by omega)] at number
    exact absurd ascii (number ▸ by decide)
  | cons char more =>
    have mem : UInt8.ofNat sigil.toNat ∈ utf8 [char] := by
      cases bytes : utf8 [char] with
      | nil => exact absurd (@utf8_injective [char] [] bytes) (List.cons_ne_nil _ _)
      | cons byte others =>
        rw [asBytes, letters, ← List.singleton_append, utf8_append, bytes] at begins
        exact List.mem_cons.mpr (Or.inl (Option.some.inj begins).symm)
    rw [List.mem_singleton.mp (mem_of_ascii_mem_utf8 ascii mem)]
    exact ids.first name char known (by rw [letters]; rfl)

/-- The key is read back as its destination and what follows the destination. -/
theorem parse_key (known : ids.Known dest) (event value : Bytes) :
    parseServercurrentevent ids (getPrefix dest ++ event) value = (parseEvent event value).map (dest, ·) := by
  cases dest with
  | appservice server =>
    simp [parseServercurrentevent, getPrefix, splitOnce_asBytes, text_asBytes]
    rfl
  | push user pushkey =>
    simp [parseServercurrentevent, getPrefix, splitOnce_asBytes, text_asBytes, identifier,
      show ids.isUserId user.asStr = true from known]
    rfl
  | federation server =>
    have shape : getPrefix (.federation server) ++ event = asBytes server.asStr ++ 0xFF :: event := by simp [getPrefix]
    have plus : (asBytes server.asStr ++ 0xFF :: event).head? ≠ some 43 := fun begins =>
      (head_server known '+' (by decide) begins).1 rfl
    have dollar : (asBytes server.asStr ++ 0xFF :: event).head? ≠ some 36 := fun begins =>
      (head_server known '$' (by decide) begins).2 rfl
    rw [parseServercurrentevent, shape, if_neg plus, if_neg dollar]
    simp [splitOnce_asBytes, text_asBytes, identifier, show ids.isServerName server.asStr = true from known]
    rfl

/-- The id of a PDU has one of the two lengths of its type. -/
def Event.Sized : Event → Prop
  | .pdu id => RawId.fromBytes id.asBytes = some id
  | .edu _ => True

theorem parse_queueRequest_iff {σ ε : Type} (nextCount : Action σ ε UInt64) (s : σ) {event : Event}
    (known : ids.Known dest) (sized : event.Sized) : (queueRequest nextCount (event, dest)).wp s
      (fun row _ => parseServercurrentevent ids row.1 row.2 = .ok (dest, event) ↔ event ≠ .edu []) (fun _ _ => True) := by
  cases event with
  | pdu id =>
    have read : parseEvent id.asBytes [] = .ok (.pdu id) := by
      rw [parseEvent, show RawId.fromBytes id.asBytes = some id from sized]
      rfl
    rw [queueRequest, wp_pure, parse_key known, read]
    exact ⟨fun _ other => (by cases other), fun _ => rfl⟩
  | edu value =>
    have counted : nextCount.wp s (fun _ _ => True) (fun _ _ => True) := by
      unfold wp
      split <;> exact True.intro
    apply wp_then counted
    intro count after _
    rw [wp_pure, parse_key known, parseEvent]
    cases value with
    | nil => simp [RawId.fromBytes, Outcome.expect, Except.map]
    | cons byte rest => exact ⟨fun _ empty => (by cases empty), fun _ => rfl⟩

/-- Each request of a batch is read back from its row if and only if it is not an EDU with an empty body. -/
theorem queued_round_trip_iff {σ ε : Type} (nextCount : Action σ ε UInt64) (s : σ) (requests : List (Event × Destination))
    (known : ∀ request ∈ requests, ids.Known request.2 ∧ request.1.Sized) : (queueRequests nextCount requests).wp s
      (fun rows _ => List.Forall₂ (fun request row =>
        parseServercurrentevent ids row.1 row.2 = .ok (request.2, request.1) ↔ request.1 ≠ .edu []) requests rows)
      (fun _ _ => True) := by
  induction requests generalizing s with
  | nil => exact .nil
  | cons request requests ih =>
    obtain ⟨⟨here, sized⟩, known⟩ := List.forall_mem_cons.mp known
    apply wp_then (parse_queueRequest_iff nextCount s here sized)
    intro row after read
    apply wp_then (ih after known)
    exact fun rows _ others => .cons read others

/-- A row of a request that can be read back. -/
def Queued (ids : Identifiers) (request : Event × Destination) (row : Bytes × Bytes) : Prop :=
  ids.Known request.2 ∧ request.1.Sized ∧ request.1 ≠ .edu [] ∧
    ∃ count, queueRequest (pure count : Action Unit String UInt64) request () = (.ok row, ())

/-- The rows that `queued_requests` and `active_requests_for` go over. -/
def requestsFor (dest : Destination) (table : BTreeMap Bytes Bytes) : List (Bytes × Bytes) :=
  (table.seek (getPrefix dest)).takeWhile fun row => decide (getPrefix dest <+: row.1)

theorem Queued.parse {request : Event × Destination} {row : Bytes × Bytes} (queued : Queued ids request row) :
    parseServercurrentevent ids row.1 row.2 = .ok (request.2, request.1) ∧ ∃ event, row.1 = getPrefix request.2 ++
    event := by
  obtain ⟨known, sized, filled, count, served⟩ := queued
  have read := parse_queueRequest_iff (pure count : Action Unit String UInt64) () known sized
  rw [wp, served] at read
  refine ⟨read.mpr filled, ?_⟩
  obtain ⟨event, dest⟩ := request
  cases event with
  | pdu id | edu value =>
    cases served
    exact ⟨_, rfl⟩

/-- Whatever is queued, the scan of a destination goes over the rows that are read as its own, in the order of the
    table, and over no other destination's. -/
theorem requestsFor_exact {table : BTreeMap Bytes Bytes}
    (queued : ∀ row ∈ table.entries, ∃ request, Queued ids request row)
    (known : ids.Known dest) : requestsFor dest table = table.entries.filter (fun row =>
      decide ((parseServercurrentevent ids row.1 row.2).toOption.map Prod.fst = some dest)) := by
  rw [requestsFor, BTreeMap.takeWhile_seek_isPrefix]
  apply List.filter_congr
  intro row mem
  obtain ⟨request, there⟩ := queued row mem
  obtain ⟨read, event, key⟩ := there.parse
  rw [read, key, decide_eq_decide]
  constructor
  · rintro ⟨rest, same⟩
    -- with a value that is not empty, both ways to split the key are read
    have own := parse_key there.1 event [0]
    rw [← same, parse_key known rest [0]] at own
    exact congrArg (fun pair => some pair.1) (Except.ok.inj own).symm
  · intro same
    have own : request.2 = dest := Option.some.inj same
    rw [own]
    exact List.prefix_append _ _

namespace Sample

def accepted : Identifiers := ⟨fun name => name == "far.org", fun _ => true, by
  intro name char same head
  rw [eq_of_beq same] at head
  cases head
  decide⟩

def drawn : Action Unit String UInt64 := pure 3

def far : Destination := .federation ⟨"far.org"⟩

/-- The row of an EDU with an empty body is read as that of a PDU, whose id cannot have eight bytes. -/
theorem empty_edu_panics :
    ∃ row, queueRequest drawn (.edu [], far) () = (.ok row, ()) ∧ parseServercurrentevent accepted row.1 row.2 =
      .error (.panic "not implemented: unrecognized RawId length") :=
  ⟨_, rfl, parse_key (show accepted.Known far from rfl) (toBeBytes 3) []⟩

theorem queued_round_trip_typing : ∃ row, queueRequests drawn [(.edu [123, 125], far)] () = (.ok [row], ()) ∧
    parseServercurrentevent accepted row.1 row.2 = .ok (far, .edu [123, 125]) := by
  have spec := @queued_round_trip_iff accepted _ _ drawn () [(.edu [123, 125], far)]
    (by simp [Identifiers.Known, Event.Sized, far, accepted])
  exact ⟨_, rfl, (List.forall₂_cons.mp spec).1.mpr nofun⟩

def bridge : Destination := .appservice "bridge"

theorem requestsFor_exact_far : requestsFor far ((BTreeMap.empty.insert (getPrefix far ++ toBeBytes 3) [123]).insert
      (getPrefix bridge ++ toBeBytes 4) [125]) = [(getPrefix far ++ toBeBytes 3, [123])] := by
  refine (@requestsFor_exact accepted far _ (fun row mem => ?_) rfl).trans (by decide +kernel)
  rcases BTreeMap.mem_insertEntry mem with rfl | other
  · exact ⟨(.edu [125], bridge), trivial, trivial, nofun, 4, rfl⟩
  · cases List.mem_singleton.mp other
    exact ⟨(.edu [123], far), rfl, trivial, nofun, 3, rfl⟩

end Sample

end Phantom.Sending.QueueKeys

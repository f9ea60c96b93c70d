import Phantom.Lib.Runs
import Phantom.Sync.Timeline

namespace Phantom.Sync

open Phantom.Lib Phantom.Matrix

inductive AppendPhase where
  | waiting
  | locked
  | receiptCounted
  | counted (count : Nat)
  | written (count : Nat)
  | done (count : Nat)
deriving DecidableEq

inductive AddPhase where
  | waiting
  | counted (count : Nat)
  | done (count : Nat)
deriving DecidableEq

structure Request where
  timeout : Nat
  fullState : Bool
  timelineLimit : Nat
deriving DecidableEq

def Request.waits (request : Request) : Bool := 0 < request.timeout && !request.fullState

/-- Where the loop of `sync_events_route` stands. While the response is built, the timeline of the room
    and the messages to the device are read each in its own time. -/
inductive SyncPhase where
  | idle
  | looping (request : Request) (since : Nat)
  | building (request : Request) (since nextBatch : Nat) (timeline : Option Timeline)
      (toDevice : Option (List (Nat × Nat)))
  | waiting (request : Request) (nextBatch : Nat)
deriving DecidableEq

structure TimelineRead where
  since : Nat
  nextBatch : Nat
  rows : List (Nat × EventId)
  timeline : Timeline

structure Response where
  nextBatch : Nat
  toDevice : List (Nat × Nat)
deriving DecidableEq

/-- One room with its appends, one device with the messages sent to it, and the syncs of its client.
    Whatever else the server does draws from the counter. The last four fields only record what
    happened: the timeline reads, the responses the client got, those whose `next_batch` it has
    presented since, and the messages that were removed. -/
structure Server where
  count : Nat
  mutexInsert : Option EventId
  appends : EventId → AppendPhase
  pduidPdu : Nat → Option EventId
  adds : Nat → AddPhase
  todeviceidEvents : Nat → Option Nat
  token : Nat
  sync : SyncPhase
  reads : List TimelineRead
  responses : List Response
  acknowledged : List Response
  removed : List (Nat × Nat)

def Server.init : Server where
  count := 0
  mutexInsert := none
  appends := fun _ => .waiting
  pduidPdu := fun _ => none
  adds := fun _ => .waiting
  todeviceidEvents := fun _ => none
  token := 0
  sync := .idle
  reads := []
  responses := []
  acknowledged := []
  removed := []

inductive Label where
  | append (eventId : EventId)
  | add (message : Nat)
  | nextCount
  | request (request : Request)
  | sample
  | loadTimeline
  | getToDeviceEvents
  | removeToDeviceEvent (count : Nat)
  | finish (otherUpdates : Bool)
  | wake
  | giveUp
  | fail
deriving DecidableEq

namespace Server

variable (server : Server)

def setAppend (eventId : EventId) (phase : AppendPhase) : Server :=
  { server with appends := Function.update server.appends eventId phase }

def setAdd (message : Nat) (phase : AddPhase) : Server :=
  { server with adds := Function.update server.adds message phase }

def respond (nextBatch : Nat) (toDevice : List (Nat × Nat)) : Server :=
  { server with
    sync := .idle
    token := nextBatch
    responses := ⟨nextBatch, toDevice⟩ :: server.responses }

def appendStep (eventId : EventId) : AppendPhase → Option Server
  | .waiting =>
    if server.mutexInsert = none then
      some { server.setAppend eventId .locked with mutexInsert := some eventId }
    else none
  | .locked => some { server.setAppend eventId .receiptCounted with count := server.count + 1 }
  | .receiptCounted =>
    some { server.setAppend eventId (.counted (server.count + 1)) with count := server.count + 1 }
  | .counted count =>
    some { server.setAppend eventId (.written count) with
      pduidPdu := Function.update server.pduidPdu count (some eventId) }
  | .written count => some { server.setAppend eventId (.done count) with mutexInsert := none }
  | .done _ => none

def addStep (message : Nat) : AddPhase → Option Server
  | .waiting =>
    some { server.setAdd message (.counted (server.count + 1)) with count := server.count + 1 }
  | .counted count =>
    some { server.setAdd message (.done count) with
      todeviceidEvents := Function.update server.todeviceidEvents count (some message) }
  | .done _ => none

/-- The next step of one task: an append, a message, another use of the counter, or the sync loop.
    What the response holds besides the room and the messages is left open, as are the wait's
    outcome and a failure that makes the client present the same token again. -/
def step : Label → Option Server
  | .append eventId => server.appendStep eventId (server.appends eventId)
  | .add message => server.addStep message (server.adds message)
  | .nextCount => some { server with count := server.count + 1 }
  | .request request =>
    match server.sync with
    | .idle =>
      some { server with
        sync := .looping request server.token
        acknowledged := server.responses.filter (fun response => response.nextBatch = server.token) ++
          server.acknowledged }
    | _ => none
  | .sample =>
    match server.sync with
    | .looping request since =>
      let nextBatch := server.count
      let since := min since nextBatch
      if since < nextBatch || request.fullState then
        some { server with sync := .building request since nextBatch none none }
      else some { server with sync := .waiting request nextBatch }
    | _ => none
  | .loadTimeline =>
    match server.sync with
    | .building request since nextBatch none toDevice =>
      let timeline := Sync.loadTimeline server.pduidPdu since nextBatch request.timelineLimit
      some { server with
        sync := .building request since nextBatch (some timeline) toDevice
        reads := ⟨since, nextBatch, ascending server.pduidPdu nextBatch, timeline⟩ :: server.reads }
    | _ => none
  | .getToDeviceEvents =>
    match server.sync with
    | .building request since nextBatch timeline none =>
      let toDevice := Sync.getToDeviceEvents server.todeviceidEvents since nextBatch
      some { server with sync := .building request since nextBatch timeline (some toDevice) }
    | _ => none
  | .removeToDeviceEvent count =>
    match server.sync, server.todeviceidEvents count with
    | .building _ since _ _ _, some message =>
      if count ≤ since then
        some { server with
          todeviceidEvents := Function.update server.todeviceidEvents count none
          removed := (count, message) :: server.removed }
      else none
    | _, _ => none
  | .finish otherUpdates =>
    match server.sync with
    | .building request _ nextBatch (some timeline) (some toDevice) =>
      let empty := timeline.events.isEmpty && toDevice.isEmpty && !otherUpdates
      if !empty || request.fullState then some (server.respond nextBatch toDevice)
      else some { server with sync := .waiting request nextBatch }
    | _ => none
  | .wake =>
    match server.sync with
    | .waiting request nextBatch =>
      if request.waits then some { server with sync := .looping request nextBatch } else none
    | _ => none
  | .giveUp =>
    match server.sync with
    | .waiting _ nextBatch => some (server.respond nextBatch [])
    | _ => none
  | .fail => some { server with sync := .idle }

def Step (label : Label) (next : Server) : Prop := server.step label = some next

end Server

end Phantom.Sync

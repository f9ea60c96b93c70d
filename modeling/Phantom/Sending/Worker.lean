import Phantom.Lib.KeyOrder
import Phantom.Lib.LastWins
import Phantom.Lib.Runs
import Phantom.Matrix.Event

namespace Phantom.Sending

open Phantom.Lib Phantom.Matrix

inductive Destination where
  | appservice (id : String)
  | push (userId : UserId) (pushkey : String)
  | federation (serverName : ServerName)
deriving DecidableEq

def Destination.isAppservice : Destination → Bool
  | .appservice _ => true
  | _ => false

inductive SendingEvent (Edu : Type) where
  | pdu (id : Bytes)
  | edu (buf : Edu)
  | flush
deriving DecidableEq

inductive TransactionStatus where
  | running
  | failed (tries time : ℕ)
  | retrying (tries : ℕ)
deriving DecidableEq

/-- A row of a destination: the bytes of its key after `get_prefix`, and its value, where `none` is the empty
    one. That of an EDU is its buffer, which holds JSON and so is not empty. -/
abbrev Row (Edu : Type) := Bytes × Option Edu

def parseServercurrentevent {Edu : Type} : Row Edu → SendingEvent Edu
  | (id, none) => .pdu id
  | (_, some buf) => .edu buf

/-- A `QueueItem`, whose key is empty for a flush, or an EDU from `select_edus`, which has no row. -/
inductive Item (Edu : Type) where
  | queued (row : Row Edu)
  | selected (buf : Edu)
  | flush
deriving DecidableEq

namespace Item

variable {Edu : Type}

def event : Item Edu → SendingEvent Edu
  | queued row => parseServercurrentevent row
  | selected buf => .edu buf
  | flush => .flush

def row : Item Edu → Option (Row Edu)
  | queued row => some row
  | _ => none

end Item

abbrev Transaction (Edu : Type) := List (Item Edu)

structure Msg (Edu : Type) where
  dest : Destination
  item : Item Edu
  revive : Bool
deriving DecidableEq

structure Config where
  senderTimeout : ℕ
  senderRetryBackoffLimit : ℕ
  /-- `shard_id` gives the number of this worker. -/
  mine : Destination → Bool

/-- What there is for one destination: its rows in `servernameevent_data` and in `servercurrentevent_data`, its
    EDU count, its status and its transactions in flight. The keys that were queued and the transactions that
    were begun and acknowledged are recorded. -/
structure Outgoing (Edu : Type) where
  queued : BTreeMap Bytes (Option Edu)
  active : BTreeMap Bytes (Option Edu)
  educount : ℕ
  status : Option TransactionStatus
  futures : List (Transaction Edu)
  requested : List Bytes
  sent : List (Transaction Edu)
  acknowledged : List (Transaction Edu)

def dequeueLimit : ℕ := 48

def continueExponentialBackoffSecs (low high elapsed tries : ℕ) : Bool := elapsed < min (low * tries * tries) high

def selectEventsCurrent (config : Config) (dest : Destination) (revive : Bool) (now : ℕ) :
    Option TransactionStatus → Bool × Bool × TransactionStatus
  | none => (true, false, .running)
  | some (.failed tries time) =>
    if !revive && continueExponentialBackoffSecs config.senderTimeout config.senderRetryBackoffLimit (now - time) tries
        && !dest.isAppservice then
      (false, false, .failed tries time)
    else
      (true, true, .retrying tries)
  | some status => (false, false, status)

namespace Outgoing

variable {Edu : Type}

def empty : Outgoing Edu := ⟨.empty, .empty, 0, none, [], [], [], []⟩

def queueRequest (row : Row Edu) (outgoing : Outgoing Edu) : Outgoing Edu :=
  { outgoing with queued := outgoing.queued.insert row.1 row.2, requested := outgoing.requested ++ [row.1] }

variable (outgoing : Outgoing Edu)

def queuedRequests : Transaction Edu := outgoing.queued.entries.map .queued

def activeRequests : Transaction Edu := outgoing.active.entries.map .queued

variable (items : Transaction Edu)

def markAsActive (outgoing : Outgoing Edu) : Outgoing Edu :=
  { outgoing with
    active := (items.filterMap Item.row).foldl (fun table row => table.insert row.1 row.2) outgoing.active
    queued := (items.filterMap Item.row).foldl (fun table row => table.erase row.1) outgoing.queued }

def deleteAllActiveRequests : Outgoing Edu := { outgoing with active := .empty }

/-- `send_events`, whose future is pushed. -/
def sendEvents (outgoing : Outgoing Edu) : Outgoing Edu :=
  { outgoing with futures := outgoing.futures ++ [items], sent := outgoing.sent ++ [items] }

/-- `selected` is what `select_edus` returns. -/
def selectEvents (config : Config) (dest : Destination) (now : ℕ) (selected : List Edu × ℕ) (item : Item Edu)
    (revive : Bool) (outgoing : Outgoing Edu) : Option (Transaction Edu) × Outgoing Edu :=
  match selectEventsCurrent config dest revive now outgoing.status with
  | (false, _, status) => (none, { outgoing with status := some status })
  | (true, true, status) => (some outgoing.activeRequests, { outgoing with status := some status })
  | (true, false, status) =>
    let outgoing := { outgoing with status := some status }.markAsActive [item]
    match dest with
    | .federation _ => (some (item :: selected.1.map .selected), { outgoing with educount := selected.2 })
    | _ => (some [item], outgoing)

def handleRequest (config : Config) (now : ℕ) (selected : List Edu × ℕ) (msg : Msg Edu) (outgoing : Outgoing Edu) :
    Outgoing Edu :=
  match outgoing.selectEvents config msg.dest now selected msg.item msg.revive with
  | (none, outgoing) => outgoing
  | (some [], outgoing) => { outgoing with status := none }
  | (some (first :: rest), outgoing) => outgoing.sendEvents (first :: rest)

def handleResponseOk : Outgoing Edu :=
  let outgoing := outgoing.deleteAllActiveRequests
  match outgoing.queuedRequests.take dequeueLimit with
  | [] => { outgoing with status := none }
  | first :: rest => { outgoing.markAsActive (first :: rest) with status := some .running }.sendEvents (first :: rest)

/-- `none` is the panic. -/
def handleResponseErr (now : ℕ) (outgoing : Outgoing Edu) : Option (Outgoing Edu) :=
  match outgoing.status with
  | none => some outgoing
  | some .running => some { outgoing with status := some (.failed 1 now) }
  | some (.retrying tries) => some { outgoing with status := some (.failed (min (tries + 1) (2 ^ 32 - 1)) now) }
  | some (.failed _ _) => none

def complete (index : ℕ) (outgoing : Outgoing Edu) : Outgoing Edu :=
  { outgoing with futures := outgoing.futures.eraseIdx index }

def acknowledge (outgoing : Outgoing Edu) : Outgoing Edu :=
  { outgoing with acknowledged := outgoing.acknowledged ++ [items] }

def keptRows (keep : ℤ) (active : BTreeMap Bytes (Option Edu)) : BTreeMap Bytes (Option Edu) :=
  if keep < 0 then active
  else ⟨active.entries.take keep.toNat, active.sorted.sublist (active.entries.take_sublist keep.toNat)⟩

def stopped : Outgoing Edu := { outgoing with status := none, futures := [] }

def burst (netburst : Bool) (outgoing : Outgoing Edu) : Outgoing Edu :=
  if netburst && !outgoing.activeRequests.isEmpty then
    { outgoing with status := some .running }.sendEvents outgoing.activeRequests
  else
    outgoing

def startupNetburst (netburst : Bool) (keep : ℤ) (outgoing : Outgoing Edu) : Outgoing Edu :=
  { outgoing.stopped with active := keptRows keep outgoing.active }.burst netburst

end Outgoing

/-- A channel is closed while the loop runs; the loop is left later, and `finish_responses` follows. -/
inductive Phase where
  | working
  | closed
  | finishing
deriving DecidableEq

structure Worker (Edu : Type) where
  outgoing : Destination → Outgoing Edu
  channel : List (Msg Edu)
  phase : Phase

inductive Label (Edu : Type) where
  /-- `queue_one`, or one request of `queue_each`. -/
  | queue (dest : Destination) (row : Row Edu)
  | flush (dest : Destination) (revive : Bool)
  | receive (now : ℕ) (selected : List Edu × ℕ)
  | respond (dest : Destination) (index : ℕ) (ok : Bool) (now : ℕ)
  | close
  | leave
  | finish (dest : Destination) (index : ℕ) (ok : Bool)
  | restart (netburst : Bool) (keep : ℤ)
deriving DecidableEq

namespace Worker

variable {Edu : Type} (config : Config)

def empty : Worker Edu := ⟨fun _ => .empty, [], .working⟩

variable (dest : Destination)

def change (outgoing : Outgoing Edu) (worker : Worker Edu) : Worker Edu :=
  { worker with outgoing := Function.update worker.outgoing dest outgoing }

/-- A message goes to the worker of its destination, unless the channel is closed. -/
def dispatch (msg : Msg Edu) (worker : Worker Edu) : Worker Edu :=
  if config.mine msg.dest ∧ worker.phase = .working then { worker with channel := worker.channel ++ [msg] } else worker

def handleResponse (items : Transaction Edu) (ok : Bool) (now : ℕ) (outgoing : Outgoing Edu)
    (worker : Worker Edu) : Option (Worker Edu) :=
  if ok then some (worker.change dest (outgoing.acknowledge items).handleResponseOk)
  else (outgoing.handleResponseErr now).map (worker.change dest)

def finishResponse (items : Transaction Edu) (ok : Bool) (outgoing : Outgoing Edu)
    (worker : Worker Edu) : Worker Edu :=
  worker.change dest (if ok then (outgoing.acknowledge items).deleteAllActiveRequests else outgoing)

def next (worker : Worker Edu) : Label Edu → Option (Worker Edu)
  | .queue dest row =>
    some ((worker.change dest ((worker.outgoing dest).queueRequest row)).dispatch config ⟨dest, .queued row, false⟩)
  | .flush dest revive => some (worker.dispatch config ⟨dest, .flush, revive⟩)
  | .receive now selected =>
    match worker.phase, worker.channel with
    | .finishing, _ => none
    | _, [] => none
    | _, msg :: rest =>
      some ({ worker with channel := rest }.change msg.dest
        ((worker.outgoing msg.dest).handleRequest config now selected msg))
  | .respond dest index ok now =>
    if worker.phase = .finishing then none
    else (worker.outgoing dest).futures[index]?.bind fun items =>
      worker.handleResponse dest items ok now ((worker.outgoing dest).complete index)
  | .close => if worker.phase = .working then some { worker with phase := .closed } else none
  | .leave => if worker.phase = .closed then some { worker with phase := .finishing } else none
  | .finish dest index ok =>
    if worker.phase = .finishing then
      (worker.outgoing dest).futures[index]?.map fun items =>
        worker.finishResponse dest items ok ((worker.outgoing dest).complete index)
    else none
  | .restart netburst keep =>
    some ⟨fun dest => if config.mine dest then (worker.outgoing dest).startupNetburst netburst keep
      else (worker.outgoing dest).stopped, [], .working⟩

end Worker

namespace Sample

def network : Config := ⟨180, 86400, fun _ => true⟩

def far : Destination := .federation ⟨"far.org"⟩

def hello : Row String := ([1], none)

def goodbye : Row String := ([2], none)

end Sample

end Phantom.Sending

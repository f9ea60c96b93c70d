import Phantom.Lib.Action
import Phantom.Matrix.Event

namespace Phantom.Alias

open Phantom.Lib Phantom.Matrix

/-- `#localpart:server`. The local part ends at the first colon, so the two parts make up the alias. -/
structure RoomAliasId where
  localpart : String
  serverName : ServerName
deriving DecidableEq, Repr

structure Server where
  serverName : ServerName
  serverUser : UserId
  adminAlias : RoomAliasId

/-- `aliasid_alias` has its rows in the order of the counts in their keys. -/
structure Tables where
  count : ℕ
  aliasUserid : String → Option UserId
  aliasRoomid : String → Option RoomId
  aliasidAlias : List ((RoomId × ℕ) × RoomAliasId)

def Tables.empty : Tables := ⟨0, fun _ => none, fun _ => none, []⟩

inductive AliasError where
  | invalidParam (message : String)
  | forbidden (message : String)
  | notFound (message : String)
deriving DecidableEq, Repr

abbrev AliasAction := Action Tables AliasError

def nextCount : AliasAction ℕ := do
  let tables ← Action.get
  Action.modify fun tables => { tables with count := tables.count + 1 }
  return tables.count + 1

section Calls

variable (server : Server) (roomAlias : RoomAliasId)

def aliasIsLocal : Bool := roomAlias.serverName = server.serverName

def checkAliasLocal : Outcome AliasError Unit :=
  if aliasIsLocal server roomAlias then .ok () else .fail (.invalidParam "Alias is from another server.")

def setAliasBy (roomId : RoomId) (userId : UserId) : AliasAction Unit := do
  Action.lift (checkAliasLocal server roomAlias)
  if roomAlias = server.adminAlias ∧ userId ≠ server.serverUser then
    Action.lift (.fail (.forbidden "Only the server user can set this alias"))
  else
    let count ← nextCount
    Action.modify fun tables =>
      { tables with aliasUserid := Function.update tables.aliasUserid roomAlias.localpart (some userId) }
    Action.modify fun tables => { tables with aliasidAlias := tables.aliasidAlias ++ [((roomId, count), roomAlias)] }
    Action.modify fun tables =>
      { tables with aliasRoomid := Function.update tables.aliasRoomid roomAlias.localpart (some roomId) }

def removeAlias : AliasAction Unit := do
  match (← Action.get).aliasRoomid roomAlias.localpart with
  | none => Action.lift (.fail (.notFound "Alias does not exist or is invalid."))
  | some roomId =>
    Action.modify fun tables =>
      { tables with
        aliasidAlias := tables.aliasidAlias.filter (fun row => ¬ (row.1.1 = roomId ∧ row.2 = roomAlias)) }
    Action.modify fun tables =>
      { tables with aliasRoomid := Function.update tables.aliasRoomid roomAlias.localpart none }
    Action.modify fun tables =>
      { tables with aliasUserid := Function.update tables.aliasUserid roomAlias.localpart none }

def resolveLocalAlias (tables : Tables) : Outcome AliasError RoomId := do
  checkAliasLocal server roomAlias
  .ofOption (.notFound "Not found in database") (tables.aliasRoomid roomAlias.localpart)

def localAliasesForRoom (roomId : RoomId) (tables : Tables) : List RoomAliasId :=
  (tables.aliasidAlias.filter fun row => row.1.1 = roomId).map Prod.snd

/-- What a room upgrade does with the aliases of the old room. An error is logged only. -/
def moveLocalAliases (oldRoomId newRoomId : RoomId) (creator : UserId) (tables : Tables) : Tables :=
  (localAliasesForRoom oldRoomId tables).foldl
    (fun tables roomAlias => (setAliasBy server roomAlias newRoomId creator tables).2) tables

end Calls

inductive Label where
  | set (roomAlias : RoomAliasId) (roomId : RoomId) (userId : UserId)
  | remove (roomAlias : RoomAliasId)
deriving DecidableEq, Repr

def step (server : Server) (tables : Tables) : Label → Tables
  | .set roomAlias roomId userId => (setAliasBy server roomAlias roomId userId tables).2
  | .remove roomAlias => (removeAlias roomAlias tables).2

def Server.after (server : Server) (labels : List Label) : Tables := labels.foldl (step server) .empty

end Phantom.Alias

import Mathlib.Data.List.Dedup
import Phantom.Matrix.Event

namespace Phantom.Sync

open Phantom.Matrix Function

inductive Status where
  | unseen
  | seen (token : Nat)
deriving DecidableEq, Repr

/-- The rows of `lazyloadedids` of one device and one room, by member. -/
abbrev LazyLoadedIds := UserId → Option Nat

/-- The sync for which members are looked up. Redundant members are included where the client or the build of
    the server asks for it. -/
structure LazyContext where
  token : Option Nat
  includeRedundant : Bool

def intoStatus : Option Nat → Status
  | some seen => .seen seen
  | none => .unseen

def witness (ctx : LazyContext) (ids : LazyLoadedIds) (sender : UserId) : Status × LazyLoadedIds :=
  let status := intoStatus (ids sender)
  match status with
  | .unseen => (status, Function.update ids sender (some 0))
  | .seen 0 => (status, Function.update ids sender (some (ctx.token.getD 0)))
  | .seen _ => (status, ids)

def retained (ctx : LazyContext) : Status → Bool
  | .unseen => true
  | .seen seen => ctx.includeRedundant || seen == 0 || ctx.token == some seen

def witnessRetain (ctx : LazyContext) : List UserId → LazyLoadedIds → List UserId × LazyLoadedIds
  | [], ids => ([], ids)
  | sender :: senders, ids =>
    let (status, ids) := witness ctx ids sender
    let (kept, ids) := witnessRetain ctx senders ids
    (if retained ctx status then sender :: kept else kept, ids)

section Witness

variable {ctx : LazyContext} {ids : LazyLoadedIds} {sender user : UserId} {senders : List UserId}

end Witness

end Phantom.Sync

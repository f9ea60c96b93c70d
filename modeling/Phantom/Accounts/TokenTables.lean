import Phantom.Accounts.SerialCalls
import Phantom.Lib.Index

namespace Phantom.Accounts

open Phantom.Lib Phantom.Matrix Phantom.Lib.Task Function

inductive TokenKind where
  | access
  | refresh
deriving DecidableEq

namespace Users

def current (users : Users) : TokenKind → UserDeviceId → Option Token
  | .access => users.userdeviceidToken
  | .refresh => users.userdeviceidRefresh

/-- The device that `find_from_token` finds. -/
def resolve (users : Users) (token : Token) : Option UserDeviceId := (users.tokenUserdeviceid token).map Prod.fst

def spentBy (users : Users) (token : Token) : Option UserDeviceId :=
  (users.spentrefreshUserdeviceid token).map SpentRefresh.userdeviceid

end Users

/-- The token tables fit together, and hold no token but those that were used. -/
structure Consistent (users : Users) (used : List Token) : Prop where
  tokens : Covered users.resolve users.current
  spent : Indexed users.userdeviceidSpentrefresh users.spentBy
  retired : ∀ token device, users.spentBy token = some device → users.resolve token = none
  resolvedUsed : ∀ token device, users.resolve token = some device → token ∈ used
  spentUsed : ∀ token device, users.spentBy token = some device → token ∈ used

section Transactions

variable {users : Users} {used : List Token} {dev : UserDeviceId} {token : Token} {expiresAt : Option ℕ}

theorem consistent_init : Consistent Users.init [] where
  tokens := by
    constructor
    · intro dev token
      constructor
      · intro found
        cases found
      · rintro ⟨kind, found⟩
        cases kind <;> cases found
    · intro kind other dev another token found
      cases kind <;> cases found
  spent := Indexed.empty
  retired _ _ found := by cases found
  resolvedUsed _ _ found := by cases found
  spentUsed _ _ found := by cases found

theorem Consistent.mono {more : List Token} (consistent : Consistent users used) (grown : used ⊆ more) :
    Consistent users more :=
  { consistent with
    resolvedUsed := fun token dev found => grown (consistent.resolvedUsed token dev found)
    spentUsed := fun token dev found => grown (consistent.spentUsed token dev found) }

variable {κ β : Type} (table : κ → Option β)

theorem remove_eq [DecidableEq κ] (erased : Option κ) (key : κ) :
    remove table erased key = if erased = some key then none else table key := by
  by_cases same : erased = some key
  · rw [if_pos same, same]
    exact update_self _ _ _
  · rw [if_neg same, remove_of_ne same]

variable {γ : Type}

theorem map_remove [DecidableEq κ] (erased : Option κ) (key : κ) (view : β → γ) :
    (remove table erased key).map view = if erased = some key then none else (table key).map view := by
  rw [remove_eq]
  split <;> rfl

theorem map_update [DecidableEq κ] (key item : κ) (row : β) (view : β → γ) :
    (update table key (some row) item).map view =
      if some key = some item then some (view row) else (table item).map view := by
  grind

section

variable (consistent : Consistent users used)
include consistent

theorem Consistent.fresh (new : token ∉ used) : users.resolve token = none := by
  cases found : users.resolve token with
  | none => rfl
  | some dev => exact absurd (consistent.resolvedUsed token dev found) new

theorem Consistent.dropAccess : Consistent (users.dropAccess dev (users.userdeviceidToken dev)) used := by
  have resolved : ∀ item, (users.dropAccess dev (users.userdeviceidToken dev)).resolve item =
      if users.current .access dev = some item then none else users.resolve item :=
    fun item => map_remove _ _ _ _
  constructor
  · apply consistent.tokens.assign .access dev none (fun _ same => by cases same) resolved
    intro kind other
    cases kind <;> simp [Users.current, Users.dropAccess, update_apply]
  · exact consistent.spent
  · intro token other found
    rw [resolved, consistent.retired token other found, ite_self]
  · grind [Consistent.resolvedUsed]
  · exact consistent.spentUsed

theorem Consistent.putAccess (new : token ∉ used) :
    Consistent (users.putAccess dev (users.userdeviceidToken dev) token expiresAt) (used ++ [token]) := by
  have resolved : ∀ item, (users.putAccess dev (users.userdeviceidToken dev) token expiresAt).resolve item =
      if some token = some item then some dev else if users.current .access dev =
      some item then none else users.resolve item := by
    intro item
    rw [Users.resolve, Users.putAccess, map_update, map_remove]
    rfl
  constructor
  · apply consistent.tokens.assign .access dev (some token) _ resolved
    · intro kind other
      cases kind <;> simp [Users.current, Users.putAccess, update_apply]
    · rintro _ ⟨⟩
      exact consistent.fresh new
  · exact consistent.spent
  · intro spent other found
    have ne : token ≠ spent := by
      rintro rfl
      exact new (consistent.spentUsed token other found)
    rw [resolved, if_neg fun same => ne (Option.some.inj same), consistent.retired spent other found, ite_self]
  · grind [Consistent.resolvedUsed]
  · intro spent other found
    exact List.mem_append_left _ (consistent.spentUsed spent other found)

theorem Consistent.cleared : Consistent (users.cleared dev) used := by
  have resolved : ∀ item, (users.cleared dev).resolve item =
      if users.current .refresh dev = some item then none else users.resolve item :=
    fun item => map_remove _ _ _ _
  have spentBy : ∀ item, (users.cleared dev).spentBy item =
      if users.userdeviceidSpentrefresh dev = some item then none else users.spentBy item :=
    fun item => map_remove _ _ _ _
  constructor
  · apply consistent.tokens.assign .refresh dev none (fun _ same => by cases same) resolved
    intro kind other
    cases kind <;> simp [Users.current, Users.cleared, Users.dropRefresh, update_apply]
  · rw [funext spentBy]
    exact consistent.spent.clear dev
  · grind [Consistent.retired]
  · grind [Consistent.resolvedUsed]
  · grind [Consistent.spentUsed]

theorem Consistent.putRefresh (new : token ∉ used) {spent : Option Token} {spentAt : ℕ}
    (unset : users.userdeviceidRefresh dev = none) (unspent : users.userdeviceidSpentrefresh dev = none)
    (old : ∀ item, spent = some item → users.resolve item = none ∧ users.spentBy item = none ∧ item ∈ used) :
    Consistent (users.putRefresh dev token expiresAt spent spentAt) (used ++ [token]) := by
  have resolved : ∀ item, (users.putRefresh dev token expiresAt spent spentAt).resolve item =
      if some token = some item then some dev else if users.current .refresh dev =
      some item then none else users.resolve item := by
    intro item
    have none_current : users.current .refresh dev ≠ some item := fun same => by cases unset.symm.trans same
    have table : (users.putRefresh dev token expiresAt spent spentAt).tokenUserdeviceid =
        update users.tokenUserdeviceid token (some (dev, expiresAt)) := by
      cases spent <;> rfl
    rw [if_neg none_current, Users.resolve, table, map_update]
    rfl
  have spentBy : ∀ item, (users.putRefresh dev token expiresAt spent spentAt).spentBy item =
      if spent = some item then some dev else users.spentBy item := by
    intro item
    cases spent with
    | none => rfl
    | some spent => exact map_update _ _ _ _ _
  constructor
  · apply consistent.tokens.assign .refresh dev (some token) _ resolved
    · intro kind other
      cases kind <;> cases spent <;> simp [Users.current, Users.putRefresh, update_apply]
    · rintro _ ⟨⟩
      exact consistent.fresh new
  · cases spent with
    | none => exact consistent.spent
    | some spent =>
      have linked : Indexed (update users.userdeviceidSpentrefresh dev (some spent))
          (update users.spentBy spent (some dev)) := by
        grind [Indexed.link, Consistent.spent]
      have same : (users.putRefresh dev token expiresAt (some spent) spentAt).spentBy =
          update users.spentBy spent (some dev) := by
        grind
      rw [same]
      exact linked
  · grind [Consistent.retired, Consistent.spentUsed]
  · grind [Consistent.resolvedUsed]
  · grind [Consistent.spentUsed]

end

end Transactions

end Phantom.Accounts

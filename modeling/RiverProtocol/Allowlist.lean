import RiverProtocol.Common

/-!
# The allowlist contract and contract administration
-/

namespace RiverProtocol

open Outcome

structure Administrable where
  admin : Address
  pendingAdmin : Address
  deriving DecidableEq, Repr

namespace Administrable

def onlyAdmin (administrable : Administrable) (sender : Address) :
    Except Error Unit :=
  require (sender = administrable.admin) (.unauthorized sender)

def proposeAdmin (administrable : Administrable) (sender newAdmin : Address) :
    Except Error Administrable := do
  administrable.onlyAdmin sender
  return { administrable with pendingAdmin := newAdmin }

/-- The storage of the new administrator refuses the zero address. -/
def acceptAdmin (administrable : Administrable) (sender : Address) :
    Except Error Administrable := do
  require (sender = administrable.pendingAdmin) (.unauthorized sender)
  notZeroAddress administrable.pendingAdmin
  return { admin := administrable.pendingAdmin, pendingAdmin := .zero }

end Administrable

namespace LibAllowlistMasks

def denyMask : Nat := 1 <<< 255

def depositMask : Nat := 1

def redeemMask : Nat := 1 <<< 2

end LibAllowlistMasks

open LibAllowlistMasks

structure Allowlist where
  administrable : Administrable
  allower : Address
  denier : Address
  permissions : Address → Nat

namespace Allowlist

/-- Whether all bits of the mask are set. -/
def includes (userPermissions mask : Nat) : Bool :=
  userPermissions &&& mask == mask

def isDenied (allowlist : Allowlist) (account : Address) : Bool :=
  includes (allowlist.permissions account) denyMask

def isAllowed (allowlist : Allowlist) (account : Address) (mask : Nat) :
    Bool :=
  !allowlist.isDenied account && includes (allowlist.permissions account) mask

def onlyAllowed (allowlist : Allowlist) (account : Address) (mask : Nat) :
    Except Error Unit := do
  require (allowlist.isDenied account = false) (.denied account)
  require (includes (allowlist.permissions account) mask = true)
    (.unauthorized account)

def setPermissions (allowlist : Allowlist) (account : Address)
    (permissions : Nat) : Allowlist :=
  { allowlist with
    permissions := Function.update allowlist.permissions account permissions }

def setAllower (allowlist : Allowlist) (sender newAllower : Address) :
    Except Error Allowlist := do
  allowlist.administrable.onlyAdmin sender
  notZeroAddress newAllower
  return { allowlist with allower := newAllower }

def setDenier (allowlist : Allowlist) (sender newDenier : Address) :
    Except Error Allowlist := do
  allowlist.administrable.onlyAdmin sender
  notZeroAddress newDenier
  return { allowlist with denier := newDenier }

/-- The loop of `setAllowPermissions`. -/
def allowEach : List (Address × Nat) → Allowlist → Except Error Allowlist
  | [], allowlist => return allowlist
  | (account, permissions) :: rest, allowlist => do
    notZeroAddress account
    require (allowlist.isDenied account = false) .attemptToRemoveDenyPermission
    require (includes permissions denyMask = false) .attemptToSetDenyPermission
    allowEach rest (allowlist.setPermissions account permissions)

def setAllowPermissions (allowlist : Allowlist) (sender : Address)
    (accounts : List Address) (permissions : List Nat) :
    Except Error Allowlist := do
  require (sender = allowlist.allower) (.unauthorized sender)
  require (accounts.length ≠ 0) .invalidCount
  require (accounts.length = permissions.length) .mismatchedArrayLengths
  allowEach (accounts.zip permissions) allowlist

/-- The loop of `setDenyPermissions`. -/
def denyEach : List (Address × Nat) → Allowlist → Except Error Allowlist
  | [], allowlist => return allowlist
  | (account, permissions) :: rest, allowlist => do
    notZeroAddress account
    denyEach rest (allowlist.setPermissions account
      (if includes permissions denyMask then denyMask else 0))

def setDenyPermissions (allowlist : Allowlist) (sender : Address)
    (accounts : List Address) (permissions : List Nat) :
    Except Error Allowlist := do
  require (sender = allowlist.denier) (.unauthorized sender)
  require (accounts.length ≠ 0) .invalidCount
  require (accounts.length = permissions.length) .mismatchedArrayLengths
  denyEach (accounts.zip permissions) allowlist

/-- A call that manages an allowlist. -/
inductive Call where
  | proposeAdmin (newAdmin : Address)
  | acceptAdmin
  | setAllower (newAllower : Address)
  | setDenier (newDenier : Address)
  | setAllowPermissions (accounts : List Address) (permissions : List Nat)
  | setDenyPermissions (accounts : List Address) (permissions : List Nat)

def Call.apply (call : Call) (allowlist : Allowlist) (sender : Address) :
    Except Error Allowlist :=
  match call with
  | .proposeAdmin newAdmin => do
    let administrable ← allowlist.administrable.proposeAdmin sender newAdmin
    return { allowlist with administrable := administrable }
  | .acceptAdmin => do
    let administrable ← allowlist.administrable.acceptAdmin sender
    return { allowlist with administrable := administrable }
  | .setAllower newAllower => allowlist.setAllower sender newAllower
  | .setDenier newDenier => allowlist.setDenier sender newDenier
  | .setAllowPermissions accounts permissions =>
    allowlist.setAllowPermissions sender accounts permissions
  | .setDenyPermissions accounts permissions =>
    allowlist.setDenyPermissions sender accounts permissions

end Allowlist

end RiverProtocol

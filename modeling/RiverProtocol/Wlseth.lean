import RiverProtocol.River.Model

/-!
# The wrapped LsETH contract

The wrapper holds LsETH on River under its own address and keeps the shares of
its owners.  `self` is that address.
-/

namespace RiverProtocol

open Checked Outcome

structure WLSETH where
  balanceOf : Address → Nat
  balanceOfLsETH : Nat
  approvals : Address → Address → Nat

namespace WLSETH

/-- Storage after `initWLSETHV1`. -/
def fresh : WLSETH :=
  { balanceOf := fun _ => 0
    balanceOfLsETH := 0
    approvals := fun _ _ => 0 }

/-- `_balanceOf`: the underlying value of the owner's shares. -/
def underlyingBalanceOf (wlseth : WLSETH) (river : River) (owner : Address) :
    Except Error Nat :=
  river.balanceFromShares (wlseth.balanceOf owner)

def totalSupply (wlseth : WLSETH) (river : River) : Except Error Nat :=
  river.balanceFromShares wlseth.balanceOfLsETH

/-- `_approve` -/
def approveFor (wlseth : WLSETH) (owner spender : Address) (value : Nat) :
    Except Error WLSETH := do
  notZeroAddress owner
  notZeroAddress spender
  return { wlseth with
    approvals := Function.update wlseth.approvals owner
      (Function.update (wlseth.approvals owner) spender value) }

def approve (wlseth : WLSETH) (sender spender : Address) (value : Nat) :
    Except Error WLSETH :=
  wlseth.approveFor sender spender value

def increaseAllowance (wlseth : WLSETH) (sender spender : Address)
    (additionalValue : Nat) : Except Error WLSETH := do
  let value ← uadd (wlseth.approvals sender spender) additionalValue
  wlseth.approveFor sender spender value

def decreaseAllowance (wlseth : WLSETH) (sender spender : Address)
    (subtractableValue : Nat) : Except Error WLSETH := do
  let value ← usub (wlseth.approvals sender spender) subtractableValue
  wlseth.approveFor sender spender value

/-- `_transfer`, with whether shares were moved. -/
def transferValue (wlseth : WLSETH) (river : River) (allowlist : Allowlist)
    (sender recipient : Address) (value : Nat) :
    Except Error (WLSETH × Bool) := do
  River.onTransfer allowlist sender recipient
  let valueToShares ← river.sharesFromBalance value
  if valueToShares > 0 then do
    let senderShares ← usub (wlseth.balanceOf sender) valueToShares
    let debited := Function.update wlseth.balanceOf sender senderShares
    let recipientShares ← uadd (debited recipient) valueToShares
    return ({ wlseth with
      balanceOf := Function.update debited recipient recipientShares }, true)
  else
    return (wlseth, false)

def transfer (wlseth : WLSETH) (river : River) (allowlist : Allowlist)
    (sender recipient : Address) (value : Nat) : Except Error WLSETH := do
  require (value ≠ 0) .nullTransfer
  let funds ← wlseth.underlyingBalanceOf river sender
  require (value ≤ funds) .balanceTooLow
  require (recipient ≠ .zero) (.unauthorizedTransfer sender .zero)
  let (wlseth, _) ← wlseth.transferValue river allowlist sender recipient value
  return wlseth

/-- `_spendAllowance` -/
def spendAllowance (wlseth : WLSETH) (sender owner : Address)
    (value currentAllowance : Nat) : Except Error WLSETH :=
  if currentAllowance ≠ maxUint256 then do
    let remaining ← usub currentAllowance value
    wlseth.approveFor owner sender remaining
  else
    return wlseth

def transferFrom (wlseth : WLSETH) (river : River) (allowlist : Allowlist)
    (sender owner recipient : Address) (value : Nat) :
    Except Error WLSETH := do
  require (value ≠ 0) .nullTransfer
  let funds ← wlseth.underlyingBalanceOf river owner
  require (value ≤ funds) .balanceTooLow
  require (recipient ≠ .zero) (.unauthorizedTransfer owner .zero)
  let currentAllowance := wlseth.approvals owner sender
  require (value ≤ currentAllowance)
    (.allowanceTooLow owner sender currentAllowance value)
  let (wlseth, movedShares) ←
    wlseth.transferValue river allowlist owner recipient value
  if movedShares then
    wlseth.spendAllowance sender owner value currentAllowance
  else
    return wlseth

def mint (wlseth : WLSETH) (self : Address) (river : River)
    (allowlist : Allowlist) (sender recipient : Address) (shares : Nat) :
    Except Error (WLSETH × River) := do
  River.onTransfer allowlist sender recipient
  let recipientShares ← uadd (wlseth.balanceOf recipient) shares
  let river ← river.transferFrom allowlist self sender self shares
  let balanceOfLsETH ← uadd wlseth.balanceOfLsETH shares
  -- the underlying value is only computed for the event
  let _ ← river.balanceFromShares shares
  return ({ wlseth with
    balanceOf := Function.update wlseth.balanceOf recipient recipientShares
    balanceOfLsETH := balanceOfLsETH }, river)

def burn (wlseth : WLSETH) (self : Address) (river : River)
    (allowlist : Allowlist) (sender recipient : Address) (shares : Nat) :
    Except Error (WLSETH × River) := do
  River.onTransfer allowlist sender recipient
  require (shares ≤ wlseth.balanceOf sender) .balanceTooLow
  let senderShares ← usub (wlseth.balanceOf sender) shares
  let river ← river.transfer allowlist self recipient shares
  let balanceOfLsETH ← usub wlseth.balanceOfLsETH shares
  -- the underlying value is only computed for the event
  let _ ← river.balanceFromShares shares
  return ({ wlseth with
    balanceOf := Function.update wlseth.balanceOf sender senderShares
    balanceOfLsETH := balanceOfLsETH }, river)

/-- A call that touches no LsETH. -/
inductive Call where
  | approve (spender : Address) (value : Nat)
  | increaseAllowance (spender : Address) (additionalValue : Nat)
  | decreaseAllowance (spender : Address) (subtractableValue : Nat)
  | transfer (recipient : Address) (value : Nat)
  | transferFrom (owner recipient : Address) (value : Nat)

def Call.apply (call : Call) (wlseth : WLSETH) (river : River)
    (allowlist : Allowlist) (sender : Address) : Except Error WLSETH :=
  match call with
  | .approve spender value => wlseth.approve sender spender value
  | .increaseAllowance spender additionalValue =>
    wlseth.increaseAllowance sender spender additionalValue
  | .decreaseAllowance spender subtractableValue =>
    wlseth.decreaseAllowance sender spender subtractableValue
  | .transfer recipient value =>
    wlseth.transfer river allowlist sender recipient value
  | .transferFrom owner recipient value =>
    wlseth.transferFrom river allowlist sender owner recipient value

end WLSETH

end RiverProtocol

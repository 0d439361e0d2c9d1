import RiverProtocol.System.Claims

/-!
# Calls as data

A call of an account as a value, with the function that runs it.  A step of
the system is a call, a withdrawal of the consensus layer or a report, so the
sender of a step can be named.
-/

namespace RiverProtocol

open Checked Outcome

namespace System

/-- A call of an account that is none of the contracts. -/
inductive Call where
  | river (call : River.Call)
  | requestRedeem (lsETHAmount : Nat) (recipient : Address)
  | requestRedeemFor (lsETHAmount : Nat) (recipient : Address)
  | requestRedeemSelf (lsETHAmount : Nat)
  | claimRedeemRequests (accepts : Address → Bool)
      (redeemRequestIds withdrawalEventIds : List Nat)
      (skipAlreadyClaimed : Bool) (depth : Nat)
  | wrap (recipient : Address) (shares : Nat)
  | unwrap (recipient : Address) (shares : Nat)
  | wrapper (call : WLSETH.Call)
  | depositToConsensusLayer (contract : DepositContract)
      (allocations : List OperatorAllocation) (depositRoot : Nat)
  | requestValidatorExits (allocations : List OperatorAllocation)
  | registry (blockNumber : Nat) (call : OperatorsRegistry.Call)
  | allowlist (account : Address) (call : Allowlist.Call)

def Call.apply (call : Call) (deployment : Deployment) (system : System)
    (sender : Address) : Except Error System :=
  match call with
  | .river call => do
    let river ← call.apply system.river system.allowlist sender
    return { system with river := river }
  | .requestRedeem lsETHAmount recipient => do
    let (system, _) ← system.requestRedeem deployment sender lsETHAmount
      recipient
    return system
  | .requestRedeemFor lsETHAmount recipient => do
    let (system, _) ← system.requestRedeemFor deployment sender lsETHAmount
      recipient
    return system
  | .requestRedeemSelf lsETHAmount => do
    let (system, _) ← system.requestRedeemSelf deployment sender lsETHAmount
    return system
  | .claimRedeemRequests accepts redeemRequestIds withdrawalEventIds
      skipAlreadyClaimed depth => do
    let (system, _) ← system.claimRedeemRequests deployment sender accepts
      redeemRequestIds withdrawalEventIds skipAlreadyClaimed depth
    return system
  | .wrap recipient shares => system.wrap deployment sender recipient shares
  | .unwrap recipient shares =>
    system.unwrap deployment sender recipient shares
  | .wrapper call => do
    let wlseth ← call.apply system.wlseth system.river system.allowlist sender
    return { system with wlseth := wlseth }
  | .depositToConsensusLayer contract allocations depositRoot =>
    system.depositToConsensusLayer deployment contract sender allocations
      depositRoot
  | .requestValidatorExits allocations => do
    let registry ← system.registry.requestValidatorExits
      system.river.config.keeper sender allocations
    return { system with registry := registry }
  | .registry blockNumber call => do
    let registry ← call.apply system.registry sender blockNumber
    return { system with registry := registry }
  | .allowlist account call => do
    let allowlist ← call.apply (system.allowlists account) sender
    return { system with
      allowlists := Function.update system.allowlists account allowlist }

variable {deployment : Deployment} {system after : System} {sender : Address}
  {call : Call}

/-- A call that returns is an operation. -/
theorem Call.operation (external : deployment.External sender)
    (returned : call.apply deployment system sender = .ok after) :
    Operation deployment system after := by
  cases call with
  | river call =>
      simp only [Call.apply, bind_eq_ok, pure_eq_ok] at returned
      obtain ⟨river, returned, rfl⟩ := returned
      exact .river external returned
  | requestRedeem lsETHAmount recipient =>
      simp only [Call.apply, bind_eq_ok, pure_eq_ok, Prod.exists] at returned
      obtain ⟨system, id, returned, rfl⟩ := returned
      exact .requestRedeem external returned
  | requestRedeemFor lsETHAmount recipient =>
      simp only [Call.apply, bind_eq_ok, pure_eq_ok, Prod.exists] at returned
      obtain ⟨system, id, returned, rfl⟩ := returned
      exact .requestRedeemFor external returned
  | requestRedeemSelf lsETHAmount =>
      simp only [Call.apply, bind_eq_ok, pure_eq_ok, Prod.exists] at returned
      obtain ⟨system, id, returned, rfl⟩ := returned
      exact .requestRedeemSelf external returned
  | claimRedeemRequests accepts redeemRequestIds withdrawalEventIds
      skipAlreadyClaimed depth =>
      simp only [Call.apply, bind_eq_ok, pure_eq_ok, Prod.exists] at returned
      obtain ⟨system, statuses, returned, rfl⟩ := returned
      exact .claimRedeemRequests external returned
  | wrap recipient shares => exact .wrap external returned
  | unwrap recipient shares => exact .unwrap external returned
  | wrapper call =>
      simp only [Call.apply, bind_eq_ok, pure_eq_ok] at returned
      obtain ⟨wlseth, returned, rfl⟩ := returned
      exact .wrapper external returned
  | depositToConsensusLayer contract allocations depositRoot =>
      exact .depositToConsensusLayer external returned
  | requestValidatorExits allocations =>
      simp only [Call.apply, bind_eq_ok, pure_eq_ok] at returned
      obtain ⟨registry, returned, rfl⟩ := returned
      exact .requestValidatorExits external returned
  | registry blockNumber call =>
      simp only [Call.apply, bind_eq_ok, pure_eq_ok] at returned
      obtain ⟨registry, returned, rfl⟩ := returned
      exact .registry external returned
  | allowlist account call =>
      simp only [Call.apply, bind_eq_ok, pure_eq_ok] at returned
      obtain ⟨allowlist, returned, rfl⟩ := returned
      exact .allowlist external returned

/-- Every operation is a call, or a withdrawal of the consensus layer. -/
theorem Operation.sent (operation : Operation deployment system after) :
    (∃ (sender : Address) (call : Call), deployment.External sender ∧
      call.apply deployment system sender = .ok after) ∨
    ∃ amount, after = { system with
      withdraw := { system.withdraw with
        balance := system.withdraw.balance + amount } } := by
  cases operation with
  | @river _ _ call external returned =>
      refine .inl ⟨_, .river call, external, ?_⟩
      rw [Call.apply, returned]
      rfl
  | @requestRedeem _ _ recipient amount _ external returned =>
      refine .inl ⟨_, .requestRedeem amount recipient, external, ?_⟩
      rw [Call.apply, returned]
      rfl
  | @requestRedeemFor _ _ recipient amount _ external returned =>
      refine .inl ⟨_, .requestRedeemFor amount recipient, external, ?_⟩
      rw [Call.apply, returned]
      rfl
  | @requestRedeemSelf _ _ amount _ external returned =>
      refine .inl ⟨_, .requestRedeemSelf amount, external, ?_⟩
      rw [Call.apply, returned]
      rfl
  | @claimRedeemRequests _ _ accepts requestIds eventIds skip depth _
      external returned =>
      refine .inl ⟨_, .claimRedeemRequests accepts requestIds eventIds skip
        depth, external, ?_⟩
      rw [Call.apply, returned]
      rfl
  | wrap external returned => exact .inl ⟨_, .wrap _ _, external, returned⟩
  | unwrap external returned =>
      exact .inl ⟨_, .unwrap _ _, external, returned⟩
  | @wrapper _ _ call external returned =>
      refine .inl ⟨_, .wrapper call, external, ?_⟩
      rw [Call.apply, returned]
      rfl
  | depositToConsensusLayer external returned =>
      exact .inl ⟨_, .depositToConsensusLayer _ _ _, external, returned⟩
  | @requestValidatorExits _ _ allocations external returned =>
      refine .inl ⟨_, .requestValidatorExits allocations, external, ?_⟩
      rw [Call.apply, returned]
      rfl
  | @registry _ _ blockNumber call external returned =>
      refine .inl ⟨_, .registry blockNumber call, external, ?_⟩
      rw [Call.apply, returned]
      rfl
  | @allowlist _ _ account call external returned =>
      refine .inl ⟨_, .allowlist account call, external, ?_⟩
      rw [Call.apply, returned]
      rfl
  | consensusLayerWithdrawal amount => exact .inr ⟨amount, rfl⟩

/-- A step whose sender is someone else. -/
inductive StepOfOthers (deployment : Deployment) (account : Address) :
    System → System → Prop where
  | call {system after : System} {sender : Address} {call : Call} :
      deployment.External sender → sender ≠ account →
      call.apply deployment system sender = .ok after →
      StepOfOthers deployment account system after
  | consensusLayerWithdrawal {system : System} (amount : Nat) :
      StepOfOthers deployment account system { system with
        withdraw := { system.withdraw with
          balance := system.withdraw.balance + amount } }
  | report {system after : System} {funds : ExternalFunds} {timestamp : Nat}
      {sender : Address} {report : ConsensusLayerReport}
      {trace : ReportingTrace} :
      system.setConsensusLayerData deployment funds timestamp sender report =
        .ok (after, trace) → StepOfOthers deployment account system after

theorem StepOfOthers.step {account : Address}
    (step : StepOfOthers deployment account system after) :
    Step deployment system after := by
  cases step with
  | call external other returned =>
      exact .operation (Call.operation external returned)
  | consensusLayerWithdrawal amount =>
      exact .operation (.consensusLayerWithdrawal amount)
  | report returned => exact .report returned

/-- A run in which the account sends nothing. -/
abbrev RunOfOthers (deployment : Deployment) (account : Address) :
    System → System → Prop :=
  Relation.ReflTransGen (StepOfOthers deployment account)

end System

end RiverProtocol

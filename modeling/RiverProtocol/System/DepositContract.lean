import RiverProtocol.Failure
import RiverProtocol.Lib.IncrementalTree
import RiverProtocol.Lib.Sha256
import RiverProtocol.System.Exits

/-!
# Deposits to the official contract

The official deposit contract keeps a hash tree of the deposits it accepted.
What River sends it commits to the key, the credentials and the amount, and
the root the keeper names fixes all deposits made before.
-/

namespace RiverProtocol

open Checked Outcome Merkle

/-- One gwei in wei. -/
def gwei : Nat := 10 ^ 9

namespace LibUint256

/-- Move the lowest byte of the second number to the end of the first. -/
def shiftByte (state : Nat × Nat) : Nat × Nat :=
  ((state.1 <<< 8) ||| (state.2 &&& 0xff), state.2 >>> 8)

def toLittleEndian64 (value : Nat) : Except Failure Nat := do
  let first := (value &&& 0xff, value >>> 8)
  let (result, tempValue) := shiftByte^[7] first
  require (0 = tempValue) .assertionFailed
  return (result <<< (24 * 8)) % wordLimit

end LibUint256

/-- `DepositData` of the consensus layer, with the amount in gwei. -/
structure DepositData where
  pubkey : Bytes
  withdrawalCredentials : Bytes
  amount : Nat
  signature : Bytes
  deriving DecidableEq, Repr

namespace DepositData

structure Valid (data : DepositData) : Prop where
  pubkey : data.pubkey.length = 48
  withdrawalCredentials : data.withdrawalCredentials.length = 32
  amount : data.amount < 256 ^ 8
  signature : data.signature.length = 96

def value (data : DepositData) : Value :=
  .container [.bytes data.pubkey, .bytes data.withdrawalCredentials,
    .uint 8 data.amount, .bytes data.signature]

end DepositData

section

variable (sha256 : Bytes → Bytes)

/-- The root as both contracts compute it, from the bytes of the amount. -/
def depositRootOf (pubkeyRoot signatureRoot withdrawalCredentials
    amount : Bytes) : Bytes :=
  sha256 (sha256 (pubkeyRoot ++ withdrawalCredentials) ++
    sha256 (amount ++ signatureRoot))

/-- The deposits accepted, as the left part of a tree of depth 32. -/
structure OfficialDepositContract where
  depositCount : Nat
  branch : Nat → Bytes

namespace OfficialDepositContract

def depositContractTreeDepth : Nat := 32

def maxDepositCount : Nat := 2 ^ depositContractTreeDepth - 1

def fresh : OfficialDepositContract :=
  { depositCount := 0, branch := fun _ => zeroChunk }

def toLittleEndian64 (value : Nat) : Bytes := LittleEndian.encode 8 value

def getDepositRoot (official : OfficialDepositContract) : Bytes :=
  let node := rootLoop sha256 (zeroHash sha256) official.branch
    depositContractTreeDepth 0 official.depositCount zeroChunk
  sha256 (node ++ toLittleEndian64 official.depositCount ++
    List.replicate 24 0)

def deposit (official : OfficialDepositContract) (value : Nat)
    (pubkey withdrawalCredentials signature depositDataRoot : Bytes) :
    Except Failure OfficialDepositContract := do
  require (pubkey.length = 48)
    (.message "DepositContract: invalid pubkey length")
  require (withdrawalCredentials.length = 32)
    (.message "DepositContract: invalid withdrawal_credentials length")
  require (signature.length = 96)
    (.message "DepositContract: invalid signature length")
  require (value ≥ ether) (.message "DepositContract: deposit value too low")
  require (value % gwei = 0)
    (.message "DepositContract: deposit value not multiple of gwei")
  let depositAmount := value / gwei
  require (depositAmount < 256 ^ 8)
    (.message "DepositContract: deposit value too high")
  let amount := toLittleEndian64 depositAmount
  let pubkeyRoot := sha256 (pubkey ++ List.replicate 16 0)
  let signatureRoot := sha256 (sha256 (signature.take 64) ++
    sha256 (signature.drop 64 ++ List.replicate 32 0))
  let node := depositRootOf sha256 pubkeyRoot signatureRoot
    withdrawalCredentials (amount ++ List.replicate 24 0)
  require (node = depositDataRoot) (.message
    "DepositContract: reconstructed DepositData does not match supplied deposit_data_root")
  require (official.depositCount < maxDepositCount)
    (.message "DepositContract: merkle tree full")
  let depositCount := official.depositCount + 1
  match insertLoop sha256 depositContractTreeDepth 0 depositCount node
    official.branch with
  | some branch => return { depositCount := depositCount, branch := branch }
  | none => .error .assertionFailed

/-- The contract after the deposits of a list, by anybody. -/
inductive History : List DepositData → OfficialDepositContract → Prop where
  | nil : History [] fresh
  | deposit {history : List DepositData}
      {official after : OfficialDepositContract} {value : Nat}
      {pubkey withdrawalCredentials signature depositDataRoot : Bytes} :
      History history official →
      official.deposit sha256 value pubkey withdrawalCredentials signature
        depositDataRoot = .ok after →
      History (history ++ [
        { pubkey := pubkey, withdrawalCredentials := withdrawalCredentials
          amount := value / gwei, signature := signature }]) after

/-- The contract as River's deposits see it, while the tree has room. -/
def contract (official : OfficialDepositContract) : DepositContract :=
  { depositRoot := Abi.ofBytes (official.getDepositRoot sha256)
    accepts := fun _ _ => true }

/-- The strings hashed for the root over a history. -/
def hashesOf (history : List DepositData) : List Bytes :=
  let roots := history.map fun data => data.value.root sha256
  (tree sha256 zeroChunk depositContractTreeDepth roots ++
      toLittleEndian64 history.length ++ List.replicate 24 0) ::
    (hashed sha256 zeroChunk depositContractTreeDepth roots ++
      history.flatMap fun data => data.value.hashed sha256)

end OfficialDepositContract

namespace ConsensusLayerDepositManager

def depositDataRoot (publicKey signature withdrawalCredentials : Bytes)
    (depositAmount : Nat) : Except Failure Bytes := do
  let pubkeyRoot := sha256 (publicKey ++ List.replicate 16 0)
  let firstPart ← raising (sliceBytes signature 0 64)
  let lastPart ← raising
    (sliceBytes signature 64 (ValidatorKeys.signatureLength - 64))
  let signatureRoot := sha256 (sha256 firstPart ++
    sha256 (lastPart ++ List.replicate 32 0))
  let amount ← LibUint256.toLittleEndian64 depositAmount
  return depositRootOf sha256 pubkeyRoot signatureRoot withdrawalCredentials
    (Abi.toBytes 32 amount)

/-- `_depositValidator` -/
def depositValidator (withdrawalCredentials : Bytes) (river : River)
    (official : OfficialDepositContract) (publicKey signature : Bytes) :
    Except Failure (River × OfficialDepositContract) := do
  require (publicKey.length = ValidatorKeys.publicKeyLength)
    (.raised .inconsistentPublicKeys)
  require (signature.length = ValidatorKeys.signatureLength)
    (.raised .inconsistentSignatures)
  let root ← depositDataRoot sha256 publicKey signature withdrawalCredentials
    (depositSize / gwei)
  let targetBalance ← raising (usub river.balance depositSize)
  let official ← official.deposit sha256 depositSize publicKey
    withdrawalCredentials signature root
  let deposited : River := { river with
    balance := river.balance - depositSize }
  require (deposited.balance = targetBalance) (.raised .errorOnDeposit)
  return (deposited, official)

/-- The loop over the picked validators. -/
def depositValidators (withdrawalCredentials : Bytes) :
    List (Bytes × Bytes) → River → OfficialDepositContract →
    Except Failure (River × OfficialDepositContract)
  | [], river, official => return (river, official)
  | (publicKey, signature) :: rest, river, official => do
    let (river, official) ← depositValidator sha256 withdrawalCredentials
      river official publicKey signature
    depositValidators withdrawalCredentials rest river official

end ConsensusLayerDepositManager

end

namespace LibUint256

variable {value : Nat}

theorem shiftByte_eq (value place : Nat) :
    shiftByte (Abi.ofBytes (LittleEndian.encode place value),
      value / 256 ^ place) =
      (Abi.ofBytes (LittleEndian.encode (place + 1) value),
        value / 256 ^ (place + 1)) := by
  have low : value / 256 ^ place &&& 0xff = value / 256 ^ place % 2 ^ 8 :=
    Nat.and_two_pow_sub_one_eq_mod _ 8
  have digit : Abi.ofBytes [UInt8.ofNat (value / 256 ^ place)] =
      value / 256 ^ place % 2 ^ 8 := by
    rw [Abi.ofBytes, List.reverse_singleton, LittleEndian.decode_cons,
      LittleEndian.decode_nil]
    exact UInt8.toNat_ofNat'
  rw [shiftByte, low, LittleEndian.encode_concat, Abi.ofBytes_append, digit,
    ← Nat.shiftLeft_add_eq_or_of_lt (Nat.mod_lt _ (by decide)),
    Nat.shiftLeft_eq, Nat.shiftRight_eq_div_pow, Nat.div_div_eq_div_mul,
    ← Nat.pow_succ]
  rfl

theorem shiftByte_iterate (value place count : Nat) :
    shiftByte^[count] (Abi.ofBytes (LittleEndian.encode place value),
      value / 256 ^ place) =
      (Abi.ofBytes (LittleEndian.encode (place + count) value),
        value / 256 ^ (place + count)) := by
  induction count generalizing place with
  | zero => rfl
  | succ count induction =>
      rw [Function.iterate_succ_apply, shiftByte_eq, induction,
        Nat.add_assoc, Nat.add_comm 1 count]

/-- The eight lowest bytes come first, in reverse order, then zeros; a value
that needs more is refused. -/
theorem toLittleEndian64_eq (value : Nat) :
    toLittleEndian64 value =
      if value < 256 ^ 8 then
        .ok (Abi.ofBytes (LittleEndian.encode 8 value ++
          List.replicate 24 0))
      else .error .assertionFailed := by
  have first : (value &&& 0xff, value >>> 8) =
      shiftByte (Abi.ofBytes (LittleEndian.encode 0 value),
        value / 256 ^ 0) := by
    rw [Nat.pow_zero, Nat.div_one]
    simp [shiftByte, Abi.ofBytes]
  rw [toLittleEndian64]
  simp only [first, ← Function.iterate_succ_apply]
  rw [shiftByte_iterate]
  simp only [require, Nat.zero_add]
  by_cases fits : value < 256 ^ 8
  · have small := LittleEndian.decode_lt
      (LittleEndian.encode 8 value).reverse
    rw [List.length_reverse, LittleEndian.length_encode] at small
    rw [if_pos (Nat.div_eq_of_lt fits).symm, if_pos fits, ok_bind,
      Abi.ofBytes_append, Abi.ofBytes_zeros, List.length_replicate,
      Nat.add_zero, Nat.shiftLeft_eq]
    have bound := Nat.mul_lt_mul_of_pos_right small
      (show 0 < 2 ^ (24 * 8) by decide)
    exact congrArg Except.ok
      (Nat.mod_eq_of_lt (bound.trans_eq (by decide +kernel)))
  · have rest : value / 256 ^ 8 ≠ 0 := by
      rw [Nat.div_ne_zero_iff]
      omega
    rw [if_neg (Ne.symm rest), if_neg fits]
    rfl

end LibUint256

section

variable {sha256 : Bytes → Bytes} {data other : DepositData}

/-- A public key fills one chunk and half of another. -/
theorem root_pubkey {pubkey : Bytes} (length : pubkey.length = 48) :
    (Value.bytes pubkey).root sha256 =
      sha256 (pubkey ++ List.replicate 16 0) := by
  have first : (pubkey.take 32).length = 32 := by simp [length]
  have rest : (pubkey.drop 32).length = 16 := by simp [length]
  have chunksOf : chunks pubkey =
      [pubkey.take 32, pubkey.drop 32 ++ List.replicate 16 0] := by
    rw [← List.take_append_drop 32 pubkey, chunks_append first,
      chunks_short (by omega) (by omega), pad, rest,
      List.take_append_drop]
  have depth : Nat.clog 2 2 = 1 := by decide +kernel
  rw [Value.root, merkleize, chunksOf]
  simp only [List.length_cons, List.length_nil, Nat.zero_add,
    Nat.reduceAdd, depth, tree, Nat.pow_zero, List.take_succ_cons,
    List.take_zero, List.drop_succ_cons, List.drop_zero, List.headD_cons]
  rw [← List.append_assoc, List.take_append_drop]

/-- A signature fills three of four chunks. -/
theorem root_signature {signature : Bytes} (length : signature.length = 96) :
    (Value.bytes signature).root sha256 =
      sha256 (sha256 (signature.take 64) ++
        sha256 (signature.drop 64 ++ List.replicate 32 0)) := by
  have first : (signature.take 32).length = 32 := by simp [length]
  have second : ((signature.drop 32).take 32).length = 32 := by
    simp [length]
  have third : (signature.drop 64).length = 32 := by simp [length]
  have chunksOf : chunks signature = [signature.take 32,
      (signature.drop 32).take 32, signature.drop 64] := by
    have parts : signature = signature.take 32 ++
        ((signature.drop 32).take 32 ++ signature.drop 64) := by
      have rest : signature.drop 64 = (signature.drop 32).drop 32 := by
        rw [List.drop_drop]
      rw [rest, List.take_append_drop, List.take_append_drop]
    calc chunks signature
        = chunks (signature.take 32 ++
            ((signature.drop 32).take 32 ++ signature.drop 64)) :=
          congrArg chunks parts
      _ = _ := by
          rw [chunks_append first, chunks_append second,
            chunks_short (by omega) third.le, pad_of_length third]
  have joined : signature.take 32 ++ (signature.drop 32).take 32 =
      signature.take 64 := by
    rw [← List.take_add]
  have depth : Nat.clog 2 3 = 2 := by decide +kernel
  rw [Value.root, merkleize, chunksOf]
  simp only [List.length_cons, List.length_nil, Nat.zero_add,
    Nat.reduceAdd, depth, tree, Nat.pow_zero, Nat.pow_one,
    List.take_succ_cons, List.take_zero, List.drop_succ_cons,
    List.drop_zero, List.headD_cons, List.take_nil, List.drop_nil,
    List.headD_nil, joined]
  rfl

theorem root_credentials {credentials : Bytes}
    (length : credentials.length = 32) :
    (Value.bytes credentials).root sha256 = credentials := by
  have depth : Nat.clog 2 1 = 0 := by decide +kernel
  rw [Value.root, merkleize, chunks_short (by omega) length.le,
    pad_of_length length, List.length_singleton, depth]
  rfl

theorem root_amount (amount : Nat) : (Value.uint 8 amount).root sha256 =
    LittleEndian.encode 8 amount ++ List.replicate 24 0 := by
  rw [Value.root, pad, LittleEndian.length_encode]

/-- What the contracts compute is the root of the deposit data. -/
theorem depositRootOf_eq (valid : data.Valid) :
    depositRootOf sha256 (sha256 (data.pubkey ++ List.replicate 16 0))
      (sha256 (sha256 (data.signature.take 64) ++
        sha256 (data.signature.drop 64 ++ List.replicate 32 0)))
      data.withdrawalCredentials
      (LittleEndian.encode 8 data.amount ++ List.replicate 24 0) =
      data.value.root sha256 := by
  have depth : Nat.clog 2 4 = 2 := by decide +kernel
  have fields : data.value.root sha256 = merkleize sha256
      [(Value.bytes data.pubkey).root sha256,
        (Value.bytes data.withdrawalCredentials).root sha256,
        (Value.uint 8 data.amount).root sha256,
        (Value.bytes data.signature).root sha256] := rfl
  rw [fields, root_pubkey valid.pubkey,
    root_credentials valid.withdrawalCredentials, root_amount,
    root_signature valid.signature, merkleize]
  simp only [List.length_cons, List.length_nil, Nat.zero_add, Nat.reduceAdd,
    depth, tree, Nat.pow_zero, Nat.pow_one, List.take_succ_cons,
    List.take_zero, List.drop_succ_cons, List.drop_zero, List.headD_cons,
    depositRootOf]

end

namespace OfficialDepositContract

variable {sha256 : Bytes → Bytes} {official after : OfficialDepositContract}
  {value : Nat}
  {pubkey withdrawalCredentials signature depositDataRoot : Bytes}
  {history claimed : List DepositData}

/-- The state of the contract is that of a tree over the deposits. -/
structure Holds (sha256 : Bytes → Bytes) (history : List DepositData)
    (official : OfficialDepositContract) : Prop where
  count : official.depositCount = history.length
  room : history.length ≤ maxDepositCount
  valid : ∀ data ∈ history, data.Valid
  frontier : Frontier sha256 official.branch 0
    (history.map fun data => data.value.root sha256)

/-- The contract accepts valid data whose root was sent with it. -/
theorem deposit_ok
    (returned : official.deposit sha256 value pubkey withdrawalCredentials
      signature depositDataRoot = .ok after) :
    ∃ data : DepositData, data = ⟨pubkey, withdrawalCredentials,
        value / gwei, signature⟩ ∧ data.Valid ∧
      official.depositCount < maxDepositCount ∧
      after.depositCount = official.depositCount + 1 ∧
      insertLoop sha256 depositContractTreeDepth 0
        (official.depositCount + 1) (data.value.root sha256)
        official.branch = some after.branch := by
  simp only [deposit, bind_eq_ok, require_eq_ok] at returned
  obtain ⟨-, keyLength, -, credentialsLength, -, signatureLength, -, -, -, -,
    -, small, -, -, -, room, returned⟩ := returned
  have valid : DepositData.Valid ⟨pubkey, withdrawalCredentials,
      value / gwei, signature⟩ :=
    ⟨keyLength, credentialsLength, small, signatureLength⟩
  refine ⟨_, rfl, valid, room, ?_⟩
  rw [toLittleEndian64, depositRootOf_eq valid] at returned
  split at returned
  · rename_i branch inserted
    obtain rfl := Except.ok.inj returned
    exact ⟨rfl, inserted⟩
  · cases returned

theorem deposit_accepts {data : DepositData} {branch : Nat → Bytes}
    (valid : data.Valid) (enough : ether ≤ value) (whole : value % gwei = 0)
    (amount : data.amount = value / gwei)
    (room : official.depositCount < maxDepositCount)
    (inserted : insertLoop sha256 depositContractTreeDepth 0
      (official.depositCount + 1) (data.value.root sha256) official.branch =
      some branch) :
    official.deposit sha256 value data.pubkey data.withdrawalCredentials
      data.signature (data.value.root sha256) =
      .ok { depositCount := official.depositCount + 1, branch := branch } := by
  have root : depositRootOf sha256 _ _ _ _ = _ := depositRootOf_eq valid
  have small := valid.amount
  rw [amount] at root small
  simp only [deposit, require_of valid.pubkey,
    require_of valid.withdrawalCredentials, require_of valid.signature,
    require_of enough, ge_iff_le, require_of whole, require_of small,
    ok_bind, toLittleEndian64, root, require_of room, inserted]
  rw [require_of trivial, ok_bind]
  rfl

theorem Holds.inserts (holds : Holds sha256 history official)
    (room : official.depositCount < maxDepositCount) (node : Bytes) :
    ∃ branch, insertLoop sha256 depositContractTreeDepth 0
        (official.depositCount + 1) node official.branch = some branch ∧
      Frontier sha256 branch 0
        (history.map (fun data => data.value.root sha256) ++ [node]) := by
  have length : (history.map fun data => data.value.root sha256).length =
      official.depositCount := by rw [List.length_map, holds.count]
  rw [← length]
  refine insertLoop_frontier holds.frontier ?_
  rw [length]
  exact Nat.add_lt_of_lt_sub room

theorem Holds.extend {data : DepositData} {branch : Nat → Bytes}
    (holds : Holds sha256 history official) (valid : data.Valid)
    (room : official.depositCount < maxDepositCount)
    (inserted : insertLoop sha256 depositContractTreeDepth 0
      (official.depositCount + 1) (data.value.root sha256) official.branch =
      some branch) :
    Holds sha256 (history ++ [data])
      { depositCount := official.depositCount + 1, branch := branch } := by
  obtain ⟨stored, again, frontier⟩ :=
    holds.inserts room (data.value.root sha256)
  rw [inserted] at again
  obtain rfl := Option.some.inj again
  refine ⟨?_, ?_, ?_, ?_⟩
  · rw [List.length_append, List.length_singleton, holds.count]
  · rw [List.length_append, List.length_singleton, ← holds.count]
    exact room
  · exact Lists.forall_mem_concat holds.valid valid
  · rw [List.map_append]
    exact frontier

theorem History.holds (kept : History sha256 history official) :
    Holds sha256 history official := by
  induction kept with
  | nil => exact ⟨rfl, Nat.zero_le _, fun _ member => absurd member
      List.not_mem_nil, frontier_nil _ _⟩
  | deposit _ returned holds =>
      obtain ⟨data, rfl, valid, room, count, inserted⟩ := deposit_ok returned
      have extended := holds.extend valid room inserted
      rw [← count] at extended
      exact extended

theorem Holds.accepts {data : DepositData}
    (holds : Holds sha256 history official) (valid : data.Valid)
    (enough : ether ≤ value) (whole : value % gwei = 0)
    (amount : data.amount = value / gwei)
    (room : official.depositCount < maxDepositCount) :
    ∃ after, official.deposit sha256 value data.pubkey
        data.withdrawalCredentials data.signature (data.value.root sha256) =
        .ok after := by
  obtain ⟨branch, inserted, -⟩ :=
    holds.inserts room (data.value.root sha256)
  exact ⟨_, deposit_accepts valid enough whole amount room inserted⟩

/-- The deposit root is the root of the tree over all deposits, with their
number. -/
theorem Holds.getDepositRoot_eq (holds : Holds sha256 history official) :
    official.getDepositRoot sha256 =
      sha256 (tree sha256 zeroChunk depositContractTreeDepth
          (history.map fun data => data.value.root sha256) ++
        toLittleEndian64 history.length ++ List.replicate 24 0) := by
  have room : (history.map fun data => data.value.root sha256).length <
      2 ^ depositContractTreeDepth := by
    rw [List.length_map]
    exact Nat.lt_of_le_pred (by decide) holds.room
  have root := rootLoop_tree holds.frontier room
  rw [List.length_map] at root
  rw [getDepositRoot, holds.count, root]

theorem sameShape {one other : DepositData} (first : one.Valid)
    (second : other.Valid) : SameShape one.value other.value :=
  .container (.cons (.bytes (first.pubkey.trans second.pubkey.symm))
    (.cons (.bytes (first.withdrawalCredentials.trans
      second.withdrawalCredentials.symm))
    (.cons (.uint (by decide) first.amount second.amount)
    (.cons (.bytes (first.signature.trans second.signature.symm)) .nil))))

theorem value_injective {one other : DepositData}
    (same : one.value = other.value) : one = other := by
  obtain ⟨pubkey, credentials, amount, signature⟩ := one
  obtain ⟨otherPubkey, otherCredentials, otherAmount, otherSignature⟩ := other
  simp only [DepositData.value, Value.container.injEq, List.cons.injEq,
    Value.bytes.injEq, Value.uint.injEq, true_and, and_true] at same
  obtain ⟨rfl, rfl, rfl, rfl⟩ := same
  rfl

theorem chunked_roots_of_valid (wide : ∀ bytes, (sha256 bytes).length = 32)
    (valid : ∀ data ∈ history, data.Valid) :
    Chunked (history.map fun data => data.value.root sha256) := by
  intro leaf member
  obtain ⟨data, listed, rfl⟩ := List.mem_map.mp member
  exact (chunked_root wide (sameShape (valid data listed)
    (valid data listed))).1

/-- Histories whose deposits have the same roots are the same. -/
theorem roots_determine (wide : ∀ bytes, (sha256 bytes).length = 32)
    (valid : ∀ data ∈ claimed, data.Valid)
    (others : ∀ data ∈ history, data.Valid)
    (same : claimed.map (fun data => data.value.root sha256) =
      history.map fun data => data.value.root sha256) :
    claimed = history ∨
      Collides sha256
        (claimed.flatMap fun data => data.value.hashed sha256)
        (history.flatMap fun data => data.value.hashed sha256) := by
  induction claimed generalizing history with
  | nil =>
      cases history with
      | nil => exact .inl rfl
      | cons => cases same
  | cons one rest induction =>
      cases history with
      | nil => cases same
      | cons other remaining =>
          rw [List.map_cons, List.map_cons] at same
          obtain ⟨first, later⟩ := List.cons.inj same
          obtain ⟨validOne, validRest⟩ := List.forall_mem_cons.mp valid
          obtain ⟨validOther, validRemaining⟩ := List.forall_mem_cons.mp others
          rw [List.flatMap_cons, List.flatMap_cons]
          rcases root_binds wide (sameShape validOne validOther) first with
            equal | collides
          · rcases induction validRest validRemaining later with
              tails | collides
            · exact .inl (by rw [value_injective equal, tails])
            · exact .inr (collides.mono (List.subset_append_right _ _)
                (List.subset_append_right _ _))
          · exact .inr (collides.mono (List.subset_append_left _ _)
              (List.subset_append_left _ _))

/-- One deposit root stands for one history, unless the hash collides. -/
theorem depositRoot_binds (wide : ∀ bytes, (sha256 bytes).length = 32)
    {other : OfficialDepositContract} (holds : Holds sha256 history official)
    (claim : Holds sha256 claimed other)
    (same : other.getDepositRoot sha256 = official.getDepositRoot sha256) :
    claimed = history ∨
      Collides sha256 (hashesOf sha256 claimed) (hashesOf sha256 history) := by
  have chunked := chunked_roots_of_valid wide claim.valid
  have others := chunked_roots_of_valid wide holds.valid
  have small : ∀ {list : List DepositData}, list.length ≤ maxDepositCount →
      list.length < 256 ^ 8 := fun room =>
    Nat.lt_of_le_of_lt room (by decide)
  rw [holds.getDepositRoot_eq, claim.getDepositRoot_eq] at same
  by_cases joined : tree sha256 zeroChunk depositContractTreeDepth
        (claimed.map fun data => data.value.root sha256) ++
        toLittleEndian64 claimed.length ++ List.replicate 24 0 =
      tree sha256 zeroChunk depositContractTreeDepth
        (history.map fun data => data.value.root sha256) ++
        toLittleEndian64 history.length ++ List.replicate 24 0
  · have front := List.append_cancel_right joined
    obtain ⟨trees, counts⟩ := List.append_inj front (by
      rw [length_tree wide length_zeroChunk chunked,
        length_tree wide length_zeroChunk others])
    have length : claimed.length = history.length := by
      rw [← LittleEndian.decode_encode_of_lt (small claim.room),
        ← LittleEndian.decode_encode_of_lt (small holds.room)]
      exact congrArg LittleEndian.decode counts
    rcases tree_binds wide length_zeroChunk (by simpa using length)
      (by rw [List.length_map]; exact claim.room.trans (Nat.sub_le _ _))
      chunked others trees with roots | collides
    · rcases roots_determine wide claim.valid holds.valid roots with
        equal | collides
      · exact .inl equal
      · refine .inr (collides.mono ?_ ?_)
        · exact fun item member => List.mem_cons_of_mem _
            (List.mem_append_right _ member)
        · exact fun item member => List.mem_cons_of_mem _
            (List.mem_append_right _ member)
    · refine .inr (collides.mono ?_ ?_)
      · exact fun item member => List.mem_cons_of_mem _
          (List.mem_append_left _ member)
      · exact fun item member => List.mem_cons_of_mem _
          (List.mem_append_left _ member)
  · exact .inr ⟨_, List.mem_cons_self, _, List.mem_cons_self, joined, same⟩

end OfficialDepositContract

/-- The withdrawal credentials as `bytes32`. -/
def Deployment.credentialBytes (deployment : Deployment) : Bytes :=
  Abi.toBytes 32 deployment.withdrawalCredentials

/-- The data of River's deposit for a picked validator. -/
def depositOf (withdrawalCredentials : Bytes) (validator : Bytes × Bytes) :
    DepositData :=
  { pubkey := validator.1
    withdrawalCredentials := withdrawalCredentials
    amount := depositSize / gwei
    signature := validator.2 }

theorem credentialBytes_eq (deployment : Deployment) :
    deployment.credentialBytes = [1] ++ List.replicate 11 0 ++
      Abi.toBytes 20 deployment.withdraw.val := by
  have small : deployment.withdraw.val < 256 ^ 20 := deployment.withdraw.isLt
  have whole : ([1] ++ List.replicate 11 0 ++
      Abi.toBytes 20 deployment.withdraw.val).length = 32 := by simp
  have number : Abi.ofBytes ([1] ++ List.replicate 11 0 ++
      Abi.toBytes 20 deployment.withdraw.val) =
      deployment.withdrawalCredentials := by
    rw [Abi.ofBytes_append, Abi.ofBytes_append, Abi.ofBytes_zeros,
      Abi.ofBytes_toBytes small, Abi.length_toBytes, List.length_replicate,
      Deployment.withdrawalCredentials, Nat.add_comm]
    rfl
  rw [Deployment.credentialBytes, ← number, ← whole, Abi.toBytes_ofBytes]

namespace ConsensusLayerDepositManager

open OfficialDepositContract (History Holds maxDepositCount)

variable {sha256 : Bytes → Bytes} {withdrawalCredentials : Bytes}
  {river after : River} {official : OfficialDepositContract}
  {publicKey signature : Bytes} {history : List DepositData}
  {contract : DepositContract}

theorem depositDataRoot_eq
    (valid : (depositOf withdrawalCredentials (publicKey, signature)).Valid) :
    depositDataRoot sha256 publicKey signature withdrawalCredentials
      (depositSize / gwei) =
      .ok ((depositOf withdrawalCredentials (publicKey, signature)).value.root
        sha256) := by
  have length : signature.length = 96 := valid.signature
  have first : sliceBytes signature 0 64 = .ok (signature.take 64) :=
    OperatorsRegistry.sliceBytes_eq_ok.mpr ⟨by omega, rfl⟩
  have last : sliceBytes signature 64 (ValidatorKeys.signatureLength - 64) =
      .ok (signature.drop 64) := by
    refine OperatorsRegistry.sliceBytes_eq_ok.mpr ⟨by
      rw [length]
      decide, List.take_of_length_le ?_⟩
    rw [List.length_drop, length]
    decide
  have bytes : Abi.toBytes 32 (Abi.ofBytes
      (LittleEndian.encode 8 (depositSize / gwei) ++
        List.replicate 24 0)) =
      LittleEndian.encode 8 (depositSize / gwei) ++ List.replicate 24 0 := by
    have whole : (LittleEndian.encode 8 (depositSize / gwei) ++
        List.replicate 24 0).length = 32 := by simp
    rw [← whole, Abi.toBytes_ofBytes]
  have root : depositRootOf sha256 _ _ _ _ = _ := depositRootOf_eq valid
  simp only [depositDataRoot, first, last, raising_ok, ok_bind,
    LibUint256.toLittleEndian64_eq]
  rw [if_pos (by decide +kernel), ok_bind, bytes]
  exact congrArg Except.ok root

theorem depositValidator_ok (kept : History sha256 history official)
    (room : official.depositCount < maxDepositCount)
    (whole : withdrawalCredentials.length = 32)
    (returned : System.depositValidator contract river publicKey signature =
      .ok after) :
    ∃ deposited, depositValidator sha256 withdrawalCredentials river official
        publicKey signature = .ok (after, deposited) ∧
      History sha256
        (history ++ [depositOf withdrawalCredentials (publicKey, signature)])
        deposited ∧
      deposited.depositCount = official.depositCount + 1 := by
  simp only [System.depositValidator, bind_eq_ok, require_eq_ok, usub_eq_ok,
    pure_eq_ok] at returned
  obtain ⟨-, keyLength, -, signatureLength, _, ⟨enough, rfl⟩, -, -, -, -,
    rfl⟩ := returned
  have valid : (depositOf withdrawalCredentials
      (publicKey, signature)).Valid :=
    ⟨keyLength, whole,
      show depositSize / gwei < 256 ^ 8 by decide +kernel, signatureLength⟩
  obtain ⟨deposited, accepted⟩ := kept.holds.accepts valid
    (show ether ≤ depositSize by decide) (by decide +kernel) rfl room
  have further := History.deposit kept accepted
  refine ⟨deposited, ?_, further, ?_⟩
  · rw [depositOf] at accepted
    simp only [depositValidator, require_of keyLength,
      require_of signatureLength, ok_bind, depositDataRoot_eq valid,
      usub_of_le enough, raising_ok]
    rw [depositOf, accepted, ok_bind, require_of trivial]
    rfl
  · rw [further.holds.count, kept.holds.count, List.length_append,
      List.length_singleton]

/-- The official contract accepts each of River's deposits, while it has
room. -/
theorem depositValidators_ok {validators : List (Bytes × Bytes)}
    (kept : History sha256 history official)
    (room : official.depositCount + validators.length ≤ maxDepositCount)
    (whole : withdrawalCredentials.length = 32)
    (returned : System.depositValidators contract validators river =
      .ok after) :
    ∃ deposited, depositValidators sha256 withdrawalCredentials validators
        river official = .ok (after, deposited) ∧
      History sha256
        (history ++ validators.map (depositOf withdrawalCredentials))
        deposited := by
  induction validators generalizing river official history with
  | nil =>
      rw [System.depositValidators, pure_eq_ok] at returned
      refine ⟨official, by rw [returned]; rfl, ?_⟩
      rw [List.map_nil, List.append_nil]
      exact kept
  | cons validator rest induction =>
      obtain ⟨publicKey, signature⟩ := validator
      simp only [System.depositValidators, bind_eq_ok] at returned
      obtain ⟨next, first, remaining⟩ := returned
      rw [List.length_cons] at room
      obtain ⟨middle, accepted, longer, count⟩ :=
        depositValidator_ok kept (by omega) whole first
      obtain ⟨deposited, accepting, longest⟩ :=
        induction longer (by omega) remaining
      refine ⟨deposited, ?_, ?_⟩
      · rw [depositValidators, accepted, ok_bind]
        exact accepting
      · rw [List.append_assoc] at longest
        exact longest

end ConsensusLayerDepositManager

namespace System

open OfficialDepositContract (History hashesOf maxDepositCount)

variable {sha256 : Bytes → Bytes} {deployment : Deployment}
  {system after : System} {official : OfficialDepositContract}
  {history : List DepositData}

/-- A deposit to the consensus layer with the root the keeper names.  Any
history with that root, the one the keeper saw for instance, is the one the
official contract holds, unless the hash collides.  The contract accepts the
deposits of all picked validators, if it has room for them, and appends them to
the history, each with 32 ether and with credentials that name the withdraw
contract. -/
theorem deposit_extends_history
    (wide : ∀ bytes, (sha256 bytes).length = 32)
    (kept : History sha256 history official)
    {sender : Address} {allocations : List OperatorAllocation}
    {depositRoot : Nat}
    (returned : system.depositToConsensusLayer deployment
      (official.contract sha256) sender allocations depositRoot =
      .ok after) :
    (∀ claimed other, History sha256 claimed other →
      Abi.ofBytes (other.getDepositRoot sha256) = depositRoot →
      claimed = history ∨
        Merkle.Collides sha256 (hashesOf sha256 claimed)
          (hashesOf sha256 history)) ∧
    deployment.credentialBytes = [1] ++ List.replicate 11 0 ++
      Abi.toBytes 20 deployment.withdraw.val ∧
    ∃ registry validators,
      system.registry.pickNextValidatorsToDeposit allocations =
        .ok (registry, validators) ∧
      after.river = system.river.funded validators.length ∧
      (official.depositCount + validators.length ≤ maxDepositCount →
        ∃ deposited,
          ConsensusLayerDepositManager.depositValidators sha256
            deployment.credentialBytes validators system.river official =
            .ok ({ system.river with
              balance := system.river.balance -
                depositSize * validators.length }, deposited) ∧
          History sha256 (history ++
            validators.map (depositOf deployment.credentialBytes))
            deposited) := by
  simp only [depositToConsensusLayer, bind_eq_ok, require_eq_ok, umul_eq_ok,
    usub_eq_ok, uadd_eq_ok, pure_eq_ok, Prod.exists] at returned
  obtain ⟨-, -, -, -, -, named, limit, -, -, -, requested, -, -, -, registry,
    validators, picked, -, -, -, -, -, -, funded, deposited, product,
    ⟨-, rfl⟩, committed, ⟨-, rfl⟩, count, ⟨-, rfl⟩, rfl⟩ := returned
  obtain ⟨-, rfl⟩ := depositValidators_ok deposited
  refine ⟨fun claimed other claim same => ?_, credentialBytes_eq deployment,
    registry, validators, picked, rfl, fun room => ?_⟩
  · refine OfficialDepositContract.depositRoot_binds wide kept.holds
      claim.holds ?_
    refine Abi.ofBytes_injective ?_ (same.trans named.symm)
    rw [OfficialDepositContract.getDepositRoot, wide,
      OfficialDepositContract.getDepositRoot, wide]
  · exact ConsensusLayerDepositManager.depositValidators_ok kept room
      Abi.length_toBytes deposited

section Sample

/-- A key, its signature and the credentials of a deposit made on mainnet. -/
def sampleDeposit : DepositData :=
  { pubkey := Abi.toBytes 48 (0x84b379476e22ee78f2767aecf6d4832e *
      2 ^ 256 +
      0x3c3b77bcf068e08a931fea69c406753378ff1215f0d2077211126a7d7c54f83b)
    withdrawalCredentials := Abi.toBytes 32
      0x010000000000000000000000d74e967a7d771d7c6757edb129229c3c8364a584
    amount := depositSize / gwei
    signature := Abi.toBytes 32
        0x8a1979cc3e8d2897044aa18f99f78569afc0ef9cf5ca5f9545070cf2d2a2ccd5 ++
      Abi.toBytes 32
        0xc328b2b2280a8ba80cc810a46470bfc80d2eaac53e533e43ba054a00587027ba ++
      Abi.toBytes 32
        0x0bcba5fad22355257ceb96b23e45d5746022312fbb7e7efa8c3ae17c0713b426 }

example : (ConsensusLayerDepositManager.depositDataRoot Sha256.hash
      sampleDeposit.pubkey sampleDeposit.signature
      sampleDeposit.withdrawalCredentials sampleDeposit.amount) =
    .ok (Abi.toBytes 32
      0x306fbdcbdbb43ac873b85aea54b2035b10b3b28d55d3869fb499f0b7f7811247) := by
  decide +kernel

/-- The ether of the first deposit is committed. -/
def sampleDepositing : Except Error System := do
  let operated ← sampleOperated
  let (committed, _) ← operated.setConsensusLayerData sample (feesUpTo 0)
    1000000 (.ofNat 11) (quietReport 225 false)
  return committed

/-- Contracts that accept the same deposits differ in their root only. -/
theorem depositToConsensusLayer_congr {contract other : DepositContract}
    {sender : Address} {allocations : List OperatorAllocation}
    (same : other.accepts = contract.accepts) :
    system.depositToConsensusLayer deployment other sender allocations
        other.depositRoot =
      system.depositToConsensusLayer deployment contract sender allocations
        contract.depositRoot := by
  have each : ∀ (validators : List (Bytes × Bytes)) (river : River),
      depositValidators other validators river =
        depositValidators contract validators river := by
    intro validators
    induction validators with
    | nil => exact fun _ => rfl
    | cons validator rest induction =>
        intro river
        simp only [depositValidators, depositValidator, same, induction]
  simp only [depositToConsensusLayer, each, require_of]

theorem sampleDeposit_valid : sampleDeposit.Valid :=
  ⟨Abi.length_toBytes, Abi.length_toBytes, by decide +kernel, by
    simp only [sampleDeposit, List.length_append, Abi.length_toBytes]⟩

/-- Someone else has deposited before River does. -/
theorem deposit_extends_history_sample :
    ∃ (system after : System) (validators : List (Bytes × Bytes))
      (official deposited : OfficialDepositContract),
      sampleDepositing = .ok system ∧
      History Sha256.hash [sampleDeposit] official ∧
      system.depositToConsensusLayer sample (official.contract Sha256.hash)
        (.ofNat 12) [⟨0, 1⟩] (official.contract Sha256.hash).depositRoot =
        .ok after ∧
      validators.length = 1 ∧
      History Sha256.hash ([sampleDeposit] ++
        validators.map (depositOf sample.credentialBytes)) deposited := by
  have checked : returns sampleDepositing (fun system =>
      decide (system.river.depositedValidatorCount = 0) &&
      returns (system.depositToConsensusLayer sample acceptingContract
        (.ofNat 12) [⟨0, 1⟩] acceptingContract.depositRoot) fun after =>
          decide (after.river.depositedValidatorCount = 1)) = true := by
    decide +kernel
  simp only [returns_iff, Bool.and_eq_true, decide_eq_true_eq] at checked
  obtain ⟨system, committed, none, after, returned, one⟩ := checked
  obtain ⟨official, accepted⟩ := History.nil.holds.accepts sampleDeposit_valid
    (show ether ≤ depositSize by decide) (by decide +kernel) rfl
    (show 0 < maxDepositCount by decide +kernel)
  have kept := History.deposit .nil accepted
  have depositing : system.depositToConsensusLayer sample
      (official.contract Sha256.hash) (.ofNat 12) [⟨0, 1⟩]
      (official.contract Sha256.hash).depositRoot = .ok after := by
    rw [@depositToConsensusLayer_congr _ _ acceptingContract
      (official.contract Sha256.hash) _ _ rfl]
    exact returned
  obtain ⟨-, -, registry, validators, -, funded, accepts⟩ :=
    deposit_extends_history Sha256.length_hash kept depositing
  have length : validators.length = 1 := by
    rw [funded] at one
    simp only [River.funded, none, Nat.zero_add] at one
    exact one
  obtain ⟨deposited, -, history⟩ := accepts (by
    rw [length, kept.holds.count]
    decide +kernel)
  exact ⟨system, after, validators, official, deposited, committed, kept,
    depositing, length, history⟩

end Sample

end System

end RiverProtocol

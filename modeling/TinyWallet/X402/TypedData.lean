import TinyWallet.Library.Digests
import TinyWallet.Tx.Erc20
import TinyWallet.X402.Wire

/-!
# The typed data of a token transfer

A payment on an EVM network is an authorization that someone else submits: the
transfer and the token it belongs to are hashed to 32 bytes, and those are
signed. The bytes stand for one transfer of one token, and for no transaction,
unless two inputs that were hashed for them collide.
-/

namespace TypedData

open RustText Rlp Digests X402Wire

abbrev U256Bytes := Word 32

abbrev Address20 := Word 20

/-- The hash function belongs to a crate. -/
abbrev Keccak := List UInt8 → U256Bytes

def domainTypeHash : U256Bytes :=
  ⟨[0x8b, 0x73, 0xc3, 0xc6, 0x9b, 0xb8, 0xfe, 0x3d, 0x51, 0x2e, 0xcc, 0x4c, 0xf7, 0x59, 0xcc, 0x79,
    0x23, 0x9f, 0x7b, 0x17, 0x9b, 0x0f, 0xfa, 0xca, 0xa9, 0xa7, 0x5d, 0x52, 0x2b, 0x39, 0x40, 0x0f],
    rfl⟩

def transferWithAuthorizationType : String :=
  "TransferWithAuthorization(address from,address to,uint256 value,uint256 validAfter," ++
    "uint256 validBefore,bytes32 nonce)"

theorem padded_length {pad width : Nat} {bytes : List UInt8} (h : bytes.length = width) :
    (List.replicate pad (0 : UInt8) ++ bytes).length = pad + width := by
  rw [List.length_append, List.length_replicate, h]

def u256FromU64 (value : BitVec 64) : U256Bytes :=
  ⟨List.replicate 24 0 ++ toBe 8 value.toNat, padded_length (length_toBe 8 _)⟩

theorem u256FromDecimal_length {value : String} {bytes : List UInt8}
    (h : Erc20.u256FromDecimal value = .ok bytes) : bytes.length = 32 := by
  obtain ⟨-, hbytes⟩ := Erc20.u256FromDecimal_iff.mp h
  rw [hbytes]
  exact length_toBe 32 _

def u256FromDecimal (value : String) : Except Erc20.Eip712Error U256Bytes :=
  match h : Erc20.u256FromDecimal value with
  | .error e => .error e
  | .ok bytes => .ok ⟨bytes, u256FromDecimal_length h⟩

def leftPadAddress (address : Address20) : U256Bytes :=
  ⟨List.replicate 12 0 ++ address.val, padded_length address.2⟩

def domainSeparator (keccak : Keccak) (verifyingContract : Address20) (chainId : BitVec 64)
    (name version : String) : U256Bytes :=
  keccak (joined [domainTypeHash, keccak (utf8Bytes name), keccak (utf8Bytes version),
    u256FromU64 chainId, leftPadAddress verifyingContract])

def transferWithAuthorizationHash (keccak : Keccak) (fromAddress toAddress : Address20)
    (value validAfter validBefore nonce : U256Bytes) : U256Bytes :=
  keccak (joined [keccak (utf8Bytes transferWithAuthorizationType), leftPadAddress fromAddress,
    leftPadAddress toAddress, value, validAfter, validBefore, nonce])

def signingDigest (keccak : Keccak) (domainSeparator structHash : U256Bytes) : U256Bytes :=
  keccak ([0x19, 0x01] ++ domainSeparator.val ++ structHash.val)

/-- What a transfer moves, between whom and when. -/
structure Transfer where
  fromAddress : Address20
  toAddress : Address20
  value : U256Bytes
  validAfter : U256Bytes
  validBefore : U256Bytes
  nonce : U256Bytes
deriving DecidableEq

/-- The token that is moved. -/
structure Domain where
  verifyingContract : Address20
  chainId : BitVec 64
  name : String
  version : String
deriving DecidableEq

def Domain.separator (keccak : Keccak) (domain : Domain) : U256Bytes :=
  domainSeparator keccak domain.verifyingContract domain.chainId domain.name domain.version

def Transfer.hash (keccak : Keccak) (transfer : Transfer) : U256Bytes :=
  transferWithAuthorizationHash keccak transfer.fromAddress transfer.toAddress transfer.value
    transfer.validAfter transfer.validBefore transfer.nonce

def Domain.words (keccak : Keccak) (domain : Domain) : List U256Bytes :=
  [domainTypeHash, keccak (utf8Bytes domain.name), keccak (utf8Bytes domain.version),
    u256FromU64 domain.chainId, leftPadAddress domain.verifyingContract]

def Transfer.words (keccak : Keccak) (transfer : Transfer) : List U256Bytes :=
  [keccak (utf8Bytes transferWithAuthorizationType), leftPadAddress transfer.fromAddress,
    leftPadAddress transfer.toAddress, transfer.value, transfer.validAfter, transfer.validBefore,
    transfer.nonce]

/-- What is hashed last. -/
def typedData (keccak : Keccak) (domain : Domain) (transfer : Transfer) : List UInt8 :=
  [0x19, 0x01] ++ (domain.separator keccak).val ++ (transfer.hash keccak).val

def digestOf (keccak : Keccak) (domain : Domain) (transfer : Transfer) : U256Bytes :=
  signingDigest keccak (domain.separator keccak) (transfer.hash keccak)

def Domain.inputs (keccak : Keccak) (domain : Domain) : List (List UInt8) :=
  [joined (domain.words keccak), utf8Bytes domain.name, utf8Bytes domain.version]

/-- Everything that is hashed on the way to a digest and differs from one digest
to the next. -/
def hashedInputs (keccak : Keccak) (domain : Domain) (transfer : Transfer) : List (List UInt8) :=
  typedData keccak domain transfer :: joined (transfer.words keccak) :: domain.inputs keccak

theorem leftPadAddress_injective : Function.Injective leftPadAddress := by
  intro a b h
  exact Subtype.ext (List.append_cancel_left (Subtype.ext_iff.mp h))

theorem u256FromU64_injective : Function.Injective u256FromU64 := by
  intro a b h
  have hbytes := congrArg fromBe (List.append_cancel_left (Subtype.ext_iff.mp h))
  rw [fromBe_toBe, fromBe_toBe] at hbytes
  have ha := a.isLt
  have hb := b.isLt
  have hsize : 256 ^ 8 = 2 ^ 64 := by norm_num
  rw [hsize, Nat.mod_eq_of_lt ha, Nat.mod_eq_of_lt hb] at hbytes
  exact BitVec.eq_of_toNat_eq hbytes

variable {keccak : Keccak}

theorem typedData_determines {domain domain' : Domain} {transfer transfer' : Transfer}
    (h : typedData keccak domain transfer = typedData keccak domain' transfer') :
    domain.separator keccak = domain'.separator keccak ∧
      transfer.hash keccak = transfer'.hash keccak := by
  rw [typedData, typedData, List.append_assoc, List.append_assoc] at h
  obtain ⟨hdomain, htransfer⟩ := List.append_inj (List.append_cancel_left h)
    ((domain.separator keccak).2.trans (domain'.separator keccak).2.symm)
  exact ⟨Subtype.ext hdomain, Subtype.ext htransfer⟩

theorem Domain.determined {domain domain' : Domain}
    (h : domain.separator keccak = domain'.separator keccak) :
    domain = domain' ∨ CollideAt keccak (domain.inputs keccak) (domain'.inputs keccak) := by
  have hjoined : keccak (joined (domain.words keccak)) = keccak (joined (domain'.words keccak)) := h
  rcases words_or_collide hjoined rfl with hwords | hcollide
  · simp only [words, List.cons.injEq] at hwords
    obtain ⟨-, hname, hversion, hchain, hcontract, -⟩ := hwords
    rcases eq_or_collide hname with hname | hcollide
    · rcases eq_or_collide hversion with hversion | hcollide
      · left
        cases domain
        cases domain'
        simp only [Domain.mk.injEq]
        exact ⟨leftPadAddress_injective hcontract, u256FromU64_injective hchain,
          utf8Bytes_injective hname, utf8Bytes_injective hversion⟩
      · exact .inr (.tail (.tail (.head hcollide)))
    · exact .inr (.tail (.head hcollide))
  · exact .inr (.head hcollide)

theorem Transfer.determined {transfer transfer' : Transfer}
    (h : transfer.hash keccak = transfer'.hash keccak) : transfer = transfer' ∨
      Collide keccak (joined (transfer.words keccak)) (joined (transfer'.words keccak)) := by
  have hjoined : keccak (joined (transfer.words keccak)) =
      keccak (joined (transfer'.words keccak)) := h
  refine (words_or_collide hjoined rfl).imp_left fun hwords => ?_
  simp only [words, List.cons.injEq] at hwords
  obtain ⟨-, hfrom, hto, hvalue, hafter, hbefore, hnonce, -⟩ := hwords
  cases transfer
  cases transfer'
  simp only [Transfer.mk.injEq]
  exact ⟨leftPadAddress_injective hfrom, leftPadAddress_injective hto, hvalue, hafter, hbefore,
    hnonce⟩

theorem digestOf_determines {domain domain' : Domain} {transfer transfer' : Transfer}
    (h : digestOf keccak domain transfer = digestOf keccak domain' transfer') :
    (domain = domain' ∧ transfer = transfer') ∨ CollideAt keccak
      (hashedInputs keccak domain transfer) (hashedInputs keccak domain' transfer') := by
  have htyped : keccak (typedData keccak domain transfer) =
      keccak (typedData keccak domain' transfer') := h
  rcases eq_or_collide htyped with hbytes | hcollide
  · obtain ⟨hseparator, hstruct⟩ := typedData_determines hbytes
    rcases Transfer.determined hstruct with htransfer | hcollide
    · rcases Domain.determined hseparator with hdomain | hcollide
      · exact .inl ⟨hdomain, htransfer⟩
      · exact .inr (.tail (.tail hcollide))
    · exact .inr (.tail (.head hcollide))
  · exact .inr (.head hcollide)

/-- No transaction's payload begins as typed data does. -/
theorem readTransaction_typed (rest : List UInt8) :
    TxEvm.readTransaction ([0x19, 0x01] ++ rest) = none := by
  have hitem : readItem ([0x19, 0x01] ++ rest) = some (.text [0x19], 0x01 :: rest) := by
    rw [List.cons_append, readItem, if_pos (by decide)]
    rfl
  rw [TxEvm.readTransaction, readTexts, hitem]

/-- A signature over typed data is a signature over one transfer of one token
and over no transaction, or else two of the inputs hashed for them collide. -/
theorem signature_means_one_transfer (keccak : Keccak) (domain : Domain) (transfer : Transfer) :
    (∀ domain' transfer', digestOf keccak domain' transfer' = digestOf keccak domain transfer →
      (domain' = domain ∧ transfer' = transfer) ∨ CollideAt keccak
        (hashedInputs keccak domain' transfer') (hashedInputs keccak domain transfer)) ∧
    ∀ tx : TxEvm.LegacyTransaction,
      tx.digest (fun bytes => (keccak bytes).val) = .ok (digestOf keccak domain transfer).val →
      ∃ payload, tx.signingPayload = .ok payload ∧
        Collide keccak payload (typedData keccak domain transfer) := by
  constructor
  · exact fun domain' transfer' h => digestOf_determines h
  · intro tx h
    obtain ⟨payload, hpayload, hhash⟩ := bind_ok_iff.mp h
    obtain ⟨items, hitems, -⟩ := bind_ok_iff.mp hpayload
    obtain ⟨target, htarget, -⟩ := bind_ok_iff.mp hitems
    obtain ⟨same, hsame, hread⟩ := TxEvm.LegacyTransaction.signingPayload_reads htarget
    obtain rfl : same = payload := Except.ok.inj (hsame.symm.trans hpayload)
    rcases eq_or_collide (Subtype.ext (Except.ok.inj hhash)) with hbytes | hcollide
    · rw [hbytes, List.append_assoc, readTransaction_typed] at hread
      cases hread
    · exact ⟨same, hpayload, hcollide⟩

/-- A hash function that is constant tells no two tokens apart. -/
def constantKeccak : Keccak := fun _ => ⟨List.replicate 32 0, List.length_replicate⟩

def sampleDomain (chainId : BitVec 64) : Domain :=
  ⟨⟨List.replicate 20 0x35, List.length_replicate⟩, chainId, "USD Coin", "2"⟩

def sampleTransfer : Transfer :=
  ⟨⟨List.replicate 20 1, List.length_replicate⟩, ⟨List.replicate 20 2, List.length_replicate⟩,
    u256FromU64 2500, u256FromU64 0, u256FromU64 1700000060, u256FromU64 7⟩

theorem constant_hash_collides :
    CollideAt constantKeccak (hashedInputs constantKeccak (sampleDomain 1) sampleTransfer)
      (hashedInputs constantKeccak (sampleDomain 8453) sampleTransfer) ∧
    ∃ payload, TxEvm.sampleTransaction.signingPayload = .ok payload ∧
      Collide constantKeccak payload
        (typedData constantKeccak (sampleDomain 8453) sampleTransfer) := by
  obtain ⟨hother, htransaction⟩ :=
    signature_means_one_transfer constantKeccak (sampleDomain 8453) sampleTransfer
  have hchains : sampleDomain 1 ≠ sampleDomain 8453 := by
    intro hsame
    have hchain : (1 : BitVec 64) = 8453 := congrArg Domain.chainId hsame
    exact absurd hchain (by decide)
  constructor
  · exact (hother (sampleDomain 1) sampleTransfer rfl).resolve_left fun hsame => hchains hsame.1
  · exact htransaction TxEvm.sampleTransaction (by decide +kernel)

end TypedData

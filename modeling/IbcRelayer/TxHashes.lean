import IbcRelayer.RelayApi
import IbcRelayer.Pipeline

/-!
# IbcRelayer — the hash of a source tx

`Relay` stores the hash of the source tx as it is given. The bridge client of the source chain has
looked the tx up under the bytes of the hash, and later the batch processors put its bytes into a
request. The three parsers differ: the client of an EVM chain uses `common.HexToHash`, which takes
any string, the one of a Cosmos chain uses `hex.DecodeString`, and the processors use
`hex.DecodeString` after `strings.TrimPrefix(hash, "0x")`.
-/

namespace IbcRelayer

/-! ## `common.HexToHash` -/

/-- The bytes that `hex.DecodeString` returns, with or without an error: those of the pairs of
digits before the first byte that is none. -/
def decodedBytes : List UInt8 → List UInt8
  | high :: low :: rest =>
    match hexDigit high, hexDigit low with
    | some h, some l => (h * 16 + l) :: decodedBytes rest
    | _, _ => []
  | _ => []

/-- The UTF-8 bytes of a string. -/
def utf8 (s : String) : List UInt8 := s.toUTF8.data.toList

/-- The string without a leading `0x` or `0X`. -/
def strip0x (s : String) : String :=
  match s.toList with
  | '0' :: 'x' :: rest => String.ofList rest
  | '0' :: 'X' :: rest => String.ofList rest
  | _ => s

/-- `common.FromHex` -/
def fromHex (s : String) : List UInt8 :=
  let digits := utf8 (strip0x s)
  decodedBytes (if digits.length % 2 = 1 then 0x30 :: digits else digits)

/-- `common.BytesToHash`: cropped from the left, or padded on the left, to 32 bytes. -/
def bytesToHash (b : List UInt8) : List UInt8 :=
  List.replicate (32 - b.length) 0 ++ b.drop (b.length - 32)

/-- `common.HexToHash` -/
def hexToHash (s : String) : List UInt8 := bytesToHash (fromHex s)

/-! ## Parsing -/

/-- Pairs of hexadecimal digits, and nothing else. -/
inductive HexPairs : List UInt8 → Prop where
  | nil : HexPairs []
  | pair {high low h l : UInt8} {rest : List UInt8} (hhigh : hexDigit high = some h)
      (hlow : hexDigit low = some l) (hrest : HexPairs rest) : HexPairs (high :: low :: rest)

/-- `hex.DecodeString` succeeds on pairs of digits only, and returns all their bytes. -/
theorem decodeBytes_ok {bytes decoded : List UInt8} (h : decodeBytes bytes = .ok decoded) :
    HexPairs bytes ∧ decoded = decodedBytes bytes := by
  fun_induction decodeBytes bytes generalizing decoded with
  | case1 =>
    cases h
    exact ⟨.nil, rfl⟩
  -- the only case that returns bytes: two digits, and a rest that parses
  | case6 high low rest dh dl hl hh tail htail ih =>
    cases h
    obtain ⟨hpairs, hdecoded⟩ := ih htail
    refine ⟨.pair hh hl hpairs, ?_⟩
    rw [hdecoded, decodedBytes, hh, hl]
  | _ => cases h

/-- `hex.DecodeString` succeeds on all pairs of digits. -/
theorem HexPairs.decodeBytes {bytes : List UInt8} (h : HexPairs bytes) :
    decodeBytes bytes = .ok (decodedBytes bytes) := by
  induction h with
  | nil => rfl
  | pair hhigh hlow _ ih => simp [IbcRelayer.decodeBytes, decodedBytes, hhigh, hlow, ih]

/-- Two digits make one byte. -/
theorem HexPairs.length {bytes : List UInt8} (h : HexPairs bytes) :
    bytes.length = 2 * (decodedBytes bytes).length := by
  induction h with
  | nil => rfl
  | pair hhigh hlow _ ih =>
    simp only [decodedBytes, hhigh, hlow, List.length_cons, ih]
    omega

/-- The mark is no pair of digits. -/
theorem not_hexPairs {high low : UInt8} {rest : List UInt8} (h : hexDigit low = none) :
    ¬ HexPairs (high :: low :: rest) := by
  rintro (_ | ⟨_, hlow, _⟩)
  rw [h] at hlow
  cases hlow

@[simp] theorem bytesToHash_length (b : List UInt8) : (bytesToHash b).length = 32 := by
  simp [bytesToHash]
  omega

/-- A hash of the right length is neither cropped nor padded. -/
theorem bytesToHash_eq {b : List UInt8} (h : b.length = 32) : bytesToHash b = b := by
  simp [bytesToHash, h]

/-- 64 hexadecimal digits. -/
def isTxHash (s : String) : Bool :=
  (utf8 s).length = 64 && (utf8 s).all fun b => (hexDigit b).isSome

/-- Pairs of digits are an even number of digits. -/
theorem hexPairs_iff (bytes : List UInt8) :
    HexPairs bytes ↔ bytes.length % 2 = 0 ∧ ∀ b ∈ bytes, (hexDigit b).isSome = true := by
  constructor
  · intro h
    induction h with
    | nil => simp
    | pair hhigh hlow _ ih =>
      refine ⟨by simp only [List.length_cons]; omega, ?_⟩
      simpa [hhigh, hlow] using ih.2
  · rintro ⟨heven, hdigits⟩
    -- two digits at a time, as the decoder reads them
    fun_induction decodedBytes bytes with
    | case1 high low rest h l hlow hhigh ih =>
      refine .pair hhigh hlow
        (ih (by simp only [List.length_cons] at heven; omega) fun b hb => hdigits b ?_)
      exact List.mem_cons_of_mem _ (List.mem_cons_of_mem _ hb)
    | case2 high low rest hnot =>
      obtain ⟨h, hh⟩ := Option.isSome_iff_exists.mp (hdigits high (by simp))
      obtain ⟨l, hl⟩ := Option.isSome_iff_exists.mp (hdigits low (by simp))
      exact absurd hl (hnot h l hh)
    | case3 bytes hshort =>
      match bytes with
      | [] => exact .nil
      | [b] => cases heven
      | high :: low :: rest => exact absurd rfl (hshort high low rest)

/-- A tx hash in terms of pairs. -/
theorem isTxHash_iff (s : String) :
    isTxHash s = true ↔ (utf8 s).length = 64 ∧ HexPairs (utf8 s) := by
  rw [hexPairs_iff, isTxHash]
  simp only [Bool.and_eq_true, decide_eq_true_eq, List.all_eq_true]
  constructor
  · rintro ⟨hlength, hdigits⟩
    exact ⟨hlength, by rw [hlength], hdigits⟩
  · rintro ⟨hlength, -, hdigits⟩
    exact ⟨hlength, hdigits⟩

theorem utf8_ofList (l : List Char) : utf8 (String.ofList l) = l.flatMap String.utf8EncodeChar := by
  simp [utf8, String.toUTF8, List.utf8Encode]

/-- A string that begins with `0x` or `0X` is not made of digits. -/
theorem not_hexPairs_mark {s : String} {c : Char} {rest : List Char}
    (hs : s.toList = '0' :: c :: rest) (hc : c = 'x' ∨ c = 'X') : ¬ HexPairs (utf8 s) := by
  rw [← String.ofList_toList (s := s), hs, utf8_ofList, List.flatMap_cons, List.flatMap_cons]
  rcases hc with rfl | rfl <;> exact not_hexPairs rfl

/-- What is left of the two parsers' difference: a leading `0X`. -/
theorem strip0x_eq {s : String} (h : HexPairs (utf8 (trimHexMark s))) :
    strip0x s = trimHexMark s := by
  unfold strip0x
  unfold trimHexMark at h ⊢
  split
  · rename_i rest hs
    simp only [hs]
  · rename_i rest hs
    simp only [hs] at h
    -- a leading `0X` is left by `TrimPrefix`, and is no digit
    exact absurd h (not_hexPairs_mark hs (Or.inr rfl))
  · rename_i hnot _
    split
    · rename_i rest hs
      exact absurd hs (hnot rest)
    · rfl

/-- There is no mark to trim from a string of digits. -/
theorem trimHexMark_eq {s : String} (h : HexPairs (utf8 s)) : trimHexMark s = s := by
  unfold trimHexMark
  split
  · rename_i rest hs
    exact absurd h (not_hexPairs_mark hs (Or.inl rfl))
  · rfl

/-! ## The bytes that are looked up and the bytes that are requested -/

/-- The bytes under which the client of an EVM chain looks a tx up. -/
def EVMBridgeClient.txID (txHash : String) : List UInt8 := hexToHash txHash

/-- The bytes under which the client of a Cosmos chain looks a tx up. -/
def CosmosBridgeClient.txID (txHash : String) : Except GoError (List UInt8) :=
  match decodeString txHash with
  | .ok hashBytes => .ok hashBytes
  | .error err => .error (err.wrap "hex decoding tx hash")

/-- `BatchRecvPacket` and `BatchTimeoutPacket` request the packet of the row with this tx id. -/
def Requested (r : Ibcv2Transfer) (txID : List UInt8) : Prop :=
  ∀ route, ∀ p ∈ [batchRecvPacket route, batchTimeoutPacket route],
    (p.gather [] [newIBCV2Transfer r]).requested = [newIBCV2Transfer r]
      ∧ (p.gather [] [newIBCV2Transfer r]).txIDs = [txID]

/-- The batch processors request a packet by the bytes that `hex.DecodeString` makes of the hash
without its `0x`; a transfer whose hash does not parse is left out of the request. -/
theorem requested_iff (r : Ibcv2Transfer) (txID : List UInt8) :
    Requested r txID ↔ decodeString (trimHexMark r.sourceTxHash) = .ok txID := by
  -- both processors read the hash of the send tx
  have hgather : ∀ p : BatchPacket, p.txHash (newIBCV2Transfer r) = .ok r.sourceTxHash →
      ((p.gather [] [newIBCV2Transfer r]).requested = [newIBCV2Transfer r]
          ∧ (p.gather [] [newIBCV2Transfer r]).txIDs = [txID]
        ↔ decodeString (trimHexMark r.sourceTxHash) = .ok txID) := by
    intro p hp
    cases hdecode : decodeString (trimHexMark r.sourceTxHash) with
    | error err => simp [BatchPacket.gather, Gathered.consFailed, hp, hdecode]
    | ok bytes => simp [BatchPacket.gather, Gathered.consRequested, hp, hdecode]
  constructor
  · intro h
    exact (hgather _ rfl).mp (h ⟨"", "", "", ""⟩ _ List.mem_cons_self)
  · intro h route p hp
    rcases List.mem_cons.mp hp with rfl | hp
    · exact (hgather _ rfl).mpr h
    · cases List.mem_singleton.mp hp
      exact (hgather _ rfl).mpr h

/-- **The tx that was looked up is the tx that is requested**, on a Cosmos chain for every hash, on
an EVM chain exactly for the hashes of 64 hexadecimal digits, with or without a leading `0x`. Other
hashes are found on an EVM chain, since `common.HexToHash` takes any string, and are then not
requested or requested as another tx. -/
theorem source_tx_requested (packet : PacketInfo) (sourceChainID destChainID txHash : String)
    (id : Int32) :
    (∀ txID, CosmosBridgeClient.txID txHash = .ok txID →
        Requested ((packet.insert sourceChainID destChainID txHash).toRow id) txID)
      ∧ (Requested ((packet.insert sourceChainID destChainID txHash).toRow id)
          (EVMBridgeClient.txID txHash)
        ↔ isTxHash (trimHexMark txHash) = true) := by
  rw [requested_iff, isTxHash_iff]
  constructor
  · intro txID hlookup
    rw [requested_iff]
    unfold CosmosBridgeClient.txID at hlookup
    split at hlookup
    · rename_i bytes hbytes
      cases hlookup
      show decodeString (trimHexMark txHash) = _
      rw [trimHexMark_eq (decodeBytes_ok hbytes).1]
      exact hbytes
    · cases hlookup
  · constructor
    · intro hdecode
      -- the bytes that are looked up are always 32
      obtain ⟨hpairs, heq⟩ := decodeBytes_ok hdecode
      have hlength := hpairs.length
      rw [← heq, EVMBridgeClient.txID, hexToHash, bytesToHash_length] at hlength
      exact ⟨hlength, hpairs⟩
    · rintro ⟨hlength, hpairs⟩
      refine hpairs.decodeBytes.trans (congrArg Except.ok ?_)
      have hdecoded : (decodedBytes (utf8 (trimHexMark txHash))).length = 32 := by
        have := hpairs.length
        omega
      rw [EVMBridgeClient.txID, hexToHash, fromHex, strip0x_eq hpairs, if_neg (by omega)]
      exact (bytesToHash_eq hdecoded).symm

/-- A hash that begins with `0X` is found on an EVM chain and never requested; a short one is found
and another tx is requested. -/
theorem lenient_hash_not_requested :
    ¬ Requested ({ Sample.packet with
        sourceTxHash := "0X" ++ String.ofList (List.replicate 64 'a') }.toRow 1)
        (EVMBridgeClient.txID ("0X" ++ String.ofList (List.replicate 64 'a')))
      ∧ ¬ Requested ({ Sample.packet with sourceTxHash := "0xa1" }.toRow 1)
        (EVMBridgeClient.txID "0xa1") := by
  rw [requested_iff, requested_iff]
  decide +kernel

end IbcRelayer

import IbcRelayer.Bridge.Find

/-!
# IbcRelayer — the commitments of the router

`IsPacketReceived` and `IsPacketCommitted` of the EVM client read one storage slot of the router
each, the one under the hash of a path. In the same storage the router writes and deletes what it
commits to for all packets of all clients.

* `commitmentPath_inj` — no two packets and no two kinds of commitments have one path, whatever the
  client ids are: they stand in front of a number and a kind that have a fixed width.
* `KeepsCommitments` — what is assumed of the router, whose contract is not part of the relayer.
* `storage` — the slots after the packets that such a router has handled.
* `commitments_exact` — so the two queries tell of each packet whether it was received, and whether
  it was sent and not acknowledged or timed out since.
-/

namespace IbcRelayer

open Bytes EVMQueryClient

/-! ## Paths -/

/-- The path of a commitment of the given kind. -/
def commitmentPath (clientID : String) (kind : UInt8) (sequence : UInt64) : List UInt8 :=
  bytesOf clientID ++ [kind] ++ bigEndian 8 sequence.toNat

/-- The values of a path are of types that `encodePacked` knows. -/
theorem encodePacked_path (clientID : String) (kind : UInt8) (sequence : UInt64) :
    encodePacked (pathValues clientID kind sequence)
      = .ok (commitmentPath clientID kind sequence) := by
  simp [encodePacked, pathValues, commitmentPath, Except.map]

theorem bytesOf_inj {s t : String} (h : bytesOf s = bytesOf t) : s = t :=
  String.toByteArray_inj.mp (ByteArray.ext (Array.toList_inj.mp h))

/-- The kind and the number have a fixed width, so that the client id is what is left. -/
theorem commitmentPath_inj {clientID clientID' : String} {kind kind' : UInt8}
    {sequence sequence' : UInt64} :
    commitmentPath clientID kind sequence = commitmentPath clientID' kind' sequence'
      ↔ clientID = clientID' ∧ kind = kind' ∧ sequence = sequence' := by
  constructor
  · intro h
    have hfits : ∀ n : UInt64, n.toNat < 256 ^ 8 := fun n => n.toNat_lt
    -- the last eight bytes are the number, and the byte before them is the kind
    obtain ⟨hfront, hsequence⟩ := append_bigEndian_inj (hfits _) (hfits _) h
    obtain ⟨hclient, hkind⟩ := List.append_inj' hfront rfl
    exact ⟨bytesOf_inj hclient, List.singleton_inj.mp hkind, UInt64.toNat_inj.mp hsequence⟩
  · rintro ⟨rfl, rfl, rfl⟩
    rfl

/-! ## The storage of the router -/

/-- What the router does with a packet, named by its client on this chain and its number; `packet`
and `acks` are the contents. -/
inductive PacketStep where
  | sendPacket (clientID : String) (sequence : UInt64) (packet : List UInt8)
  | recvPacket (clientID : String) (sequence : UInt64) (packet acks : List UInt8)
  | ackPacket (clientID : String) (sequence : UInt64)
  | timeoutPacket (clientID : String) (sequence : UInt64)

/-- The paths that the router writes to in a step, with the values. -/
abbrev RouterWrites := PacketStep → List (List UInt8 × List UInt8)

/-- The router keeps a commitment for each packet that is sent, and a receipt and the acks of each
packet that is received. The commitment is deleted when the packet is acknowledged or timed out. -/
structure KeepsCommitments (writes : RouterWrites) : Prop where
  send : ∀ clientID sequence packet, ∃ commitment, commitment ≠ unwritten
    ∧ writes (.sendPacket clientID sequence packet)
      = [(commitmentPath clientID 1 sequence, commitment)]
  recv : ∀ clientID sequence packet acks, ∃ receipt commitment, receipt ≠ unwritten
    ∧ writes (.recvPacket clientID sequence packet acks)
      = [(commitmentPath clientID 2 sequence, receipt),
        (commitmentPath clientID 3 sequence, commitment)]
  ack : ∀ clientID sequence,
    writes (.ackPacket clientID sequence) = [(commitmentPath clientID 1 sequence, unwritten)]
  timeout : ∀ clientID sequence,
    writes (.timeoutPacket clientID sequence) = [(commitmentPath clientID 1 sequence, unwritten)]

/-- The slot of a hash, after steps of which the latest comes first. -/
def storage (keccak256 : List UInt8 → List UInt8) (writes : RouterWrites) (hash : List UInt8) :
    List PacketStep → List UInt8
  | [] => unwritten
  | step :: earlier =>
    match (writes step).find? (keccak256 ·.1 = hash) with
    | some (_, value) => value
    | none => storage keccak256 writes hash earlier

/-- No path that is written to has the hash of another path, `path`. -/
def NoCollision (keccak256 : List UInt8 → List UInt8) (writes : RouterWrites) (path : List UInt8)
    (steps : List PacketStep) : Prop :=
  ∀ step ∈ steps, ∀ write ∈ writes step, keccak256 write.1 = keccak256 path → write.1 = path

/-! ## What the packets have gone through -/

/-- The packet was received at some time. -/
def Received (clientID : String) (sequence : UInt64) (steps : List PacketStep) : Prop :=
  ∃ packet acks, .recvPacket clientID sequence packet acks ∈ steps

/-- The packet was sent, and it was not acknowledged or timed out later. -/
def Committed (clientID : String) (sequence : UInt64) (steps : List PacketStep) : Prop :=
  ∃ later packet earlier, steps = later ++ .sendPacket clientID sequence packet :: earlier
    ∧ .ackPacket clientID sequence ∉ later ∧ .timeoutPacket clientID sequence ∉ later

section Packets

variable {clientID : String} {sequence : UInt64} {step : PacketStep} {steps : List PacketStep}

/-- A packet is received by the latest step, or was before. -/
theorem received_cons : Received clientID sequence (step :: steps)
    ↔ (∃ packet acks, step = .recvPacket clientID sequence packet acks)
      ∨ Received clientID sequence steps := by
  simp only [Received, List.mem_cons, eq_comm (b := step), exists_or]

/-- A packet is sent by the latest step, or it was open before and the step does not close it. -/
theorem committed_cons : Committed clientID sequence (step :: steps)
    ↔ (∃ packet, step = .sendPacket clientID sequence packet)
      ∨ (step ≠ .ackPacket clientID sequence ∧ step ≠ .timeoutPacket clientID sequence
        ∧ Committed clientID sequence steps) := by
  constructor
  · rintro ⟨later, packet, earlier, hsteps, hack, htimeout⟩
    cases later with
    | nil => exact .inl ⟨packet, (List.cons.inj hsteps).1⟩
    | cons step' later =>
      obtain ⟨rfl, rfl⟩ := List.cons.inj hsteps
      exact .inr ⟨fun heq => hack (by simp [heq]), fun heq => htimeout (by simp [heq]), later,
        packet, earlier, rfl, fun hin => hack (by simp [hin]), fun hin => htimeout (by simp [hin])⟩
  · rintro (⟨packet, rfl⟩ | ⟨hack, htimeout, later, packet, earlier, rfl, hack', htimeout'⟩)
    · exact ⟨[], packet, steps, rfl, by simp, by simp⟩
    · exact ⟨step :: later, packet, earlier, rfl, by simp [hack.symm, hack'],
        by simp [htimeout.symm, htimeout']⟩

end Packets

/-! ## The slots of a packet -/

section Storage

variable {keccak256 : List UInt8 → List UInt8} {writes : RouterWrites} {clientID : String}
  {sequence : UInt64} {path : List UInt8} {step : PacketStep} {steps : List PacketStep}

theorem NoCollision.tail (h : NoCollision keccak256 writes path (step :: steps)) :
    NoCollision keccak256 writes path steps :=
  fun step' hstep' => h step' (List.mem_cons_of_mem _ hstep')

/-- Without a collision a slot belongs to its path. -/
theorem storage_cons (h : NoCollision keccak256 writes path (step :: steps)) :
    storage keccak256 writes (keccak256 path) (step :: steps)
      = match (writes step).find? (·.1 = path) with
        | some (_, value) => value
        | none => storage keccak256 writes (keccak256 path) steps := by
  have hsame : ∀ write ∈ writes step,
      decide (keccak256 write.1 = keccak256 path) = decide (write.1 = path) := by
    intro write hwrite
    refine decide_eq_decide.mpr ⟨h step List.mem_cons_self write hwrite, fun heq => ?_⟩
    rw [heq]
  rw [storage, ← List.head?_filter, ← List.head?_filter, List.filter_congr hsame]

/-- The slot of a receipt is written when the packet is received, and never again deleted. -/
theorem storage_received (hrouter : KeepsCommitments writes)
    (h : NoCollision keccak256 writes (commitmentPath clientID 2 sequence) steps) :
    storage keccak256 writes (keccak256 (commitmentPath clientID 2 sequence)) steps ≠ unwritten
      ↔ Received clientID sequence steps := by
  -- on the steps, the latest first: either it writes to this slot, or the slot is as before
  induction steps with
  | nil => simp [storage, Received]
  | cons step steps ih =>
    rw [storage_cons h, received_cons, ← ih h.tail]
    cases step with
    | sendPacket clientID' sequence' packet =>
      obtain ⟨commitment, -, hwrites⟩ := hrouter.send clientID' sequence' packet
      simp [hwrites, commitmentPath_inj]
    | recvPacket clientID' sequence' packet acks =>
      obtain ⟨receipt, commitment, hwritten, hwrites⟩ :=
        hrouter.recv clientID' sequence' packet acks
      by_cases hpacket : clientID' = clientID ∧ sequence' = sequence
      · obtain ⟨rfl, rfl⟩ := hpacket
        simp [hwrites, hwritten]
      · simp [hwrites, commitmentPath_inj, hpacket]
    | ackPacket => simp [hrouter.ack, commitmentPath_inj]
    | timeoutPacket => simp [hrouter.timeout, commitmentPath_inj]

/-- The slot of a commitment is written when the packet is sent, and deleted when it is closed. -/
theorem storage_committed (hrouter : KeepsCommitments writes)
    (h : NoCollision keccak256 writes (commitmentPath clientID 1 sequence) steps) :
    storage keccak256 writes (keccak256 (commitmentPath clientID 1 sequence)) steps ≠ unwritten
      ↔ Committed clientID sequence steps := by
  induction steps with
  | nil => simp [storage, Committed]
  | cons step steps ih =>
    rw [storage_cons h, committed_cons, ← ih h.tail]
    cases step with
    | sendPacket clientID' sequence' packet =>
      obtain ⟨commitment, hwritten, hwrites⟩ := hrouter.send clientID' sequence' packet
      by_cases hpacket : clientID' = clientID ∧ sequence' = sequence
      · obtain ⟨rfl, rfl⟩ := hpacket
        simp [hwrites, hwritten]
      · simp [hwrites, commitmentPath_inj, hpacket]
    -- a receipt and acks have other paths
    | recvPacket clientID' sequence' packet acks =>
      obtain ⟨receipt, commitment, -, hwrites⟩ := hrouter.recv clientID' sequence' packet acks
      simp [hwrites, commitmentPath_inj]
    | ackPacket clientID' sequence' =>
      by_cases hpacket : clientID' = clientID ∧ sequence' = sequence
      · obtain ⟨rfl, rfl⟩ := hpacket
        simp [hrouter.ack]
      · simp [hrouter.ack, commitmentPath_inj, hpacket]
    | timeoutPacket clientID' sequence' =>
      by_cases hpacket : clientID' = clientID ∧ sequence' = sequence
      · obtain ⟨rfl, rfl⟩ := hpacket
        simp [hrouter.timeout]
      · simp [hrouter.timeout, commitmentPath_inj, hpacket]

end Storage

/-! ## The queries -/

/-- The node reads the slots of a router that has made these steps. -/
def EVMQueryNode.Reads (node : EVMQueryNode) (client : EVMQueryClient) (writes : RouterWrites)
    (steps : List PacketStep) : Prop :=
  ∀ hash slot, node.getCommitment hash = .ok slot →
    slot = storage client.keccak256 writes hash steps

section Queries

variable {client : EVMQueryClient} {node : EVMQueryNode} {writes : RouterWrites}
  {steps : List PacketStep} {clientID : String} {sequence : UInt64} {answer : Bool}

/-- An answer of a query is about the slot of its path. -/
theorem hasCommitment_eq (hreads : node.Reads client writes steps) {kind : UInt8}
    {getting : List UInt8 → String}
    (h : client.hasCommitment node clientID kind sequence getting = .ok answer) :
    answer = true ↔ storage client.keccak256 writes
      (client.keccak256 (commitmentPath clientID kind sequence)) steps ≠ unwritten := by
  unfold hasCommitment at h
  rw [encodePacked_path] at h
  dsimp only at h
  split at h
  · cases h
  · rename_i slot hslot
    cases h
    rw [hreads _ _ hslot]
    exact decide_eq_true_iff

/-- **The two queries are exact.** Whatever else the router has done, for any clients and in any
order, an answer of `IsPacketReceived` tells whether the packet was received, and one of
`IsPacketCommitted` whether it was sent and is still to be closed, unless another path that was
written to has the same hash. -/
theorem commitments_exact (hrouter : KeepsCommitments writes)
    (hreads : node.Reads client writes steps) :
    (NoCollision client.keccak256 writes (commitmentPath clientID 2 sequence) steps →
      client.isPacketReceived node clientID sequence = .ok answer →
        (answer = true ↔ Received clientID sequence steps))
      ∧ (NoCollision client.keccak256 writes (commitmentPath clientID 1 sequence) steps →
        client.isPacketCommitted node clientID sequence = .ok answer →
          (answer = true ↔ Committed clientID sequence steps)) := by
  refine ⟨fun hcollision h => ?_, fun hcollision h => ?_⟩
  · rw [hasCommitment_eq hreads h, storage_received hrouter hcollision]
  · rw [hasCommitment_eq hreads h, storage_committed hrouter hcollision]

end Queries

/-! ### A router with two packets -/

namespace Sample

/-- `Keccak256` on the inputs of the samples: four paths and a client id. -/
def digests : List (List UInt8 × List UInt8) :=
  [(commitmentPath "client-0" 1 1,
      bigEndian 32 0x3afaf5ccd0f14678af1f261cb9a12a7fd4d3798178b94cb5d9d975d08e1829d8),
    (commitmentPath "client-0" 2 1,
      bigEndian 32 0xd6ccad3e5a7f444a7021b87151ad3f2e36015ffa61f1d5d880840c6a78a0df82),
    (commitmentPath "client-0" 3 1,
      bigEndian 32 0x1f711e438855a9f207769be3974ef33d9231684a187227612b8c30c0128a4b69),
    (commitmentPath "client-0" 1 2,
      bigEndian 32 0x6ace69efdef3c5e10278e5fa12e32f4d734142d5933461c32fc77b521f304687),
    (bytesOf "client-0",
      bigEndian 32 0x39f4d2028f003db1ecbf5bf3649c5c8a57d04e1882d85711b341cc01a56dbc16)]

/-- The digest of an input of the samples. -/
def keccak256 (data : List UInt8) : List UInt8 :=
  ((digests.find? (·.1 = data)).map (·.2)).getD []

/-- The topics of the router's events, as the bindings of its contract have them. -/
def eventID : RouterEvent → List UInt8
  | .writeAcknowledgement =>
    bigEndian 32 0x76765590e2b799b0506100f8a6610cfecab2c71e8e1f8aa981b099aff0dfdb74
  | .ackPacket =>
    bigEndian 32 0xf9bab74bcdb634f4d3dd064cc42a13df056598e1c0336905d2f5750fbfb08b7b
  | .timeoutPacket =>
    bigEndian 32 0x01e5ed58494819ef3f6480dd08e433b7c08ed75c7abdf2c22c6f04b71340a168

/-- A string is hashed, and a number is padded on the left. -/
def topic : TopicRule → List UInt8
  | .hash h => h
  | .string s => keccak256 (bytesOf s)
  | .uint64 n => bigEndian 32 n.toNat

/-- A client of the router, at an address of the configuration. -/
def queryClient : EVMQueryClient where
  chainID := "1"
  routerAddress := bigEndian 20 0x3fcBB8b5d85FB5F77603e11536b5E90FeE37e6c0
  eventID
  keccak256
  makeTopics query := .ok (query.map (·.map topic))
  printed _ := ""
  location := .utc

/-- A router whose commitments all have the same value. -/
def writes : RouterWrites
  | .sendPacket clientID sequence _ =>
    [(commitmentPath clientID 1 sequence, List.replicate 32 1)]
  | .recvPacket clientID sequence _ _ =>
    [(commitmentPath clientID 2 sequence, List.replicate 32 1),
      (commitmentPath clientID 3 sequence, List.replicate 32 1)]
  | .ackPacket clientID sequence | .timeoutPacket clientID sequence =>
    [(commitmentPath clientID 1 sequence, unwritten)]

theorem writes_keeps : KeepsCommitments writes where
  send _ _ _ := ⟨_, by decide, rfl⟩
  recv _ _ _ _ := ⟨_, _, by decide, rfl⟩
  ack _ _ := rfl
  timeout _ _ := rfl

/-- The first of two packets was acknowledged. -/
def packetSteps : List PacketStep :=
  [.ackPacket "client-0" 1, .sendPacket "client-0" 2 [2], .recvPacket "client-0" 1 [3] [4],
    .sendPacket "client-0" 1 [1]]

/-- A node that reads the slots of the sample router. -/
def queryNode : EVMQueryNode where
  transactionReceipt _ := .error ethereumNotFound
  headerByNumber _ := .error ethereumNotFound
  getCommitment hash := .ok (storage keccak256 writes hash packetSteps)
  filterLogs _ := .ok []
  transactionByHash _ := .error ethereumNotFound

/-- The digests of the paths that are written to are apart. -/
theorem noCollision {path : List UInt8} (h : path ∈ digests.map (·.1)) :
    NoCollision keccak256 writes path packetSteps := by
  have hall : ∀ path ∈ digests.map (·.1), ∀ step ∈ packetSteps, ∀ write ∈ writes step,
      keccak256 write.1 = keccak256 path → write.1 = path := by
    decide +kernel
  exact hall path h

end Sample

/-- `commitments_exact` for a packet that was acknowledged, and another packet that was received
with the same number. -/
theorem commitments_exact_acked :
    Sample.queryClient.isPacketReceived Sample.queryNode "client-0" 1 = .ok true
      ∧ Received "client-0" 1 Sample.packetSteps
      ∧ Sample.queryClient.isPacketCommitted Sample.queryNode "client-0" 1 = .ok false
      ∧ ¬ Committed "client-0" 1 Sample.packetSteps := by
  have hreads : Sample.queryNode.Reads Sample.queryClient Sample.writes Sample.packetSteps := by
    rintro hash slot ⟨⟩
    rfl
  have hreceived : Sample.queryClient.isPacketReceived Sample.queryNode "client-0" 1
      = .ok true := by
    decide +kernel
  have hcommitted : Sample.queryClient.isPacketCommitted Sample.queryNode "client-0" 1
      = .ok false := by
    decide +kernel
  refine ⟨hreceived, ?_, hcommitted, fun hopen => ?_⟩
  · exact ((commitments_exact Sample.writes_keeps hreads).1
      (Sample.noCollision (by simp [Sample.digests])) hreceived).mp rfl
  · cases ((commitments_exact Sample.writes_keeps hreads).2
      (Sample.noCollision (by simp [Sample.digests])) hcommitted).mpr hopen

end IbcRelayer

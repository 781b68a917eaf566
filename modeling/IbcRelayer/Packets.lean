import Mathlib.Data.List.Forall2
import IbcRelayer.Bridge.Cosmos
import IbcRelayer.Forgery
import IbcRelayer.Spec.Insert

/-!
# IbcRelayer — from the events of a tx to the times of its transfers

What `SendPacketsFromTx` of the Cosmos client makes of the events of a tx, and what is left of a
packet's timeout when `Relay` has stored it and `NewIBCV2Transfer` reads it.

* A number that is no `int64` is an error even in an event of IBC v1, which is to be ignored: the
  numbers are parsed before it is known which version the event is of.
* `time.Unix` returns a time in the zone of the host. The column has no zone: what is stored is the
  wall clock, and it is read as UTC.
-/

namespace IbcRelayer

/-! ## The attributes of an event -/

/-- The value of the last attribute with this key. -/
def lastValue (key : String) : List (String × String) → Option String
  | [] => none
  | (k, v) :: rest => (lastValue key rest).or (if k = key then some v else none)

/-- The value that counts when a key is there more than once. -/
def AbciEvent.value (event : AbciEvent) (key : String) : Option String :=
  lastValue key event.attributes

/-- A loop over attributes keeps, in what only one key sets, the last value of that key. -/
theorem foldl_lastValue {σ τ : Type} {set : σ → String × String → σ} (get : σ → τ) {key : String}
    (read : String → τ)
    (hset : ∀ s k v, get (set s (k, v)) = if k = key then read v else get s)
    (attributes : List (String × String)) (s : σ) :
    get (attributes.foldl set s) = ((lastValue key attributes).map read).getD (get s) := by
  induction attributes generalizing s with
  | nil => rfl
  | cons attr rest ih =>
    obtain ⟨k, v⟩ := attr
    rw [List.foldl_cons, ih, hset, lastValue]
    -- a later value of the key wins
    cases lastValue key rest with
    | some value => rfl
    | none => by_cases hk : k = key <;> simp [hk]

/-- A value comes from one of the attributes. -/
theorem lastValue_mem {key value : String} {attributes : List (String × String)}
    (h : lastValue key attributes = some value) : (key, value) ∈ attributes := by
  induction attributes with
  | nil => cases h
  | cons attr rest ih =>
    obtain ⟨k, v⟩ := attr
    rw [lastValue] at h
    cases hrest : lastValue key rest with
    | some value' =>
      rw [hrest] at h
      cases h
      exact List.mem_cons_of_mem _ (ih hrest)
    | none =>
      by_cases hk : k = key
      · simp_all
      · simp [hrest, hk] at h

namespace CosmosBridgeClient

/-- The event is a packet of IBC v2: it names both clients. -/
def isV2 (event : AbciEvent) : Bool :=
  event.type = "send_packet" ∧ (event.value "packet_source_client").getD "" ≠ ""
    ∧ (event.value "packet_dest_client").getD "" ≠ ""

/-- A number that `readAttribute` can parse, if it parses the attribute. -/
def Parses (attr : String × String) : Prop :=
  attr.1 = "packet_sequence" ∨ attr.1 = "packet_timeout_timestamp" → (atoi attr.2).isSome = true

section Reading

variable (location : Location)

/-- What an attribute that parses does to the packet. -/
def setAttribute (packet : PacketInfo) : String × String → PacketInfo
  | (key, value) =>
    if key = "packet_sequence" then
      { packet with sequence := ((atoi value).getD 0).toUInt64 }
    else if key = "packet_source_client" then
      { packet with sourceClient := value }
    else if key = "packet_dest_client" then
      { packet with destinationClient := value }
    else if key = "packet_timeout_timestamp" then
      { packet with timeoutTimestamp := Time.unix location ((atoi value).getD 0) }
    else
      packet

/-- An attribute is read without an error if its number parses; the other attributes always are. -/
theorem readAttribute_ok {packet packet' : PacketInfo} {attr : String × String} :
    readAttribute location packet attr = .ok packet'
      ↔ Parses attr ∧ setAttribute location packet attr = packet' := by
  obtain ⟨key, value⟩ := attr
  simp only [readAttribute, setAttribute, Parses]
  by_cases hsequence : key = "packet_sequence"
  · cases atoi value <;> simp [hsequence]
  by_cases hsource : key = "packet_source_client"
  · simp [hsource]
  by_cases hdest : key = "packet_dest_client"
  · simp [hdest]
  by_cases htimeout : key = "packet_timeout_timestamp"
  · cases atoi value <;> simp [htimeout]
  · simp [hsequence, hsource, hdest, htimeout]

/-- The loop over the attributes stops at the first number that does not parse. -/
theorem readAttributes_ok {packet packet' : PacketInfo} {attributes : List (String × String)} :
    attributes.foldlM (readAttribute location) packet = .ok packet'
      ↔ (∀ attr ∈ attributes, Parses attr)
          ∧ attributes.foldl (setAttribute location) packet = packet' := by
  induction attributes generalizing packet with
  | nil => simp [pure, Except.pure]
  | cons attr rest ih =>
    rw [List.foldlM_cons, List.forall_mem_cons, List.foldl_cons]
    cases hread : readAttribute location packet attr with
    | error err =>
      have hno : ¬ Parses attr := fun hparse => by
        have hok : readAttribute location packet attr = .ok _ :=
          (readAttribute_ok location).mpr ⟨hparse, rfl⟩
        rw [hread] at hok
        cases hok
      simp [bind, Except.bind, hno]
    | ok next =>
      obtain ⟨hparse, rfl⟩ := (readAttribute_ok location).mp hread
      simp only [hparse, true_and]
      exact ih

/-- The packet of an event that parses, without the time of its block. -/
def packetOf (event : AbciEvent) : PacketInfo :=
  event.attributes.foldl (setAttribute location) emptyPacket

/-- The fields of the packet, each from the last attribute with its key. -/
theorem packetOf_sourceClient (event : AbciEvent) :
    (packetOf location event).sourceClient = (event.value "packet_source_client").getD "" := by
  have hset : ∀ packet k v, (setAttribute location packet (k, v)).sourceClient
      = if k = "packet_source_client" then v else packet.sourceClient := by
    intro packet k v
    simp only [setAttribute]
    split_ifs <;> simp_all
  have h := foldl_lastValue (·.sourceClient) id hset event.attributes emptyPacket
  rwa [Option.map_id, id] at h

theorem packetOf_destinationClient (event : AbciEvent) :
    (packetOf location event).destinationClient = (event.value "packet_dest_client").getD "" := by
  have hset : ∀ packet k v, (setAttribute location packet (k, v)).destinationClient
      = if k = "packet_dest_client" then v else packet.destinationClient := by
    intro packet k v
    simp only [setAttribute]
    split_ifs <;> simp_all
  have h := foldl_lastValue (·.destinationClient) id hset event.attributes emptyPacket
  rwa [Option.map_id, id] at h

theorem packetOf_sequence (event : AbciEvent) :
    (packetOf location event).sequence
      = ((event.value "packet_sequence").map fun v => ((atoi v).getD 0).toUInt64).getD 0 := by
  have hset : ∀ packet k v, (setAttribute location packet (k, v)).sequence
      = if k = "packet_sequence" then ((atoi v).getD 0).toUInt64 else packet.sequence := by
    intro packet k v
    simp only [setAttribute]
    split_ifs <;> simp_all
  exact foldl_lastValue (·.sequence) _ hset event.attributes emptyPacket

theorem packetOf_timeoutTimestamp (event : AbciEvent) :
    (packetOf location event).timeoutTimestamp
      = ((event.value "packet_timeout_timestamp").map
          fun v => Time.unix location ((atoi v).getD 0)).getD .zero := by
  have hset : ∀ packet k v, (setAttribute location packet (k, v)).timeoutTimestamp
      = if k = "packet_timeout_timestamp" then Time.unix location ((atoi v).getD 0)
        else packet.timeoutTimestamp := by
    intro packet k v
    simp only [setAttribute]
    split_ifs <;> simp_all
  exact foldl_lastValue (·.timeoutTimestamp) _ hset event.attributes emptyPacket

/-- The events are read to their end if all numbers in them parse, and then every packet of IBC v2
is one of the result. -/
theorem packetsOfEvents_ok {events : List AbciEvent} {packets : List PacketInfo} :
    packetsOfEvents location events = .ok packets
      ↔ (∀ event ∈ events, event.type = "send_packet" → ∀ attr ∈ event.attributes, Parses attr)
          ∧ (events.filter isV2).map (packetOf location) = packets := by
  induction events generalizing packets with
  | nil => simp [packetsOfEvents]
  | cons event rest ih =>
    rw [packetsOfEvents, List.forall_mem_cons]
    by_cases hsend : event.type = "send_packet"
    · rw [if_neg (not_not.mpr hsend)]
      -- the test of the loop is that of the filter
      have hfilter : ((event :: rest).filter isV2).map (packetOf location)
          = if (packetOf location event).sourceClient = ""
              ∨ (packetOf location event).destinationClient = ""
            then (rest.filter isV2).map (packetOf location)
            else packetOf location event :: (rest.filter isV2).map (packetOf location) := by
        rw [packetOf_sourceClient, packetOf_destinationClient, List.filter_cons]
        split_ifs <;> simp_all [isV2]
      rw [hfilter]
      constructor
      · intro hok
        cases hread : event.attributes.foldlM (readAttribute location) emptyPacket with
        | error err => simp [hread, bind, Except.bind] at hok
        | ok packet =>
          obtain ⟨hparse, hpacket⟩ := (readAttributes_ok location).mp hread
          cases hrest : packetsOfEvents location rest with
          | error err => simp [hread, hrest, bind, Except.bind] at hok
          | ok packets' =>
            obtain ⟨hparse', hpackets'⟩ := ih.mp hrest
            refine ⟨⟨fun _ => hparse, hparse'⟩, ?_⟩
            rw [hpackets', packetOf, hpacket]
            simp only [hread, hrest, bind, Except.bind] at hok
            split_ifs at hok ⊢ <;> simpa [pure, Except.pure] using hok
      · rintro ⟨⟨hparse, hparse'⟩, rfl⟩
        have hread : event.attributes.foldlM (readAttribute location) emptyPacket
            = .ok (packetOf location event) := (readAttributes_ok location).mpr ⟨hparse hsend, rfl⟩
        rw [hread, ih.mpr ⟨hparse', rfl⟩]
        simp only [bind, Except.bind]
        split_ifs <;> rfl
    -- an event of another type is skipped, whatever is in it
    · have hv1 : isV2 event = false := by simp [isV2, hsend]
      rw [if_pos hsend, ih, List.filter_cons_of_neg (by simp [hv1])]
      simp [hsend]

end Reading

/-! ## Exactness -/

/-- The packet is that of the event, in a block of this time. -/
structure Carries (location : Location) (time : Time) (event : AbciEvent) (packet : PacketInfo) :
    Prop where
  sourceClient : event.value "packet_source_client" = some packet.sourceClient
  destinationClient : event.value "packet_dest_client" = some packet.destinationClient
  sequence : (event.value "packet_sequence").bind decimal = some packet.sequence.toNat
  timeoutTimestamp : ∃ m : Nat, (event.value "packet_timeout_timestamp").bind decimal = some m
    ∧ packet.timeoutTimestamp = ⟨m * 10 ^ 9, (location m).toInt⟩
  timestamp : packet.timestamp = time

/-- The event has a sequence number and a timeout, and both fit the types that take them. -/
def InRange (event : AbciEvent) : Prop :=
  (∃ n < 2 ^ 63, (event.value "packet_sequence").bind decimal = some n)
    ∧ ∃ m : Nat, (event.value "packet_timeout_timestamp").bind decimal = some m
        ∧ (m : Int) + unixToInternal < 2 ^ 63

/-- Every number of a `send_packet` event is an `int64`, whatever the version of its packet. -/
structure Readable (event : AbciEvent) : Prop where
  parses : ∀ attr ∈ event.attributes, Parses attr
  inRange : isV2 event = true → InRange event

/-- A number that was parsed has a value below `2 ^ 63`. -/
theorem atoi_of_parses {event : AbciEvent} (hparse : ∀ attr ∈ event.attributes, Parses attr)
    {key value : String} (hkey : key = "packet_sequence" ∨ key = "packet_timeout_timestamp")
    (hvalue : event.value key = some value) {n : Nat} (hn : decimal value = some n) :
    n < 2 ^ 63 ∧ atoi value = some (.ofInt n) := by
  have hsome := hparse (key, value) (lastValue_mem hvalue) hkey
  have hatoi := atoi_of_decimal hn
  by_cases hlt : n < 2 ^ 63
  · rw [if_pos hlt] at hatoi
    exact ⟨hlt, hatoi⟩
  · rw [if_neg hlt] at hatoi
    rw [hatoi] at hsome
    cases hsome

/-- An event whose numbers parse is carried over exactly if they are in range. What can go wrong
then is a timeout that `time.Time` cannot stand for. -/
theorem carries_iff (location : Location) (time : Time) {event : AbciEvent}
    (hv2 : isV2 event = true) (hparse : ∀ attr ∈ event.attributes, Parses attr) :
    Carries location time event { packetOf location event with timestamp := time }
      ↔ InRange event := by
  constructor
  · rintro ⟨-, -, hsequence, ⟨m, htimeout, htime⟩, -⟩
    obtain ⟨value, hvalue, hn⟩ := Option.bind_eq_some_iff.mp hsequence
    obtain ⟨value', hvalue', hm⟩ := Option.bind_eq_some_iff.mp htimeout
    refine ⟨⟨_, (atoi_of_parses hparse (.inl rfl) hvalue hn).1, hsequence⟩, m, htimeout, ?_⟩
    obtain ⟨hlt, hatoi⟩ := atoi_of_parses hparse (.inr rfl) hvalue' hm
    -- a larger timeout wraps around
    simp only [packetOf_timeoutTimestamp, hvalue', Option.map_some, Option.getD_some, hatoi,
      Time.unix, unixSeconds_natCast hlt, Time.mk.injEq] at htime
    by_contra hwrap
    rw [if_neg hwrap] at htime
    omega
  · rintro ⟨⟨n, hlt, hsequence⟩, m, htimeout, hbound⟩
    obtain ⟨value, hvalue, hn⟩ := Option.bind_eq_some_iff.mp hsequence
    obtain ⟨value', hvalue', hm⟩ := Option.bind_eq_some_iff.mp htimeout
    obtain ⟨-, hatoi⟩ := atoi_of_parses hparse (.inl rfl) hvalue hn
    obtain ⟨hlt', hatoi'⟩ := atoi_of_parses hparse (.inr rfl) hvalue' hm
    -- a packet of IBC v2 names both clients
    simp only [isV2, Bool.decide_and, Bool.and_eq_true, decide_eq_true_eq] at hv2
    refine ⟨?_, ?_, ?_, ⟨m, htimeout, ?_⟩, rfl⟩
    · rw [packetOf_sourceClient]
      cases hsource : event.value "packet_source_client" <;> simp_all
    · rw [packetOf_destinationClient]
      cases hdest : event.value "packet_dest_client" <;> simp_all
    · rw [hsequence, packetOf_sequence, hvalue, Option.map_some, Option.getD_some, hatoi,
        Option.getD_some, toNat_toUInt64_ofInt_natCast hlt]
    · rw [packetOf_timeoutTimestamp, hvalue', Option.map_some, Option.getD_some, hatoi',
        Option.getD_some, Time.unix, unixSeconds_natCast hlt', if_pos hbound]

end CosmosBridgeClient

open CosmosBridgeClient in
/-- **Which txs have their packets read exactly.** For a tx that the node has, in a block whose
header it has, `SendPacketsFromTx` returns one exact packet for each event of IBC v2, in order, if
and only if the numbers of all its `send_packet` events parse, also of those that are passed over,
and those of IBC v2 are in range. -/
theorem cosmos_packets_exact_iff (location : Location) (node : CosmosNode) (txHash : String)
    {hashBytes : List UInt8} (hhash : decodeString txHash = .ok hashBytes) {txResult : ResultTx}
    (htx : node.tx hashBytes = .ok txResult) {time : Time}
    (hheader : node.header txResult.height = .ok (some time)) :
    (∃ packets, sendPacketsFromTx location node txHash = .ok packets
        ∧ List.Forall₂ (Carries location time) (txResult.events.filter isV2) packets)
      ↔ ∀ event ∈ txResult.events, event.type = "send_packet" → Readable event := by
  have hread : sendPacketsFromTx location node txHash
      = (packetsOfEvents location txResult.events).map
          (List.map ({ · with timestamp := time })) := by
    simp only [sendPacketsFromTx, hhash, htx, hheader]
    cases packetsOfEvents location txResult.events with
    | error err => rfl
    | ok packets => cases packets <;> rfl
  -- one bad event fails the whole tx, so the packets are compared event by event
  rw [hread]
  constructor
  · rintro ⟨packets, hok, hcarries⟩ event hevent hsend
    cases hevents : packetsOfEvents location txResult.events with
    | error err =>
      rw [hevents] at hok
      cases hok
    | ok packets' =>
      obtain ⟨hparse, rfl⟩ := (packetsOfEvents_ok location).mp hevents
      rw [hevents] at hok
      cases hok
      rw [List.map_map, List.forall₂_map_right_iff, List.forall₂_same] at hcarries
      refine ⟨hparse event hevent hsend, fun hv2 => ?_⟩
      exact (carries_iff location time hv2 (hparse event hevent hsend)).mp
        (hcarries event (List.mem_filter.mpr ⟨hevent, hv2⟩))
  · intro hreadable
    have hevents : packetsOfEvents location txResult.events = .ok _ :=
      (packetsOfEvents_ok location).mpr
        ⟨fun event hevent hsend => (hreadable event hevent hsend).parses, rfl⟩
    refine ⟨_, congrArg _ hevents, ?_⟩
    rw [List.map_map, List.forall₂_map_right_iff, List.forall₂_same]
    intro event hfilter
    obtain ⟨hevent, hv2⟩ := List.mem_filter.mp hfilter
    have hsend : event.type = "send_packet" := by
      simp only [isV2, Bool.decide_and, Bool.and_eq_true, decide_eq_true_eq] at hv2
      exact hv2.1
    have hevent' := hreadable event hevent hsend
    exact (carries_iff location time hv2 hevent'.parses).mpr (hevent'.inRange hv2)

namespace Sample

/-- A packet of IBC v2. -/
def v2Event : AbciEvent where
  type := "send_packet"
  attributes := [("packet_source_client", "07-tendermint-0"), ("packet_dest_client", "client-1"),
    ("packet_sequence", "7"), ("packet_timeout_timestamp", "1700000000")]

/-- What is to be read of it, in a block of the node below. -/
def v2Packet : PacketInfo where
  sequence := 7
  sourceClient := "07-tendermint-0"
  destinationClient := "client-1"
  timeoutTimestamp := ⟨1700000000 * 10 ^ 9, 0⟩
  timestamp := ⟨1699999999 * 10 ^ 9, 0⟩

/-- A packet of IBC v1 whose timeout is the largest `uint64`, in nanoseconds. -/
def v1Event : AbciEvent where
  type := "send_packet"
  attributes := [("packet_sequence", "1"), ("packet_timeout_timestamp", "18446744073709551615"),
    ("packet_src_channel", "channel-0")]

/-- A node with one tx. -/
def cosmosNode (events : List AbciEvent) : CosmosNode where
  tx _ := .ok { height := 7, code := 0, log := "", events, tx := .notFeeTx }
  header _ := .ok (some ⟨1699999999 * 10 ^ 9, 0⟩)

end Sample

/-- `cosmos_packets_exact_iff` for a tx with one packet, which is returned. -/
theorem cosmos_packets_exact_at_one_event :
    CosmosBridgeClient.sendPacketsFromTx .utc (Sample.cosmosNode [Sample.v2Event]) "ab"
        = .ok [Sample.v2Packet]
      ∧ List.Forall₂ (CosmosBridgeClient.Carries .utc ⟨1699999999 * 10 ^ 9, 0⟩)
          ([Sample.v2Event].filter CosmosBridgeClient.isV2) [Sample.v2Packet]
      ∧ ∀ event ∈ [Sample.v2Event], event.type = "send_packet" →
          CosmosBridgeClient.Readable event := by
  have hreturned : CosmosBridgeClient.sendPacketsFromTx .utc
      (Sample.cosmosNode [Sample.v2Event]) "ab" = .ok [Sample.v2Packet] := by
    decide +kernel
  have hreadable : ∀ event ∈ [Sample.v2Event], event.type = "send_packet" →
      CosmosBridgeClient.Readable event := by
    intro event hevent _
    obtain rfl := List.mem_singleton.mp hevent
    have hparses : ∀ attr ∈ Sample.v2Event.attributes, CosmosBridgeClient.Parses attr := by
      unfold CosmosBridgeClient.Parses
      decide +kernel
    exact ⟨hparses, fun _ => ⟨⟨7, by decide, by decide +kernel⟩,
      1700000000, by decide +kernel, by decide⟩⟩
  obtain ⟨packets, hpackets, hcarries⟩ :=
    (cosmos_packets_exact_iff .utc (Sample.cosmosNode [Sample.v2Event]) "ab"
      (show decodeString "ab" = .ok [0xab] by decide +kernel) rfl rfl).mpr hreadable
  cases hreturned.symm.trans hpackets
  exact ⟨hreturned, hcarries, hreadable⟩

/-- A packet of IBC v1 turns the packets of its tx into an error. -/
theorem v1_packet_read :
    CosmosBridgeClient.isV2 Sample.v1Event = false
      ∧ CosmosBridgeClient.sendPacketsFromTx .utc (Sample.cosmosNode [Sample.v2Event]) "ab"
          = .ok [Sample.v2Packet]
      ∧ CosmosBridgeClient.sendPacketsFromTx .utc
          (Sample.cosmosNode [Sample.v2Event, Sample.v1Event]) "ab"
          = .error (.new "converting attribute timeout ts 18446744073709551615 to int") := by
  decide +kernel

/-! ## Times in the table -/

/-- What a `timestamp` column has of a time, as it is read: the wall clock, to the microsecond,
taken for UTC. -/
def Time.stored (t : Time) : Time :=
  let (day, second) := t.wallClock
  { unixNano := (day * 86400 + second) * 10 ^ 9 + t.unixNano % 10 ^ 9 / 1000 * 1000 }

/-- The row, as a query returns it. -/
def Ibcv2Transfer.readBack (r : Ibcv2Transfer) : Ibcv2Transfer :=
  { r with
    sourceTxTime := r.sourceTxTime.stored
    packetTimeoutTimestamp := r.packetTimeoutTimestamp.stored
    recvTxTime := r.recvTxTime.map (·.stored)
    writeAckTxTime := r.writeAckTxTime.map (·.stored)
    writeAckTxFinalizedTime := r.writeAckTxFinalizedTime.map (·.stored)
    ackTxTime := r.ackTxTime.map (·.stored)
    timeoutTxTime := r.timeoutTxTime.map (·.stored)
    sourceTxFinalizedTime := r.sourceTxFinalizedTime.map (·.stored) }

/-- What is read back is off by the offset of the host's zone at that time. -/
theorem Time.unix_stored (location : Location) (sec : Int64) :
    (Time.unix location sec).stored.unixNano
      = (unixSeconds sec + (location (unixSeconds sec)).toInt) * 10 ^ 9 := by
  simp only [Time.stored, Time.wallClock, Time.unix]
  omega

section Storage

open CosmosBridgeClient RelayerAPIService

/-- `SendPacketsFromTx` makes the packet of an event whose timeout is `m`. -/
inductive OnChain (location : Location) : PacketInfo → Nat → Prop where
  | evm {sendPacketEventID : List UInt8} {chainID txHash : String} {node : EVMNode}
      {receipt : Receipt} {packets : List PacketInfo} {log : Log} {packet : PacketInfo}
      {sendPacket : SendPacket} (hreceipt : node.transactionReceipt txHash = .ok receipt)
      (hread : EVMBridgeClient.sendPacketsFromTx location sendPacketEventID chainID txHash node
        = .ok packets)
      (hplace : (log, packet)
        ∈ (EVMBridgeClient.eventLogs sendPacketEventID receipt.logs).zip packets)
      (hevent : log.sendPacket = .ok sendPacket) :
      OnChain location packet sendPacket.timeoutTimestamp.toNat
  | cosmos {node : CosmosNode} {txHash : String} {hashBytes : List UInt8} {txResult : ResultTx}
      {packets : List PacketInfo} {event : AbciEvent} {packet : PacketInfo} {m : Nat}
      (hhash : decodeString txHash = .ok hashBytes) (htx : node.tx hashBytes = .ok txResult)
      (hread : CosmosBridgeClient.sendPacketsFromTx location node txHash = .ok packets)
      (hplace : (event, packet) ∈ (txResult.events.filter isV2).zip packets)
      (hevent : (event.value "packet_timeout_timestamp").bind decimal = some m) :
      OnChain location packet m

/-- The transfer that is read from the row of the packet has the timeout `m`. -/
def StoredExactly (packet : PacketInfo) (m : Nat) : Prop :=
  ∀ (config : ConfigReader) (chainID txHash : String) (packets : List (PacketInfo × Int32))
    (rows rows' : List Ibcv2Transfer) (id : Int32),
    insertPackets config chainID txHash packets rows = some rows' → (packet, id) ∈ packets →
    packet.Known config chainID →
    ∃ r, row rows' (packet.key chainID) = some r
      ∧ (newIBCV2Transfer r.readBack).packetTimeoutTimestamp.unixNano = m * 10 ^ 9

/-- The packets of the EVM client are those of the events, one for each. -/
theorem evm_packets_forall₂ {location : Location} {sendPacketEventID : List UInt8}
    {chainID txHash : String} {logs : List (Option Log)} {packets : List PacketInfo}
    (h : EVMBridgeClient.packetsOfLogs location sendPacketEventID chainID txHash logs
      = .ok packets) :
    List.Forall₂ (fun log packet => log.sendPacket.map (EVMBridgeClient.packetInfo location)
        = .ok packet) (EVMBridgeClient.eventLogs sendPacketEventID logs) packets := by
  induction logs generalizing packets with
  | nil =>
    cases h
    exact .nil
  | cons log? rest ih =>
    cases log? with
    | none => exact ih h
    | some log =>
      rw [EVMBridgeClient.packetsOfLogs] at h
      rw [EVMBridgeClient.eventLogs_some]
      -- a log of another event is skipped, a log of this one has to parse
      by_cases htopic : log.topics.head? = some sendPacketEventID
      · rw [if_neg (not_not.mpr htopic)] at h
        rw [if_pos htopic]
        cases hparse : log.sendPacket with
        | error text => simp [hparse] at h
        | ok sendPacket =>
          rw [hparse] at h
          cases hrest : EVMBridgeClient.packetsOfLogs location sendPacketEventID chainID txHash rest
            with
          | error err => simp [hrest] at h
          | ok packets' =>
            simp only [hrest, Except.ok.injEq] at h
            subst h
            exact .cons (by rw [hparse]; rfl) (ih hrest)
      · rw [if_pos htopic] at h
        rw [if_neg htopic]
        exact ih h

/-- What `SendPacketsFromTx` of the EVM client returns are the packets of the logs, with the time
of their block. -/
theorem evm_sendPacketsFromTx_inv {location : Location} {sendPacketEventID : List UInt8}
    {chainID txHash : String} {node : EVMNode} {receipt : Receipt} {packets : List PacketInfo}
    (hreceipt : node.transactionReceipt txHash = .ok receipt)
    (hread : EVMBridgeClient.sendPacketsFromTx location sendPacketEventID chainID txHash node
      = .ok packets) :
    ∃ raw time,
      EVMBridgeClient.packetsOfLogs location sendPacketEventID chainID txHash receipt.logs = .ok raw
      ∧ packets = raw.map ({ · with timestamp := time }) := by
  simp only [EVMBridgeClient.sendPacketsFromTx, hreceipt] at hread
  split at hread
  · cases hread
  · cases hread
    exact ⟨[], .zero, ‹_›, rfl⟩
  · split at hread
    · cases hread
    · cases hread
      exact ⟨_, _, ‹_›, rfl⟩

/-- What `SendPacketsFromTx` of the Cosmos client returns are the packets of the events, with the
time of their block. -/
theorem cosmos_sendPacketsFromTx_inv {location : Location} {node : CosmosNode} {txHash : String}
    {hashBytes : List UInt8} {txResult : ResultTx} {packets : List PacketInfo}
    (hhash : decodeString txHash = .ok hashBytes) (htx : node.tx hashBytes = .ok txResult)
    (hread : CosmosBridgeClient.sendPacketsFromTx location node txHash = .ok packets) :
    ∃ raw time, packetsOfEvents location txResult.events = .ok raw
      ∧ packets = raw.map ({ · with timestamp := time }) := by
  simp only [CosmosBridgeClient.sendPacketsFromTx, hhash, htx] at hread
  split at hread
  · cases hread
  · cases hread
    exact ⟨[], .zero, ‹_›, rfl⟩
  · split at hread
    · cases hread
    · cases hread
    · cases hread
      exact ⟨_, _, ‹_›, rfl⟩

/-- The timeout of a packet is the `time.Unix` of that of its event. -/
theorem OnChain.timeout {location : Location} {packet : PacketInfo} {m : Nat}
    (h : OnChain location packet m) :
    ∃ sec, packet.timeoutTimestamp = Time.unix location sec
      ∧ unixSeconds sec
        = if (m : Int) + unixToInternal < 2 ^ 63 then (m : Int) else (m : Int) - 2 ^ 64 := by
  cases h with
  | evm hreceipt hread hplace hevent =>
    rename_i sendPacket
    obtain ⟨raw, time, hraw, rfl⟩ := evm_sendPacketsFromTx_inv hreceipt hread
    -- the timeout of an EVM event is a `uint64`, and is converted to an `int64`
    refine ⟨_, ?_, unixSeconds_unsigned sendPacket.timeoutTimestamp⟩
    rw [List.zip_map_right] at hplace
    obtain ⟨⟨log, packet'⟩, hpair, heq⟩ := List.mem_map.mp hplace
    cases heq
    have hpacket := (List.forall₂_iff_zip.mp (evm_packets_forall₂ hraw)).2 hpair
    change log.sendPacket = .ok sendPacket at hevent
    rw [hevent] at hpacket
    cases hpacket
    rfl
  | cosmos hhash htx hread hplace hevent =>
    obtain ⟨raw, time, hraw, rfl⟩ := cosmos_sendPacketsFromTx_inv hhash htx hread
    obtain ⟨hparse, rfl⟩ := (packetsOfEvents_ok location).mp hraw
    rw [List.map_map, List.zip_map_right] at hplace
    obtain ⟨⟨event, event'⟩, hpair, heq⟩ := List.mem_map.mp hplace
    cases heq
    obtain rfl : event = event' :=
      (List.forall₂_iff_zip.mp (List.forall₂_same.mpr fun _ _ => rfl)).2 hpair
    obtain ⟨hmem, hv2⟩ := List.mem_filter.mp (List.of_mem_zip hpair).1
    have hsend : event.type = "send_packet" := by
      simp only [isV2, Bool.decide_and, Bool.and_eq_true, decide_eq_true_eq] at hv2
      exact hv2.1
    change (event.value "packet_timeout_timestamp").bind decimal = some m at hevent
    obtain ⟨value, hvalue, hm⟩ := Option.bind_eq_some_iff.mp hevent
    obtain ⟨hlt, hatoi⟩ := atoi_of_parses (hparse event hmem hsend) (.inr rfl) hvalue hm
    refine ⟨.ofInt m, ?_, unixSeconds_natCast hlt⟩
    change (packetOf location event).timeoutTimestamp = _
    rw [packetOf_timeoutTimestamp, hvalue, Option.map_some, Option.getD_some, hatoi,
      Option.getD_some]

/-- The condition for one packet, from either client. -/
theorem storedExactly_iff {location : Location} {packet : PacketInfo} {m : Nat}
    (h : OnChain location packet m) :
    StoredExactly packet m ↔ location m = 0 ∧ (m : Int) + unixToInternal < 2 ^ 63 := by
  obtain ⟨sec, htimeout, hsec⟩ := h.timeout
  have hstored : packet.timeoutTimestamp.stored.unixNano = m * 10 ^ 9
      ↔ location m = 0 ∧ (m : Int) + unixToInternal < 2 ^ 63 := by
    rw [htimeout, Time.unix_stored, hsec]
    by_cases hbound : (m : Int) + unixToInternal < 2 ^ 63
    · rw [if_pos hbound, ← Int64.toInt_inj]
      simp only [hbound, and_true, Int64.toInt_zero]
      omega
    · -- no zone is `2 ^ 64` seconds away
      have hzone := (location ((m : Int) - 2 ^ 64)).toInt_lt
      rw [if_neg hbound]
      simp only [hbound, and_false, iff_false]
      omega
  rw [← hstored]
  constructor
  · intro hexact
    -- the packet alone, on a chain that knows its client
    let config : ConfigReader := fun _ =>
      .ok { ibcv2 := some { counterpartyChains := [(packet.sourceClient, "")] } }
    have hdest : getClientCounterpartyChainID config "" packet.sourceClient = .ok "" := by
      simp [getClientCounterpartyChainID, config, List.lookup_cons_self, bind, Except.bind, pure,
        Except.pure]
    have hinsert : insertPackets config "" "" [(packet, 0)] []
        = some [(packet.insert "" "" "").toRow 0] := by
      rw [insertPackets, hdest]
      rfl
    obtain ⟨r, hrow, htime⟩ :=
      hexact config "" "" _ _ _ 0 hinsert (List.mem_singleton_self _) ⟨"", hdest⟩
    rw [insertPackets_stored hinsert (List.mem_singleton_self _) hdest] at hrow
    cases hrow
    exact htime
  · intro htime config chainID txHash packets rows rows' id hinsert hmem hknown
    obtain ⟨dest, hdest⟩ := hknown
    exact ⟨_, insertPackets_stored hinsert hmem hdest, htime⟩

end Storage

/-- **Which timeouts keep their instant in the table**: those at which the clocks of the host show
UTC, and which a `time.Time` can stand for. For these, the transfer that is made of the stored row
of any packet with this timeout, of an EVM chain or of a Cosmos chain, has the timeout of the chain;
for others, there is a packet for which it has not. -/
theorem packet_timeout_stored_iff (location : Location) (timeout : UInt64) :
    (∀ packet, OnChain location packet timeout.toNat → StoredExactly packet timeout.toNat)
      ↔ location timeout.toNat = 0 ∧ (timeout.toNat : Int) + unixToInternal < 2 ^ 63 := by
  constructor
  · intro hexact
    -- a tx of an EVM chain with this one packet
    let log : Log :=
      { address := [], topics := [[]], text := "", writeAck := .error ""
        sendPacket := .ok ⟨0, "", "", timeout⟩ }
    let receipt : Receipt :=
      { status := 1, effectiveGasPrice := 0, gasUsed := 0, blockNumber := 0, logs := [some log] }
    let node := EVMBridgeClient.nodeOf receipt fun _ => .ok ⟨0, 0⟩
    have hread : EVMBridgeClient.sendPacketsFromTx location [] "" "" node = .ok
        [{ EVMBridgeClient.packetInfo location ⟨0, "", "", timeout⟩ with
           timestamp := Time.unix location 0 }] := rfl
    have honchain : OnChain location _ timeout.toNat :=
      .evm (show node.transactionReceipt "" = .ok receipt from rfl) hread
        (show (log, _) ∈ [(log, _)] from List.mem_singleton_self _) rfl
    exact (storedExactly_iff honchain).mp (hexact _ honchain)
  · intro hcondition packet honchain
    exact (storedExactly_iff honchain).mpr hcondition

namespace Sample

/-- One hour east of UTC. -/
def oneHourEast : Location := fun _ => 3600

def evmNode : EVMNode :=
  EVMBridgeClient.nodeOf { forgedReceipt with logs := [some forgedSendPacket] }
    fun _ => .ok ⟨7, 1699999999⟩

def evmConfig : ConfigReader := fun _ =>
  .ok { ibcv2 := some { counterpartyChains := [("client-0", "cosmoshub-4")] } }

end Sample

/-- On a host one hour east of UTC, a timeout is read an hour late. -/
theorem timeout_read_an_hour_late :
    (EVMBridgeClient.sendPacketsFromTx Sample.oneHourEast [1] "1" "0x00" Sample.evmNode).map
        (fun packets => (RelayerAPIService.relay Sample.evmConfig "1" "0x00"
          (packets.map (·, 0)) []).map
            fun r => (newIBCV2Transfer r.readBack).packetTimeoutTimestamp.unixNano)
        = .ok [1700003600 * 10 ^ 9]
      ∧ Sample.forgedSendPacket.sendPacket.map (·.timeoutTimestamp) = .ok 1700000000 := by
  decide +kernel

end IbcRelayer

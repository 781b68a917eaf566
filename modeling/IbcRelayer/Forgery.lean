import Mathlib.Data.List.ReduceOption
import IbcRelayer.Bridge.Evm

/-!
# IbcRelayer — events that the router did not emit

`FindRecvTx`, `FindAckTx` and `FindTimeoutTx` ask the node for logs of the router only.
`SendPacketsFromTx` and `PacketWriteAckStatus` read a whole receipt and know an event by its first
topic, which any contract can set: a log of another contract adds a packet, and decides the status
of a write ack when it comes first.
-/

namespace IbcRelayer

/-- The receipt without the logs of other contracts. -/
def Receipt.onlyFrom (router : List UInt8) (receipt : Receipt) : Receipt :=
  { receipt with logs := receipt.logs.filter (·.all (·.address = router)) }

/-- The filter leaves out the logs of other contracts; a log that is `nil` is passed over anyway. -/
theorem Receipt.onlyFrom_logs (router : List UInt8) (receipt : Receipt) :
    (receipt.onlyFrom router).logs.reduceOption
      = receipt.logs.reduceOption.filter (·.address = router) := by
  unfold Receipt.onlyFrom
  induction receipt.logs with
  | nil => rfl
  | cons log? rest ih =>
    cases log? with
    | none => simpa [List.filter_cons] using ih
    | some log => by_cases h : log.address = router <;> simpa [List.filter_cons, h] using ih

/-- The first match stays the first when it is not filtered away. -/
theorem find?_filter_of_first {α : Type} {p q : α → Bool} {l : List α} {a : α}
    (hfirst : l.find? q = some a) (ha : p a) : (l.filter p).find? q = some a := by
  obtain ⟨hq, before, after, rfl, hbefore⟩ := List.find?_eq_some_iff_append.mp hfirst
  rw [List.filter_append, List.filter_cons_of_pos ha]
  refine List.find?_eq_some_iff_append.mpr ⟨hq, before.filter p, after.filter p, rfl, ?_⟩
  exact fun b hb => hbefore b (List.mem_of_mem_filter hb)

namespace EVMBridgeClient

/-! ## What is read from a list of logs -/

section Reading

variable (eventID : List UInt8)

/-- The logs of an event, as its first topic tells. -/
def eventLogs (logs : List (Option Log)) : List Log :=
  logs.reduceOption.filter (·.topics.head? = some eventID)

theorem eventLogs_onlyFrom (router : List UInt8) (receipt : Receipt) :
    eventLogs eventID (receipt.onlyFrom router).logs
      = (eventLogs eventID receipt.logs).filter (·.address = router) := by
  rw [eventLogs, receipt.onlyFrom_logs, List.filter_comm, ← eventLogs]

@[simp] theorem eventLogs_nil : eventLogs eventID [] = [] := rfl

@[simp] theorem eventLogs_none (rest : List (Option Log)) :
    eventLogs eventID (none :: rest) = eventLogs eventID rest := rfl

/-- A log counts as the event if its first topic is the event's, whatever contract it is from. -/
theorem eventLogs_some (log : Log) (rest : List (Option Log)) :
    eventLogs eventID (some log :: rest)
      = if log.topics.head? = some eventID then log :: eventLogs eventID rest
        else eventLogs eventID rest := by
  simp [eventLogs, List.filter_cons]

end Reading

/-- Why the log does not parse as a `SendPacket` event. -/
def sendPacketError (log : Log) : Option String :=
  match log.sendPacket with
  | .error text => some text
  | .ok _ => none

section Packets

variable (location : Location) (sendPacketEventID : List UInt8) (chainID txHash : String)

/-- The loop of `SendPacketsFromTx` in one piece: the first event that does not parse ends it with
an error, and otherwise there is a packet for each event. -/
theorem packetsOfLogs_eq (logs : List (Option Log)) :
    packetsOfLogs location sendPacketEventID chainID txHash logs
      = match (eventLogs sendPacketEventID logs).findSome? sendPacketError with
        | some text => .error ((GoError.new text).wrap
            ("parsing send packet event from tx " ++ txHash ++ " logs on chain " ++ chainID))
        | none => .ok ((eventLogs sendPacketEventID logs).filterMap
            fun log => log.sendPacket.toOption.map (packetInfo location)) := by
  induction logs with
  | nil => rfl
  | cons log? rest ih =>
    cases log? with
    | none => simpa [packetsOfLogs] using ih
    | some log =>
      rw [packetsOfLogs, eventLogs_some]
      by_cases htopic : log.topics.head? = some sendPacketEventID
      · rw [if_neg (not_not.mpr htopic), if_pos htopic, List.findSome?_cons, List.filterMap_cons]
        cases hparse : log.sendPacket with
        | error text => simp only [sendPacketError, hparse]
        | ok sendPacket =>
          simp only [sendPacketError, hparse, ih, Except.toOption, Option.map_some]
          cases (eventLogs sendPacketEventID rest).findSome? sendPacketError <;> rfl
      -- a log of another event
      · rw [if_pos htopic, if_neg htopic, ih]

/-- The packets of a receipt whose events all parse: one for each. -/
theorem packets_length {events : List Log} (hparse : events.findSome? sendPacketError = none) :
    (events.filterMap fun log => log.sendPacket.toOption.map (packetInfo location)).length
      = events.length := by
  rw [List.filterMap_length_eq_length]
  intro log hlog
  have hnone := List.findSome?_eq_none_iff.mp hparse log hlog
  unfold sendPacketError at hnone
  cases hsend : log.sendPacket with
  | error text => simp [hsend] at hnone
  | ok sendPacket => simp [Except.toOption]

end Packets

section WriteAcks

variable (writeAckEventID : List UInt8) (sequence : UInt64) (sourceClientID destClientID : String)

/-- The loop of `PacketWriteAckStatus` ends at this log of the event. -/
def decides (log : Log) : Bool :=
  match log.writeAck with
  | .error _ => true
  | .ok writeAck =>
    writeAck.sequence = sequence ∧ writeAck.sourceClient = sourceClientID
      ∧ writeAck.destClient = destClientID

/-- What the log that ends the loop says. -/
def verdict (log : Log) : Except GoError Ibcv2WriteAckStatus :=
  match log.writeAck with
  | .error text =>
    .error ((GoError.new text).wrap ("parsing write packet event from log " ++ log.text))
  | .ok writeAck => .ok (statusOfAcknowledgements writeAck.acknowledgements)

/-- The loop of `PacketWriteAckStatus` in one piece: the first event that is about the packet, or
does not parse, decides. -/
theorem writeAckStatusOfLogs_eq (logs : List (Option Log)) :
    writeAckStatusOfLogs writeAckEventID sequence sourceClientID destClientID logs
      = match (eventLogs writeAckEventID logs).find?
            (decides sequence sourceClientID destClientID) with
        | none => .error errWriteAckNotFoundForPacket
        | some log => verdict log := by
  induction logs with
  | nil => rfl
  | cons log? rest ih =>
    cases log? with
    | none => simpa [writeAckStatusOfLogs] using ih
    | some log =>
      rw [writeAckStatusOfLogs, eventLogs_some]
      by_cases htopic : log.topics.head? = some writeAckEventID
      · rw [if_neg (not_not.mpr htopic), if_pos htopic, List.find?_cons]
        cases hparse : log.writeAck with
        | error text => simp [decides, verdict, hparse]
        | ok writeAck =>
          simp only [decides, hparse]
          split
          · rename_i hmatch
            simp [hmatch, verdict, hparse]
          -- the write ack of another packet
          · rename_i hmatch
            simp [hmatch, ih]
      · rw [if_pos htopic, if_neg htopic, ih]

/-- No log says that there is no write ack: only the end of the loop does. -/
theorem verdict_ne_notFound (log : Log) : verdict log ≠ .error errWriteAckNotFoundForPacket := by
  unfold verdict
  cases log.writeAck with
  | error text =>
    intro h
    -- the parse error has no sentinel in its chain
    have hchain := congrArg (fun e : Except GoError Ibcv2WriteAckStatus =>
      match e with | .error err => err.chain | .ok _ => []) h
    simp [GoError.wrap, GoError.new, errWriteAckNotFoundForPacket] at hchain
  | ok writeAck => simp

end WriteAcks

/-! ## When other contracts change nothing -/

/-- A node that has this receipt for every tx. -/
def nodeOf (receipt : Receipt) (headers : Option Int → Except GoError Header) : EVMNode :=
  ⟨fun _ => .ok receipt, headers⟩

/-- With a block header to read, the packets are those of the logs. -/
theorem sendPacketsFromTx_nodeOf (location : Location) (sendPacketEventID : List UInt8)
    (chainID txHash : String) (receipt : Receipt) (header : Header) :
    sendPacketsFromTx location sendPacketEventID chainID txHash
        (nodeOf receipt fun _ => .ok header)
      = (packetsOfLogs location sendPacketEventID chainID txHash receipt.logs).map
          (List.map ({ · with timestamp := Time.unix location header.time.toInt64 })) := by
  simp only [sendPacketsFromTx, nodeOf]
  cases packetsOfLogs location sendPacketEventID chainID txHash receipt.logs with
  | error err => rfl
  | ok packets => cases packets <;> rfl

/-- No other contract has a `SendPacket` event in the receipt, unless the events are not read to
their end and the router has the event that is to blame. -/
def SendsUnforged (router sendPacketEventID : List UInt8) (receipt : Receipt) : Prop :=
  let events := eventLogs sendPacketEventID receipt.logs
  (∀ log ∈ events, log.address = router)
    ∨ ∃ text, events.findSome? sendPacketError = some text
        ∧ (events.filter (·.address = router)).findSome? sendPacketError = some text

/-- Other contracts make no difference to the packets exactly if none has an event that counts. A
forged event adds a packet, or an error of its own. -/
theorem sendsUnforged_iff (router sendPacketEventID : List UInt8) (receipt : Receipt) :
    (∀ location chainID txHash headers,
        sendPacketsFromTx location sendPacketEventID chainID txHash (nodeOf receipt headers)
          = sendPacketsFromTx location sendPacketEventID chainID txHash
              (nodeOf (receipt.onlyFrom router) headers))
      ↔ SendsUnforged router sendPacketEventID receipt := by
  constructor
  · intro hsame
    have hread := hsame .utc "" "" fun _ => .ok ⟨0, 0⟩
    rw [sendPacketsFromTx_nodeOf, sendPacketsFromTx_nodeOf, packetsOfLogs_eq, packetsOfLogs_eq,
      eventLogs_onlyFrom] at hread
    unfold SendsUnforged
    generalize eventLogs sendPacketEventID receipt.logs = events at hread ⊢
    cases herr : events.findSome? sendPacketError with
    -- the error is that of the router's first event that does not parse
    | some text =>
      cases herr' : (events.filter (·.address = router)).findSome? sendPacketError with
      | some text' =>
        simp only [herr, herr', Except.map, Except.error.injEq, GoError.wrap, GoError.new,
          GoError.mk.injEq, String.append_right_inj, and_true] at hread
        exact .inr ⟨text, herr, hread ▸ herr'⟩
      | none => simp [herr, herr', Except.map] at hread
    | none =>
      cases herr' : (events.filter (·.address = router)).findSome? sendPacketError with
      | some text' => simp [herr, herr', Except.map] at hread
      | none =>
        -- as many packets on both sides, so that no event is filtered away
        simp only [herr, herr', Except.map, Except.ok.injEq] at hread
        have hlength := congrArg List.length hread
        rw [List.length_map, List.length_map, packets_length .utc herr, packets_length .utc herr']
          at hlength
        have hown := List.length_filter_eq_length_iff.mp hlength.symm
        exact .inl fun log hlog => by simpa using hown log hlog
  · intro hunforged location chainID txHash headers
    have hpackets : packetsOfLogs location sendPacketEventID chainID txHash receipt.logs
        = packetsOfLogs location sendPacketEventID chainID txHash
          (receipt.onlyFrom router).logs := by
      rw [packetsOfLogs_eq, packetsOfLogs_eq, eventLogs_onlyFrom]
      rcases hunforged with hown | ⟨text, herr, herr'⟩
      · rw [List.filter_eq_self.mpr fun log hlog => by simpa using hown log hlog]
      · rw [herr, herr']
    simp only [sendPacketsFromTx, nodeOf, hpackets]
    rfl

/-- Where another contract has the first `WriteAcknowledgement` event that decides the status of a
packet, the first such event of the router says the same. -/
def AcksUnforged (router writeAckEventID : List UInt8) (receipt : Receipt) : Prop :=
  let events := eventLogs writeAckEventID receipt.logs
  ∀ sequence sourceClientID destClientID, ∀ log ∈ events.find?
      (decides sequence sourceClientID destClientID), log.address ≠ router →
    ∃ own ∈ (events.filter (·.address = router)).find?
      (decides sequence sourceClientID destClientID), verdict own = verdict log

/-- `PacketWriteAckStatus` says what the loop over the logs says. -/
theorem next_writeAckStatus_eq_iff (writeAckEventID : List UInt8) (receipt receipt' : Receipt)
    (hash : String) (sequence : UInt64) (sourceClientID destClientID : String) :
    next writeAckEventID (.packetWriteAckStatus hash sequence sourceClientID destClientID)
          (.ok receipt)
        = next writeAckEventID (.packetWriteAckStatus hash sequence sourceClientID destClientID)
            (.ok receipt')
      ↔ writeAckStatusOfLogs writeAckEventID sequence sourceClientID destClientID receipt.logs
        = writeAckStatusOfLogs writeAckEventID sequence sourceClientID destClientID
            receipt'.logs := by
  simp only [next, TxQuery.Next.return.injEq]
  generalize writeAckStatusOfLogs writeAckEventID sequence sourceClientID destClientID
    receipt.logs = status
  generalize writeAckStatusOfLogs writeAckEventID sequence sourceClientID destClientID
    receipt'.logs = status'
  cases status <;> cases status' <;> simp [Except.map]

/-- Other contracts make no difference to the status of a write ack exactly if the router says the
same wherever a log of another contract comes first. -/
theorem acksUnforged_iff (router writeAckEventID : List UInt8) (receipt : Receipt) :
    (∀ hash sequence sourceClientID destClientID,
        next writeAckEventID (.packetWriteAckStatus hash sequence sourceClientID destClientID)
            (.ok receipt)
          = next writeAckEventID (.packetWriteAckStatus hash sequence sourceClientID destClientID)
              (.ok (receipt.onlyFrom router)))
      ↔ AcksUnforged router writeAckEventID receipt := by
  simp only [next_writeAckStatus_eq_iff, writeAckStatusOfLogs_eq, eventLogs_onlyFrom, AcksUnforged]
  generalize eventLogs writeAckEventID receipt.logs = events
  constructor
  · intro hsame sequence sourceClientID destClientID log hlog hforeign
    have hread := hsame "" sequence sourceClientID destClientID
    rw [hlog] at hread
    cases hown : (events.filter (·.address = router)).find?
        (decides sequence sourceClientID destClientID) with
    | none =>
      rw [hown] at hread
      exact absurd hread (verdict_ne_notFound log)
    | some own =>
      rw [hown] at hread
      exact ⟨own, rfl, hread.symm⟩
  · intro hunforged _ sequence sourceClientID destClientID
    cases hfirst : events.find? (decides sequence sourceClientID destClientID) with
    -- without the logs of others there is still none that decides
    | none =>
      have hnone : (events.filter (·.address = router)).find?
          (decides sequence sourceClientID destClientID) = none :=
        List.find?_eq_none.mpr fun log hlog =>
          List.find?_eq_none.mp hfirst log (List.mem_of_mem_filter hlog)
      rw [hnone]
    | some log =>
      by_cases hown : log.address = router
      · rw [find?_filter_of_first hfirst (by simpa using hown)]
      · obtain ⟨own, hfind, hsays⟩ :=
          hunforged sequence sourceClientID destClientID log hfirst hown
        rw [show List.find? _ _ = some own from hfind]
        exact hsays.symm

end EVMBridgeClient

open EVMBridgeClient in
/-- **Which receipts are read as if the router alone could emit events**: those in which no log of
another contract counts, neither as a packet that was sent nor as the first word on a write ack. -/
theorem router_alone_speaks_iff (router sendPacketEventID writeAckEventID : List UInt8)
    (receipt : Receipt) :
    ((∀ location chainID txHash headers,
        sendPacketsFromTx location sendPacketEventID chainID txHash (nodeOf receipt headers)
          = sendPacketsFromTx location sendPacketEventID chainID txHash
              (nodeOf (receipt.onlyFrom router) headers))
      ∧ ∀ hash sequence sourceClientID destClientID,
          next writeAckEventID (.packetWriteAckStatus hash sequence sourceClientID destClientID)
              (.ok receipt)
            = next writeAckEventID
                (.packetWriteAckStatus hash sequence sourceClientID destClientID)
                (.ok (receipt.onlyFrom router)))
      ↔ SendsUnforged router sendPacketEventID receipt
          ∧ AcksUnforged router writeAckEventID receipt := by
  rw [sendsUnforged_iff, acksUnforged_iff]

namespace Sample

/-- A `SendPacket` event of a contract that is not the router. -/
def forgedSendPacket : Log where
  address := [0xba, 0xd0]
  topics := [[1]]
  text := ""
  writeAck := .error "event signature mismatch"
  sendPacket := .ok ⟨7, "client-0", "client-1", 1700000000⟩

/-- A `WriteAcknowledgement` event of the same contract. -/
def forgedWriteAck : Log where
  address := [0xba, 0xd0]
  topics := [[2]]
  text := ""
  writeAck := .ok ⟨7, "client-0", "client-1", [errorAcknowledgement]⟩
  sendPacket := .error "event signature mismatch"

/-- The receipt of a tx that has not called the router. -/
def forgedReceipt : Receipt where
  status := 1
  effectiveGasPrice := 1
  gasUsed := 21000
  blockNumber := 7
  logs := [some forgedSendPacket, some forgedWriteAck]

end Sample

open EVMBridgeClient in
/-- A contract other than the router sends a packet and writes its ack. -/
theorem forged_events_believed :
    sendPacketsFromTx .utc [1] "1" "0x00"
        (nodeOf Sample.forgedReceipt fun _ => .ok ⟨7, 1699999999⟩)
        = .ok [{ sequence := 7, sourceClient := "client-0", destinationClient := "client-1",
                 timeoutTimestamp := ⟨1700000000 * 10 ^ 9, 0⟩,
                 timestamp := ⟨1699999999 * 10 ^ 9, 0⟩ }]
      ∧ sendPacketsFromTx .utc [1] "1" "0x00"
          (nodeOf (Sample.forgedReceipt.onlyFrom [0x42]) fun _ => .ok ⟨7, 1699999999⟩) = .ok []
      ∧ next [2] (.packetWriteAckStatus "0x00" 7 "client-0" "client-1") (.ok Sample.forgedReceipt)
          = .return (.ok (.writeAckStatus .error))
      ∧ next [2] (.packetWriteAckStatus "0x00" 7 "client-0" "client-1")
          (.ok (Sample.forgedReceipt.onlyFrom [0x42]))
          = .return (.error errWriteAckNotFoundForPacket) := by
  decide +kernel

end IbcRelayer

import IbcRelayer.Commitments
import IbcRelayer.Lib.Query
import IbcRelayer.Provenance

/-!
# IbcRelayer — what a recorded tx is evidence of

`FindRecvTx`, `FindAckTx` and `FindTimeoutTx` search a chain for the tx that has handled a packet.
An EVM client filters the logs of the router by three topics, where the client id is hashed and the
number padded; a Cosmos client writes the packet into the text of a query.

* `PacketTx` — what a chain has done: a tx has received, acknowledged or timed out a packet, which
  is named by its client on this chain.
* `EVMQueryClient.MakesTopics`, `Query.ReadsAsMeant` — what is assumed of the libraries: how values
  become topics, and that the text of a query is read as it was meant.
* `EVMQueryNode.Shows`, `CosmosQueryNode.Shows` — a node answers a search from what its chain has
  done.
* `EVMQueryClient.findTx_sound`, `CosmosBridgeClient.findTx_sound` — so a search finds no tx of
  another packet, or of another kind.
* `recorded_tx_on_chain` — in every run, a tx that a row records was delivered by the relayer for
  this row, or is on the chain and has handled its packet.
-/

namespace IbcRelayer

open Bytes EVMQueryClient

/-! ## What a chain has done -/

/-- A tx of the chain has received, acknowledged or timed out a packet. -/
structure PacketTx where
  kind : TxType
  clientID : String
  sequence : UInt64
  txHash : String
  deriving DecidableEq, Repr

/-- The client of a packet on the chain that a tx of this kind is for. -/
def TxType.localClient (sourceClientID destinationClientID : String) : TxType → String
  | .recvPacket => destinationClientID
  | .ackPacket | .timeoutPacket => sourceClientID

/-- The client that a tx of this kind is looked for by. -/
def Route.clientOf (route : Route) : TxType → String :=
  TxType.localClient route.sourceClientID route.destinationClientID

/-! ## EVM chains -/

/-- A log is of one of the addresses, and has one of the topics at each place. -/
structure FilterQuery.Selects (q : FilterQuery) (log : FilteredLog) : Prop where
  address : log.address ∈ q.addresses
  topics : List.Forall₂ (fun options topic => topic ∈ options) q.topics
    (log.topics.take q.topics.length)

/-- What the router tells by an event; it writes an acknowledgement when it receives a packet. -/
def RouterEvent.kind : RouterEvent → TxType
  | .writeAcknowledgement => .recvPacket
  | .ackPacket => .ackPacket
  | .timeoutPacket => .timeoutPacket

/-- `abi.MakeTopics` leaves a hash as it is, hashes a string and pads a number on the left. -/
def EVMQueryClient.MakesTopics (client : EVMQueryClient) : Prop :=
  ∀ hash s n topics, client.makeTopics [[.hash hash], [.string s], [.uint64 n]] = .ok topics →
    topics = [[hash], [client.keccak256 (bytesOf s)], [bigEndian 32 n.toNat]]

/-- The log of an event about a packet. -/
structure EVMQueryClient.Announces (client : EVMQueryClient) (event : RouterEvent) (p : PacketTx)
    (log : FilteredLog) : Prop where
  kind : p.kind = event.kind
  topics : log.topics.take 3 = [client.eventID event, client.keccak256 (bytesOf p.clientID),
    bigEndian 32 p.sequence.toNat]
  txHash : log.txHash = p.txHash

/-- The logs that the node returns are selected by the query, and those of the router announce what
the chain has done. No client of these packets has the hash of another client, `clientID`. -/
structure EVMQueryNode.Shows (node : EVMQueryNode) (client : EVMQueryClient)
    (history : List PacketTx) (clientID : String) : Prop where
  selects : ∀ q logs, node.filterLogs q = .ok logs → ∀ log ∈ logs, q.Selects log
  announces : ∀ q logs, node.filterLogs q = .ok logs → ∀ log ∈ logs,
    log.address = client.routerAddress → ∀ event,
      log.topics.head? = some (client.eventID event) → ∃ p ∈ history, client.Announces event p log
  noCollision : ∀ p ∈ history,
    client.keccak256 (bytesOf p.clientID) = client.keccak256 (bytesOf clientID) →
      p.clientID = clientID

namespace EVMQueryClient

variable {client : EVMQueryClient} {node : EVMQueryNode} {history : List PacketTx}
  {clientID : String} {sequence : UInt64} {log : FilteredLog} {event : RouterEvent}

/-- The topics of a log that is selected are the three that were asked for. -/
theorem selected_topics {topics : List (List (List UInt8))} (hmakes : client.MakesTopics)
    (htopics : client.makeTopics (client.topicQuery event clientID sequence) = .ok topics)
    (h : (client.logFilter topics).Selects log) :
    log.topics.take 3 = [client.eventID event, client.keccak256 (bytesOf clientID),
      bigEndian 32 sequence.toNat] := by
  obtain rfl := hmakes _ _ _ _ htopics
  -- three places with one topic each
  obtain ⟨first, others, hfirst, hothers, htake⟩ := List.forall₂_cons_left_iff.mp h.topics
  obtain ⟨second, last, hsecond, hlast, rfl⟩ := List.forall₂_cons_left_iff.mp hothers
  obtain ⟨third, none, hthird, hnone, rfl⟩ := List.forall₂_cons_left_iff.mp hlast
  cases hnone
  rw [List.mem_singleton.mp hfirst, List.mem_singleton.mp hsecond,
    List.mem_singleton.mp hthird] at htake
  exact htake

/-- A padded number is told apart from every other. -/
theorem padded_inj {m n : UInt64} (h : bigEndian 32 m.toNat = bigEndian 32 n.toNat) : m = n := by
  have hfits : ∀ k : UInt64, k.toNat < 256 ^ 32 := fun k =>
    Nat.lt_of_lt_of_le k.toNat_lt (by decide)
  exact UInt64.toNat_inj.mp (bigEndian_inj (hfits m) (hfits n) h)

/-- A log that is selected by the filter of a search is about the packet of the search. -/
theorem selected_mem (hmakes : client.MakesTopics) (hshows : node.Shows client history clientID)
    {topics : List (List (List UInt8))} {logs : List FilteredLog}
    (hquery : client.makeTopics (client.topicQuery event clientID sequence) = .ok topics)
    (hlogs : node.filterLogs (client.logFilter topics) = .ok logs) (hlog : log ∈ logs) :
    ⟨event.kind, clientID, sequence, log.txHash⟩ ∈ history := by
  have hselects := hshows.selects _ _ hlogs log hlog
  have htopics := selected_topics hmakes hquery hselects
  -- the first topic tells the event
  have hhead : log.topics.head? = some (client.eventID event) := by
    have htake := congrArg List.head? htopics
    rwa [List.head?_take, if_neg (by decide)] at htake
  obtain ⟨p, hp, hannounces⟩ := hshows.announces _ _ hlogs log hlog
    (List.mem_singleton.mp hselects.address) event hhead
  -- the topics of the log are those of the packet it announces, and those that were searched for
  obtain ⟨hclient, hsequence⟩ : client.keccak256 (bytesOf p.clientID)
      = client.keccak256 (bytesOf clientID) ∧ p.sequence = sequence := by
    have hsame := hannounces.topics.symm.trans htopics
    simp only [List.cons.injEq, and_true, true_and] at hsame
    exact ⟨hsame.1, padded_inj hsame.2⟩
  have hpacket : p = ⟨event.kind, clientID, sequence, log.txHash⟩ := by
    obtain ⟨kind, id, number, hash⟩ := p
    simp only [PacketTx.mk.injEq]
    exact ⟨hannounces.kind, hshows.noCollision _ hp hclient, hsequence, hannounces.txHash.symm⟩
  exact hpacket ▸ hp

/-- A tx that is found has handled the packet that was searched for. -/
theorem findTx_sound (hmakes : client.MakesTopics) (hshows : node.Shows client history clientID)
    {search : RouterSearch} {tx : BridgeTx}
    (h : client.findTx node search clientID sequence = .ok tx) :
    ⟨search.event.kind, clientID, sequence, tx.hash⟩ ∈ history := by
  unfold findTx at h
  split at h
  · cases h
  · rename_i topics hquery
    split at h
    · cases h
    · cases h
    · rename_i log hlogs
      split at h
      · cases h
      · split at h
        · cases h
        · cases h
          exact selected_mem hmakes hshows hquery hlogs List.mem_cons_self
    · cases h

end EVMQueryClient

/-! ## Cosmos chains -/

/-- The event of a tx that handles a packet in this way. -/
def TxType.eventType : TxType → String
  | .recvPacket => "recv_packet"
  | .ackPacket => "acknowledge_packet"
  | .timeoutPacket => "timeout_packet"

/-- The event says that the packet was handled in this way, and names its two clients and its
number. -/
structure AbciEvent.IsAbout (event : AbciEvent) (kind : TxType)
    (sourceClientID destinationClientID : String) (sequence : UInt64) : Prop where
  type : event.type = kind.eventType
  sourceClient : ("packet_source_client", sourceClientID) ∈ event.attributes
  destinationClient : ("packet_dest_client", destinationClientID) ∈ event.attributes
  sequence : ("packet_sequence", toString sequence.toNat) ∈ event.attributes

/-- One event of the tx meets all conditions. -/
def FoundTx.Satisfies (tx : FoundTx) (conds : List Query.Condition) : Prop :=
  ∃ event ∈ tx.events, ∀ c ∈ conds,
    event.type = c.event ∧ (c.key, c.operand.value) ∈ event.attributes

/-- A query that is answered was read, the txs that the node returns satisfy it as it was read, and
their events tell what the chain has done. -/
structure CosmosQueryNode.Shows (node : CosmosQueryNode)
    (read : String → Option (List Query.Condition)) (history : List PacketTx) : Prop where
  satisfies : ∀ q result, node.txSearch q = .ok result →
    ∃ conds, read q = some conds ∧ ∀ tx ∈ result.txs, tx.Satisfies conds
  announces : ∀ q result, node.txSearch q = .ok result → ∀ tx ∈ result.txs, ∀ event ∈ tx.events,
    ∀ kind sourceClientID destinationClientID sequence,
      event.IsAbout kind sourceClientID destinationClientID sequence →
        ⟨kind, kind.localClient sourceClientID destinationClientID, sequence, tx.hash⟩ ∈ history

/-- A client id that can stand in a query: there is no escape for a quote. -/
def Quotable (clientID : String) : Prop := Query.quote ∉ clientID.toList

namespace CosmosBridgeClient

open Query

variable {node : CosmosQueryNode} {read : String → Option (List Condition)}
  {history : List PacketTx} {kind : TxType} {sourceClientID destClientID : String}
  {sequence : UInt64}

/-- The conditions that every search has, before they are written. -/
def packetQuery (event sourceClientID destClientID : String) (sequence : UInt64) :
    List Condition :=
  [⟨event, "packet_source_client", .quoted sourceClientID⟩,
    ⟨event, "packet_dest_client", .quoted destClientID⟩,
    ⟨event, "packet_sequence", .bare (toString (sequence.toNat : Int))⟩]

/-- What the client prints is what `Condition.render` writes. -/
theorem textCondition_eq (event key text : String) :
    textCondition event key text = Condition.render ⟨event, key, .quoted text⟩ := by
  apply String.toList_inj.mp
  simp [textCondition, Condition.render, Operand.render]

/-- The conditions on a packet are printed as `Condition.render` writes them. -/
theorem packetConditions_eq (event sourceClientID destClientID : String) (sequence : UInt64) :
    packetConditions event sourceClientID destClientID sequence
      = (packetQuery event sourceClientID destClientID sequence).map Condition.render := by
  simp only [packetConditions, packetQuery, textCondition_eq, List.map_cons, List.map_nil]
  rfl

/-- Client ids without a quote make a query that is well formed. -/
theorem packetQuery_wellFormed (hsource : Quotable sourceClientID) (hdest : Quotable destClientID) :
    ∀ c ∈ packetQuery kind.eventType sourceClientID destClientID sequence, c.WellFormed := by
  have hevent : IsName kind.eventType := by cases kind <;> decide
  have hkeys : ∀ key ∈ ["packet_source_client", "packet_dest_client", "packet_sequence"],
      IsName key := by decide
  simp only [packetQuery, List.forall_mem_cons] at hkeys ⊢
  exact ⟨⟨hevent, hkeys.1, hsource⟩, ⟨hevent, hkeys.2.1, hdest⟩, ⟨hevent, hkeys.2.2.1, _, rfl⟩,
    nofun⟩

theorem isAbout_of_meets {event : AbciEvent}
    (h : ∀ c ∈ packetQuery kind.eventType sourceClientID destClientID sequence,
      event.type = c.event ∧ (c.key, c.operand.value) ∈ event.attributes) :
    event.IsAbout kind sourceClientID destClientID sequence := by
  simp only [packetQuery, List.forall_mem_cons] at h
  obtain ⟨⟨htype, hsource⟩, ⟨-, hdest⟩, ⟨-, hsequence⟩, -⟩ := h
  exact ⟨htype, hsource, hdest, hsequence⟩

/-- A tx that is found has handled the packet that was searched for; `more` are the conditions that
a search adds. -/
theorem findTx_sound (hread : ReadsAsMeant read) (hshows : node.Shows read history)
    (hsource : Quotable sourceClientID)
    (hdest : Quotable destClientID) {more : List Condition} (hmore : ∀ c ∈ more, c.WellFormed)
    {name searching : String} {tx : BridgeTx}
    (h : findTx node name searching
      (packetConditions kind.eventType sourceClientID destClientID sequence
        ++ more.map Condition.render) = .ok tx) :
    ⟨kind, kind.localClient sourceClientID destClientID, sequence, tx.hash⟩ ∈ history := by
  rw [packetConditions_eq, ← List.map_append] at h
  unfold findTx at h
  split at h
  · cases h
  · rename_i result hresult
    split at h
    · cases h
    · split at h
      · cases h
      · rename_i hcount _
        dsimp only at h
        split at h
        · cases h
        · cases h
        · cases h
          have hin := List.head_mem (result.nonempty hcount)
          obtain ⟨conds, hconds, hsatisfies⟩ := hshows.satisfies _ _ hresult
          -- the node has read the conditions that were meant
          obtain rfl := hread
            (packetQuery kind.eventType sourceClientID destClientID sequence ++ more)
            (by simp [packetQuery])
            (List.forall_mem_append.mpr ⟨packetQuery_wellFormed hsource hdest, hmore⟩) conds hconds
          obtain ⟨event, hevent, hmeets⟩ := hsatisfies _ hin
          have habout := isAbout_of_meets fun c hc => hmeets c (List.mem_append_left _ hc)
          exact hshows.announces _ _ hresult _ hin event hevent _ _ _ _ habout

end CosmosBridgeClient

/-! ## The clients of the chains -/

/-- A client, with the node that it asks. -/
inductive Searcher where
  | evm (client : EVMQueryClient) (node : EVMQueryNode)
  | cosmos (node : CosmosQueryNode)

namespace Searcher

/-- The search for the tx that has received a packet. -/
def findRecvTx (sourceClientID destinationClientID : String) (sequence : UInt64)
    (timeoutTimestamp : Time) : Searcher → Except GoError BridgeTx
  | evm client node =>
    client.findRecvTx node sourceClientID destinationClientID sequence timeoutTimestamp
  | cosmos node =>
    CosmosBridgeClient.findRecvTx node sourceClientID destinationClientID sequence timeoutTimestamp

/-- The search for the tx that has acknowledged a packet. -/
def findAckTx (sourceClientID destinationClientID : String) (sequence : UInt64) :
    Searcher → Except GoError BridgeTx
  | evm client node => client.findAckTx node sourceClientID destinationClientID sequence
  | cosmos node =>
    CosmosBridgeClient.findAckTx node sourceClientID destinationClientID sequence

/-- The search for the tx that has timed a packet out. -/
def findTimeoutTx (sourceClientID destinationClientID : String) (sequence : UInt64) :
    Searcher → Except GoError BridgeTx
  | evm client node => client.findTimeoutTx node sourceClientID destinationClientID sequence
  | cosmos node =>
    CosmosBridgeClient.findTimeoutTx node sourceClientID destinationClientID sequence

/-- The node shows what its chain has done to one who searches for packets of `clientID`; `read` is
how a Cosmos node reads a query. -/
def Shows (read : String → Option (List Query.Condition)) (history : List PacketTx)
    (clientID : String) : Searcher → Prop
  | evm client node => client.MakesTopics ∧ node.Shows client history clientID
  | cosmos node => node.Shows read history

variable {searcher : Searcher} {read : String → Option (List Query.Condition)}
  {history : List PacketTx} {sourceClientID destinationClientID : String} {sequence : UInt64}
  {tx : BridgeTx}

/-- A recv tx that either client finds has received the packet. Only a Cosmos client needs ids that
can be quoted, and only an EVM client a hash without a collision. -/
theorem findRecvTx_sound (hread : Query.ReadsAsMeant read)
    (hshows : searcher.Shows read history destinationClientID)
    (hsource : Quotable sourceClientID) (hdest : Quotable destinationClientID)
    {timeoutTimestamp : Time}
    (h : searcher.findRecvTx sourceClientID destinationClientID sequence timeoutTimestamp
      = .ok tx) :
    ⟨.recvPacket, destinationClientID, sequence, tx.hash⟩ ∈ history := by
  cases searcher with
  | evm client node => exact EVMQueryClient.findTx_sound hshows.1 hshows.2 h
  | cosmos node =>
    -- a recv is also searched for by the timeout of the packet
    have htimeout : ∀ c ∈ [(⟨"recv_packet", "packet_timeout_timestamp",
        .bare (toString (timeoutTimestamp.unixNano / 10 ^ 9))⟩ : Query.Condition)],
        c.WellFormed := by
      intro c hc
      obtain rfl := List.mem_singleton.mp hc
      have hevent : Query.IsName "recv_packet" := by decide
      have hkey : Query.IsName "packet_timeout_timestamp" := by decide
      exact ⟨hevent, hkey, _, rfl⟩
    exact CosmosBridgeClient.findTx_sound hread hshows hsource hdest htimeout h

/-- An ack tx that either client finds has acknowledged the packet. -/
theorem findAckTx_sound (hread : Query.ReadsAsMeant read)
    (hshows : searcher.Shows read history sourceClientID)
    (hsource : Quotable sourceClientID) (hdest : Quotable destinationClientID)
    (h : searcher.findAckTx sourceClientID destinationClientID sequence = .ok tx) :
    ⟨.ackPacket, sourceClientID, sequence, tx.hash⟩ ∈ history := by
  cases searcher with
  | evm client node => exact EVMQueryClient.findTx_sound hshows.1 hshows.2 h
  | cosmos node =>
    exact CosmosBridgeClient.findTx_sound hread hshows hsource hdest (List.forall_mem_nil _) h

/-- A timeout tx that either client finds has timed the packet out. -/
theorem findTimeoutTx_sound (hread : Query.ReadsAsMeant read)
    (hshows : searcher.Shows read history sourceClientID)
    (hsource : Quotable sourceClientID) (hdest : Quotable destinationClientID)
    (h : searcher.findTimeoutTx sourceClientID destinationClientID sequence = .ok tx) :
    ⟨.timeoutPacket, sourceClientID, sequence, tx.hash⟩ ∈ history := by
  cases searcher with
  | evm client node => exact EVMQueryClient.findTx_sound hshows.1 hshows.2 h
  | cosmos node =>
    exact CosmosBridgeClient.findTx_sound hread hshows hsource hdest (List.forall_mem_nil _) h

end Searcher

/-! ## Every run -/

/-- A search that has found a tx was made by a client whose node shows what the chain has done. Of
other calls nothing is said. -/
def Searched (read : String → Option (List Query.Condition)) (chains : String → List PacketTx) :
    Event → Prop
  | ⟨.findRecvTx chainID sourceClientID destinationClientID sequence timeoutTimestamp, .ok tx⟩ =>
    ∃ searcher : Searcher, searcher.Shows read (chains chainID) destinationClientID
      ∧ searcher.findRecvTx sourceClientID destinationClientID sequence timeoutTimestamp = .ok tx
  | ⟨.findAckTx chainID sourceClientID destinationClientID sequence, .ok tx⟩ =>
    ∃ searcher : Searcher, searcher.Shows read (chains chainID) sourceClientID
      ∧ searcher.findAckTx sourceClientID destinationClientID sequence = .ok tx
  | ⟨.findTimeoutTx chainID sourceClientID destinationClientID sequence, .ok tx⟩ =>
    ∃ searcher : Searcher, searcher.Shows read (chains chainID) sourceClientID
      ∧ searcher.findTimeoutTx sourceClientID destinationClientID sequence = .ok tx
  | _ => True

/-- The relayer has delivered the tx, in a submission that includes the row. -/
def DeliveredFor (log : List Event) (r : Ibcv2Transfer) (kind : TxType) (hash : String) : Prop :=
  ∃ bytes address, ∃ submission : Submission, ∃ tx : BridgeTx, submission.kind = kind
    ∧ submission.Includes r.key ∧ tx.hash = hash
    ∧ ⟨.deliverTx (r.route.chainOf kind) bytes address submission, .ok tx⟩ ∈ log

/-- A report is a delivery, or evidence of what the chain has done. -/
theorem Reports.evidence {read : String → Option (List Query.Condition)}
    (hread : Query.ReadsAsMeant read) {chains : String → List PacketTx} {log : List Event}
    {r : Ibcv2Transfer} {kind : TxType} {tx : BridgeTx} {e : Event} (he : e ∈ log)
    (hreports : Reports r.route r.key tx kind e) (hsearched : Searched read chains e)
    (hsource : Quotable r.route.sourceClientID) (hdest : Quotable r.route.destinationClientID) :
    DeliveredFor log r kind tx.hash
      ∨ ⟨kind, r.route.clientOf kind, r.key.sequence, tx.hash⟩ ∈ chains (r.route.chainOf kind) := by
  cases hreports with
  | foundRecv timeoutTimestamp =>
    obtain ⟨searcher, hshows, hfound⟩ := hsearched
    exact .inr (Searcher.findRecvTx_sound hread hshows hsource hdest hfound)
  | foundAck =>
    obtain ⟨searcher, hshows, hfound⟩ := hsearched
    exact .inr (Searcher.findAckTx_sound hread hshows hsource hdest hfound)
  | foundTimeout =>
    obtain ⟨searcher, hshows, hfound⟩ := hsearched
    exact .inr (Searcher.findTimeoutTx_sound hread hshows hsource hdest hfound)
  -- nothing was searched for
  | delivered bytes address submission hincludes =>
    exact .inl ⟨bytes, address, submission, tx, rfl, hincludes, rfl, he⟩

/-- **A recorded tx is the relayer's own or is on the chain**, where it has handled the packet of
the row in the way that it is recorded for. This is so at every moment of every run, for each row
whose client ids can be quoted, if each search that has found a tx was made by a client whose node
shows what the chain has done, and the rows were attested at the start. -/
theorem recorded_tx_on_chain {config : ConfigReader} {priceClient : Bool} {s₀ s : System}
    (hstart : s₀.Started) (hrows : AllRows (Attested s₀.world.log) s₀)
    (hrun : System.Run config priceClient (fun _ _ => True) s₀ s)
    {read : String → Option (List Query.Condition)} (hread : Query.ReadsAsMeant read)
    {chains : String → List PacketTx} (hsearched : ∀ e ∈ s.world.log, Searched read chains e) :
    AllRows (fun r => Quotable r.packetSourceClientID → Quotable r.packetDestinationClientID →
      ∀ kind hash, (r.tx kind).1 = some hash → DeliveredFor s.world.log r kind hash
        ∨ ⟨kind, r.route.clientOf kind, r.key.sequence, hash⟩
          ∈ chains (r.route.chainOf kind)) s := by
  intro r hr hsource hdest kind hash hhash
  have hattested := run_attested hstart hrows hrun r hr
  -- the event that the recorded tx comes from
  obtain ⟨tx, e, he, hreports, htx⟩ := hattested.tx kind (by simp [hhash])
  have hsame : tx.hash = hash := by
    rw [htx] at hhash
    exact Option.some.inj hhash
  rw [← hsame]
  exact hreports.evidence hread he (hsearched e he) hsource hdest

/-! ### A packet that somebody else has relayed -/

namespace Sample

/-- The sample packet was received on Ethereum, and acknowledged on the hub. -/
def packetTxs (chainID : String) : List PacketTx :=
  if chainID = "1" then
    [⟨.recvPacket, "client-0", 7, "0xe1"⟩]
  else
    [⟨.ackPacket, "08-wasm-0", 7, "A1"⟩]

/-- The log of the router about the sample packet. -/
def receivedLog : FilteredLog where
  address := queryClient.routerAddress
  topics := [eventID .writeAcknowledgement, keccak256 (bytesOf "client-0"), bigEndian 32 7]
  txHash := "0xe1"
  blockNumber := 5

/-- The filter that selects the log. -/
def receivedFilter : FilterQuery :=
  queryClient.logFilter [[eventID .writeAcknowledgement], [keccak256 (bytesOf "client-0")],
    [bigEndian 32 7]]

/-- An Ethereum node that returns this log, to the filter that selects it. -/
def servingNode : EVMQueryNode where
  transactionReceipt _ := .error ethereumNotFound
  headerByNumber _ := .ok { number := 5, time := 0 }
  getCommitment _ := .error ethereumNotFound
  filterLogs q := .ok (if q = receivedFilter then [receivedLog] else [])
  transactionByHash _ := .error ethereumNotFound

theorem queryClient_makesTopics : queryClient.MakesTopics := by
  rintro hash s n topics ⟨⟩
  rfl

/-- The node returns no other log, and only to this filter. -/
theorem mem_filterLogs {q : FilterQuery} {logs : List FilteredLog} {log : FilteredLog}
    (h : servingNode.filterLogs q = .ok logs) (hlog : log ∈ logs) :
    q = receivedFilter ∧ log = receivedLog := by
  cases h
  split at hlog
  · rename_i hq
    exact ⟨hq, List.mem_singleton.mp hlog⟩
  · cases hlog

/-- The node shows that the packet was received. The topics of the other events are real digests,
and differ. -/
theorem servingNode_shows : servingNode.Shows queryClient (packetTxs "1") "client-0" where
  selects q logs h log hlog := by
    obtain ⟨rfl, rfl⟩ := mem_filterLogs h hlog
    exact ⟨List.mem_singleton.mpr rfl, by simp [receivedFilter, logFilter, receivedLog]⟩
  announces q logs h log hlog haddress event hevent := by
    obtain ⟨rfl, rfl⟩ := mem_filterLogs h hlog
    cases event with
    | writeAcknowledgement => exact ⟨_, List.mem_singleton.mpr rfl, rfl, rfl, rfl⟩
    | ackPacket => exact absurd hevent (by decide +kernel)
    | timeoutPacket => exact absurd hevent (by decide +kernel)
  noCollision p hp _ := by
    obtain rfl := List.mem_singleton.mp hp
    rfl

/-- The tx that has acknowledged the packet. -/
def ackedTx : FoundTx where
  hash := "A1"
  height := 9
  events := [⟨"acknowledge_packet", [("packet_source_client", "08-wasm-0"),
    ("packet_dest_client", "client-0"), ("packet_sequence", "7")]⟩]
  msgs := .ok [.acknowledgement "cosmos1other"]

instance (tx : FoundTx) (conds : List Query.Condition) : Decidable (tx.Satisfies conds) :=
  inferInstanceAs (Decidable (∃ event ∈ tx.events, ∀ c ∈ conds,
    event.type = c.event ∧ (c.key, c.operand.value) ∈ event.attributes))

/-- A hub whose only tx is `ackedTx`. -/
def hubNode : CosmosQueryNode where
  packetReceipt _ _ := .ok false
  packetCommitment _ _ := .error { err := .new "packet commitment not found", notFound := true }
  txSearch q :=
    match Query.parse q with
    | none => .error (.new "failed to parse query")
    | some conds =>
      if ackedTx.Satisfies conds then
        .ok { totalCount := 1, txs := [ackedTx], nonempty := fun _ => List.cons_ne_nil _ _ }
      else
        .ok { totalCount := 0, txs := [], nonempty := fun h => absurd rfl h }
  header _ := .ok (some .zero)

/-- The hub finds no other tx. -/
theorem mem_txSearch {q : String} {result : SearchResult} {tx : FoundTx}
    (h : hubNode.txSearch q = .ok result) (htx : tx ∈ result.txs) : tx = ackedTx := by
  simp only [hubNode] at h
  split at h
  · cases h
  · split at h
    · cases h
      exact List.mem_singleton.mp htx
    · cases h
      cases htx

/-- Only one number is written as a single seven. -/
theorem eq_seven {n : UInt64} (h : toString n.toNat = "7") : n = 7 := by
  have hdigits : Nat.toDigits 10 n.toNat = ['7'] := by
    rw [← Nat.toList_repr]
    exact congrArg String.toList h
  have hlt : n.toNat < 10 := by
    have hlength := (Nat.length_toDigits_le_iff (n := n.toNat) (k := 1) (by decide : 1 < 10)
      (by decide)).mp (by rw [hdigits]; rfl)
    simpa using hlength
  rw [Nat.toDigits_of_lt_base hlt] at hdigits
  exact UInt64.toNat_inj.mp (Nat.digitChar_eq_seven.mp (List.singleton_inj.mp hdigits))

/-- The hub shows that the packet was acknowledged: its only event is about no other packet. -/
theorem hubNode_shows : hubNode.Shows Query.parse (packetTxs "cosmoshub-4") where
  satisfies q result h := by
    simp only [hubNode] at h
    split at h
    · cases h
    · rename_i conds hconds
      refine ⟨conds, hconds, fun tx htx => ?_⟩
      split at h
      · rename_i hsatisfies
        cases h
        exact List.mem_singleton.mp htx ▸ hsatisfies
      · cases h
        cases htx
  announces q result h tx htx event hevent kind sourceClientID destinationClientID sequence
      habout := by
    obtain rfl := mem_txSearch h htx
    obtain rfl := List.mem_singleton.mp hevent
    obtain ⟨htype, hsource, -, hsequence⟩ := habout
    have hkind : kind = .ackPacket := by
      cases kind with
      | ackPacket => rfl
      | recvPacket => exact absurd htype (by decide)
      | timeoutPacket => exact absurd htype (by decide)
    have hclient : sourceClientID = "08-wasm-0" := by simpa using hsource
    have hseven : toString sequence.toNat = "7" := by simpa using hsequence
    rw [hkind, hclient, eq_seven hseven]
    exact List.mem_singleton.mpr rfl

/-- The clients of the two chains. -/
def searcherOf (chainID : String) : Searcher :=
  if chainID = "1" then .evm queryClient servingNode else .cosmos hubNode

/-- Both nodes show what their chains have done. -/
theorem searcherOf_shows {chainID clientID : String} (h : chainID = "1" → clientID = "client-0") :
    (searcherOf chainID).Shows Query.parse (packetTxs chainID) clientID := by
  unfold searcherOf packetTxs
  split
  · rename_i hchain
    rw [h hchain]
    exact ⟨queryClient_makesTopics, servingNode_shows⟩
  · exact hubNode_shows

/-- The packet is received and its commitment is gone, and the txs are what the clients find. -/
def finding : Environment := fun w c =>
  match c with
  | .isPacketReceived .. => .ok true
  | .isPacketCommitted .. => .ok false
  | .findRecvTx chainID sourceClientID destinationClientID sequence timeoutTimestamp =>
    (searcherOf chainID).findRecvTx sourceClientID destinationClientID sequence timeoutTimestamp
  | .findAckTx chainID sourceClientID destinationClientID sequence =>
    (searcherOf chainID).findAckTx sourceClientID destinationClientID sequence
  | .findTimeoutTx chainID sourceClientID destinationClientID sequence =>
    (searcherOf chainID).findTimeoutTx sourceClientID destinationClientID sequence
  | c => obliging .zero w c

/-- The event is a search that a client has answered, or no search and no delivery. -/
def isFinding : Event → Bool
  | ⟨.findRecvTx chainID sourceClientID destinationClientID sequence timeoutTimestamp, answer⟩ =>
    (chainID = "1" → destinationClientID = "client-0")
      ∧ answer = (searcherOf chainID).findRecvTx sourceClientID destinationClientID sequence
        timeoutTimestamp
  | ⟨.findAckTx chainID sourceClientID destinationClientID sequence, answer⟩ =>
    (chainID = "1" → sourceClientID = "client-0")
      ∧ answer = (searcherOf chainID).findAckTx sourceClientID destinationClientID sequence
  | ⟨.findTimeoutTx chainID sourceClientID destinationClientID sequence, answer⟩ =>
    (chainID = "1" → sourceClientID = "client-0")
      ∧ answer = (searcherOf chainID).findTimeoutTx sourceClientID destinationClientID sequence
  | ⟨.deliverTx .., _⟩ => false
  | _ => true

/-- In a log of such events, each tx that is found was found by a client whose node shows it. -/
theorem searched_of_isFinding {e : Event} (h : isFinding e = true) :
    Searched Query.parse packetTxs e := by
  obtain ⟨c, answer⟩ := e
  cases c
  case findRecvTx | findAckTx | findTimeoutTx =>
    cases answer with
    | error err => trivial
    | ok tx =>
      obtain ⟨hclient, hanswer⟩ := of_decide_eq_true h
      exact ⟨_, searcherOf_shows hclient, hanswer.symm⟩
  all_goals trivial

end Sample

/-- `recorded_tx_on_chain` when the checks find the recv tx by the logs of a router and the ack tx
by the events of a Cosmos chain, and nothing is delivered. -/
theorem recorded_tx_on_chain_found :
    ∃ s, System.Run Sample.config false (fun _ _ => True) Sample.idle s
      ∧ ∃ r ∈ s.world.transfers, r.recvTxHash = some "0xe1" ∧ r.ackTxHash = some "A1"
        ∧ ¬ DeliveredFor s.world.log r .recvPacket "0xe1"
        ∧ ¬ DeliveredFor s.world.log r .ackPacket "A1"
        ∧ ⟨.recvPacket, r.route.clientOf .recvPacket, r.key.sequence, "0xe1"⟩
          ∈ Sample.packetTxs (r.route.chainOf .recvPacket)
        ∧ ⟨.ackPacket, r.route.clientOf .ackPacket, r.key.sequence, "A1"⟩
          ∈ Sample.packetTxs (r.route.chainOf .ackPacket) := by
  have hscript : (Sample.idle.script Sample.config false (fun _ _ => true)
      (Sample.polledTwice ++ Sample.work Sample.finding 5 ++ Sample.work Sample.finding 6)).any
      (fun s => s.world.log.all Sample.isFinding
        && s.world.transfers.any fun r => r.recvTxHash = some "0xe1" ∧ r.ackTxHash = some "A1"
          ∧ Query.quote ∉ r.packetSourceClientID.toList
          ∧ Query.quote ∉ r.packetDestinationClientID.toList) = true := by
    decide +kernel
  obtain ⟨s, hs, hfound⟩ := (Option.any_eq_true _ _).mp hscript
  have hrun : System.Run Sample.config false (fun _ _ => True) Sample.idle s :=
    System.run_of_script _ _ (fun _ _ _ => trivial) hs
  obtain ⟨hlog, hrow⟩ := Bool.and_eq_true_iff.mp hfound
  have hfinding := List.all_eq_true.mp hlog
  obtain ⟨r, hr, hrecorded⟩ := List.any_eq_true.mp hrow
  obtain ⟨hrecv, hack, hsource, hdest⟩ := of_decide_eq_true hrecorded
  have hnone : ∀ kind hash, ¬ DeliveredFor s.world.log r kind hash := by
    rintro kind hash ⟨bytes, address, submission, tx, -, -, -, he⟩
    exact absurd (hfinding _ he) Bool.false_ne_true
  have hevidence := recorded_tx_on_chain Sample.started (by simp [AllRows, Sample.idle]) hrun
    Query.parse_readsAsMeant (fun e he => Sample.searched_of_isFinding (hfinding e he)) r hr hsource
    hdest
  exact ⟨s, hrun, r, hr, hrecv, hack, hnone _ _, hnone _ _,
    (hevidence .recvPacket "0xe1" hrecv).resolve_left (hnone _ _),
    (hevidence .ackPacket "A1" hack).resolve_left (hnone _ _)⟩

end IbcRelayer

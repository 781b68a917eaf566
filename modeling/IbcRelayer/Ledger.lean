import IbcRelayer.Provenance
import IbcRelayer.Requests

/-!
# IbcRelayer — what `Status` answers

The relayer with its API: `Relay` calls with their checks and their own table, in any order with the
steps of the dispatcher and of the pipelines. `Service.accepted` is the history of the calls that
were answered OK.

* `Service.Booked` — the two tables hold what the history says: the request of each accepted call,
  and one row for each of its packets whose destination is known, whatever happened to the rows
  since;
* `status_accounts` — so `Status`, when it can read the tables, answers for the accepted calls, and
  what it says of a packet was reported by a chain. It reads the tables one after the other; a
  packet may be accepted in between.
-/

namespace IbcRelayer

open RelayerAPIService

/-! ## The relayer with its API -/

/-- A `Relay` call that was answered OK, and the packets that the source chain gave for its tx. -/
structure AcceptedCall where
  request : Ibcv2RelayRequest
  packets : List PacketInfo

/-- The relayer, the other table of the API, and the history. -/
structure Service where
  system : System
  relayRequests : List Ibcv2RelayRequest := []
  accepted : List AcceptedCall := []

/-- The tables that the API works on. -/
def Service.db (s : Service) : Database := ⟨s.system.world.transfers, s.relayRequests⟩

inductive ServiceAction where
  | relay (chainID txHash : String) (src : SourceAnswers) (ids : Nat → Int32)
  | system (a : Action)

section Step

variable (config : ConfigReader) (blacklist : List String) (priceClient : Bool)

/-- A `Relay` call. -/
def Service.relay (chainID txHash : String) (src : SourceAnswers) (ids : Nat → Int32)
    (s : Service) : Service :=
  let (result, db) := relayTx config blacklist chainID txHash src ids s.db
  { system := { s.system with world := { s.system.world with transfers := db.transfers } }
    relayRequests := db.relayRequests
    accepted :=
      match result, src.packets with
      | .ok (), .ok packets => s.accepted ++ [⟨⟨chainID, txHash⟩, packets⟩]
      | _, _ => s.accepted }

/-- A call of the API, or a step of the dispatcher or of a pipeline. -/
def Service.step (s : Service) : ServiceAction → Option Service
  | .relay chainID txHash src ids => some (s.relay config blacklist chainID txHash src ids)
  -- packets get into the table by the API alone
  | .system (.relay ..) => none
  | .system a => (s.system.step config priceClient a).map fun system => { s with system }

def Service.Run : Service → Service → Prop :=
  Machine.Run (Service.step config blacklist priceClient) fun _ _ => True

end Step

/-! ## What a row keeps -/

/-- The columns that no statement changes. -/
def Ibcv2Transfer.inserted (r : Ibcv2Transfer) : InsertIBCV2TransferParams where
  sourceChainID := r.sourceChainID
  destinationChainID := r.destinationChainID
  sourceTxHash := r.sourceTxHash
  sourceTxTime := r.sourceTxTime
  packetSequenceNumber := r.packetSequenceNumber
  packetSourceClientID := r.packetSourceClientID
  packetDestinationClientID := r.packetDestinationClientID
  packetTimeoutTimestamp := r.packetTimeoutTimestamp

/-- No statement of the relayer writes these columns. -/
theorem inserted_apply (u : TransferUpdate) (r : Ibcv2Transfer) :
    (u.apply r).inserted = r.inserted := by
  cases u <;> rfl

/-- A statement keeps them on every row, in the order of the table. -/
theorem inserted_updateWhere (u : TransferUpdate) (key : RowKey) (rows : List Ibcv2Transfer) :
    (updateWhere u key rows).map (·.inserted) = rows.map (·.inserted) := by
  rw [updateWhere, List.map_map]
  refine List.map_congr_left fun r _ => ?_
  rw [Function.comp_apply]
  split
  · exact inserted_apply u r
  · rfl

/-- A transaction keeps them. -/
theorem inserted_foldl_apply (body : List TxStmt) (rows : List Ibcv2Transfer) :
    (body.foldl (fun rows stmt => stmt.apply rows) rows).map (·.inserted)
      = rows.map (·.inserted) := by
  induction body generalizing rows with
  | nil => rfl
  | cons stmt body ih =>
    rw [List.foldl_cons, ih]
    cases stmt with
    | update u k => exact inserted_updateWhere u k rows
    | _ => rfl

/-- A call keeps them, whatever is answered. -/
theorem inserted_effect (c : Call) (answer : c.Answer) (rows : List Ibcv2Transfer) :
    (c.effect answer rows).map (·.inserted) = rows.map (·.inserted) := by
  cases c with
  | update u k =>
    cases answer with
    | error err => rfl
    | ok a => exact inserted_updateWhere u k rows
  | txCommit body =>
    cases answer with
    | error err => rfl
    | ok a => exact inserted_foldl_apply body rows
  | _ => rfl

theorem inserted_after (w : World) (evs : List Event) :
    (w.after evs).transfers.map (·.inserted) = w.transfers.map (·.inserted) := by
  induction evs with
  | nil => rfl
  | cons e evs ih => exact (inserted_effect e.call e.answer _).trans ih

/-! ## The books -/

/-- The rows that a call adds: one for each packet whose destination is known. -/
def AcceptedCall.inserts (config : ConfigReader) (call : AcceptedCall) :
    List InsertIBCV2TransferParams :=
  call.packets.filterMap fun packet =>
    (getClientCounterpartyChainID config call.request.sourceChainID
      packet.sourceClient).toOption.map
        (packet.insert call.request.sourceChainID · call.request.sourceTxHash)

/-- The tables hold what the history says. The rows are compared by the columns that they keep, with
their order and their number. -/
structure Service.Booked (config : ConfigReader) (s : Service) : Prop where
  requests : ∀ request, request ∈ s.relayRequests ↔ ∃ call ∈ s.accepted, call.request = request
  rows : s.system.world.transfers.map (·.inserted) = s.accepted.flatMap (·.inserts config)

section Books

variable {config : ConfigReader} {blacklist : List String} {priceClient : Bool} {s s' : Service}

/-- The loop of the transaction adds the rows of the call. -/
theorem insertPackets_inserts {chainID txHash : String} {packets : List (PacketInfo × Int32)}
    {rows rows' : List Ibcv2Transfer}
    (h : insertPackets config chainID txHash packets rows = some rows') :
    rows'.map (·.inserted) = rows.map (·.inserted)
      ++ AcceptedCall.inserts config ⟨⟨chainID, txHash⟩, packets.map Prod.fst⟩ := by
  induction packets generalizing rows with
  | nil =>
    cases h
    exact (List.append_nil _).symm
  | cons entry rest ih =>
    obtain ⟨packet, id⟩ := entry
    rw [insertPackets] at h
    rw [List.map_cons, AcceptedCall.inserts, List.filterMap_cons]
    split at h
    -- a packet with an unknown destination is skipped
    · rename_i err hdest
      rw [hdest]
      exact ih h
    · rename_i dest hdest
      obtain ⟨rows₁, hinsert, h⟩ := Option.bind_eq_some_iff.mp h
      obtain ⟨-, rfl⟩ := insertIBCV2Transfer_inv hinsert
      rw [ih h, hdest, List.map_append, List.append_assoc]
      rfl

/-- A request is stored once, however often the call is made. -/
theorem mem_insertRelayRequest {arg request : Ibcv2RelayRequest} {db : Database}
    {requests : List Ibcv2RelayRequest}
    (h : insertRelayRequest arg db = .ok { db with relayRequests := requests }) :
    request ∈ requests ↔ request ∈ db.relayRequests ∨ request = arg := by
  unfold insertRelayRequest at h
  split at h
  · rename_i hin
    have hsame : db.relayRequests = requests := congrArg Database.relayRequests (Except.ok.inj h)
    rw [← hsame]
    exact ⟨.inl, fun hor => hor.elim id (· ▸ hin)⟩
  · cases h
    rw [List.mem_append, List.mem_singleton]

theorem map_fst_mapIdx (packets : List PacketInfo) (ids : Nat → Int32) :
    (packets.mapIdx fun i p => (p, ids i)).map Prod.fst = packets := by
  refine List.ext_getElem (by simp) fun i _ _ => ?_
  rw [List.getElem_map, List.getElem_mapIdx]

/-- What `Relay` does to the service: a call is accepted, or nothing happens. -/
theorem Service.relay_cases (config : ConfigReader) (blacklist : List String)
    (chainID txHash : String) (src : SourceAnswers) (ids : Nat → Int32) (s : Service) :
    (∃ packets transfers requests, ¬ (txHash = "" ∨ chainID = "")
        ∧ insertPackets config chainID txHash (packets.mapIdx fun i p => (p, ids i))
            s.system.world.transfers = some transfers
        ∧ insertRelayRequest ⟨chainID, txHash⟩ s.db = .ok { s.db with relayRequests := requests }
        ∧ s.relay config blacklist chainID txHash src ids =
          { system := { s.system with world := { s.system.world with transfers } }
            relayRequests := requests
            accepted := s.accepted ++ [⟨⟨chainID, txHash⟩, packets⟩] })
      ∨ s.relay config blacklist chainID txHash src ids = s := by
  unfold Service.relay
  rcases relayTx_cases config blacklist chainID txHash src ids s.db with
    ⟨packets, transfers, requests, hpackets, hinsert, hrequest, heq⟩ | ⟨-, err, heq⟩
  · obtain ⟨hnamed, hsrc⟩ := packetsOfTx_ok hpackets
    rw [heq, hsrc]
    exact .inl ⟨packets, transfers, requests, hnamed, hinsert, hrequest, rfl⟩
  · rw [heq]
    exact .inr rfl

/-- The other steps make calls, and leave the requests and the history. -/
theorem Service.system_inv {a : Action}
    (hstep : s.step config blacklist priceClient (.system a) = some s') :
    (∃ evs, s'.system.world = s.system.world.after evs)
      ∧ s.system.step config priceClient a = some s'.system
      ∧ s'.relayRequests = s.relayRequests ∧ s'.accepted = s.accepted := by
  have hmap : (∀ chainID txHash packets, a ≠ .relay chainID txHash packets)
      ∧ (s.system.step config priceClient a).map (fun system => { s with system }) = some s' := by
    cases a with
    | relay => cases hstep
    | _ => exact ⟨nofun, hstep⟩
  obtain ⟨hother, hmap⟩ := hmap
  obtain ⟨system, hsystem, rfl⟩ := Option.map_eq_some_iff.mp hmap
  rcases world_step hsystem with ⟨chainID, txHash, packets, rfl⟩ | hworld
  · exact absurd rfl (hother chainID txHash packets)
  · exact ⟨hworld, hsystem, rfl, rfl⟩

/-- An accepted call adds its request and its rows together, in one transaction. -/
theorem Service.Booked.relay (h : s.Booked config) (chainID txHash : String) (src : SourceAnswers)
    (ids : Nat → Int32) : (s.relay config blacklist chainID txHash src ids).Booked config := by
  rcases Service.relay_cases config blacklist chainID txHash src ids s with
    ⟨packets, transfers, requests, -, hinsert, hrequest, heq⟩ | heq
  · rw [heq]
    constructor
    · intro request
      rw [mem_insertRelayRequest hrequest, Service.db, h.requests]
      simp [or_and_right, exists_or, eq_comm]
    · have hrows := insertPackets_inserts hinsert
      rw [map_fst_mapIdx] at hrows
      rw [List.flatMap_append, List.flatMap_singleton, ← h.rows]
      exact hrows
  · rw [heq]
    exact h

/-- The other steps change no table of the API, and of the rows only what is not inserted. -/
theorem Service.Booked.step (h : s.Booked config) {a : ServiceAction}
    (hstep : s.step config blacklist priceClient a = some s') : s'.Booked config := by
  cases a with
  | relay chainID txHash src ids =>
    cases hstep
    exact h.relay chainID txHash src ids
  | system a =>
    obtain ⟨⟨evs, hworld⟩, -, hrequests, haccepted⟩ := Service.system_inv hstep
    constructor
    · rw [hrequests, haccepted]
      exact h.requests
    · rw [hworld, inserted_after, haccepted]
      exact h.rows

/-- The books are right after every run. -/
theorem Service.Booked.run (h : s.Booked config)
    (hrun : Service.Run config blacklist priceClient s s') : s'.Booked config :=
  Machine.Run.inv hrun h fun h _ hstep => h.step hstep

/-- A `Relay` call of the API is one of the system, or it changes no row. -/
theorem Service.Run.system (hrun : Service.Run config blacklist priceClient s s') :
    System.Run config priceClient (fun _ _ => True) s.system s'.system := by
  induction hrun with
  | refl => exact .refl
  | @tail s₁ s₂ _ hstep ih =>
    obtain ⟨a, -, hstep⟩ := hstep
    cases a with
    | relay chainID txHash src ids =>
      cases hstep
      rcases Service.relay_cases config blacklist chainID txHash src ids s₁ with
        ⟨packets, transfers, requests, hnamed, hinsert, -, heq⟩ | heq
      · rw [heq]
        refine ih.tail ⟨.relay chainID txHash (packets.mapIdx fun i p => (p, ids i)), trivial, ?_⟩
        rw [System.step, RelayerAPIService.relay, if_neg hnamed, hinsert]
        rfl
      · rw [heq]
        exact ih
    | system a =>
      obtain ⟨-, hsystem, -, -⟩ := Service.system_inv hstep
      exact ih.tail ⟨a, trivial, hsystem⟩

end Books

/-! ## `Status` -/

namespace RelayerAPIService

/-- The packet that an answer of `Status` is about. -/
def PacketStatus.packet (p : PacketStatus) : String × UInt64 := (p.sourceClientID, p.sequenceNumber)

/-- The tx of a kind, in an answer of `Status`. -/
def PacketStatus.tx (p : PacketStatus) : TxType → Option TransactionInfo
  | .recvPacket => p.recvTx
  | .ackPacket => p.ackTx
  | .timeoutPacket => p.timeoutTx

end RelayerAPIService

/-- What `Status` answers when it reads the requests of one state and the rows of a later one. -/
def Service.statusBetween (s₁ s₂ : Service) (chainID txHash : String) :
    Except HandlerError (List PacketStatus) :=
  status chainID txHash (getRelayRequest ⟨chainID, txHash⟩ s₁.relayRequests)
    (.ok (getTransfersBySourceTx chainID txHash s₂.system.world.transfers))

/-- The packets of a call that `Status` has to list. -/
def AcceptedCall.listed (config : ConfigReader) (call : AcceptedCall) : List (String × UInt64) :=
  (call.inserts config).map fun p =>
    (p.packetSourceClientID, p.packetSequenceNumber.toInt64.toUInt64)

/-- A client of the chain that `Status` names has reported the tx for the packet. -/
def ReportedTx (log : List Event) (chainID : String) (p : PacketStatus) (kind : TxType)
    (info : TransactionInfo) : Prop :=
  ∃ route seq tx, ∃ e ∈ log, Reports route ⟨chainID, p.sourceClientID, seq⟩ tx kind e
    ∧ route.sourceChainID = chainID ∧ route.sourceClientID = p.sourceClientID
    ∧ seq.toInt64.toUInt64 = p.sequenceNumber ∧ info = ⟨tx.hash, route.chainOf kind⟩

section Status

variable {config : ConfigReader} {blacklist : List String} {priceClient : Bool}
  {s s' : Service} {chainID txHash : String}

theorem mem_inserts {call : AcceptedCall} {p : InsertIBCV2TransferParams}
    (hp : p ∈ call.inserts config) :
    p.sourceChainID = call.request.sourceChainID ∧ p.sourceTxHash = call.request.sourceTxHash := by
  obtain ⟨packet, -, hdest⟩ := List.mem_filterMap.mp hp
  obtain ⟨dest, -, rfl⟩ := Option.map_eq_some_iff.mp hdest
  exact ⟨rfl, rfl⟩

/-- The rows of a source tx are those of the calls for it. -/
theorem inserts_of_tx (calls : List AcceptedCall) :
    (calls.flatMap (·.inserts config)).filter
        (fun p => p.sourceChainID = chainID ∧ p.sourceTxHash = txHash)
      = (calls.filter (·.request = ⟨chainID, txHash⟩)).flatMap (·.inserts config) := by
  induction calls with
  | nil => rfl
  | cons call calls ih =>
    rw [List.flatMap_cons, List.filter_append, ih]
    -- the rows of a call are all of its tx, or none is
    by_cases hcall : call.request = ⟨chainID, txHash⟩
    · rw [List.filter_cons_of_pos (by simpa using hcall), List.flatMap_cons,
        List.filter_eq_self.mpr]
      intro p hp
      obtain ⟨hchain, htx⟩ := mem_inserts hp
      simp [hchain, htx, hcall]
    · rw [List.filter_cons_of_neg (by simpa using hcall), List.filter_eq_nil_iff.mpr]
      · rfl
      · intro p hp hboth
        obtain ⟨hchain, htx⟩ := mem_inserts hp
        obtain ⟨hchain', htx'⟩ := of_decide_eq_true hboth
        refine hcall ?_
        rw [← hchain', ← htx', hchain, htx]

/-- What the second read finds is what the accepted calls for this tx have inserted. -/
theorem getTransfersBySourceTx_listed (h : s.Booked config) :
    (getTransfersBySourceTx chainID txHash s.system.world.transfers).map (packetStatus · |>.packet)
      = (s.accepted.filter (·.request = ⟨chainID, txHash⟩)).flatMap (·.listed config) := by
  have hrows := congrArg (List.filter fun p : InsertIBCV2TransferParams =>
    p.sourceChainID = chainID ∧ p.sourceTxHash = txHash) h.rows
  rw [inserts_of_tx, List.filter_map] at hrows
  have hpackets := congrArg (List.map fun p : InsertIBCV2TransferParams =>
    (p.packetSourceClientID, p.packetSequenceNumber.toInt64.toUInt64)) hrows
  rw [List.map_map, List.map_flatMap] at hpackets
  exact hpackets

/-- A tx that `Status` names is on the row, and a row's txs were reported by the chain in question.
-/
theorem reported_of_attested {log : List Event} {r : Ibcv2Transfer} (h : Attested log r)
    {kind : TxType} {info : TransactionInfo} (hinfo : (packetStatus r).tx kind = some info) :
    ReportedTx log r.sourceChainID (packetStatus r) kind info := by
  have htx : (r.tx kind).1 = some info.txHash ∧ info.chainID = r.route.chainOf kind := by
    cases kind <;>
    · obtain ⟨hash, hhash, rfl⟩ := Option.map_eq_some_iff.mp hinfo
      exact ⟨hhash, rfl⟩
  obtain ⟨tx, e, he, hreports, hrecorded⟩ := h.tx kind (by rw [htx.1]; simp)
  refine ⟨r.route, r.packetSequenceNumber, tx, e, he, hreports, rfl, rfl, rfl, ?_⟩
  rw [hrecorded] at htx
  rw [← htx.2, Option.some.inj htx.1]

/-- The packets of a source tx have different clients or sequence numbers, as the table has one row
for each. -/
theorem packets_nodup {rows : List Ibcv2Transfer} (h : Table rows) :
    ((getTransfersBySourceTx chainID txHash rows).map (packetStatus · |>.packet)).Nodup := by
  refine List.Nodup.map_on ?_ ((h.unique.of_map _).filter _)
  intro r hr r' hr' hpacket
  obtain ⟨hclient, hextended⟩ := Prod.mk.inj hpacket
  obtain ⟨hr, htx⟩ := List.mem_filter.mp hr
  obtain ⟨hr', htx'⟩ := List.mem_filter.mp hr'
  -- the API shows the sequence number sign-extended to 64 bits, which loses nothing
  have hsequence : r.packetSequenceNumber = r'.packetSequenceNumber := by
    have hextended : r.packetSequenceNumber.toInt64 = r'.packetSequenceNumber.toInt64 :=
      congrArg UInt64.toInt64 hextended
    rw [← Int32.toInt_inj, ← Int32.toInt_toInt64, hextended, Int32.toInt_toInt64]
  have hkey : r.key = r'.key := by
    obtain ⟨hchain, -⟩ := of_decide_eq_true htx
    obtain ⟨hchain', -⟩ := of_decide_eq_true htx'
    simp only [Ibcv2Transfer.key, RowKey.mk.injEq]
    exact ⟨hchain.trans hchain'.symm, hclient, hsequence⟩
  exact List.inj_on_of_nodup_map h.unique hr hr' hkey

/-- **`Status` answers for the `Relay` calls that were accepted**, if its reads succeed: for a tx
without one, that it was not submitted; otherwise it lists each of their packets with a known
destination once, and names only txs that were reported for the packet. The two reads may see
different states, and the answer is about the calls of the second one. -/
theorem status_accounts {s₀ s₁ s₂ : Service} (hstart : s₀.system.Started)
    (hbooked : s₀.Booked config) (hrows : AllRows (Attested s₀.system.world.log) s₀.system)
    (hrun₁ : Service.Run config blacklist priceClient s₀ s₁)
    (hrun₂ : Service.Run config blacklist priceClient s₁ s₂)
    (hnamed : ¬ (txHash = "" ∨ chainID = "")) :
    ((∀ call ∈ s₁.accepted, call.request ≠ ⟨chainID, txHash⟩)
        ∧ s₁.statusBetween s₂ chainID txHash
          = .error (.status .notFound "transaction not submitted to relayer"))
      ∨ (∃ call ∈ s₁.accepted, call.request = ⟨chainID, txHash⟩)
        ∧ ∃ l, s₁.statusBetween s₂ chainID txHash = .ok l
          ∧ (l.map (·.packet)).Nodup
          ∧ (l.map (·.packet)).Perm
            ((s₂.accepted.filter (·.request = ⟨chainID, txHash⟩)).flatMap (·.listed config))
          ∧ ∀ p ∈ l, ∀ kind info, p.tx kind = some info →
            ReportedTx s₂.system.world.log chainID p kind info := by
  have hbooked₁ := hbooked.run hrun₁
  have hbooked₂ := hbooked₁.run hrun₂
  have hsystem := Service.Run.system (hrun₁.trans hrun₂)
  have hattested := run_attested hstart hrows hsystem
  obtain ⟨hinv, -⟩ := run_sourced hstart hsystem
  unfold Service.statusBetween status getRelayRequest
  rw [if_neg hnamed]
  -- the first read decides whether the tx was submitted
  by_cases hsubmitted : (⟨chainID, txHash⟩ : Ibcv2RelayRequest) ∈ s₁.relayRequests
  · rw [if_pos hsubmitted]
    refine .inr ⟨(hbooked₁.requests _).mp hsubmitted, _, rfl, ?_, ?_, ?_⟩
    · rw [List.map_map]
      exact packets_nodup hinv.table
    · rw [List.map_map]
      exact .of_eq (getTransfersBySourceTx_listed hbooked₂)
    · intro p hp kind info hinfo
      obtain ⟨r, hr, rfl⟩ := List.mem_map.mp hp
      obtain ⟨hin, htx⟩ := List.mem_filter.mp hr
      obtain ⟨rfl, -⟩ := of_decide_eq_true htx
      exact reported_of_attested (hattested r hin) hinfo
  · rw [if_neg hsubmitted]
    refine .inl ⟨fun call hcall hrequest => hsubmitted ?_, rfl⟩
    exact (hbooked₁.requests _).mpr ⟨call, hcall, hrequest⟩

end Status

/-- The sample packet is accepted, and on its way until its recv tx is recorded. -/
def Sample.served : List ServiceAction :=
  (Sample.polledTwice.drop 1 ++ Sample.untilRecv (Sample.obliging .zero) ++ [Action.start 0]
    ++ List.replicate 11 (Action.call 0 (Sample.obliging .zero))).map .system

/-- `status_accounts` when the first table is read before the recv tx is there, and the second one
after that. -/
theorem status_accounts_between :
    ∃ s₁ s₂ l, Service.Run Sample.config [] false { system := Sample.idle } s₁
      ∧ Service.Run Sample.config [] false s₁ s₂
      ∧ s₁.statusBetween s₂ "cosmoshub-4" "0xa1" = .ok l
      ∧ l.map (·.recvTx) = [some ⟨"0xd1", "1"⟩]
      ∧ ∀ p ∈ l, ∀ kind info, p.tx kind = some info →
        ReportedTx s₂.system.world.log "cosmoshub-4" p kind info := by
  have hscript : (Machine.script (Service.step Sample.config [] false) (fun _ _ => true)
      { system := Sample.idle }
      [.relay "cosmoshub-4" "0xa1" (Sample.sent [Sample.packetInfo]) fun _ => 1]).any (fun s₁ =>
        (Machine.script (Service.step Sample.config [] false) (fun _ _ => true) s₁
          Sample.served).any fun s₂ =>
            (s₁.statusBetween s₂ "cosmoshub-4" "0xa1").toOption.map (List.map (·.recvTx))
              = some [some ⟨"0xd1", "1"⟩]) = true := by
    decide +kernel
  obtain ⟨s₁, hs₁, h⟩ := (Option.any_eq_true _ _).mp hscript
  obtain ⟨s₂, hs₂, h⟩ := (Option.any_eq_true _ _).mp h
  obtain ⟨l, hl, hrecv⟩ := Option.map_eq_some_iff.mp (of_decide_eq_true h)
  have hrun₁ : Service.Run Sample.config [] false { system := Sample.idle } s₁ :=
    Machine.run_of_script (fun _ _ _ => trivial) hs₁
  have hrun₂ : Service.Run Sample.config [] false s₁ s₂ :=
    Machine.run_of_script (fun _ _ _ => trivial) hs₂
  have hbooked : Service.Booked Sample.config { system := Sample.idle } :=
    ⟨by simp, rfl⟩
  have hnamed : ¬ ("0xa1" = "" ∨ "cosmoshub-4" = "") := by decide
  rcases status_accounts Sample.started hbooked (by simp [AllRows, Sample.idle]) hrun₁ hrun₂ hnamed
    with ⟨-, hnone⟩ | ⟨-, l', hl', -, -, hreported⟩
  · rw [hnone] at hl
    cases hl
  · rw [hl'] at hl
    cases hl
    exact ⟨s₁, s₂, l, hrun₁, hrun₂, hl', hrecv, hreported⟩

end IbcRelayer

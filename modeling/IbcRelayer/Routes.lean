import IbcRelayer.Snapshot

/-!
# IbcRelayer — the pipelines of the routes

A pipeline is made for one source chain, source client, destination chain and destination client.
The four ids are put into its batch processors when it is created, and a request names them without
looking at the transfers of the batch. That they are the ids of every transfer of the batch rests on
the manager's map, on `newPipelineKey` and on no stage changing an id: `requests_match_route`.
-/

namespace IbcRelayer

open CallTree Prog IBCV2Transfer

/-- Nothing is asked of the rows that are pushed. -/
theorem run_inv_any {config : ConfigReader} {priceClient : Bool} {P : System → Action → Prop}
    {s₀ s : System} (hstart : s₀.Started) (hrun : System.Run config priceClient P s₀ s) :
    s.Inv fun _ _ _ => True := by
  have hkeeps : Keeps fun _ _ _ => True := fun _ _ _ _ _ _ _ _ _ _ _ => trivial
  -- a run without a condition is one that pushes anything
  have hrun' : System.Run config priceClient (PushesOnly fun _ _ => True) s₀ s := by
    refine System.Run.mono _ _ (fun s a _ => ?_) hrun
    cases a with
    | submit answer => exact fun _ _ _ _ _ _ => trivial
    | _ => trivial
  exact run_inv hkeeps (fun _ _ _ _ => trivial) hstart.inv hrun'

/-- The request names the chains and clients of the packet, with the roles swapped for a tx that
goes back to the source chain, and the packet's sequence number is among those of that side. -/
structure RelayByTxRequest.Names (req : RelayByTxRequest) (kind : TxType) (u : IBCV2Transfer) :
    Prop where
  recv : kind = .recvPacket → req.srcChain = u.sourceChainID ∧ req.dstChain = u.destinationChainID
    ∧ req.srcClientId = u.packetSourceClientID ∧ req.dstClientId = u.packetDestinationClientID
  back : kind ≠ .recvPacket → req.srcChain = u.destinationChainID ∧ req.dstChain = u.sourceChainID
    ∧ req.srcClientId = u.packetDestinationClientID ∧ req.dstClientId = u.packetSourceClientID

/-- The sequence numbers of a request. -/
def RelayByTxRequest.sequences (req : RelayByTxRequest) : List UInt64 :=
  req.srcPacketSequences ++ req.dstPacketSequences

/-- The ids of a request are those of the pipeline, with the roles that its kind of tx asks for. -/
theorem request_names {pl : Pipeline} {stage : Stage} {c : Contract} {p : BatchPacket}
    (hc : stage.contract pl = some c) (hp : c.packet = some p) {u : IBCV2Transfer}
    (hroute : newPipelineKey u = pl.route) (txIDs : List (List UInt8)) (sequences : List UInt64) :
    (p.request txIDs sequences).Names p.txType u := by
  rw [newPipelineKey] at hroute
  cases stage <;> cases hc <;> cases hp
  case batchRecvPacket => exact ⟨by simp [batchRecvPacket, ← hroute], fun hkind => absurd rfl hkind⟩
  case batchAckPacket =>
    exact ⟨fun hkind => (by cases hkind), by simp [batchAckPacket, ← hroute]⟩
  case batchTimeoutPacket =>
    exact ⟨fun hkind => (by cases hkind), by simp [batchTimeoutPacket, ← hroute]⟩

/-- The sequence numbers of a request are those of its batch, on one of the two sides. -/
theorem request_sequences {pl : Pipeline} {stage : Stage} {c : Contract} {p : BatchPacket}
    (hc : stage.contract pl = some c) (hp : c.packet = some p) (txIDs : List (List UInt8))
    (sequences : List UInt64) : (p.request txIDs sequences).sequences = sequences := by
  cases stage <;> cases hc <;> cases hp <;>
    simp [RelayByTxRequest.sequences, batchRecvPacket, batchAckPacket, batchTimeoutPacket]

/-- **A batch has one route.** In every run, the transfers of every task have the four ids that the
pipeline of the task was created with; so a request to the proof API names the chains and clients of
every packet that it is made for, and these are the packets of its sequence numbers. -/
theorem requests_match_route {config : ConfigReader} {priceClient : Bool} {s₀ s : System}
    (hstart : s₀.Started) (hrun : System.Run config priceClient (fun _ _ => True) s₀ s)
    {task : Task} (htask : task ∈ s.tasks) :
    (∀ t ∈ task.work.copies, newPipelineKey t = task.pl.route)
      ∧ ∀ stage ts req submission k,
        task.work = .running stage ts (.call (.relayByTx req submission) k) →
          req.sequences = submission.transfers.map IBCV2Transfer.sequence
            ∧ ∀ u ∈ submission.transfers, req.Names submission.kind u := by
  have hinv := run_inv_any hstart hrun
  have hsound := hinv.sound task htask
  have hroutes : ∀ t ∈ task.work.copies, newPipelineKey t = task.pl.route := by
    intro t ht
    obtain ⟨stages, hway⟩ := hsound.onWay ht
    exact hway.route.symm
  refine ⟨hroutes, ?_⟩
  intro stage ts req submission k hwork
  obtain ⟨pl, rest, work⟩ := task
  cases hwork
  have howned := hinv.pending htask (.error (.new ""))
  obtain ⟨c, p, txIDs, hc, hp, hkind, rfl⟩ := howned.request req submission rfl
  refine ⟨request_sequences hc hp txIDs _, fun u hu => ?_⟩
  rw [hkind]
  -- a transfer of the request is one of the batch, changed by no stage in its ids
  obtain ⟨t, ht, hpacket⟩ := howned.submission submission rfl u hu
  exact request_names hc hp (hpacket.newPipelineKey.trans (hroutes t ht)) txIDs _

/-- `requests_match_route` when a recv tx is requested. -/
theorem requests_match_route_recv :
    ∃ s, System.Run Sample.config false (fun _ _ => True) Sample.idle s
      ∧ ∃ pl rest stage ts req submission k,
        ⟨pl, rest, .running stage ts (.call (.relayByTx req submission) k)⟩ ∈ s.tasks
          ∧ submission.kind = .recvPacket ∧ submission.transfers ≠ []
          ∧ ∀ u ∈ submission.transfers, req.Names submission.kind u := by
  have hscript : (Sample.idle.script Sample.config false (fun _ _ => true)
      (Sample.polledTwice ++ Sample.untilRecv (Sample.obliging .zero) ++ [.start 0]
        ++ List.replicate 2 (.call 0 (Sample.obliging .zero)))).any
      (Sample.calling fun c =>
        match c with
        | .relayByTx _ submission =>
          submission.kind = .recvPacket && !submission.transfers.isEmpty
        | _ => false) = true := by decide +kernel
  obtain ⟨s, hs, hcalling⟩ := (Option.any_eq_true _ _).mp hscript
  have hrun := System.run_of_script _ _ (P := fun _ _ => True) (fun _ _ _ => trivial) hs
  obtain ⟨pl, rest, stage, ts, c, k, htask, hcall⟩ := Sample.calling_spec hcalling
  split at hcall
  · rename_i req submission
    obtain ⟨hkind, hne⟩ := Bool.and_eq_true_iff.mp hcall
    obtain ⟨-, hrequest⟩ := requests_match_route Sample.started hrun htask
    exact ⟨s, hrun, pl, rest, stage, ts, req, submission, k, htask, of_decide_eq_true hkind,
      by simpa using hne, (hrequest stage ts req submission k rfl).2⟩
  · cases hcall

end IbcRelayer

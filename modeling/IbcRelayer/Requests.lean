import IbcRelayer.Dispatcher
import IbcRelayer.RelayCall
import IbcRelayer.Spec.Basic
import IbcRelayer.Spec.Insert

/-!
# IbcRelayer — a `Relay` call that is repeated

The request's own row is inserted with `ON CONFLICT DO NOTHING`, so the duplicate key that `Relay`
maps to "already submitted" never comes from there; it comes from the row of a packet, where it is
an internal error. A repeated call leaves the tables as they are, and it answers OK only if there is
no packet to insert.

`Database.Run` is what can happen to the two tables between the calls, and `run_extends` says that
they only grow and that a row only changes by statements.
-/

namespace IbcRelayer

open RelayerAPIService

/-! ## What happens to the tables -/

/-- A `Relay` call, or a call that a stage or the dispatcher makes, with its answer. -/
inductive Database.Step (config : ConfigReader) (blacklist : List String) :
    Database → Database → Prop where
  | relay (chainID txHash : String) (src : SourceAnswers) (ids : Nat → Int32) (db : Database) :
      Step config blacklist db (relayTx config blacklist chainID txHash src ids db).2
  | call (c : Call) (answer : c.Answer) (db : Database) :
      Step config blacklist db { db with transfers := c.effect answer db.transfers }

/-- Any number of them, in any order. -/
def Database.Run (config : ConfigReader) (blacklist : List String) : Database → Database → Prop :=
  Relation.ReflTransGen (Database.Step config blacklist)

/-- Rows are added, and what is there changes by statements. -/
structure Database.Extends (db db' : Database) : Prop where
  requests : db.relayRequests ⊆ db'.relayRequests
  rows : ∀ key r, row db.transfers key = some r →
    ∃ us, row db'.transfers key = some (applyAll us r)

section Run

variable {config : ConfigReader} {blacklist : List String} {db db' db'' : Database}

theorem Database.Extends.refl (db : Database) : db.Extends db :=
  ⟨fun _ h => h, fun _ _ h => ⟨[], h⟩⟩

theorem Database.Extends.trans (h : db.Extends db') (h' : db'.Extends db'') : db.Extends db'' where
  requests _ hr := h'.requests (h.requests hr)
  rows key r hr := by
    obtain ⟨us, hus⟩ := h.rows key r hr
    obtain ⟨vs, hvs⟩ := h'.rows key _ hus
    exact ⟨us ++ vs, hvs.trans (by rw [applyAll_append])⟩

/-- A `Relay` call adds rows or changes nothing, and a call of a stage changes the row that it names
by its statement. -/
theorem step_extends (h : Database.Step config blacklist db db') : db.Extends db' := by
  cases h with
  | relay chainID txHash src ids =>
    rcases relayTx_cases config blacklist chainID txHash src ids db with
      ⟨packets, transfers, requests, -, hinsert, hrequest, heq⟩ | ⟨-, err, heq⟩
    · rw [heq]
      obtain ⟨requests', hrequest', -, hsub, -⟩ := insertRelayRequest_ok ⟨chainID, txHash⟩ db
      cases hrequest.symm.trans hrequest'
      -- rows are appended, which leaves the lookup of the others as it was
      obtain ⟨added, rfl, -⟩ := insertPackets_append hinsert
      exact ⟨hsub, fun key r hr => ⟨[], row_append hr⟩⟩
    · rw [heq]
      exact .refl db
  | call c answer =>
    refine ⟨fun _ h => h, fun key r hr => ⟨updatesOfEvent key ⟨c, answer⟩, ?_⟩⟩
    have hnext := row_next ⟨db.transfers, []⟩ ⟨c, answer⟩ key
    change row (c.effect answer db.transfers) key = (row db.transfers key).map _ at hnext
    rw [hnext, hr]
    rfl

/-- What has happened to the tables between two calls is an extension. -/
theorem run_extends (h : Database.Run config blacklist db db') : db.Extends db' := by
  induction h with
  | refl => exact .refl _
  | tail _ hstep ih => exact ih.trans (step_extends hstep)

/-! ## The repeated call -/

variable {chainID txHash : String} {src : SourceAnswers} {ids ids' : Nat → Int32}

/-- After a call that answered OK the request and the packets are there. -/
theorem relayTx_ok (h : (relayTx config blacklist chainID txHash src ids db).1 = .ok ()) :
    ∃ packets, packetsOfTx blacklist chainID txHash src = .ok packets
      ∧ ⟨chainID, txHash⟩ ∈ (relayTx config blacklist chainID txHash src ids db).2.relayRequests
      ∧ ∀ p ∈ packets, p.Known config chainID →
        (row (relayTx config blacklist chainID txHash src ids db).2.transfers
          (p.key chainID)).isSome = true := by
  rcases relayTx_cases config blacklist chainID txHash src ids db with
    ⟨packets, transfers, requests, hpackets, hinsert, hrequest, heq⟩ | ⟨-, err, heq⟩
  · rw [heq]
    obtain ⟨requests', hrequest', hin, -⟩ := insertRelayRequest_ok ⟨chainID, txHash⟩ db
    cases hrequest.symm.trans hrequest'
    refine ⟨packets, hpackets, hin, ?_⟩
    rintro p hp ⟨dest, hdest⟩
    obtain ⟨id, hmem⟩ := mem_mapIdx_ids hp ids
    rw [insertPackets_stored hinsert hmem hdest]
    rfl
  · rw [heq] at h
    cases h

/-- **`Relay` is idempotent only for a tx without packets.** A call that is repeated after it
answered OK, whatever happened in between, changes nothing; and it answers OK again if and only if
the configuration knows the destination of none of the packets of the tx. Otherwise the first such
packet has a row already, and the call ends with an internal error. -/
theorem relay_repeated (hok : (relayTx config blacklist chainID txHash src ids db).1 = .ok ())
    (hrun : Database.Run config blacklist (relayTx config blacklist chainID txHash src ids db).2
      db')
    (ids' : Nat → Int32) :
    (relayTx config blacklist chainID txHash src ids' db').2 = db'
      ∧ (relayTx config blacklist chainID txHash src ids' db' = (.ok (), db')
        ↔ ∀ packets, src.packets = .ok packets → ∀ p ∈ packets, ¬ p.Known config chainID) := by
  obtain ⟨packets, hpackets, hin, hrows⟩ := relayTx_ok hok
  have hext := run_extends hrun
  have hsrc := (packetsOfTx_ok hpackets).2
  rcases relayTx_cases config blacklist chainID txHash src ids' db' with
    ⟨packets', transfers, requests, hpackets', hinsert, hrequest, heq⟩ | ⟨hnone, err, heq⟩
  · cases hpackets.symm.trans hpackets'
    -- no packet is known: its row would be in the way
    have hunknown : ∀ p ∈ packets, ¬ p.Known config chainID := by
      intro p hp hknown
      obtain ⟨r, hr⟩ := Option.isSome_iff_exists.mp (hrows p hp hknown)
      obtain ⟨us, hus⟩ := hext.rows _ r hr
      obtain ⟨id, hmem⟩ := mem_mapIdx_ids hp ids'
      rw [insertPackets_conflict hmem hknown (by rw [hus]; rfl)] at hinsert
      cases hinsert
    -- and so nothing was inserted
    have hrows' : transfers = db'.transfers := by
      rw [insertPackets_unknown] at hinsert
      · cases hinsert
        rfl
      · exact fun entry hentry => hunknown _ (mem_of_mapIdx_ids hentry)
    obtain ⟨requests', hrequest', -, -, hsame⟩ := insertRelayRequest_ok ⟨chainID, txHash⟩ db'
    cases hrequest.symm.trans hrequest'
    have hdb : (⟨transfers, requests⟩ : Database) = db' := by
      rw [hrows', hsame (hext.requests hin)]
    rw [heq, hdb]
    refine ⟨rfl, iff_of_true rfl fun packets' hsrc' => ?_⟩
    cases hsrc.symm.trans hsrc'
    exact hunknown
  · rw [heq]
    refine ⟨rfl, iff_of_false (by simp) fun hunknown => ?_⟩
    -- it failed, although there was nothing to insert
    have hinsert := hnone packets hpackets
    rw [insertPackets_unknown] at hinsert
    · cases hinsert
    · exact fun entry hentry => hunknown packets hsrc _ (mem_of_mapIdx_ids hentry)

end Run

/-- A source tx that succeeded, with these packets. -/
def Sample.sent (packets : List PacketInfo) : SourceAnswers where
  client := .ok ()
  txExecutionStatus := .ok { status := .success }
  chainType := .cosmos
  transactionSender := .error (.new "not an evm chain")
  packets := .ok packets

/-- `relay_repeated` for a packet of a client that the configuration does not know. -/
theorem relay_repeated_unknown :
    (relayTx Sample.config [] "cosmoshub-4" "a1"
        (Sample.sent [{ Sample.packetInfo with sourceClient := "08-wasm-1" }]) (fun _ => 1) {}).1
      = .ok ()
      ∧ relayTx Sample.config [] "cosmoshub-4" "a1"
        (Sample.sent [{ Sample.packetInfo with sourceClient := "08-wasm-1" }]) (fun _ => 2)
          ⟨[], [⟨"cosmoshub-4", "a1"⟩]⟩
        = (.ok (), ⟨[], [⟨"cosmoshub-4", "a1"⟩]⟩) := by
  have hok : (relayTx Sample.config [] "cosmoshub-4" "a1"
      (Sample.sent [{ Sample.packetInfo with sourceClient := "08-wasm-1" }]) (fun _ => 1) {}).1
        = .ok () := by
    decide +kernel
  refine ⟨hok, (relay_repeated hok .refl fun _ => 2).2.mpr ?_⟩
  rintro _ ⟨⟩ p hp ⟨dest, hdest⟩
  rw [List.mem_singleton.mp hp] at hdest
  cases hdest

/-- The second call for a packet that is to be relayed is answered by an internal error. -/
theorem second_relay_fails :
    (relayTx Sample.config [] "cosmoshub-4" "a1" (Sample.sent [Sample.packetInfo])
        (fun _ => 1) {}).1
      = .ok ()
      ∧ (relayTx Sample.config [] "cosmoshub-4" "a1" (Sample.sent [Sample.packetInfo]) (fun _ => 2)
          (relayTx Sample.config [] "cosmoshub-4" "a1" (Sample.sent [Sample.packetInfo])
            (fun _ => 1) {}).2).1
        = .error (.status .internal ("failed to persist relay submission: inserting packet "
          ++ "sequence 7: ERROR: duplicate key value violates unique constraint "
          ++ "\"index_ibcv2_transfer_packet\" (SQLSTATE 23505)")) := by
  decide +kernel

end IbcRelayer

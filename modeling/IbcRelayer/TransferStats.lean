import Mathlib.Algebra.BigOperators.Group.List.Basic
import Mathlib.Data.List.AList
import Mathlib.Data.List.Dedup
import IbcRelayer.CostTracker
import IbcRelayer.Lib.Store
import IbcRelayer.Interleaving

/-!
# IbcRelayer — the transfer counts that are exported

The package `transferstats`: every 15 s a monitor counts the rows of the table by chain pair and
status, and sets a gauge for each pair that has rows and for each status. Gauges are never removed.
The monitor runs beside the rest of the relayer, so the table goes on changing between its read and
its writes.

* `Monitored` — the system with the monitor: a tick reads and publishes in two steps.
* `Describes` — the gauges say what is in a table: the right count for each pair that has rows and
  each status, and nothing about other pairs.
* `gauges_describe` — in every run the gauges describe the table as it was at the last read that was
  published. No gauge is out of date, because rows stay and keep their chains.
-/

namespace IbcRelayer

namespace TransferStats

/-! ## The queries -/

/-- The values of the enum `ibcv2_relay_status`, in the order of the migrations. -/
def relayStatuses : List Ibcv2RelayStatus :=
  [.pending, .checkRecvPacketDelivery, .getRecvPacket, .deliverRecvPacket, .waitForWriteAck,
    .checkAckPacketDelivery, .getAckPacket, .deliverAckPacket, .checkTimeoutPacketDelivery,
    .getTimeoutPacket, .deliverTimeoutPacket, .completeWithAck, .completeWithTimeout, .failed,
    .awaitingSendFinality, .awaitingWriteAckFinality, .completeWithWriteAckSuccess,
    .awaitingTimeoutFinality, .completeWithWriteAckError, .calculatingRecvTxGasCost,
    .calculatingAckTxGasCost, .calculatingTimeoutTxGasCost]

/-- `ListRelayStatuses` -/
def listRelayStatuses : List String := relayStatuses.map (·.toString)

structure Pair where
  src : String
  dst : String
  deriving DecidableEq, Repr

structure CountTransfersByChainPairAndStatusRow where
  sourceChainID : String
  destinationChainID : String
  status : Ibcv2RelayStatus
  count : Nat
  deriving DecidableEq, Repr

def CountTransfersByChainPairAndStatusRow.pair (r : CountTransfersByChainPairAndStatusRow) : Pair :=
  ⟨r.sourceChainID, r.destinationChainID⟩

/-- The chains of a row of the table. -/
def pairOf (r : Ibcv2Transfer) : Pair := ⟨r.sourceChainID, r.destinationChainID⟩

/-- How many rows of the table are of this pair and have this status. -/
def countOf (table : List Ibcv2Transfer) (p : Pair) (status : Ibcv2RelayStatus) : Nat :=
  table.countP fun r => pairOf r = p ∧ r.status = status

/-- `CountTransfersByChainPairAndStatus`: one row for each group. The order of the rows is left open
by the query; see `Monitored.step`. -/
def countTransfersByChainPairAndStatus (table : List Ibcv2Transfer) :
    List CountTransfersByChainPairAndStatusRow :=
  (table.map fun r => (pairOf r, r.status)).dedup.map fun (p, status) =>
    { sourceChainID := p.src
      destinationChainID := p.dst
      status
      count := countOf table p status }

/-! ## A tick -/

/-- `counts`, a map of maps. -/
abbrev Counts := AList fun _ : Pair => AList fun _ : String => Nat

/-- One round of the first loop. -/
def Counts.add (counts : Counts) (r : CountTransfersByChainPairAndStatusRow) : Counts :=
  counts.insert r.pair (((counts.lookup r.pair).getD ∅).insert r.status.toString r.count)

/-- The first loop, over the rows of the query. -/
def collect (rows : List CountTransfersByChainPairAndStatusRow) : Counts :=
  rows.foldl Counts.add ∅

/-- The labels of the gauge `transferCount`. -/
structure Labels where
  sourceChainID : String
  destinationChainID : String
  sourceChainName : String
  destinationChainName : String
  chainEnvironment : String
  state : String
  deriving DecidableEq, Repr

/-- The gauges that have been set; `float64` is exact for the counts that occur. -/
abbrev Gauges := AList fun _ : Labels => Nat

def setTransferCount (gauges : Gauges) (labels : Labels) (count : Nat) : Gauges :=
  gauges.insert labels count

def labels (config : ConfigReader) (p : Pair) (state : String) : Labels where
  sourceChainID := p.src
  destinationChainID := p.dst
  sourceChainName := (chainConfigOrFallback config p.src).chainName
  destinationChainName := (chainConfigOrFallback config p.dst).chainName
  chainEnvironment := (chainConfigOrFallback config p.src).environment
  state

/-- The second loop, over the pairs of `counts` in some order. -/
def publish (config : ConfigReader) (statuses : List String) (counts : Counts) (order : List Pair)
    (gauges : Gauges) : Gauges :=
  order.foldl (fun gauges p =>
    let byStatus := (counts.lookup p).getD ∅
    statuses.foldl (fun gauges s =>
      setTransferCount gauges (labels config p s) ((byStatus.lookup s).getD 0)) gauges) gauges

/-- The relayer with the monitor. `rows` is what a tick has read and not yet published. The last two
fields only say which tables these are: `seen` that of the read, `shown` that of the gauges. -/
structure Monitored where
  system : System
  gauges : Gauges := ∅
  rows : Option (List CountTransfersByChainPairAndStatusRow) := none
  seen : List Ibcv2Transfer := []
  shown : List Ibcv2Transfer := []

inductive MonitoredAction where
  | system (a : Action)
  /-- `none` if one of the two queries fails. -/
  | read (rows : Option (List CountTransfersByChainPairAndStatusRow))
  | publish (order : List Pair)

/-- A step of the relayer, or one half of a tick. The rows of the query and the pairs of the map
come in any order. -/
def Monitored.step (config : ConfigReader) (priceClient : Bool) (m : Monitored) :
    MonitoredAction → Option Monitored
  | .system a => do
    let system ← m.system.step config priceClient a
    return { m with system }
  | .read none => if m.rows.isNone then some m else none
  | .read (some rows) =>
    let table := m.system.world.transfers
    if m.rows.isNone ∧ rows.Perm (countTransfersByChainPairAndStatus table) then
      some { m with rows := some rows, seen := table }
    else
      none
  | .publish order => do
    let rows ← m.rows
    let counts := collect rows
    if order.Perm counts.keys then
      some { m with
        rows := none
        gauges := publish config listRelayStatuses counts order m.gauges
        shown := m.seen }
    else
      none

/-- Runs of the relayer with its monitor. -/
def Monitored.Run (config : ConfigReader) (priceClient : Bool) : Monitored → Monitored → Prop :=
  Machine.Run (Monitored.step config priceClient) fun _ _ => True

/-! ## What is counted -/

theorem mem_relayStatuses (status : Ibcv2RelayStatus) : status ∈ relayStatuses := by
  cases status <;> decide

/-- Statuses have different names, so a gauge is for one of them. -/
theorem toString_inj {a b : Ibcv2RelayStatus} (h : a.toString = b.toString) : a = b := by
  cases a <;> cases b <;> first | rfl | exact absurd h (by decide)

/-- Pairs with different chains have different labels, whatever the names of the chains are. -/
theorem labels_inj {config : ConfigReader} {p p' : Pair} {state state' : String}
    (h : labels config p state = labels config p' state') : p = p' ∧ state = state' := by
  cases p
  cases p'
  simp only [labels, Labels.mk.injEq] at h
  obtain ⟨hsrc, hdst, -, -, -, hstate⟩ := h
  exact ⟨by rw [hsrc, hdst], hstate⟩

/-- What `counts` holds under a pair and a status. -/
def Counts.read (counts : Counts) (k : Pair × String) : Option Nat :=
  (counts.lookup k.1).bind fun byStatus => byStatus.lookup k.2

/-- The first loop writes one count per row: an instance of `Store.Writes`, over a map of maps. -/
theorem counts_writes : Store.Writes Counts.read
    (fun r : CountTransfersByChainPairAndStatusRow => (r.pair, r.status.toString)) (·.count)
    Counts.add := by
  intro counts r ⟨p, s⟩
  unfold Counts.read Counts.add
  -- only the map of the row's pair changes, and only at its status
  by_cases hp : r.pair = p
  · subst hp
    rw [AList.lookup_insert, Option.bind_some]
    by_cases hs : r.status.toString = s
    · subst hs
      rw [AList.lookup_insert, if_pos rfl]
    · rw [AList.lookup_insert_ne (Ne.symm hs), if_neg (by simp [hs])]
      cases counts.lookup r.pair <;> rfl
  · rw [AList.lookup_insert_ne (Ne.symm hp), if_neg (by simp [hp])]

/-- A pair is in `counts` if a row of the query is of it. -/
theorem mem_collect {rows : List CountTransfersByChainPairAndStatusRow} {p : Pair} :
    p ∈ collect rows ↔ ∃ r ∈ rows, r.pair = p := by
  have hfold : ∀ counts : Counts,
      p ∈ rows.foldl Counts.add counts ↔ (∃ r ∈ rows, r.pair = p) ∨ p ∈ counts := by
    induction rows with
    | nil => simp
    | cons r rows ih =>
      intro counts
      rw [List.foldl_cons, ih, Counts.add, AList.mem_insert, List.exists_mem_cons_iff]
      grind
  rw [collect, hfold]
  simp

section Query

variable {table : List Ibcv2Transfer} {rows : List CountTransfersByChainPairAndStatusRow}

/-- The query has a row for each group that has rows in the table, with its size. -/
theorem mem_query {r : CountTransfersByChainPairAndStatusRow} :
    r ∈ countTransfersByChainPairAndStatus table
      ↔ (∃ q ∈ table, pairOf q = r.pair ∧ q.status = r.status)
        ∧ r.count = countOf table r.pair r.status := by
  unfold countTransfersByChainPairAndStatus
  rw [List.mem_map]
  constructor
  · rintro ⟨⟨p, status⟩, hin, rfl⟩
    obtain ⟨q, hq, heq⟩ := List.mem_map.mp (List.mem_dedup.mp hin)
    cases heq
    exact ⟨⟨q, hq, rfl, rfl⟩, rfl⟩
  · rintro ⟨⟨q, hq, hpair, hstatus⟩, hcount⟩
    refine ⟨(r.pair, r.status), ?_, ?_⟩
    · exact List.mem_dedup.mpr (List.mem_map.mpr ⟨q, hq, by rw [hpair, hstatus]⟩)
    · cases r
      simp only [CountTransfersByChainPairAndStatusRow.pair] at hcount ⊢
      rw [hcount]

/-- The pairs of `counts` are those of the table. -/
theorem pairs_query {p : Pair} (hrows : rows.Perm (countTransfersByChainPairAndStatus table)) :
    p ∈ collect rows ↔ ∃ q ∈ table, pairOf q = p := by
  rw [mem_collect]
  constructor
  · rintro ⟨r, hr, rfl⟩
    obtain ⟨⟨q, hq, hpair, -⟩, -⟩ := mem_query.mp (hrows.mem_iff.mp hr)
    exact ⟨q, hq, hpair⟩
  · rintro ⟨q, hq, rfl⟩
    refine ⟨⟨q.sourceChainID, q.destinationChainID, q.status, countOf table (pairOf q) q.status⟩,
      hrows.mem_iff.mpr ?_, rfl⟩
    exact mem_query.mpr ⟨⟨q, hq, rfl, rfl⟩, rfl⟩

/-- `counts` holds what the query counted, and nothing for a group without rows. -/
theorem read_collect (hrows : rows.Perm (countTransfersByChainPairAndStatus table)) (p : Pair)
    (status : Ibcv2RelayStatus) :
    ((collect rows).read (p, status.toString)).getD 0 = countOf table p status := by
  -- a group without rows has no row in the query, and the default is zero
  by_cases hgroup : ∃ q ∈ table, pairOf q = p ∧ q.status = status
  · have hread : (collect rows).read (p, status.toString) = some (countOf table p status) := by
      refine counts_writes.foldl_of_mem ?_ (fun r hr hkey => ?_) ∅
      · refine ⟨⟨p.src, p.dst, status, countOf table p status⟩, hrows.mem_iff.mpr ?_, rfl⟩
        exact mem_query.mpr ⟨hgroup, rfl⟩
      · obtain ⟨hpair, hstatus⟩ := Prod.mk.inj hkey
        rw [(mem_query.mp (hrows.mem_iff.mp hr)).2, hpair, toString_inj hstatus]
    rw [hread]
    rfl
  · have hread : (collect rows).read (p, status.toString) = none := by
      refine counts_writes.foldl_of_forall_ne (fun r hr hkey => ?_) ∅
      obtain ⟨hpair, hstatus⟩ := Prod.mk.inj hkey
      obtain ⟨⟨q, hq, hqp, hqs⟩, -⟩ := mem_query.mp (hrows.mem_iff.mp hr)
      exact hgroup ⟨q, hq, hqp.trans hpair, hqs.trans (toString_inj hstatus)⟩
    have hzero : countOf table p status = 0 := by
      refine List.countP_eq_zero.mpr fun q hq hboth => ?_
      exact hgroup ⟨q, hq, of_decide_eq_true hboth⟩
    rw [hread, hzero]
    rfl

end Query

/-! ## What is published -/

/-- The gauges say what is in the table. -/
structure Describes (config : ConfigReader) (table : List Ibcv2Transfer) (gauges : Gauges) :
    Prop where
  count : ∀ r ∈ table, ∀ status, gauges.lookup (labels config (pairOf r) status.toString)
    = some (countOf table (pairOf r) status)
  only : ∀ l ∈ gauges, ∃ r ∈ table, ∃ status : Ibcv2RelayStatus,
    l = labels config (pairOf r) status.toString

section Publish

variable {config : ConfigReader} {counts : Counts} {order : List Pair} {gauges : Gauges}
  {table shown : List Ibcv2Transfer} {rows : List CountTransfersByChainPairAndStatusRow}

/-- One round of the inner loop. -/
def setOne (config : ConfigReader) (counts : Counts) (gauges : Gauges) (k : Pair × String) :
    Gauges :=
  setTransferCount gauges (labels config k.1 k.2)
    ((((counts.lookup k.1).getD ∅).lookup k.2).getD 0)

/-- The two nested loops as one, over the pairs and their statuses. -/
theorem publish_eq (statuses : List String) : publish config statuses counts order gauges
    = (order.flatMap fun p => statuses.map (Prod.mk p)).foldl (setOne config counts) gauges := by
  rw [List.foldl_flatMap, publish]
  simp only [List.foldl_map]
  rfl

/-- The second loop writes one gauge per round: another instance of `Store.Writes`. -/
theorem gauges_writes (config : ConfigReader) (counts : Counts) :
    Store.Writes (fun (gauges : Gauges) l => gauges.lookup l)
      (fun k : Pair × String => labels config k.1 k.2) (fun k => (counts.read k).getD 0)
      (setOne config counts) := by
  intro gauges ⟨p, s⟩ l
  have hread : (counts.read (p, s)).getD 0 = (((counts.lookup p).getD ∅).lookup s).getD 0 := by
    unfold Counts.read
    cases counts.lookup p <;> rfl
  dsimp only
  rw [setOne, setTransferCount, hread]
  by_cases hl : labels config p s = l
  · subst hl
    rw [AList.lookup_insert, if_pos rfl]
  · rw [AList.lookup_insert_ne (Ne.symm hl), if_neg hl]

/-- The rounds of the second loop: every status, for each pair. -/
theorem mem_rounds {k : Pair × String} :
    k ∈ (order.flatMap fun p => listRelayStatuses.map (Prod.mk p))
      ↔ k.1 ∈ order ∧ ∃ status : Ibcv2RelayStatus, k.2 = status.toString := by
  obtain ⟨p, s⟩ := k
  simp only [listRelayStatuses, List.mem_flatMap, List.mem_map]
  constructor
  · rintro ⟨p, hp, s, ⟨status, -, rfl⟩, heq⟩
    cases heq
    exact ⟨hp, status, rfl⟩
  · rintro ⟨hp, status, rfl⟩
    exact ⟨p, hp, _, ⟨status, mem_relayStatuses status, rfl⟩, rfl⟩

/-- Publishing a read of the table, over gauges of an earlier table whose chain pairs are all in
this one. -/
theorem describes_publish (hshown : Describes config shown gauges)
    (hpairs : ∀ r ∈ shown, ∃ q ∈ table, pairOf q = pairOf r)
    (hrows : rows.Perm (countTransfersByChainPairAndStatus table))
    (horder : order.Perm (collect rows).keys) :
    Describes config table (publish config listRelayStatuses (collect rows) order gauges) := by
  have hin : ∀ p, p ∈ order ↔ ∃ q ∈ table, pairOf q = p :=
    fun p => horder.mem_iff.trans (pairs_query hrows)
  rw [publish_eq]
  constructor
  -- the last write to a gauge is this tick's, and it is the count of the pair
  · intro r hr status
    refine (gauges_writes config (collect rows)).foldl_of_mem ?_ (fun k hk hkey => ?_) gauges
    · exact ⟨(pairOf r, status.toString),
        mem_rounds.mpr ⟨(hin _).mpr ⟨r, hr, rfl⟩, status, rfl⟩, rfl⟩
    · obtain ⟨hp, hs⟩ := labels_inj hkey
      rw [← read_collect hrows, ← hp, ← hs]
  · intro l hl
    by_cases hround : ∃ k ∈ order.flatMap fun p => listRelayStatuses.map (Prod.mk p),
        labels config k.1 k.2 = l
    · obtain ⟨k, hk, rfl⟩ := hround
      obtain ⟨hp, status, hs⟩ := mem_rounds.mp hk
      obtain ⟨q, hq, hqp⟩ := (hin _).mp hp
      exact ⟨q, hq, status, by rw [hqp, hs]⟩
    · -- a gauge that this tick does not set was set for a pair that has lost its rows
      have hold := (gauges_writes config (collect rows)).foldl_of_forall_ne
        (fun k hk hkey => hround ⟨k, hk, hkey⟩) gauges
      have hl : l ∈ gauges := by
        rw [← AList.lookup_isSome] at hl ⊢
        rwa [← hold]
      obtain ⟨r, hr, status, rfl⟩ := hshown.only l hl
      obtain ⟨q, hq, hqr⟩ := hpairs r hr
      exact ⟨q, hq, status, by rw [hqr]⟩

end Publish

/-! ## Every run -/

section Run

variable {config : ConfigReader} {priceClient : Bool} {m m' : Monitored} {s s' : System}

/-- Rows stay, and keep their chains. -/
theorem step_pairs (hinv : s.Inv fun _ _ _ => True) {a : Action}
    (hstep : s.step config priceClient a = some s') {r : Ibcv2Transfer}
    (hr : r ∈ s.world.transfers) : ∃ q ∈ s'.world.transfers, pairOf q = pairOf r := by
  obtain ⟨us, hus⟩ := step_rows hstep (hinv.table.row_of_mem hr)
  have hroute : ∀ r : Ibcv2Transfer,
      pairOf r = ⟨r.route.sourceChainID, r.route.destinationChainID⟩ :=
    fun _ => rfl
  refine ⟨_, List.mem_of_find?_eq_some hus, ?_⟩
  rw [hroute, hroute, applyAll_route]

/-- The tables of the read and of the gauges have no chain pair that the present table has not. -/
structure Watches (config : ConfigReader) (m : Monitored) : Prop where
  inv : m.system.Inv fun _ _ _ => True
  seen : ∀ r ∈ m.seen, ∃ q ∈ m.system.world.transfers, pairOf q = pairOf r
  shown : ∀ r ∈ m.shown, ∃ q ∈ m.seen, pairOf q = pairOf r
  rows : ∀ rows, m.rows = some rows → rows.Perm (countTransfersByChainPairAndStatus m.seen)
  gauges : Describes config m.shown m.gauges

/-- The invariant, for a step of the relayer and for both halves of a tick. -/
theorem Watches.step (h : Watches config m) {a : MonitoredAction}
    (hstep : m.step config priceClient a = some m') : Watches config m' := by
  cases a with
  | system a =>
    obtain ⟨s', hs', hstep⟩ := Option.bind_eq_some_iff.mp hstep
    cases hstep
    -- the relayer writes the table, not the gauges
    refine { h with inv := ?_, seen := fun r hr => ?_ }
    · exact step_inv (fun _ _ _ _ _ _ _ _ _ _ _ => trivial) (fun _ _ _ _ => trivial) h.inv
        (pushesOnly_true _ a) hs'
    · obtain ⟨q, hq, hqr⟩ := h.seen r hr
      obtain ⟨q', hq', hqq'⟩ := step_pairs h.inv hs' hq
      exact ⟨q', hq', hqq'.trans hqr⟩
  | read answer =>
    cases answer with
    | none =>
      rw [Monitored.step] at hstep
      split at hstep
      · cases hstep
        exact h
      · cases hstep
    | some rows =>
      rw [Monitored.step] at hstep
      split at hstep
      · rename_i hread
        cases hstep
        refine { h with seen := fun r hr => ⟨r, hr, rfl⟩, shown := fun r hr => ?_, rows := ?_ }
        · obtain ⟨q, hq, hqr⟩ := h.shown r hr
          obtain ⟨q', hq', hqq'⟩ := h.seen q hq
          exact ⟨q', hq', hqq'.trans hqr⟩
        · rintro _ ⟨⟩
          exact hread.2
      · cases hstep
  | publish order =>
    obtain ⟨rows, hrows, hstep⟩ := Option.bind_eq_some_iff.mp hstep
    dsimp only at hstep
    split at hstep
    · rename_i horder
      cases hstep
      refine { h with shown := fun r hr => ⟨r, hr, rfl⟩, rows := by rintro _ ⟨⟩, gauges := ?_ }
      exact describes_publish h.gauges h.shown (h.rows rows hrows) horder
    · cases hstep

theorem watches_started {s₀ : System} (h : s₀.Started) : Watches config { system := s₀ } where
  inv := h.inv
  seen r hr := by cases hr
  shown r hr := by cases hr
  rows := by rintro _ ⟨⟩
  gauges := ⟨by rintro _ ⟨⟩, fun l hl => absurd hl (AList.notMem_empty l)⟩

/-- The sum of the gauges of a chain pair. -/
def total (config : ConfigReader) (gauges : Gauges) (p : Pair) : Nat :=
  (listRelayStatuses.map fun s => (gauges.lookup (labels config p s)).getD 0).sum

/-- Every row has one status, so the counts of a pair add up to its rows. -/
theorem sum_countOf (table : List Ibcv2Transfer) (p : Pair) :
    (relayStatuses.map (countOf table p)).sum = table.countP (pairOf · = p) := by
  induction table with
  | nil => simp [countOf, relayStatuses]
  | cons r table ih =>
    have hone : (relayStatuses.map fun status => if r.status = status then 1 else 0).sum = 1 := by
      cases r.status <;> decide
    have hcons : ∀ status, countOf (r :: table) p status
        = countOf table p status + if pairOf r = p ∧ r.status = status then 1 else 0 := by
      intro status
      simp [countOf, List.countP_cons]
    rw [funext hcons, List.sum_map_add, ih, List.countP_cons]
    by_cases hp : pairOf r = p
    · simp [hp, hone]
    · simp [hp]

/-- **The exported counts are those of the last published read.** In every run of the relayer with
its monitor, the gauges have the right count of that table for each of its chain pairs and each
status, and there is no gauge for another pair; the statuses of a pair add up to its rows. -/
theorem gauges_describe {s₀ : System} (hstart : s₀.Started)
    (hrun : Monitored.Run config priceClient { system := s₀ } m) :
    Describes config m.shown m.gauges ∧ ∀ r ∈ m.shown,
      total config m.gauges (pairOf r) = m.shown.countP (pairOf · = pairOf r) := by
  have hwatches : Watches config m :=
    Machine.Run.inv hrun (watches_started hstart) fun h _ hstep => h.step hstep
  refine ⟨hwatches.gauges, fun r hr => ?_⟩
  rw [← sum_countOf, total, listRelayStatuses, List.map_map]
  congr 1
  refine List.map_congr_left fun status _ => ?_
  rw [Function.comp_apply, hwatches.gauges.count r hr status]
  rfl

end Run

/-- The sample packet is counted twice, before it is pushed and when its first stage has saved its
state. -/
def Sample.ticks : List MonitoredAction :=
  [.system (.relay "cosmoshub-4" "0xa1" [(Sample.packetInfo, 1)]),
    .read (some [⟨"cosmoshub-4", "1", .pending, 1⟩]), .system .poll, .system (.submit (.ok ())),
    .publish [⟨"cosmoshub-4", "1"⟩], .read none, .system (.start 0),
    .system (.call 0 (Sample.obliging .zero)),
    .read (some [⟨"cosmoshub-4", "1", .checkRecvPacketDelivery, 1⟩]),
    .publish [⟨"cosmoshub-4", "1"⟩]]

/-- `gauges_describe` when a status has been left: its gauge is zero again. -/
theorem gauges_describe_left :
    ∃ m, Monitored.Run Sample.config false { system := Sample.idle } m
      ∧ m.gauges.lookup (labels Sample.config ⟨"cosmoshub-4", "1"⟩ "PENDING") = some 0
      ∧ m.shown ≠ [] ∧ Describes Sample.config m.shown m.gauges
      ∧ ∀ r ∈ m.shown, total Sample.config m.gauges (pairOf r)
        = m.shown.countP (pairOf · = pairOf r) := by
  have hscript : (Machine.script (Monitored.step Sample.config false) (fun _ _ => true)
      { system := Sample.idle } Sample.ticks).any (fun m =>
        m.gauges.lookup (labels Sample.config ⟨"cosmoshub-4", "1"⟩ "PENDING") = some 0
          && m.shown ≠ []) = true := by decide +kernel
  obtain ⟨m, hm, hboth⟩ := (Option.any_eq_true _ _).mp hscript
  obtain ⟨hgauge, hshown⟩ := Bool.and_eq_true_iff.mp hboth
  have hrun : Monitored.Run Sample.config false { system := Sample.idle } m :=
    Machine.run_of_script (fun _ _ _ => trivial) hm
  obtain ⟨hdescribes, htotal⟩ := gauges_describe Sample.started hrun
  exact ⟨m, hrun, of_decide_eq_true hgauge, of_decide_eq_true hshown, hdescribes, htotal⟩

end TransferStats

end IbcRelayer

import IbcRelayer.Lib.Proc

/-!
# Progress and closing of processes

* `Orderly` — a process that closes its output once, when its input is closed and it holds nothing,
  and does nothing afterwards; that always has a step to do while it holds an item or has to close;
  and that receives when it is empty.
* `Live` — the same as long as the input is not closed: it has a step while it holds an item, and it
  receives when it is empty.
* `Steady` — a process that can receive a value stays so until it receives one.
* `Ranked` — every step costs something: values that are received pay for the steps of the process
  and for the values that it sends.

Each of them is kept by `pipe`.
-/

namespace Proc

variable {α β γ δ T : Type} {f : β → γ ⊕ δ} {C : Proc α β T} {D : Proc δ γ T}
  {ins : α → Multiset T} {mids : β → Multiset T} {ins' : δ → Multiset T} {outs : γ → Multiset T}

/-- Some step is enabled that the process does by itself. -/
def Moves (P : Proc α β T) (s : P.State) : Prop := ∃ o s', P.Act s o s'

/-- The second process of a composition can always go on by itself. -/
theorem moves_second {c : C.State} {d : D.State} (h : D.Moves d) : (pipe f C D).Moves (c, d) := by
  obtain ⟨o, d', h⟩ := h
  exact ⟨o, (c, d'), pipe_act.mpr (.second h)⟩

/-- A step of the first process is a step of both, if the second one moves or receives. -/
theorem moves_first {c : C.State} {d : D.State} (h : C.Moves c)
    (hrecv : ∀ {b c'}, C.Act c (.send b) c' → D.Moves d ∨ ∀ y, ∃ d', D.recv d y = some d')
    (hclose : ∀ {c'}, C.Act c .close c' → D.Moves d ∨ ∃ d', D.recvClose d = some d') :
    (pipe f C D).Moves (c, d) := by
  obtain ⟨o, c', h⟩ := h
  cases o with
  | inside lost => exact ⟨_, _, pipe_act.mpr (.first h)⟩
  | send b =>
    cases hb : f b with
    | inl y => exact ⟨_, _, pipe_act.mpr (.aside h hb)⟩
    | inr y =>
      rcases hrecv h with hd | hd
      · exact moves_second hd
      · obtain ⟨d', hd⟩ := hd y
        exact ⟨_, _, pipe_act.mpr (.handoff h hb hd)⟩
  | close =>
    rcases hclose h with hd | ⟨d', hd⟩
    · exact moves_second hd
    · exact ⟨_, _, pipe_act.mpr (.close h hd)⟩

/-! ## While the input is open -/

/-- A process that has a step to do while it holds an item and receives when it is empty, as long as
its input is not closed. -/
structure Live {P : Proc α β T} {ins : α → Multiset T} {outs : β → Multiset T}
    (A : P.Account ins outs) where
  Inv : P.State → Prop
  start : Inv P.start
  recv : ∀ {s a s'}, Inv s → P.recv s a = some s' → Inv s'
  act : ∀ {s o s'}, Inv s → P.Act s o s' → Inv s'
  stays : ∀ {s s'}, Inv s → ¬ P.Act s .close s'
  busy : ∀ {s}, Inv s → A.holds s ≠ 0 → P.Moves s
  ready : ∀ {s}, Inv s → A.holds s = 0 → P.Moves s ∨ ∀ a, ∃ s', P.recv s a = some s'

/-- Two live processes make a live one: as long as the second holds an item it has a step, and when
it is empty it receives what the first has to send. -/
def Live.pipe {A : C.Account ins mids} {B : D.Account ins' outs} (L : Live A) (M : Live B)
    (hf : ∀ b, mids b = (f b).elim outs ins') : Live (A.pipe B hf) where
  Inv s := L.Inv s.1 ∧ M.Inv s.2
  start := ⟨L.start, M.start⟩
  recv {s a s'} hinv h := by
    obtain ⟨hc, hd⟩ := pipe_recv.mp h
    exact ⟨L.recv hinv.1 hc, hd ▸ hinv.2⟩
  act {s o s'} hinv h := by
    cases pipe_act.mp h with
    | first hc => exact ⟨L.act hinv.1 hc, hinv.2⟩
    | aside hc hb => exact ⟨L.act hinv.1 hc, hinv.2⟩
    | handoff hc hb hd => exact ⟨L.act hinv.1 hc, M.recv hinv.2 hd⟩
    | close hc hd => exact absurd hc (L.stays hinv.1)
    | second hd => exact ⟨hinv.1, M.act hinv.2 hd⟩
  stays {s s'} hinv h := by
    cases pipe_act.mp h with
    | second hd => exact M.stays hinv.2 hd
  -- an item is in the second process, or in the first one
  busy {s} hinv hholds := by
    by_cases hd : B.holds s.2 = 0
    · have hc : A.holds s.1 ≠ 0 := by
        intro hc
        exact hholds (show A.holds s.1 + B.holds s.2 = 0 by rw [hc, hd, add_zero])
      exact moves_first (L.busy hinv.1 hc) (fun _ => M.ready hinv.2 hd)
        fun hclose => absurd hclose (L.stays hinv.1)
    · exact moves_second (M.busy hinv.2 hd)
  ready {s} hinv hholds := by
    obtain ⟨hc, hd⟩ := add_eq_zero.mp (show A.holds s.1 + B.holds s.2 = 0 from hholds)
    rcases L.ready hinv.1 hc with hmoves | hrecv
    · exact .inl (moves_first hmoves (fun _ => M.ready hinv.2 hd)
        fun hclose => absurd hclose (L.stays hinv.1))
    · refine .inr fun a => ?_
      obtain ⟨c', hc'⟩ := hrecv a
      exact ⟨(c', s.2), pipe_recv.mpr ⟨hc', rfl⟩⟩

/-- A process that can receive a value stays so until it receives one. -/
structure Steady (P : Proc α β T) : Prop where
  act : ∀ {s o s' a}, P.Act s o s' → (∃ r, P.recv s a = some r) → ∃ r, P.recv s' a = some r
  recvClose : ∀ {s s' a}, P.recvClose s = some s' → (∃ r, P.recv s a = some r) →
    ∃ r, P.recv s' a = some r

theorem pipe_receives {s : C.State × D.State} {a : α} :
    (∃ r, (Proc.pipe f C D).recv s a = some r) ↔ ∃ r, C.recv s.1 a = some r := by
  constructor
  · rintro ⟨r, h⟩
    exact ⟨r.1, (pipe_recv.mp h).1⟩
  · rintro ⟨r, h⟩
    exact ⟨(r, s.2), pipe_recv.mpr ⟨h, rfl⟩⟩

/-- What is received by a composition is received by its first process, which the second one cannot
prevent. -/
theorem Steady.pipe (hC : C.Steady) : (Proc.pipe f C D).Steady where
  act {s o s' a} h hroom := by
    refine pipe_receives.mpr ?_
    replace hroom := pipe_receives.mp hroom
    cases pipe_act.mp h with
    | first hc => exact hC.act hc hroom
    | aside hc hb => exact hC.act hc hroom
    | handoff hc hb hd => exact hC.act hc hroom
    | close hc hd => exact hC.act hc hroom
    | second hd => exact hroom
  recvClose {s s' a} h hroom := by
    exact pipe_receives.mpr (hC.recvClose (pipe_recvClose.mp h).1 (pipe_receives.mp hroom))

/-! ## Closing -/

/-- A process that closes its output once, when there is nothing left to do, and that always comes
to it. `opened` says that its input is not closed yet, `closed` that its output is. -/
structure Orderly {P : Proc α β T} {ins : α → Multiset T} {outs : β → Multiset T}
    (A : P.Account ins outs) where
  Inv : P.State → Prop
  opened : P.State → Prop
  closed : P.State → Prop
  start : Inv P.start ∧ opened P.start ∧ ¬ closed P.start
  recv : ∀ {s a s'}, Inv s → P.recv s a = some s' → opened s ∧ Inv s' ∧ opened s'
  recvClose : ∀ {s s'}, Inv s → P.recvClose s = some s' →
    opened s ∧ Inv s' ∧ ¬ opened s' ∧ ¬ closed s'
  act : ∀ {s o s'}, Inv s → P.Act s o s' →
    ¬ closed s ∧ Inv s' ∧ (opened s' ↔ opened s) ∧ (closed s' ↔ o = .close)
  close : ∀ {s s'}, Inv s → P.Act s .close s' → ¬ opened s ∧ A.holds s = 0
  empty : ∀ {s}, Inv s → closed s → ¬ opened s ∧ A.holds s = 0
  progress : ∀ {s}, Inv s → ¬ closed s → A.holds s ≠ 0 ∨ ¬ opened s → P.Moves s
  ready : ∀ {s}, Inv s → opened s → A.holds s = 0 →
    P.Moves s ∨ (∀ a, ∃ s', P.recv s a = some s') ∧ ∃ s', P.recvClose s = some s'

/-- While the input is open, an orderly process is live. -/
def Orderly.live {P : Proc α β T} {ins : α → Multiset T} {outs : β → Multiset T}
    {A : P.Account ins outs} (O : Orderly A) : Live A where
  Inv s := O.Inv s ∧ O.opened s
  start := ⟨O.start.1, O.start.2.1⟩
  recv hinv h := (O.recv hinv.1 h).2
  act hinv h := by
    obtain ⟨-, hinv', hopened, -⟩ := O.act hinv.1 h
    exact ⟨hinv', hopened.mpr hinv.2⟩
  stays hinv h := (O.close hinv.1 h).1 hinv.2
  busy hinv hholds := by
    refine O.progress hinv.1 (fun hclosed => ?_) (.inl hholds)
    exact (O.empty hinv.1 hclosed).1 hinv.2
  ready hinv hholds := (O.ready hinv.1 hinv.2 hholds).imp_right (·.1)

section Closing

variable {A : C.Account ins mids} {B : D.Account ins' outs} (O : Orderly A) (Q : Orderly B)

/-- The input of the second process is the output of the first. -/
def PipeInv (s : C.State × D.State) : Prop :=
  O.Inv s.1 ∧ Q.Inv s.2 ∧ (Q.opened s.2 ↔ ¬ O.closed s.1)

variable {O Q} {s : C.State × D.State}

/-- As long as the input of the first process is open, nothing is closed. -/
theorem PipeInv.open_of_open (h : PipeInv O Q s) (hopened : O.opened s.1) :
    ¬ O.closed s.1 ∧ Q.opened s.2 ∧ ¬ Q.closed s.2 := by
  have hc : ¬ O.closed s.1 := fun hclosed => (O.empty h.1 hclosed).1 hopened
  have hd : Q.opened s.2 := h.2.2.mpr hc
  exact ⟨hc, hd, fun hclosed => (Q.empty h.2.1 hclosed).1 hd⟩

/-- The steps keep the invariant of a composition, and its output is closed exactly by the step that
closes it. The channel in between is closed by the first process, and seen as closed by the second
one in the same step. -/
theorem PipeInv.act (h : PipeInv O Q s) {o : Output γ T} {s' : C.State × D.State}
    (hact : PipeAct f C D s o s') :
    ¬ Q.closed s.2 ∧ PipeInv O Q s' ∧ (O.opened s'.1 ↔ O.opened s.1)
      ∧ (Q.closed s'.2 ↔ o = .close) := by
  obtain ⟨hinv, hinv', hmid⟩ := h
  -- as long as the first process does something, its output is open
  have hopen : ¬ O.closed s.1 → Q.opened s.2 ∧ ¬ Q.closed s.2 := by
    intro hc
    have hd := hmid.mpr hc
    exact ⟨hd, fun hclosed => (Q.empty hinv' hclosed).1 hd⟩
  cases hact with
  | first hc =>
    obtain ⟨hc, hinv, hopened, hclosed⟩ := O.act hinv hc
    obtain ⟨hd, hd'⟩ := hopen hc
    exact ⟨hd', ⟨hinv, hinv', by simp [hd, hclosed]⟩, hopened, by simp [hd']⟩
  | aside hc hb =>
    obtain ⟨hc, hinv, hopened, hclosed⟩ := O.act hinv hc
    obtain ⟨hd, hd'⟩ := hopen hc
    exact ⟨hd', ⟨hinv, hinv', by simp [hd, hclosed]⟩, hopened, by simp [hd']⟩
  -- a value that is received means that the channel was open
  | handoff hc hb hrecv =>
    obtain ⟨hc, hinv, hopened, hclosed⟩ := O.act hinv hc
    obtain ⟨hd, hd'⟩ := hopen hc
    obtain ⟨-, hinv', hopened'⟩ := Q.recv hinv' hrecv
    have hclosed' := fun hclosed => (Q.empty hinv' hclosed).1 hopened'
    exact ⟨hd', ⟨hinv, hinv', by simp [hopened', hclosed]⟩, hopened,
      iff_of_false hclosed' (by simp)⟩
  | close hc hrecv =>
    obtain ⟨hc, hinv, hopened, hclosed⟩ := O.act hinv hc
    obtain ⟨hd, hd'⟩ := hopen hc
    obtain ⟨-, hinv', hopened', hclosed'⟩ := Q.recvClose hinv' hrecv
    exact ⟨hd', ⟨hinv, hinv', by simp [hopened', hclosed]⟩, hopened, by simp [hclosed']⟩
  | second hd =>
    obtain ⟨hd', hinv', hopened, hclosed⟩ := Q.act hinv' hd
    exact ⟨hd', ⟨hinv, hinv', hopened.trans hmid⟩, Iff.rfl, hclosed⟩

/-- Two orderly processes make an orderly one. The output is closed when the second process has seen
the end of the channel between them, so that the first one is through and empty. -/
def Orderly.pipe (O : Orderly A) (Q : Orderly B) (hf : ∀ b, mids b = (f b).elim outs ins') :
    Orderly (A.pipe B hf) where
  Inv := PipeInv O Q
  opened s := O.opened s.1
  closed s := Q.closed s.2
  start := by
    obtain ⟨hinv, hopened, hclosed⟩ := O.start
    obtain ⟨hinv', hopened', hclosed'⟩ := Q.start
    exact ⟨⟨hinv, hinv', iff_of_true hopened' hclosed⟩, hopened, hclosed'⟩
  recv {s a s'} h hrecv := by
    obtain ⟨hc, hd⟩ := pipe_recv.mp hrecv
    obtain ⟨hopened, hinv, hopened'⟩ := O.recv h.1 hc
    have hclosed : ¬ O.closed s'.1 := fun hclosed => (O.empty hinv hclosed).1 hopened'
    obtain ⟨-, hmid, -⟩ := h.open_of_open hopened
    exact ⟨hopened, ⟨hinv, hd ▸ h.2.1, by simp [hd, hmid, hclosed]⟩, hopened'⟩
  recvClose {s s'} h hrecv := by
    obtain ⟨hc, hd⟩ := pipe_recvClose.mp hrecv
    obtain ⟨hopened, hinv, hopened', hclosed⟩ := O.recvClose h.1 hc
    obtain ⟨-, hmid, hmid'⟩ := h.open_of_open hopened
    exact ⟨hopened, ⟨hinv, hd ▸ h.2.1, by simp [hd, hmid, hclosed]⟩, hopened', hd ▸ hmid'⟩
  act h hact := h.act (pipe_act.mp hact)
  -- only the second process closes the output, when the channel in between is closed and it is
  -- empty
  close {s s'} h hact := by
    cases pipe_act.mp hact with
    | second hd =>
      obtain ⟨hopened, hholds⟩ := Q.close h.2.1 hd
      have hclosed := not_not.mp fun hclosed => hopened (h.2.2.mpr hclosed)
      obtain ⟨hopened', hholds'⟩ := O.empty h.1 hclosed
      exact ⟨hopened', show A.holds _ + B.holds _ = 0 by rw [hholds, hholds', add_zero]⟩
  -- the output is closed, so the channel in between is, so the input is
  empty {s} h hclosed := by
    obtain ⟨hopened, hholds⟩ := Q.empty h.2.1 hclosed
    have hclosed' : O.closed s.1 := by
      by_contra hclosed'
      exact hopened (h.2.2.mpr hclosed')
    obtain ⟨hopened', hholds'⟩ := O.empty h.1 hclosed'
    exact ⟨hopened', show A.holds _ + B.holds _ = 0 by rw [hholds, hholds', add_zero]⟩
  progress {s} h hclosed hbusy := by
    by_cases hd : B.holds s.2 ≠ 0 ∨ ¬ Q.opened s.2
    · exact moves_second (Q.progress h.2.1 hclosed hd)
    · -- the second process is empty and waits, so the first one has something to do
      obtain ⟨hholds, hopened⟩ := not_or.mp hd
      have hholds : B.holds s.2 = 0 := not_not.mp hholds
      have hopened : Q.opened s.2 := not_not.mp hopened
      have hc : ¬ O.closed s.1 := h.2.2.mp hopened
      have hready := Q.ready h.2.1 hopened hholds
      refine moves_first (O.progress h.1 hc (hbusy.imp_left fun hsum hc => hsum ?_))
        (fun _ => hready.imp_right (·.1)) fun _ => hready.imp_right (·.2)
      show A.holds s.1 + B.holds s.2 = 0
      rw [hc, hholds, add_zero]
  ready {s} h hopened hholds := by
    obtain ⟨hc, hd⟩ := add_eq_zero.mp (show A.holds s.1 + B.holds s.2 = 0 from hholds)
    obtain ⟨-, hmid, -⟩ := h.open_of_open hopened
    have hready := Q.ready h.2.1 hmid hd
    rcases O.ready h.1 hopened hc with hmoves | ⟨hrecv, c', hclose⟩
    · exact .inl (moves_first hmoves (fun _ => hready.imp_right (·.1))
        fun _ => hready.imp_right (·.2))
    · refine .inr ⟨fun a => ?_, (c', s.2), pipe_recvClose.mpr ⟨hclose, rfl⟩⟩
      obtain ⟨c'', hc''⟩ := hrecv a
      exact ⟨(c'', s.2), pipe_recv.mpr ⟨hc'', rfl⟩⟩

end Closing

/-! ## Termination -/

/-- What an output costs, if a value costs `price` and closing costs `closing`. -/
def cost (price : β → Nat) (closing : Nat) : Output β T → Nat
  | .send b => price b
  | .close => closing
  | .inside _ => 0

/-- A process whose steps use up a rank. A value that it receives pays `pay a`, and the end of the
input pays `last`. -/
structure Ranked (P : Proc α β T) (pay : α → Nat) (last : Nat) (price : β → Nat)
    (closing : Nat) where
  rank : P.State → Nat
  recv : ∀ {s a s'}, P.recv s a = some s' → rank s' < rank s + pay a
  recvClose : ∀ {s s'}, P.recvClose s = some s' → rank s' < rank s + last
  act : ∀ {s o s'}, P.Act s o s' → rank s' + cost price closing o < rank s

/-- The ranks add up, if the price of a value for the first process is what the second one is paid
for it. -/
def Ranked.pipe {pay : α → Nat} {last : Nat} {mid : β → Nat} {pay' : δ → Nat} {last' : Nat}
    {price : γ → Nat} {closing : Nat} (R : C.Ranked pay last mid last')
    (S : D.Ranked pay' last' price closing) (hf : ∀ b, mid b = (f b).elim price pay') :
    (Proc.pipe f C D).Ranked pay last price closing where
  rank s := R.rank s.1 + S.rank s.2
  recv {s a s'} h := by
    obtain ⟨hc, hd⟩ := pipe_recv.mp h
    have := R.recv hc
    rw [hd]
    omega
  recvClose {s s'} h := by
    obtain ⟨hc, hd⟩ := pipe_recvClose.mp h
    have := R.recvClose hc
    rw [hd]
    omega
  act {s o s'} h := by
    cases pipe_act.mp h with
    | first hc =>
      have := R.act hc
      simp only [cost] at this ⊢
      omega
    | aside hc hb =>
      have := R.act hc
      simp only [cost, hf, hb, Sum.elim_inl] at this ⊢
      omega
    -- the price that the first process pays is what the second one gets
    | handoff hc hb hd =>
      have := R.act hc
      have := S.recv hd
      simp only [cost, hf, hb, Sum.elim_inr] at *
      omega
    | close hc hd =>
      have := R.act hc
      have := S.recvClose hd
      simp only [cost] at *
      omega
    | second hd =>
      have := S.act hd
      simp only at this ⊢
      omega

end Proc

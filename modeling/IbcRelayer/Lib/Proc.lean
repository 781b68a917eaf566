import Mathlib.Data.Multiset.OrderedMonoid
import Mathlib.Algebra.BigOperators.Group.List.Basic
import Mathlib.Algebra.Order.Monoid.Canonical.Basic
import Mathlib.Tactic.Abel

/-!
# Processes on channels

A `Proc α β T` is a goroutine, or several of them, between an input channel of `α` and an output
channel of `β`. It receives a value or sees that the input is closed, and by itself it sends a
value, closes the output or goes on inside. Channels are unbuffered: a value goes over when the one
side sends and the other receives (`pipe`), so that a buffer is a process of its own.

The values that are sent stand for items in `T`, one or several for each value. An `Account` says
which items a process holds, and that it neither makes up nor repeats an item; those it throws away
are named in its output.

* `pipe f C D` — what `C` sends goes to `D`, or straight to the output, as `f` says.
* `Account.pipe` — what the two hold together.
* `AtMostOnce` — every item that comes out has come in before, and comes out once.
* `Keeps` — an invariant that also speaks about the values that were sent, and their order.
-/

/-- What a process does by itself. -/
inductive Output (β T : Type) where
  | send (b : β)
  | close
  /-- A step inside, in which these items are thrown away. -/
  | inside (lost : List T)

structure Proc (α β T : Type) where
  State : Type
  /-- The choices that a process has in a step by itself. -/
  Action : Type
  start : State
  recv : State → α → Option State
  /-- The input is closed. -/
  recvClose : State → Option State
  act : State → Action → Option (Output β T × State)

namespace Proc

variable {α β γ δ T : Type}

/-- Some choice leads from `s` to `s'`. -/
def Act (P : Proc α β T) (s : P.State) (o : Output β T) (s' : P.State) : Prop :=
  ∃ x, P.act s x = some (o, s')

/-- No items are thrown away. -/
def Lossless (P : Proc α β T) : Prop := ∀ s lost s', P.Act s (.inside lost) s' → lost = []

/-! ## Composition -/

/-- What `C` sends goes to `D`, or straight to the output, as `f` says. When `C` closes its output,
the input of `D` is closed. -/
def pipe (f : β → γ ⊕ δ) (C : Proc α β T) (D : Proc δ γ T) : Proc α γ T where
  State := C.State × D.State
  Action := C.Action ⊕ D.Action
  start := (C.start, D.start)
  recv s a := (C.recv s.1 a).map (·, s.2)
  recvClose s := (C.recvClose s.1).map (·, s.2)
  act
    | (c, d), .inl x =>
      match C.act c x with
      | none => none
      | some (.inside lost, c') => some (.inside lost, (c', d))
      | some (.send b, c') =>
        match f b with
        | .inl y => some (.send y, (c', d))
        | .inr y => (D.recv d y).map fun d' => (.inside [], (c', d'))
      | some (.close, c') => (D.recvClose d).map fun d' => (.inside [], (c', d'))
    | (c, d), .inr y => (D.act d y).map fun (o, d') => (o, (c, d'))

section Pipe

variable {f : β → γ ⊕ δ} {C : Proc α β T} {D : Proc δ γ T}

/-- The steps of a composition. -/
inductive PipeAct (f : β → γ ⊕ δ) (C : Proc α β T) (D : Proc δ γ T) :
    C.State × D.State → Output γ T → C.State × D.State → Prop where
  | first {c c' d lost} (h : C.Act c (.inside lost) c') :
      PipeAct f C D (c, d) (.inside lost) (c', d)
  | aside {c c' d b y} (h : C.Act c (.send b) c') (hb : f b = .inl y) :
      PipeAct f C D (c, d) (.send y) (c', d)
  | handoff {c c' d d' b y} (h : C.Act c (.send b) c') (hb : f b = .inr y)
      (h' : D.recv d y = some d') : PipeAct f C D (c, d) (.inside []) (c', d')
  | close {c c' d d'} (h : C.Act c .close c') (h' : D.recvClose d = some d') :
      PipeAct f C D (c, d) (.inside []) (c', d')
  | second {c d d' o} (h : D.Act d o d') : PipeAct f C D (c, d) o (c, d')

/-- A step of a composition by itself is one of five: of the first process alone, a value that goes
past the second one, a value that is handed over, the end of the channel between them, or a step of
the second process alone. -/
theorem pipe_act {s s' : C.State × D.State} {o : Output γ T} :
    (pipe f C D).Act s o s' ↔ PipeAct f C D s o s' := by
  obtain ⟨c, d⟩ := s
  constructor
  -- the choices of a composition are those of its two processes
  · rintro ⟨x | y, h⟩
    · simp only [pipe] at h
      split at h
      · cases h
      · rename_i hc
        cases h
        exact .first ⟨x, hc⟩
      · rename_i b c' hc
        split at h
        · rename_i y hb
          cases h
          exact .aside ⟨x, hc⟩ hb
        · rename_i y hb
          obtain ⟨d', hd, h⟩ := Option.map_eq_some_iff.mp h
          cases h
          exact .handoff ⟨x, hc⟩ hb hd
      · rename_i c' hc
        obtain ⟨d', hd, h⟩ := Option.map_eq_some_iff.mp h
        cases h
        exact .close ⟨x, hc⟩ hd
    · obtain ⟨⟨o', d'⟩, hd, h⟩ := Option.map_eq_some_iff.mp h
      cases h
      exact .second ⟨y, hd⟩
  · rintro (⟨⟨x, hc⟩⟩ | ⟨⟨x, hc⟩, hb⟩ | ⟨⟨x, hc⟩, hb, hd⟩ | ⟨⟨x, hc⟩, hd⟩ | ⟨⟨y, hd⟩⟩)
    · exact ⟨.inl x, by simp [pipe, hc]⟩
    · exact ⟨.inl x, by simp [pipe, hc, hb]⟩
    · exact ⟨.inl x, by simp [pipe, hc, hb, hd]⟩
    · exact ⟨.inl x, by simp [pipe, hc, hd]⟩
    · exact ⟨.inr y, by simp [pipe, hd]⟩

/-- A composition receives by its first process. -/
theorem pipe_recv {s s' : C.State × D.State} {a : α} :
    (pipe f C D).recv s a = some s' ↔ C.recv s.1 a = some s'.1 ∧ s'.2 = s.2 := by
  obtain ⟨c', d'⟩ := s'
  simp only [pipe, Option.map_eq_some_iff, Prod.mk.injEq]
  constructor
  · rintro ⟨_, h, rfl, rfl⟩
    exact ⟨h, rfl⟩
  · rintro ⟨h, rfl⟩
    exact ⟨c', h, rfl, rfl⟩

/-- And the end of its input is seen by its first process. -/
theorem pipe_recvClose {s s' : C.State × D.State} :
    (pipe f C D).recvClose s = some s' ↔ C.recvClose s.1 = some s'.1 ∧ s'.2 = s.2 := by
  obtain ⟨c', d'⟩ := s'
  simp only [pipe, Option.map_eq_some_iff, Prod.mk.injEq]
  constructor
  · rintro ⟨_, h, rfl, rfl⟩
    exact ⟨h, rfl⟩
  · rintro ⟨h, rfl⟩
    exact ⟨c', h, rfl, rfl⟩

/-- A composition of processes that throw nothing away throws nothing away. -/
theorem Lossless.pipe (hC : C.Lossless) (hD : D.Lossless) : (Proc.pipe f C D).Lossless := by
  intro s lost s' h
  cases pipe_act.mp h with
  | first hc => exact hC _ _ _ hc
  | handoff => rfl
  | close => rfl
  | second hd => exact hD _ _ _ hd

end Pipe

/-! ## The items -/

/-- The items of a list of values. -/
def items (w : α → Multiset T) (l : List α) : Multiset T := (l.map w).sum

@[simp] theorem items_nil (w : α → Multiset T) : items w [] = 0 := rfl

@[simp] theorem items_cons (w : α → Multiset T) (a : α) (l : List α) :
    items w (a :: l) = w a + items w l := by
  simp [items]

@[simp] theorem items_append (w : α → Multiset T) (l l' : List α) :
    items w (l ++ l') = items w l + items w l' := by
  simp [items]

theorem items_eraseIdx (w : α → Multiset T) {l : List α} {n : Nat} {a : α} (h : l[n]? = some a) :
    items w l = w a + items w (l.eraseIdx n) := by
  obtain ⟨hn, rfl⟩ := List.getElem?_eq_some_iff.mp h
  rw [items, items, ← List.eraseIdx_map]
  have hmap : n < (l.map w).length := by simpa using hn
  simpa using (List.CommMonoid.add_sum_eraseIdx hmap).symm

/-- The items of a list in which one value takes the place of another. Stated with both sides added
up, as there is no subtraction. -/
theorem items_set (w : α → Multiset T) {l : List α} {n : Nat} {a : α} (h : l[n]? = some a) (b : α) :
    items w (l.set n b) + w a = items w l + w b := by
  have hn := (List.getElem?_eq_some_iff.mp h).1
  have hb : (l.set n b)[n]? = some b := by simp [hn]
  rw [items_eraseIdx w h, items_eraseIdx w hb, List.eraseIdx_set_eq]
  abel

/-- The items that leave a process with an output. -/
def given (outs : β → Multiset T) : Output β T → Multiset T
  | .send b => outs b
  | .close => 0
  | .inside lost => lost

/-- Which items a process holds. A value `a` brings the items `ins a`, and a value `b` takes away
the items `outs b`. -/
structure Account (P : Proc α β T) (ins : α → Multiset T) (outs : β → Multiset T) where
  holds : P.State → Multiset T
  start : holds P.start = 0
  recv : ∀ {s a s'}, P.recv s a = some s' → holds s' = ins a + holds s
  recvClose : ∀ {s s'}, P.recvClose s = some s' → holds s' = holds s
  act : ∀ {s o s'}, P.Act s o s' → holds s = given outs o + holds s'

/-- What the two hold together. -/
def Account.pipe {f : β → γ ⊕ δ} {C : Proc α β T} {D : Proc δ γ T} {ins : α → Multiset T}
    {mids : β → Multiset T} {ins' : δ → Multiset T} {outs : γ → Multiset T}
    (A : C.Account ins mids) (B : D.Account ins' outs) (hf : ∀ b, mids b = (f b).elim outs ins') :
    (Proc.pipe f C D).Account ins outs where
  holds s := A.holds s.1 + B.holds s.2
  start := by
    show A.holds C.start + B.holds D.start = 0
    rw [A.start, B.start, add_zero]
  recv {s a s'} h := by
    obtain ⟨hc, hd⟩ := pipe_recv.mp h
    rw [A.recv hc, hd, add_assoc]
  recvClose {s s'} h := by
    obtain ⟨hc, hd⟩ := pipe_recvClose.mp h
    rw [A.recvClose hc, hd]
  act {s o s'} h := by
    cases pipe_act.mp h with
    | first hc => simp only [A.act hc, given, add_assoc]
    | aside hc hb => simp only [A.act hc, given, hf, hb, Sum.elim_inl, add_assoc]
    | handoff hc hb hd =>
      simp only [A.act hc, B.recv hd, given, hf, hb, Sum.elim_inr, Multiset.coe_nil, zero_add]
      abel
    | close hc hd => simp only [A.act hc, B.recvClose hd, given, Multiset.coe_nil, zero_add]
    | second hd =>
      rw [B.act hd]
      abel

/-! ## What comes out of a process -/

/-- The items of what is sent. -/
def sent (outs : β → Multiset T) : Output β T → Multiset T
  | .send b => outs b
  | _ => 0

/-- The process can have got the items `ins` and sent the items `outs` until it is in a state. -/
inductive Reaches (P : Proc α β T) (ins : α → Multiset T) (outs : β → Multiset T) :
    Multiset T → Multiset T → P.State → Prop where
  | start : Reaches P ins outs 0 0 P.start
  | recv {m n s a s'} (h : Reaches P ins outs m n s) (hrecv : P.recv s a = some s') :
      Reaches P ins outs (m + ins a) n s'
  | recvClose {m n s s'} (h : Reaches P ins outs m n s) (hrecv : P.recvClose s = some s') :
      Reaches P ins outs m n s'
  | act {m n s o s'} (h : Reaches P ins outs m n s) (hact : P.Act s o s') :
      Reaches P ins outs m (n + sent outs o) s'

/-- Every item that comes out has come in before, and comes out once. -/
def AtMostOnce (P : Proc α β T) (ins : α → Multiset T) (outs : β → Multiset T) : Prop :=
  ∀ {m n s}, Reaches P ins outs m n s → n ≤ m

/-- A process with an account has sent no more than what it got and does not hold. -/
theorem Account.le_of_reaches {P : Proc α β T} {ins : α → Multiset T} {outs : β → Multiset T}
    (A : P.Account ins outs) {m n : Multiset T} {s : P.State} (h : Reaches P ins outs m n s) :
    n + A.holds s ≤ m := by
  induction h with
  | start => rw [A.start, add_zero]
  | recv h hrecv ih =>
    rw [A.recv hrecv, add_left_comm, add_comm]
    exact add_le_add_left ih _
  | recvClose h hrecv ih => rwa [A.recvClose hrecv]
  | @act m n s o s' h hact ih =>
    refine le_trans ?_ ih
    rw [A.act hact, add_assoc]
    -- what is thrown away leaves as well, and is not sent
    refine add_le_add_right (add_le_add_left ?_ _) n
    cases o with
    | send b => exact le_rfl
    | close => exact le_rfl
    | inside lost => exact Multiset.zero_le _

/-- So every item comes out at most once. -/
theorem Account.atMostOnce {P : Proc α β T} {ins : α → Multiset T} {outs : β → Multiset T}
    (A : P.Account ins outs) : P.AtMostOnce ins outs :=
  fun h => le_trans (Multiset.le_add_right _ _) (A.le_of_reaches h)

/-! ## The order in which values come out -/

/-- The value that is sent, if there is one. -/
def values : Output β T → List β
  | .send b => [b]
  | .close => []
  | .inside _ => []

/-- Every step keeps what `I` says about the state and the values that were sent so far. -/
structure Keeps (P : Proc α β T) (I : P.State → List β → Prop) : Prop where
  recv : ∀ {s a s' l}, P.recv s a = some s' → I s l → I s' l
  recvClose : ∀ {s s' l}, P.recvClose s = some s' → I s l → I s' l
  act : ∀ {s o s' l}, P.Act s o s' → I s l → I s' (l ++ values o)

/-- What the second process keeps, the composition keeps. The first process may send in between, so
the invariant must not mind that. -/
theorem Keeps.pipe {f : β → γ ⊕ δ} {C : Proc α β T} {D : Proc δ γ T}
    {I : D.State → List γ → Prop} (h : D.Keeps I) (haside : ∀ {d l} y, I d l → I d (l ++ [y])) :
    (Proc.pipe f C D).Keeps fun s l => I s.2 l where
  recv hrecv hI := (pipe_recv.mp hrecv).2 ▸ hI
  recvClose hrecv hI := (pipe_recvClose.mp hrecv).2 ▸ hI
  act hact hI := by
    cases pipe_act.mp hact with
    | first => exact (List.append_nil _).symm ▸ hI
    | aside => exact haside _ hI
    | handoff _ _ hd => exact (List.append_nil _).symm ▸ h.recv hd hI
    | close _ hd => exact (List.append_nil _).symm ▸ h.recvClose hd hI
    | second hd => exact h.act hd hI

end Proc

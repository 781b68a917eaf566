import IbcRelayer.Lib.Proc

/-!
# Processes that fill up

A process whose output nobody reads takes a number of values and then no more. For a chain of
processes these numbers add up, if each one can also let a value through.

* `Takes P s l s'` — the values `l` are received on the way from `s` to `s'`, and none is sent.
* `Transparent` — an empty process lets a value through.
* `Stuck` — nothing is received, and the process can only send.
* `Clogs`, `Jams` — any `n` values fill the process up; closing its input does not help.
-/

namespace Proc

variable {α β γ T : Type}

/-- The values `l` are received on the way from one state to another. In between the process makes
steps inside, in which nothing is thrown away. -/
inductive Takes (P : Proc α β T) : P.State → List α → P.State → Prop where
  | refl {s} : Takes P s [] s
  | recv {s a s₁ l s'} (h : P.recv s a = some s₁) (rest : Takes P s₁ l s') : Takes P s (a :: l) s'
  | inside {s s₁ l s'} (h : P.Act s (.inside []) s₁) (rest : Takes P s₁ l s') : Takes P s l s'

theorem Takes.trans {P : Proc α β T} {s s' s'' : P.State} {l l' : List α} (h : Takes P s l s')
    (h' : Takes P s' l' s'') : Takes P s (l ++ l') s'' := by
  induction h with
  | refl => exact h'
  | recv h _ ih => exact .recv h (ih h')
  | inside h _ ih => exact .inside h (ih h')

/-- An empty process lets a value through and is empty again. -/
def Transparent (P : Proc α α T) : Prop :=
  ∀ a, ∃ s s', Takes P P.start [a] s ∧ P.Act s (.send a) s' ∧ Takes P s' [] P.start

/-- Nothing is received, and the process can only send. -/
structure Stuck (P : Proc α β T) (s : P.State) : Prop where
  recv : ∀ a s', P.recv s a ≠ some s'
  act : ∀ {o s'}, P.Act s o s' → ∃ b, o = .send b

/-- Any `n` values fill the process up. -/
def Clogs (P : Proc α β T) (n : Nat) : Prop :=
  ∀ l : List α, l.length = n → ∃ s, Takes P P.start l s ∧ Stuck P s

/-- Any `n` values fill the process up, and it stays so when its input is closed. -/
def Jams (P : Proc α β T) (n : Nat) : Prop :=
  ∀ l : List α, l.length = n → ∃ s s', Takes P P.start l s ∧ Stuck P s
    ∧ P.recvClose s = some s' ∧ Stuck P s'

section Pipe

variable {C : Proc α α T} {D : Proc α γ T}

/-- The first process takes values by itself, while the second one rests. -/
theorem takes_first {c c' : C.State} {d : D.State} {l : List α} (h : Takes C c l c') :
    Takes (pipe .inr C D) (c, d) l (c', d) := by
  induction h with
  | refl => exact .refl
  | @recv c a c₁ l c' h _ ih =>
    have hrecv : (pipe .inr C D).recv (c, d) a = some (c₁, d) := pipe_recv.mpr ⟨h, rfl⟩
    exact .recv hrecv ih
  | inside h _ ih => exact .inside (pipe_act.mpr (.first h)) ih

/-- What the second process takes goes through the first one. -/
theorem takes_second (hC : C.Transparent) {d d' : D.State} {l : List α} (h : Takes D d l d') :
    Takes (pipe .inr C D) (C.start, d) l (C.start, d') := by
  induction h with
  | refl => exact .refl
  | @recv d a d₁ l d' h _ ih =>
    -- the value goes through the first process, which is empty before and after
    obtain ⟨c, c', hin, hsend, hout⟩ := hC a
    have hhandoff : (pipe .inr C D).Act (c, d) (.inside []) (c', d₁) :=
      pipe_act.mpr (.handoff hsend rfl h)
    exact (takes_first hin).trans (.inside hhandoff ((takes_first hout).trans ih))
  | inside h _ ih => exact .inside (pipe_act.mpr (.second h)) ih

/-- A composition of processes that let a value through lets a value through. -/
theorem Transparent.pipe {D : Proc α α T} (hC : C.Transparent) (hD : D.Transparent) :
    (Proc.pipe .inr C D).Transparent := by
  intro a
  obtain ⟨d, d', hin, hsend, hout⟩ := hD a
  exact ⟨(C.start, d), (C.start, d'), takes_second hC hin, pipe_act.mpr (.second hsend),
    takes_second hC hout⟩

/-- Two stuck processes make a stuck one: the first cannot hand over what the second does not
receive. -/
theorem Stuck.pipe {c : C.State} {d : D.State} (hC : C.Stuck c) (hD : D.Stuck d) :
    (Proc.pipe .inr C D).Stuck (c, d) where
  recv a s' h := hC.recv a _ (pipe_recv.mp h).1
  act {o s'} h := by
    cases pipe_act.mp h with
    | first hc => cases (hC.act hc).choose_spec
    | aside hc hb => cases hb
    | handoff hc hb hd => exact absurd hd (hD.recv _ _)
    | close hc hd => cases (hC.act hc).choose_spec
    | second hd => exact hD.act hd

/-- The second process is filled first, through the empty first one; then the first one fills up. So
the numbers add up. -/
theorem Jams.pipe {m n : Nat} (hC : C.Jams m) (hclear : C.Transparent) (hD : D.Clogs n) :
    (Proc.pipe .inr C D).Jams (m + n) := by
  intro l hl
  obtain ⟨d, hd, hdstuck⟩ := hD (l.take n) (by rw [List.length_take]; omega)
  obtain ⟨c, c', hc, hcstuck, hclose, hcstuck'⟩ := hC (l.drop n) (by rw [List.length_drop]; omega)
  refine ⟨(c, d), (c', d), ?_, hcstuck.pipe hdstuck, pipe_recvClose.mpr ⟨hclose, rfl⟩,
    hcstuck'.pipe hdstuck⟩
  have htakes : Takes (Proc.pipe .inr C D) (C.start, D.start) (l.take n ++ l.drop n) (c, d) :=
    (takes_second hclear hd).trans (takes_first hc)
  rwa [List.take_append_drop] at htakes

end Pipe

/-- An empty process has nothing to do. -/
def Idle (P : Proc α β T) : Prop := ∀ o s', ¬ P.Act P.start o s'

/-- A composition of processes that have nothing to do has nothing to do. -/
theorem Idle.pipe {δ : Type} {f : β → γ ⊕ δ} {C : Proc α β T} {D : Proc δ γ T} (hC : C.Idle)
    (hD : D.Idle) : (Proc.pipe f C D).Idle := by
  intro o s' h
  cases pipe_act.mp h with
  | first hc => exact hC _ _ hc
  | aside hc hb => exact hC _ _ hc
  | handoff hc hb hd => exact hC _ _ hc
  | close hc hd => exact hC _ _ hc
  | second hd => exact hD _ _ hd

end Proc

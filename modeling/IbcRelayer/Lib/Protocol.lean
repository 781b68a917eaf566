import IbcRelayer.Lib.CallTree

/-!
# Protocols — the calls that a program may make, and when

A protocol has a ledger: it says which calls are allowed at a state of the ledger, and what a call
and its answer make of it. The ledger is not part of the program.

* `Protocol.Obeys` — whatever the answers are, the program makes allowed calls only and ends with a
  result and a ledger that satisfy a condition. The rules follow the program's syntax.
* `Protocol.prod` — two protocols, each with a ledger of its own.
* `Protocol.comap` — the protocol of the calls that are made under another name, and
  `obeys_translate`, the rule for a program that makes its calls under that name.

As with `Prog.Ensures`, the judgment is about the rest of a program, so that it can be an invariant
of a program that is run step by step among others.
-/

namespace CallTree

open Prog

structure Protocol {C : Type} (A : C → Type) (G : Type) where
  allows : G → C → Prop
  next : G → (c : C) → A c → G

namespace Protocol

variable {C D : Type} {A : C → Type} {G α β ε : Type} {pr : Protocol A G}

variable (pr) in
/-- Whatever the answers are, every call is allowed at the ledger it is made in, and the program
ends with a result and a ledger that satisfy `Q`. -/
def Obeys : Prog A α → G → (α → G → Prop) → Prop
  | .done a, g, Q => Q a g
  | .call c k, g, Q => pr.allows g c ∧ ∀ r, Obeys (k r) (pr.next g c r) Q

variable {p : Prog A α} {g : G} {Q Q' : α → G → Prop}

/-- What a sequence does under a protocol: the second program starts with the ledger that the first
one has left. -/
theorem obeys_bind (p : Prog A α) (f : α → Prog A β) (g : G) (R : β → G → Prop) :
    pr.Obeys (p >>= f) g R ↔ pr.Obeys p g fun a g' => pr.Obeys (f a) g' R := by
  induction p generalizing g with
  | done a => rfl
  | call c k ih => exact and_congr_right fun _ => forall_congr' fun r => ih r _

/-- The rule of consequence. -/
theorem Obeys.mono (h : pr.Obeys p g Q) (hQ : ∀ a g', Q a g' → Q' a g') : pr.Obeys p g Q' := by
  induction p generalizing g with
  | done a => exact hQ a g h
  | call c k ih => exact ⟨h.1, fun r => ih r (h.2 r)⟩

/-- Sequencing, with a specification of the first program. -/
theorem Obeys.bind {f : α → Prog A β} {R : β → G → Prop} (h : pr.Obeys p g Q)
    (hf : ∀ a g', Q a g' → pr.Obeys (f a) g' R) : pr.Obeys (p >>= f) g R :=
  (obeys_bind p f g R).mpr (h.mono hf)

/-- What a program ensures holds beside what it does under a protocol. -/
theorem Obeys.and_ensures {R : α → List (Event A) → Prop} (h : pr.Obeys p g Q)
    (hR : p.Ensures R) : pr.Obeys p g fun a g' => Q a g' ∧ ∃ evs, R a evs := by
  induction p generalizing g R with
  | done a => exact ⟨h, [], hR⟩
  | call c k ih =>
    refine ⟨h.1, fun r => (ih r (h.2 r) (hR r)).mono fun a g' hboth => ?_⟩
    obtain ⟨hQ, evs, hR⟩ := hboth
    exact ⟨hQ, _, hR⟩

/-- Sequencing of fallible programs: an error ends the program with that error. -/
theorem Obeys.except_bind {x : ExceptT ε (Prog A) α} {f : α → ExceptT ε (Prog A) β}
    {Q : Except ε α → G → Prop} {R : Except ε β → G → Prop} (h : pr.Obeys x.run g Q)
    (hok : ∀ a g', Q (.ok a) g' → pr.Obeys (f a).run g' R)
    (herror : ∀ e g', Q (.error e) g' → R (.error e) g') : pr.Obeys (x >>= f).run g R := by
  rw [ExceptT.run_bind]
  refine h.bind fun r g' hQ => ?_
  cases r with
  | error e => exact herror e g' hQ
  | ok a => exact hok a g' hQ

/-- What holds of the result and the ledger at the end of a program that may fail. -/
def Outcome (ok : α → G → Prop) (failed : G → Prop) : Except ε α → G → Prop
  | .ok a, g => ok a g
  | .error _, g => failed g

/-- Sequencing of fallible programs when an error leaves the ledger as the whole program may leave
it: then only the case of success is left to show. -/
theorem Obeys.outcome_bind {x : ExceptT ε (Prog A) α} {f : α → ExceptT ε (Prog A) β}
    {ok : α → G → Prop} {ok' : β → G → Prop} {failed : G → Prop}
    (h : pr.Obeys x.run g (Outcome ok failed))
    (hf : ∀ a g', ok a g' → pr.Obeys (f a).run g' (Outcome ok' failed)) :
    pr.Obeys (x >>= f).run g (Outcome ok' failed) :=
  h.except_bind hf fun _ _ hfailed => hfailed

/-- Calls that are allowed at any time. -/
theorem obeys_free {p : Prog A α} (h : p.Always fun c => ∀ g, pr.allows g c) (g : G) :
    pr.Obeys p g fun _ _ => True := by
  induction p generalizing g with
  | done a => trivial
  | call c k ih => exact ⟨h.1 g, fun r => ih r (h.2 r) _⟩

/-- A part whose calls are always allowed may come first; nothing is known about the ledger after
it. -/
theorem obeys_free_bind {x : ExceptT ε (Prog A) α} {f : α → ExceptT ε (Prog A) β}
    {ok : β → G → Prop} (h : x.run.Always fun c => ∀ g, pr.allows g c)
    (hf : ∀ a g', pr.Obeys (f a).run g' (Outcome ok fun _ => True)) :
    pr.Obeys (x >>= f).run g (Outcome ok fun _ => True) :=
  (obeys_free h g).except_bind (fun a g' _ => hf a g') fun _ _ _ => trivial

/-! ## Two protocols at a time -/

/-- The calls that both allow; each has a ledger of its own. -/
def prod {H : Type} (pr : Protocol A G) (pr' : Protocol A H) : Protocol A (G × H) where
  allows g c := pr.allows g.1 c ∧ pr'.allows g.2 c
  next g c r := (pr.next g.1 c r, pr'.next g.2 c r)

/-- Two protocols that a program obeys, it obeys together: each ledger goes its own way. -/
theorem Obeys.prod {H : Type} {pr' : Protocol A H} {g' : H} {R : α → H → Prop}
    (h : pr.Obeys p g Q) (h' : pr'.Obeys p g' R) :
    (pr.prod pr').Obeys p (g, g') fun a g => Q a g.1 ∧ R a g.2 := by
  induction p generalizing g g' with
  | done a => exact ⟨h, h'⟩
  | call c k ih => exact ⟨⟨h.1, h'.1⟩, fun r => ih r (h.2 r) (h'.2 r)⟩

/-! ## Calls under another name -/

/-- The protocol of the calls `d` that are made as `f d`. -/
def comap (f : D → C) (pr : Protocol A G) : Protocol (fun d => A (f d)) G where
  allows g d := pr.allows g (f d)
  next g d r := pr.next g (f d) r

/-- A program whose calls are made under another name obeys a protocol exactly if it obeys the
protocol of those names. -/
theorem obeys_translate (f : D → C) (p : Prog (fun d => A (f d)) α) (g : G) (Q : α → G → Prop) :
    pr.Obeys (p.translate fun d => .call (f d) .done) g Q ↔ (pr.comap f).Obeys p g Q := by
  induction p generalizing g with
  | done a => rfl
  | call d k ih => exact and_congr_right fun _ => forall_congr' fun r => ih r _

end Protocol

end CallTree

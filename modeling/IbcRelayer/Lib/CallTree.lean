import Mathlib.Data.List.Basic

/-!
# Call trees — programs that talk to an environment

A program that calls services it does not control (a chain, a database, a clock) is a tree: it is
finished, or it makes a call `c` and continues with whatever answer of type `A c` comes back.

* `Prog.run` answers every call by an oracle and is a total, computable function: quantifying over
  the oracle is quantifying over every behaviour of the environment.
* `Prog.Ensures` is what holds of the result and of the events of a program whatever the answers
  are. `Ensures.run` carries it to every run, and the other rules follow the program's syntax.
* `Prog.Always` is the simpler judgment about the calls alone.
* `Prog.Given` is what holds of the result if every answer meets a condition.

Because `Ensures` talks about the rest of a program, it can also be kept as an invariant of a
program that is only part of a larger, interleaved system.
-/

namespace CallTree

/-- A program over the calls `C`, where call `c` is answered by an `A c`. -/
inductive Prog {C : Type} (A : C → Type) (α : Type) : Type where
  | done (a : α) : Prog A α
  | call (c : C) (k : A c → Prog A α) : Prog A α

/-- A call with its answer. -/
structure Event {C : Type} (A : C → Type) where
  call : C
  answer : A call

variable {C : Type} {A : C → Type} {α β ε σ : Type}

namespace Prog

def bind : Prog A α → (α → Prog A β) → Prog A β
  | .done a, f => f a
  | .call c k, f => .call c fun r => (k r).bind f

instance : Monad (Prog A) where
  pure := .done
  bind := .bind

@[simp] theorem pure_eq (a : α) : (pure a : Prog A α) = .done a := rfl

@[simp] theorem done_bind (a : α) (f : α → Prog A β) : (Prog.done a >>= f) = f a := rfl

@[simp] theorem call_bind (c : C) (k : A c → Prog A α) (f : α → Prog A β) :
    (Prog.call c k >>= f) = .call c fun r => k r >>= f := rfl

/-- A program followed by nothing is the program itself. Induction on the tree; the continuations of
a call are compared answer by answer. -/
theorem bind_done (p : Prog A α) : p >>= Prog.done = p := by
  induction p with
  | done a => rfl
  | call c k ih =>
    rw [call_bind]
    congr 1
    funext r
    exact ih r

/-- Sequencing is associative, so that a program can be cut at any place. With `bind_done` this
makes `Prog A` a lawful monad, and the `do` blocks of a model can be rewritten with the usual
lemmas. -/
theorem bind_assoc {γ : Type} (p : Prog A α) (f : α → Prog A β) (g : β → Prog A γ) :
    p >>= f >>= g = p >>= fun a => f a >>= g := by
  induction p with
  | done a => rfl
  | call c k ih =>
    simp only [call_bind]
    congr 1
    funext r
    exact ih r

instance : LawfulMonad (Prog A) :=
  LawfulMonad.mk' (Prog A) bind_done (fun _ _ => rfl) bind_assoc

/-- A program inside another one, where `f` says how its calls are made. -/
def translate {D : Type} {B : D → Type} (f : (c : C) → Prog B (A c)) : Prog A α → Prog B α
  | .done a => .done a
  | .call c k => f c >>= fun r => translate f (k r)

/-! ## Running against an oracle -/

section Run

variable (next : σ → (c : C) → A c → σ) (answer : σ → (c : C) → A c)

/-- Run a program: `answer` chooses the answer of each call from the state it is made in, `next`
is what the call and its answer do to the state. -/
def run : Prog A α → σ → α × σ
  | .done a, s => (a, s)
  | .call c k, s => run (k (answer s c)) (next s c (answer s c))

/-- A run of two programs is a run of the first, and then of the second from the state that the
first has left. -/
theorem run_bind (p : Prog A α) (f : α → Prog A β) (s : σ) :
    (p >>= f).run next answer s
      = (f (p.run next answer s).1).run next answer (p.run next answer s).2 := by
  induction p generalizing s with
  | done a => rfl
  | call c k ih => exact ih (answer s c) (next s c (answer s c))

end Run

/-! ## What a program ensures -/

/-- Whatever the answers are, the program ends with a result and a list of events, the latest
first, that satisfy `Q`. -/
def Ensures : Prog A α → (α → List (Event A) → Prop) → Prop
  | .done a, Q => Q a []
  | .call c k, Q => ∀ r : A c, Ensures (k r) fun a evs => Q a (evs ++ [⟨c, r⟩])

section Ensures

variable {Q Q' : α → List (Event A) → Prop}

@[simp] theorem ensures_done (a : α) : Ensures (.done a : Prog A α) Q ↔ Q a [] := Iff.rfl

@[simp] theorem ensures_call (c : C) (k : A c → Prog A α) :
    Ensures (.call c k) Q ↔ ∀ r : A c, Ensures (k r) fun a evs => Q a (evs ++ [⟨c, r⟩]) := Iff.rfl

/-- What a sequence ensures, as an equivalence: the events of the second program come in front of
those of the first, since the latest event is the head of the list. -/
theorem ensures_bind (p : Prog A α) (f : α → Prog A β) (R : β → List (Event A) → Prop) :
    Ensures (p >>= f) R
      ↔ Ensures p fun a evs => Ensures (f a) fun b evs' => R b (evs' ++ evs) := by
  induction p generalizing R with
  | done a => simp
  | call c k ih =>
    simp only [call_bind, ensures_call]
    refine forall_congr' fun r => ?_
    rw [ih r]
    -- the events of the call go to the end of both lists
    simp only [List.append_assoc]

/-- The rule of consequence: a specification may be replaced by a weaker one. Induction on the tree,
for all specifications at once, because that of a subtree has the call added to its events. -/
theorem Ensures.mono {p : Prog A α} (h : Ensures p Q) (hQ : ∀ a evs, Q a evs → Q' a evs) :
    Ensures p Q' := by
  induction p generalizing Q Q' with
  | done a => exact hQ a [] h
  | call c k ih => exact fun r => ih r (h r) fun a evs => hQ a _

/-- Every program ends; this is the specification to start from when only the calls matter. -/
theorem ensures_true (p : Prog A α) : Ensures p fun _ _ => True := by
  induction p with
  | done a => trivial
  | call c k ih => exact fun r => ih r

/-- Sequencing, with a specification of the first program. -/
theorem Ensures.bind {p : Prog A α} {f : α → Prog A β} {R : β → List (Event A) → Prop}
    (h : Ensures p Q) (hf : ∀ a evs, Q a evs → Ensures (f a) fun b evs' => R b (evs' ++ evs)) :
    Ensures (p >>= f) R :=
  (ensures_bind p f R).mpr (h.mono hf)

/-- Two specifications of one program hold together. -/
theorem Ensures.and {p : Prog A α} (h : Ensures p Q) (h' : Ensures p Q') :
    Ensures p fun a evs => Q a evs ∧ Q' a evs := by
  induction p generalizing Q Q' with
  | done a => exact ⟨h, h'⟩
  | call c k ih => exact fun r => ih r (h r) (h' r)

/-- A run has a list of events: it is the one its final state was computed from, and its answers
are the oracle's. -/
theorem Ensures.run {p : Prog A α} (h : Ensures p Q) (next : σ → (c : C) → A c → σ)
    (answer : σ → (c : C) → A c) (s : σ) :
    ∃ evs, Q (p.run next answer s).1 evs
      ∧ (p.run next answer s).2 = evs.foldr (fun e s => next s e.call e.answer) s
      ∧ ∀ e ∈ evs, ∃ s', e.answer = answer s' e.call := by
  induction p generalizing s Q with
  | done a => exact ⟨[], h, rfl, by simp⟩
  -- the first call is the oldest event, at the end of the list
  | call c k ih =>
    obtain ⟨evs, hQ, hs, hanswers⟩ := ih (answer s c) (h (answer s c)) (next s c (answer s c))
    refine ⟨evs ++ [⟨c, answer s c⟩], ?_, ?_, ?_⟩
    · rw [Prog.run]
      exact hQ
    · rw [Prog.run, List.foldr_append]
      exact hs
    · intro e he
      rcases List.mem_append.mp he with he | he
      · exact hanswers e he
      · rw [List.mem_singleton.mp he]
        exact ⟨s, rfl⟩

/-- A run that only keeps its events. -/
def record (answer : List (Event A) → (c : C) → A c) (p : Prog A α) (past : List (Event A)) :
    α × List (Event A) :=
  p.run (fun past c r => ⟨c, r⟩ :: past) answer past

/-- A specification of a program holds of every recorded run, and what was recorded before the run
is kept. -/
theorem Ensures.record {p : Prog A α} (h : Ensures p Q)
    (answer : List (Event A) → (c : C) → A c) (past : List (Event A)) :
    ∃ evs, Q (p.record answer past).1 evs ∧ (p.record answer past).2 = evs ++ past := by
  obtain ⟨evs, hQ, hevs, -⟩ := h.run (fun past c r => ⟨c, r⟩ :: past) answer past
  exact ⟨evs, hQ, hevs.trans List.foldr_cons_eq_append'⟩

/-! ### Programs that are interrupted

A program that runs among others is known by what it has done so far, `past`, and by the rest of its
tree: the specification of the whole is one of the rest, with `past` added to its events. -/

/-- After a call and its answer the rest of the program still ends as the whole was to end. -/
theorem Ensures.resume {c : C} {k : A c → Prog A α} {past : List (Event A)}
    (h : Ensures (.call c k) fun a evs => Q a (evs ++ past)) (r : A c) :
    Ensures (k r) fun a evs => Q a (evs ++ ⟨c, r⟩ :: past) :=
  (h r).mono fun a evs hQ => by simpa using hQ

/-- A program can come to an end, whatever it has done so far. -/
theorem Ensures.exists_end {p : Prog A α} (h : Ensures p Q) (answer : (c : C) → A c) :
    ∃ a evs, Q a evs :=
  let ⟨evs, hQ, _⟩ := h.run (fun (_ : Unit) _ _ => ()) (fun _ => answer) ()
  ⟨_, evs, hQ⟩

/-! ### Programs that may fail -/

/-- Sequencing of fallible programs: an error ends the program with that error. -/
theorem ensures_except_bind (x : ExceptT ε (Prog A) α) (f : α → ExceptT ε (Prog A) β)
    (R : Except ε β → List (Event A) → Prop) :
    Ensures (x >>= f).run R ↔
      Ensures x.run fun r evs => match r with
        | .ok a => Ensures (f a).run fun b evs' => R b (evs' ++ evs)
        | .error e => R (.error e) evs := by
  rw [ExceptT.run_bind, ensures_bind]
  constructor <;> intro h <;> refine h.mono ?_ <;>
    · rintro (e | a) evs he <;> simpa using he

/-- A program that cannot fail, among programs that can. -/
theorem ensures_except_lift (p : Prog A α) (R : Except ε α → List (Event A) → Prop) :
    Ensures (liftM p : ExceptT ε (Prog A) α).run R ↔ Ensures p fun a evs => R (.ok a) evs := by
  change Ensures (p >>= fun a => Prog.done (.ok a)) R ↔ _
  rw [ensures_bind]
  simp

end Ensures

/-! ## What holds of every call -/

/-- Whatever the answers are, the program only makes calls that satisfy `P`. -/
def Always (P : C → Prop) : Prog A α → Prop
  | .done _ => True
  | .call c k => P c ∧ ∀ r : A c, Always P (k r)

section Always

variable {P : C → Prop}

/-- Sequencing: both programs make allowed calls only, the second one whatever the first returns. -/
theorem Always.bind {p : Prog A α} {f : α → Prog A β} (h : Always P p)
    (hf : ∀ a, Always P (f a)) : Always P (p >>= f) := by
  induction p with
  | done a => exact hf a
  | call c k ih => exact ⟨h.1, fun r => ih r (h.2 r)⟩

/-- The events of a program whose calls all satisfy `P` have such calls. This is how a judgment
about the calls is used together with one about the result. -/
theorem Always.ensures {p : Prog A α} (h : Always P p) :
    Ensures p fun _ evs => ∀ e ∈ evs, P e.call := by
  induction p with
  | done a => simp
  | call c k ih =>
    intro r
    refine (ih r (h.2 r)).mono fun a evs hevs => ?_
    exact List.forall_mem_append.mpr ⟨hevs, List.forall_mem_singleton.mpr h.1⟩

/-- A condition on the calls may be replaced by a weaker one. -/
theorem Always.mono {P' : C → Prop} {p : Prog A α} (h : Always P p) (hP : ∀ c, P c → P' c) :
    Always P' p := by
  induction p with
  | done a => trivial
  | call c k ih => exact ⟨hP c h.1, fun r => ih r (h.2 r)⟩

/-- Every call of a tree is on a way to an end. -/
theorem Ensures.always {p : Prog A α} (h : Ensures p fun _ evs => ∀ e ∈ evs, P e.call)
    (answer : (c : C) → A c) : Always P p := by
  induction p with
  | done a => trivial
  | call c k ih =>
    refine ⟨?_, fun r => ih r ((h r).mono fun _ evs hall e he => ?_)⟩
    -- with the answers of `answer` the tree comes to an end, and this call is among its events
    · obtain ⟨a, evs, hall⟩ := (h (answer c)).exists_end answer
      exact hall ⟨c, answer c⟩ (List.mem_append_right _ (List.mem_singleton_self _))
    · exact hall e (List.mem_append_left _ he)

/-- Sequencing of fallible programs: after an error there is no further call. -/
theorem Always.except_bind {x : ExceptT ε (Prog A) α} {f : α → ExceptT ε (Prog A) β}
    (h : Always P x.run) (hf : ∀ a, Always P (f a).run) : Always P (x >>= f).run := by
  rw [ExceptT.run_bind]
  refine h.bind fun r => ?_
  cases r with
  | error e => trivial
  | ok a => exact hf a

/-- A program that cannot fail makes the same calls among programs that can. -/
theorem Always.except_lift {p : Prog A α} (h : Always P p) :
    Always P (liftM p : ExceptT ε (Prog A) α).run :=
  h.bind fun _ => trivial

/-- If a call that satisfies `P` is translated into calls that satisfy `R`, a program of the former
is translated into a program of the latter. -/
theorem Always.translate {D : Type} {B : D → Type} {R : D → Prop} {f : (c : C) → Prog B (A c)}
    {p : Prog A α} (h : Always P p) (hf : ∀ c, P c → Always R (f c)) :
    Always R (p.translate f) := by
  induction p with
  | done a => trivial
  | call c k ih => exact (hf c h.1).bind fun r => ih r (h.2 r)

end Always

/-! ## What holds under a condition on the answers -/

/-- If every answer meets `ok`, the result meets `Q`. -/
def Given (ok : (c : C) → A c → Prop) (Q : α → Prop) : Prog A α → Prop
  | .done a => Q a
  | .call c k => ∀ r : A c, ok c r → Given ok Q (k r)

section Given

variable {ok : (c : C) → A c → Prop}

theorem given_true (p : Prog A α) : Given ok (fun _ => True) p := by
  induction p with
  | done a => trivial
  | call c k ih => exact fun r _ => ih r

/-- The rule of consequence, for the condition on the result. -/
theorem Given.mono {Q R : α → Prop} {p : Prog A α} (h : Given ok Q p) (hQR : ∀ a, Q a → R a) :
    Given ok R p := by
  induction p with
  | done a => exact hQR a h
  | call c k ih => exact fun r hr => ih r (h r hr)

/-- Sequencing, with a condition on the result of the first program. -/
theorem Given.bind {Q : α → Prop} {R : β → Prop} {p : Prog A α} {f : α → Prog A β}
    (h : Given ok Q p) (hf : ∀ a, Q a → Given ok R (f a)) : Given ok R (p >>= f) := by
  induction p with
  | done a => exact hf a h
  | call c k ih => exact fun r hr => ih r (h r hr)

/-- What holds whatever the answers are holds as well. -/
theorem Given.and_ensures {Q : α → Prop} {R : α → List (Event A) → Prop} {p : Prog A α}
    (h : Given ok Q p) (hp : Ensures p R) : Given ok (fun a => Q a ∧ ∃ evs, R a evs) p := by
  induction p generalizing R with
  | done a => exact ⟨h, [], hp⟩
  | call c k ih =>
    intro r hr
    exact (ih r (h r hr) (hp r)).mono fun a ⟨hQ, evs, hR⟩ => ⟨hQ, _, hR⟩

/-- A run whose answers meet the condition. -/
theorem Given.run {Q : α → Prop} {p : Prog A α} (h : Given ok Q p) (next : σ → (c : C) → A c → σ)
    {answer : σ → (c : C) → A c} (hok : ∀ s c, ok c (answer s c)) (s : σ) :
    Q (p.run next answer s).1 := by
  induction p generalizing s with
  | done a => exact h
  | call c k ih => exact ih _ (h _ (hok s c)) _

end Given

end Prog

end CallTree

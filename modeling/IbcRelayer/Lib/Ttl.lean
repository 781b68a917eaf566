import Mathlib.Data.List.Basic

/-!
# Caches whose results expire

What a cache is for that runs an action once for a key and hands out its result for some time, in
terms of the runs there were: `ttl r` is how long the result `r` is good for.

* `call` — the latest run for the key answers, unless there is none or its result has expired. Then
  the action is run.
* `calls` — calls one after the other.
* `filter_calls` — calls with other keys make no difference.
-/

namespace Ttl

structure Run (K R : Type*) where
  key : K
  time : Int
  result : R

/-- A call at the time `now`; `fresh` is what its action returns if it is run. -/
structure Call (K R : Type*) where
  key : K
  now : Int
  fresh : R

structure Answer (R : Type*) where
  ran : Bool
  result : R

variable {K R : Type*} [DecidableEq K] (ttl : R → Int)

/-- The runs are listed with the latest first. -/
def latest (history : List (Run K R)) (key : K) : Option (Run K R) :=
  history.find? fun run => run.key = key

def Run.isExpired (run : Run K R) (now : Int) : Bool := run.time + ttl run.result ≤ now

def call (history : List (Run K R)) (c : Call K R) : List (Run K R) × Answer R :=
  match latest history c.key with
  | none => (⟨c.key, c.now, c.fresh⟩ :: history, ⟨true, c.fresh⟩)
  | some run =>
    if run.isExpired ttl c.now then
      (⟨c.key, c.now, c.fresh⟩ :: history, ⟨true, c.fresh⟩)
    else
      (history, ⟨false, run.result⟩)

def calls (history : List (Run K R)) : List (Call K R) → List (Call K R × Answer R)
  | [] => []
  | c :: cs => (c, (call ttl history c).2) :: calls (call ttl history c).1 cs

variable {ttl} {history history' : List (Run K R)} {c : Call K R} {key : K}

/-- A new run is the latest one for its key. -/
theorem latest_cons_self (run : Run K R) : latest (run :: history) run.key = some run := by
  simp [latest]

/-- And it changes nothing for the other keys. -/
theorem latest_cons_ne {run : Run K R} (h : run.key ≠ key) :
    latest (run :: history) key = latest history key := by
  simp [latest, h]

variable (ttl) in
/-- What a call does is decided by the latest run for its key. -/
theorem call_cases (history : List (Run K R)) (c : Call K R) :
    (∃ run, latest history c.key = some run ∧ run.isExpired ttl c.now = false
        ∧ call ttl history c = (history, ⟨false, run.result⟩))
      ∨ (∀ run, latest history c.key = some run → run.isExpired ttl c.now = true)
        ∧ call ttl history c = (⟨c.key, c.now, c.fresh⟩ :: history, ⟨true, c.fresh⟩) := by
  unfold call
  cases hlatest : latest history c.key with
  | none => exact .inr ⟨fun run hrun => (by cases hrun), rfl⟩
  | some run =>
    cases hexpired : run.isExpired ttl c.now with
    | true =>
      refine .inr ⟨fun run' hrun' => ?_, by simp [hexpired]⟩
      cases hrun'
      exact hexpired
    | false => exact .inl ⟨run, rfl, hexpired, by simp [hexpired]⟩

/-- A call leaves the runs for the other keys. -/
theorem latest_call (h : c.key ≠ key) :
    latest (call ttl history c).1 key = latest history key := by
  rcases call_cases ttl history c with ⟨run, -, -, heq⟩ | ⟨-, heq⟩
  · rw [heq]
  · rw [heq]
    exact latest_cons_ne h

variable (ttl) in
/-- Histories with the same latest run for the key of a call are the same to it, and so they are
afterwards. -/
theorem call_congr (h : latest history c.key = latest history' c.key) :
    (call ttl history c).2 = (call ttl history' c).2
      ∧ latest (call ttl history c).1 c.key = latest (call ttl history' c).1 c.key := by
  unfold call
  rw [← h]
  cases hlatest : latest history c.key with
  | none => exact ⟨rfl, (latest_cons_self _).trans (latest_cons_self _).symm⟩
  | some run =>
    dsimp only
    split
    · exact ⟨rfl, (latest_cons_self _).trans (latest_cons_self _).symm⟩
    · exact ⟨rfl, h⟩

/-- The calls with one key are answered as if there were no others. Induction on the calls, for two
histories that agree on the key. -/
theorem filter_calls (h : latest history key = latest history' key) (cs : List (Call K R)) :
    (calls ttl history cs).filter (fun answered => answered.1.key = key)
      = calls ttl history' (cs.filter fun c => c.key = key) := by
  induction cs generalizing history history' with
  | nil => rfl
  | cons c cs ih =>
    by_cases hc : c.key = key
    -- a call with this key is on both sides
    · subst hc
      obtain ⟨hanswer, hlatest⟩ := call_congr ttl h
      rw [calls, List.filter_cons_of_pos (by simp), List.filter_cons_of_pos (by simp), calls,
        hanswer, ih hlatest]
    -- any other one only changes the history of the left side, and not for this key
    · rw [calls, List.filter_cons_of_neg (by simpa using hc),
        List.filter_cons_of_neg (by simpa using hc)]
      exact ih ((latest_call hc).trans h)

end Ttl

import IbcRelayer.Golang

/-!
# IbcRelayer — `OnceWithKey`

`shared/bridges/ibcv2/once.go`: an action is run once for a key, and its outcome is handed to every
caller until it is outdated. A call of `Do` has two sections under the lock, `acquire` and
`release`, with the `sync.OnceValues` function and `SetError` between them. A `*onceWithTimeout` is
a position in the list of all that were created.
-/

namespace IbcRelayer

/-- How far the function that `sync.OnceValues` returns has come; `R` is what an action returns. -/
inductive OnceRun (R : Type) where
  | waiting
  | running
  | ran (r : R)
  deriving DecidableEq

/-- `onceWithTimeout`. The timeouts are instants, in nanoseconds. -/
structure OnceWithTimeout (A R : Type) where
  action : A
  run : OnceRun R := .waiting
  errorTimeout : Int
  successTimeout : Int
  err : Option GoError := none
  deriving DecidableEq

/-- `IsTimedOut`, when the clock reads `now`. -/
def OnceWithTimeout.isTimedOut {A R : Type} (once : OnceWithTimeout A R) (now : Int) : Bool :=
  (once.errorTimeout ≤ now && once.err.isSome) || (once.successTimeout ≤ now && once.err.isNone)

/-- The values that are used as keys of the `map[any]`: the keys that callers give, and pointers. -/
inductive OnceKey (K : Type) where
  | key (k : K)
  | once (p : Nat)
  deriving DecidableEq, Repr

/-- `OnceWithKey`. The timeouts are durations, in nanoseconds. -/
structure OnceWithKey (K A R : Type) where
  onces : List (OnceKey K × Nat) := []
  created : List (OnceWithTimeout A R) := []
  successTimeout : Int
  errorTimeout : Int
  deriving DecidableEq

namespace OnceWithKey

variable {K A R : Type} (o : OnceWithKey K A R)

/-! ## The entries -/

/-- A change of the `onceWithTimeout` at `p`. -/
def update (p : Nat) (f : OnceWithTimeout A R → OnceWithTimeout A R) : OnceWithKey K A R :=
  { o with created := o.created.modify p f }

/-- `if err != nil { once.SetError(err) }` -/
def setError (p : Nat) : Option GoError → OnceWithKey K A R
  | none => o
  | some err => o.update p fun once => { once with err := some err }

theorem update_get (p q : Nat) (f : OnceWithTimeout A R → OnceWithTimeout A R) :
    (o.update p f).created[q]? = if p = q then o.created[q]?.map f else o.created[q]? := by
  rw [update, List.getElem?_modify]
  split <;> simp

/-- `SetError` leaves the outcome and the action of every entry. -/
theorem setError_get (p q : Nat) (err : Option GoError) {once : OnceWithTimeout A R}
    (h : o.created[q]? = some once) :
    ∃ once', (o.setError p err).created[q]? = some once' ∧ once'.action = once.action
      ∧ once'.run = once.run := by
  cases err with
  | none => exact ⟨once, h, rfl, rfl⟩
  | some err =>
    rw [setError, update_get]
    split
    · exact ⟨{ once with err := some err }, by rw [h]; rfl, rfl, rfl⟩
    · exact ⟨once, h, rfl, rfl⟩

/-- A change of one entry that leaves its outcome leaves all outcomes. -/
theorem update_run {p q : Nat} {f : OnceWithTimeout A R → OnceWithTimeout A R}
    (hf : ∀ once, (f once).run = once.run) :
    (o.update p f).created[q]?.map (·.run) = o.created[q]?.map (·.run) := by
  rw [update_get]
  split
  · rw [Option.map_map]
    exact congrArg (Option.map · _) (funext hf)
  · rfl

theorem setError_run (p q : Nat) (err : Option GoError) :
    (o.setError p err).created[q]?.map (·.run) = o.created[q]?.map (·.run) := by
  cases err with
  | none => rfl
  | some err => exact o.update_run fun _ => rfl

/-! ## The map -/

variable [DecidableEq K]

/-- `o.onces[key]` -/
def find (key : OnceKey K) : Option Nat := (o.onces.find? (·.1 = key)).map (·.2)

/-- `newOnceWithTimeout`, which reads the clock twice, stored under `key`. -/
def createAt (key : OnceKey K) (action : A) (errorNow successNow : Int) :
    OnceWithKey K A R × Nat :=
  ({ o with
      onces := (key, o.created.length) :: o.onces.filter (·.1 ≠ key)
      created := o.created ++
        [{ action
           errorTimeout := errorNow + o.errorTimeout
           successTimeout := successNow + o.successTimeout }] },
    o.created.length)

/-- `newOnceWithTimeout`, when both readings of the clock are the same. -/
def create (key : OnceKey K) (action : A) (now : Int) : OnceWithKey K A R × Nat :=
  o.createAt key action now now

/-- The entry that `Do` would share. -/
def shared (key : OnceKey K) (now : Int) : Option (Nat × OnceWithTimeout A R) := do
  let p ← o.find key
  let once ← o.created[p]?
  -- an outdated entry is replaced by the caller, as if there were none
  if once.isTimedOut now then none else some (p, once)

/-- The first locked section of `Do`: the clock reads `now` when it looks at the entry that is
there. -/
def acquireAt (key : OnceKey K) (action : A) (now errorNow successNow : Int) :
    OnceWithKey K A R × Nat :=
  match o.shared key now with
  | some (p, _) => (o, p)
  | none => o.createAt key action errorNow successNow

/-- The first locked section of `Do`, while the clock stands still. -/
def acquire (key : OnceKey K) (action : A) (now : Int) : OnceWithKey K A R × Nat :=
  o.acquireAt key action now now now

/-- The second locked section of `Do`. The key of the entry is not what is deleted: `delete` is
given the pointer. -/
def release (p : Nat) (now : Int) : OnceWithKey K A R :=
  match o.created[p]? with
  | none => o
  | some once =>
    if once.isTimedOut now then { o with onces := o.onces.filter (·.1 ≠ .once p) } else o

/-- The second section only takes keys away. -/
@[simp] theorem release_created (p : Nat) (now : Int) : (o.release p now).created = o.created := by
  unfold release
  split
  · rfl
  · split <;> rfl

/-- What the first section returns: the entry that is there, or a new one. -/
theorem acquire_cases (key : OnceKey K) (action : A) (now : Int) :
    (∃ p once, o.shared key now = some (p, once) ∧ o.created[p]? = some once
        ∧ o.acquire key action now = (o, p))
      ∨ o.shared key now = none ∧ o.acquire key action now = o.create key action now := by
  cases h : o.shared key now with
  | none => exact .inr ⟨rfl, by rw [acquire, acquireAt, h, create]⟩
  | some entry =>
    obtain ⟨p, once⟩ := entry
    refine .inl ⟨p, once, rfl, ?_, by rw [acquire, acquireAt, h]⟩
    rw [shared] at h
    obtain ⟨p', -, h⟩ := Option.bind_eq_some_iff.mp h
    obtain ⟨once', hget, h⟩ := Option.bind_eq_some_iff.mp h
    split at h
    · cases h
    · cases h
      exact hget

/-- An entry that is shared is in the map under the key of the call. -/
theorem shared_mem {key : OnceKey K} {now : Int} {p : Nat} {once : OnceWithTimeout A R}
    (h : o.shared key now = some (p, once)) : (key, p) ∈ o.onces := by
  rw [shared] at h
  obtain ⟨p', hfind, h⟩ := Option.bind_eq_some_iff.mp h
  obtain ⟨once', -, h⟩ := Option.bind_eq_some_iff.mp h
  obtain ⟨⟨key', p''⟩, hfirst, rfl⟩ := Option.map_eq_some_iff.mp hfind
  split at h
  · cases h
  · cases h
    have hkey : key' = key := by simpa using List.find?_some hfirst
    exact hkey ▸ List.mem_of_find?_eq_some hfirst

/-- What is in the map after the second section was there before. -/
theorem release_mem {p q : Nat} {key : OnceKey K} {now : Int}
    (h : (key, q) ∈ (o.release p now).onces) : (key, q) ∈ o.onces := by
  unfold release at h
  split at h
  · exact h
  · split at h
    · exact List.mem_of_mem_filter h
    · exact h

end OnceWithKey

end IbcRelayer

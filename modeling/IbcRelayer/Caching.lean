import IbcRelayer.Bridge.Once
import IbcRelayer.Lib.Machine
import IbcRelayer.Lib.Ttl

/-!
# IbcRelayer — what `OnceWithKey` caches, and for how long

Calls of `Do` one after the other, and calls at the same time.

* `doOnce` — a call that nobody interrupts. Calls one after the other are answered as by a cache
  whose results expire (`do_is_ttl_cache`); `Caches` relates the entries of the map to the runs.
* `OnceCalls` — calls whose sections interleave, where the clock may go on between any two of its
  readings. An entry that a call sees timed out on its way out stays in the map, since `delete` is
  given the entry in place of its key (`evicted_iff`).
-/

namespace IbcRelayer

/-- `(T, error)` -/
abbrev GoResult (V : Type) := V × Option GoError

namespace OnceWithKey

/-- `NewOnceWithKey` -/
def new {K A R : Type} (successTimeout errorTimeout : Int) : OnceWithKey K A R :=
  { successTimeout, errorTimeout }

/-! ## Entries -/

section Entries

variable {K A R : Type} {o : OnceWithKey K A R} {p q : Nat} {once : OnceWithTimeout A R}

/-- The error of an entry is set to what it is. -/
theorem setError_self (hget : o.created[p]? = some once) : o.setError p once.err = o := by
  cases herr : once.err with
  | none => rfl
  | some err =>
    have hlist : o.created.modify p (fun once => { once with err := some err }) = o.created := by
      refine List.ext_getElem? fun q => ?_
      rw [List.getElem?_modify]
      split
      · rename_i hpq
        subst hpq
        rw [hget, ← herr]
        rfl
      · exact Option.map_id_apply
    rw [setError, update, hlist]

/-- A call that returns no error leaves the error that the entry has. -/
theorem setError_get_self (hget : o.created[p]? = some once) (err : Option GoError) :
    (o.setError p err).created[p]? = some { once with err := err <|> once.err } := by
  cases err with
  | none => exact hget
  | some err =>
    rw [setError, update_get, if_pos rfl, hget]
    rfl

theorem setError_get_ne (h : p ≠ q) (err : Option GoError) :
    (o.setError p err).created[q]? = o.created[q]? := by
  cases err with
  | none => rfl
  | some err => rw [setError, update_get, if_neg h]

@[simp] theorem setError_onces (p : Nat) (err : Option GoError) :
    (o.setError p err).onces = o.onces := by
  cases err <;> rfl

@[simp] theorem setError_length (p : Nat) (err : Option GoError) :
    (o.setError p err).created.length = o.created.length := by
  cases err <;> simp [setError, update]

@[simp] theorem setError_timeouts (p : Nat) (err : Option GoError) :
    (o.setError p err).successTimeout = o.successTimeout
      ∧ (o.setError p err).errorTimeout = o.errorTimeout := by
  cases err <;> exact ⟨rfl, rfl⟩

variable [DecidableEq K]

@[simp] theorem release_timeouts (p : Nat) (now : Int) :
    (o.release p now).successTimeout = o.successTimeout
      ∧ (o.release p now).errorTimeout = o.errorTimeout := by
  unfold release
  split
  · exact ⟨rfl, rfl⟩
  · split <;> exact ⟨rfl, rfl⟩

/-- What is deleted is no key that a caller has given. -/
theorem find_release (o : OnceWithKey K A R) (p : Nat) (now : Int) (key : K) :
    (o.release p now).find (.key key) = o.find (.key key) := by
  unfold release
  split
  · rfl
  split
  · rw [find, List.find?_filter, find]
    congr 2
    funext entry
    by_cases hentry : entry.1 = .key key
    · simp [hentry]
    · simp [hentry]
  · rfl

theorem find_createAt_self (o : OnceWithKey K A R) (key : K) (action : A)
    (errorNow successNow : Int) :
    (o.createAt (.key key) action errorNow successNow).1.find (.key key)
      = some o.created.length := by
  simp [createAt, find]

/-- The other keys lead where they did. -/
theorem find_createAt_ne {key key' : K} (h : key ≠ key') (action : A) (errorNow successNow : Int) :
    (o.createAt (.key key) action errorNow successNow).1.find (.key key')
      = o.find (.key key') := by
  have hkey : (OnceKey.key key' : OnceKey K) ≠ .key key := fun heq => h (OnceKey.key.inj heq).symm
  rw [createAt, find, List.find?_cons_of_neg (by simpa using h), List.find?_filter, find]
  congr 2
  funext entry
  by_cases hentry : entry.1 = .key key'
  · simp [hentry, hkey]
  · simp [hentry]

/-- A new entry is behind all others, and both its timeouts count from its creation. -/
theorem getElem?_create_new (o : OnceWithKey K A R) (key : OnceKey K) (action : A) (now : Int) :
    (o.create key action now).1.created[o.created.length]?
      = some
        { action
          errorTimeout := now + o.errorTimeout
          successTimeout := now + o.successTimeout } :=
  List.getElem?_concat_length

/-- The entries that were created before stay where they are. -/
theorem getElem?_create_old (h : o.created[q]? = some once) (key : OnceKey K) (action : A)
    (now : Int) : (o.create key action now).1.created[q]? = some once := by
  have hlt := (List.getElem?_eq_some_iff.mp h).1
  exact (List.getElem?_append_left hlt).trans h

end Entries

/-! ## One call after the other -/

section Sequential

variable {K V : Type}

/-- The function that `sync.OnceValues` has made, called by nobody else. An action is given by what
it returns. -/
def onceValues (o : OnceWithKey K (GoResult V) (GoResult V)) (p : Nat) :
    Option (OnceWithKey K (GoResult V) (GoResult V) × Ttl.Answer (GoResult V)) :=
  match o.created[p]? with
  | none => none
  | some once =>
    match once.run with
    | .waiting =>
      some (o.update p ({ · with run := .ran once.action }), { ran := true, result := once.action })
    -- it would be blocked
    | .running => none
    | .ran r => some (o, { ran := false, result := r })

/-- How long an outcome is good for. -/
def ttl (successTimeout errorTimeout : Int) (r : GoResult V) : Int :=
  if r.2.isSome then errorTimeout else successTimeout

/-- An entry after its run. -/
def entryOf (successTimeout errorTimeout : Int) (run : Ttl.Run K (GoResult V)) :
    OnceWithTimeout (GoResult V) (GoResult V) where
  action := run.result
  run := .ran run.result
  errorTimeout := run.time + errorTimeout
  successTimeout := run.time + successTimeout
  err := run.result.2

/-- An entry after its run is timed out when the result of the run has expired: its error says which
of the timeouts is meant. -/
theorem isTimedOut_entryOf (successTimeout errorTimeout : Int) (run : Ttl.Run K (GoResult V))
    (now : Int) :
    (entryOf successTimeout errorTimeout run).isTimedOut now
      = run.isExpired (ttl successTimeout errorTimeout) now := by
  cases herr : run.result.2 <;>
    simp [entryOf, OnceWithTimeout.isTimedOut, Ttl.Run.isExpired, ttl, herr]

variable [DecidableEq K]

/-- `Do`, at one reading of the clock. -/
def doOnce (o : OnceWithKey K (GoResult V) (GoResult V)) (c : Ttl.Call K (GoResult V)) :
    Option (OnceWithKey K (GoResult V) (GoResult V) × Ttl.Answer (GoResult V)) := do
  let (o, p) := o.acquire (.key c.key) c.fresh c.now
  let (o, answer) ← o.onceValues p
  let o := o.setError p answer.result.2
  return (o.release p c.now, answer)

/-- Calls one after the other, with their answers. -/
def doAll (o : OnceWithKey K (GoResult V) (GoResult V)) :
    List (Ttl.Call K (GoResult V)) →
      Option (List (Ttl.Call K (GoResult V) × Ttl.Answer (GoResult V)))
  | [] => some []
  | c :: cs => do
    let (o, answer) ← o.doOnce c
    let answers ← o.doAll cs
    return (c, answer) :: answers

/-- The map has the entries of the latest runs. -/
structure Caches (successTimeout errorTimeout : Int) (o : OnceWithKey K (GoResult V) (GoResult V))
    (history : List (Ttl.Run K (GoResult V))) : Prop where
  success : o.successTimeout = successTimeout
  error : o.errorTimeout = errorTimeout
  missing : ∀ key, Ttl.latest history key = none → o.find (.key key) = none
  found : ∀ key run, Ttl.latest history key = some run →
    ∃ p, o.find (.key key) = some p
      ∧ o.created[p]? = some (entryOf successTimeout errorTimeout run)

variable {o : OnceWithKey K (GoResult V) (GoResult V)} {history : List (Ttl.Run K (GoResult V))}
  {successTimeout errorTimeout : Int}

theorem caches_new : Caches successTimeout errorTimeout
    (new successTimeout errorTimeout : OnceWithKey K (GoResult V) (GoResult V)) [] :=
  ⟨rfl, rfl, fun _ _ => rfl, fun _ _ hlatest => by cases hlatest⟩

/-- An entry that has not expired is shared. -/
theorem Caches.shared (h : Caches successTimeout errorTimeout o history) {key : K}
    {run : Ttl.Run K (GoResult V)} {now : Int} (hlatest : Ttl.latest history key = some run)
    (hlive : run.isExpired (ttl successTimeout errorTimeout) now = false) :
    ∃ p, o.shared (.key key) now = some (p, entryOf successTimeout errorTimeout run)
      ∧ o.created[p]? = some (entryOf successTimeout errorTimeout run) := by
  obtain ⟨p, hfind, hget⟩ := h.found key run hlatest
  refine ⟨p, ?_, hget⟩
  rw [OnceWithKey.shared, hfind, Option.bind_eq_bind, Option.bind_some, hget, Option.bind_eq_bind,
    Option.bind_some, isTimedOut_entryOf, hlive]
  rfl

/-- An entry that has expired is not shared, nor is one that is not there. -/
theorem Caches.not_shared (h : Caches successTimeout errorTimeout o history) {key : K} {now : Int}
    (hexpired : ∀ run, Ttl.latest history key = some run →
      run.isExpired (ttl successTimeout errorTimeout) now = true) :
    o.shared (.key key) now = none := by
  cases hlatest : Ttl.latest history key with
  | none =>
    rw [OnceWithKey.shared, h.missing key hlatest]
    rfl
  | some run =>
    obtain ⟨p, hfind, hget⟩ := h.found key run hlatest
    rw [OnceWithKey.shared, hfind, Option.bind_eq_bind, Option.bind_some, hget,
      Option.bind_eq_bind, Option.bind_some, isTimedOut_entryOf, hexpired run hlatest]
    rfl

/-- The second locked section makes no difference for a caller. -/
theorem Caches.release (h : Caches successTimeout errorTimeout o history) (p : Nat) (now : Int) :
    Caches successTimeout errorTimeout (o.release p now) history := by
  obtain ⟨hsuccess, herror⟩ := o.release_timeouts p now
  refine ⟨hsuccess.trans h.success, herror.trans h.error, fun key hlatest => ?_,
    fun key run hlatest => ?_⟩
  · rw [find_release]
    exact h.missing key hlatest
  · rw [find_release, release_created]
    exact h.found key run hlatest

/-- The cache after a run, whose entry is in place of the old one. -/
def afterRun (o : OnceWithKey K (GoResult V) (GoResult V)) (run : Ttl.Run K (GoResult V)) :
    OnceWithKey K (GoResult V) (GoResult V) :=
  ((o.create (.key run.key) run.result run.time).1.update o.created.length
    ({ · with run := .ran run.result })).setError o.created.length run.result.2

theorem find_afterRun (o : OnceWithKey K (GoResult V) (GoResult V))
    (run : Ttl.Run K (GoResult V)) (key : K) :
    (o.afterRun run).find (.key key)
      = (o.create (.key run.key) run.result run.time).1.find (.key key) := by
  rw [afterRun, find, setError_onces]
  rfl

/-- The entry of the run. -/
theorem getElem?_afterRun_new (o : OnceWithKey K (GoResult V) (GoResult V))
    (run : Ttl.Run K (GoResult V)) :
    (o.afterRun run).created[o.created.length]?
      = some (entryOf o.successTimeout o.errorTimeout run) := by
  have hran : ((o.create (.key run.key) run.result run.time).1.update o.created.length
      ({ · with run := .ran run.result })).created[o.created.length]?
        = some { entryOf o.successTimeout o.errorTimeout run with err := none } := by
    rw [update_get, if_pos rfl, getElem?_create_new]
    rfl
  rw [afterRun, setError_get_self hran]
  simp [entryOf]

/-- The entries of earlier runs. -/
theorem getElem?_afterRun_old {p : Nat} {once : OnceWithTimeout (GoResult V) (GoResult V)}
    (hget : o.created[p]? = some once) (run : Ttl.Run K (GoResult V)) :
    (o.afterRun run).created[p]? = some once := by
  have hne : o.created.length ≠ p := by
    have := (List.getElem?_eq_some_iff.mp hget).1
    omega
  rw [afterRun, setError_get_ne hne, update_get, if_neg hne]
  exact getElem?_create_old hget _ _ _

/-- A run is the latest one of its key, and leaves those of the other keys. -/
theorem Caches.afterRun (h : Caches successTimeout errorTimeout o history)
    (run : Ttl.Run K (GoResult V)) :
    Caches successTimeout errorTimeout (o.afterRun run) (run :: history) := by
  obtain ⟨hsuccess, herror⟩ := ((o.create (.key run.key) run.result run.time).1.update
    o.created.length ({ · with run := .ran run.result })).setError_timeouts o.created.length
      run.result.2
  refine ⟨hsuccess.trans h.success, herror.trans h.error, fun key hlatest => ?_,
    fun key run' hlatest => ?_⟩
  -- the key of the run is not without a run
  · by_cases hkey : run.key = key
    · subst hkey
      cases (Ttl.latest_cons_self run).symm.trans hlatest
    · rw [find_afterRun, create, find_createAt_ne hkey]
      exact h.missing key ((Ttl.latest_cons_ne hkey).symm.trans hlatest)
  · rw [find_afterRun, create]
    by_cases hkey : run.key = key
    · subst hkey
      cases (Ttl.latest_cons_self run).symm.trans hlatest
      refine ⟨_, find_createAt_self o _ _ _ _, ?_⟩
      rw [getElem?_afterRun_new, h.success, h.error]
    · rw [find_createAt_ne hkey]
      obtain ⟨p, hfind, hget⟩ := h.found key run' ((Ttl.latest_cons_ne hkey).symm.trans hlatest)
      exact ⟨p, hfind, getElem?_afterRun_old hget run⟩

/-- A call of `Do` does what a cache does whose results expire. -/
theorem doOnce_spec (h : Caches successTimeout errorTimeout o history)
    (c : Ttl.Call K (GoResult V)) :
    ∃ o', o.doOnce c = some (o', (Ttl.call (ttl successTimeout errorTimeout) history c).2)
      ∧ Caches successTimeout errorTimeout o'
        (Ttl.call (ttl successTimeout errorTimeout) history c).1 := by
  rcases Ttl.call_cases (ttl successTimeout errorTimeout) history c with
    ⟨run, hlatest, hlive, hcall⟩ | ⟨hexpired, hcall⟩
  -- the latest run of the key is still good: its entry is shared, and nothing changes
  · rw [hcall]
    obtain ⟨p, hshared, hget⟩ := h.shared hlatest hlive
    have hacquire : o.acquire (.key c.key) c.fresh c.now = (o, p) := by
      rw [acquire, acquireAt, hshared]
    have hvalues : o.onceValues p = some (o, ⟨false, run.result⟩) := by
      rw [onceValues, hget]
      rfl
    have hset : o.setError p run.result.2 = o := setError_self hget
    refine ⟨o.release p c.now, ?_, h.release p c.now⟩
    rw [doOnce, hacquire]
    simp only [hvalues, Option.bind_eq_bind, Option.bind_some, hset, Option.pure_def]
  -- there is none, or it has expired: a new entry is created, and its action is run
  · rw [hcall]
    have hacquire : o.acquire (.key c.key) c.fresh c.now = o.create (.key c.key) c.fresh c.now := by
      rw [acquire, acquireAt, h.not_shared hexpired, create]
    have hvalues : (o.create (.key c.key) c.fresh c.now).1.onceValues o.created.length
        = some ((o.create (.key c.key) c.fresh c.now).1.update o.created.length
          ({ · with run := .ran c.fresh }), ⟨true, c.fresh⟩) := by
      rw [onceValues, getElem?_create_new]
    refine ⟨_, ?_, (h.afterRun ⟨c.key, c.now, c.fresh⟩).release o.created.length c.now⟩
    rw [doOnce, hacquire]
    change ((o.create (.key c.key) c.fresh c.now).1.onceValues o.created.length >>= _) = _
    rw [hvalues]
    rfl

/-- The calls one after the other, by induction on them. -/
theorem doAll_spec (h : Caches successTimeout errorTimeout o history)
    (cs : List (Ttl.Call K (GoResult V))) :
    o.doAll cs = some (Ttl.calls (ttl successTimeout errorTimeout) history cs) := by
  induction cs generalizing o history with
  | nil => rfl
  | cons c cs ih =>
    obtain ⟨o', hdo, hcaches⟩ := doOnce_spec h c
    rw [doAll, hdo, Option.bind_eq_bind, Option.bind_some]
    dsimp only
    rw [ih hcaches]
    rfl

/-- **`OnceWithKey` is a cache whose results expire.** Calls one after the other are answered as by
`Ttl.calls`, which runs the action of a call unless the latest run for its key has succeeded less
than `successTimeout` ago or failed less than `errorTimeout` ago; and the calls with one key are
answered as if there were no others. -/
theorem do_is_ttl_cache (successTimeout errorTimeout : Int) (cs : List (Ttl.Call K (GoResult V))) :
    (new successTimeout errorTimeout).doAll cs
        = some (Ttl.calls (ttl successTimeout errorTimeout) [] cs)
      ∧ ∀ key, (new successTimeout errorTimeout).doAll (cs.filter fun c => c.key = key)
        = some ((Ttl.calls (ttl successTimeout errorTimeout) [] cs).filter
          fun answered => answered.1.key = key) := by
  refine ⟨doAll_spec caches_new cs, fun key => ?_⟩
  -- the library's cache treats the keys apart
  rw [Ttl.filter_calls rfl]
  exact doAll_spec caches_new _

end Sequential

end OnceWithKey

/-! ## Calls at the same time -/

/-- How far a call of `Do` has come. -/
inductive OncePlace (R : Type) where
  | calling
  /-- After the first locked section, with an entry of the cache. -/
  | holding (p : Nat)
  /-- It runs the action of the entry. -/
  | running (p : Nat)
  | got (p : Nat) (r : R)
  /-- The error is set, and the second locked section comes next. -/
  | recorded (p : Nat) (r : R)
  | returned (r : R)
  deriving DecidableEq

/-- A call of `Do`: its arguments, and how far it has come. -/
structure OnceCall (K A R : Type) where
  key : K
  action : A
  place : OncePlace R := .calling
  deriving DecidableEq

/-- A cache and the calls that are made to it. `observed` has the entries that a call has seen timed
out on its way out, each with the key of the call. -/
structure OnceCalls (K A V : Type) where
  cache : OnceWithKey K A (GoResult V)
  calls : List (OnceCall K A (GoResult V)) := []
  observed : List (K × Nat) := []
  deriving DecidableEq

namespace OnceCalls

variable {K A V : Type} [DecidableEq K]

/-- The clock may read anything, whenever it is read. -/
inductive Action (K A V : Type) where
  | call (key : K) (action : A)
  | acquire (c : Nat) (now errorNow successNow : Int)
  /-- The call `c` calls the function of its entry. -/
  | invoke (c : Nat)
  /-- The action that the call `c` runs returns. -/
  | answer (c : Nat) (r : GoResult V)
  | setError (c : Nat)
  | release (c : Nat) (now : Int)

/-- The call `c` goes on. -/
def move (s : OnceCalls K A V) (c : Nat) (place : OncePlace (GoResult V)) : OnceCalls K A V :=
  { s with calls := s.calls.modify c fun call => { call with place } }

/-- A call to the function that `sync.OnceValues` has made. -/
def invoke (s : OnceCalls K A V) (c p : Nat) : Option (OnceCalls K A V) :=
  match s.cache.created[p]? with
  | none => none
  | some once =>
    match once.run with
    | .waiting =>
      some ({ s with cache := s.cache.update p ({ · with run := .running }) }.move c (.running p))
    -- it is blocked until the first call is through
    | .running => none
    | .ran r => some (s.move c (.got p r))

/-- The call sees its entry timed out when it leaves. -/
def seesTimedOut (s : OnceCalls K A V) (p : Nat) (now : Int) : Bool :=
  s.cache.created[p]?.any (·.isTimedOut now)

/-- One section of one call. The action is run outside the locked sections, so other calls go on. -/
def step (s : OnceCalls K A V) : Action K A V → Option (OnceCalls K A V)
  | .call key action => some { s with calls := s.calls ++ [{ key, action }] }
  | .acquire c now errorNow successNow =>
    match s.calls[c]? with
    | some ⟨key, action, .calling⟩ =>
      let (cache, p) := s.cache.acquireAt (.key key) action now errorNow successNow
      some ({ s with cache }.move c (.holding p))
    | _ => none
  | .invoke c =>
    match s.calls[c]? with
    | some ⟨_, _, .holding p⟩ => s.invoke c p
    | _ => none
  | .answer c r =>
    match s.calls[c]? with
    | some ⟨_, _, .running p⟩ =>
      some ({ s with cache := s.cache.update p ({ · with run := .ran r }) }.move c (.got p r))
    | _ => none
  | .setError c =>
    match s.calls[c]? with
    | some ⟨_, _, .got p r⟩ =>
      some ({ s with cache := s.cache.setError p r.2 }.move c (.recorded p r))
    | _ => none
  | .release c now =>
    match s.calls[c]? with
    | some ⟨key, _, .recorded p r⟩ =>
      let observed := if s.seesTimedOut p now then (key, p) :: s.observed else s.observed
      some ({ s with cache := s.cache.release p now, observed }.move c (.returned r))
    | _ => none

/-- The map has the entry under the key. -/
def Retains (s : OnceCalls K A V) (key : K) (p : Nat) : Prop := s.cache.find (.key key) = some p

/-- A call that leaves does not see its entry timed out, or the map has it no longer. -/
def Timely (s : OnceCalls K A V) : Action K A V → Prop
  | .release c now =>
    ∀ key action p r, s.calls[c]? = some ⟨key, action, .recorded p r⟩ →
      ¬ (s.seesTimedOut p now = true ∧ s.Retains key p)
  | _ => True

/-! ### What stays in the map -/

section Retained

variable {s s' : OnceCalls K A V} {key : K} {p : Nat}

/-- An old entry is under a key only if it was there before. -/
theorem find_of_acquireAt {o : OnceWithKey K A (GoResult V)} {key' : K} {action : A}
    {now errorNow successNow : Int} (hp : p < o.created.length)
    (h : (o.acquireAt (.key key') action now errorNow successNow).1.find (.key key) = some p) :
    o.find (.key key) = some p := by
  unfold OnceWithKey.acquireAt at h
  split at h
  · exact h
  -- a new entry takes the place of the old one under its key
  · by_cases hkey : key' = key
    · subst hkey
      rw [OnceWithKey.find_createAt_self] at h
      cases h
      exact absurd hp (lt_irrefl _)
    · rwa [OnceWithKey.find_createAt_ne hkey] at h

theorem length_acquireAt (o : OnceWithKey K A (GoResult V)) (key : OnceKey K) (action : A)
    (now errorNow successNow : Int) :
    o.created.length ≤ (o.acquireAt key action now errorNow successNow).1.created.length := by
  unfold OnceWithKey.acquireAt
  split
  · exact le_refl _
  · simp [OnceWithKey.createAt]

/-- The entries that were seen timed out are not in the map. -/
def Inv (s : OnceCalls K A V) : Prop :=
  ∀ key p, (key, p) ∈ s.observed → p < s.cache.created.length ∧ ¬ s.Retains key p

/-- The map gets no old entry back. -/
theorem Inv.mono (h : s.Inv) (hobserved : s'.observed = s.observed)
    (hlength : s.cache.created.length ≤ s'.cache.created.length)
    (hretains : ∀ key p, p < s.cache.created.length → s'.Retains key p → s.Retains key p) :
    s'.Inv := by
  intro key p hmem
  rw [hobserved] at hmem
  obtain ⟨hp, hnot⟩ := h key p hmem
  exact ⟨Nat.lt_of_lt_of_le hp hlength, fun hr => hnot (hretains key p hp hr)⟩

/-- Calling the function of an entry changes the entry, not the map. -/
theorem Inv.invoke {c : Nat} (h : s.Inv) (hstep : s.invoke c p = some s') : s'.Inv := by
  unfold OnceCalls.invoke at hstep
  split at hstep
  · cases hstep
  split at hstep
  · cases hstep
    exact h.mono rfl (by simp [move, OnceWithKey.update]) fun _ _ _ hr => hr
  · cases hstep
  · cases hstep
    exact h.mono rfl (le_refl _) fun _ _ _ hr => hr

/-- What the second locked section leaves under the key of the call. -/
theorem retains_release (s : OnceCalls K A V) (c q : Nat) (place : OncePlace (GoResult V))
    (observed : List (K × Nat)) (now : Int) (key : K) (p : Nat) :
    ({ s with cache := s.cache.release q now, observed }.move c place).Retains key p
      ↔ s.Retains key p := by
  change (s.cache.release q now).find (.key key) = some p ↔ s.cache.find (.key key) = some p
  rw [OnceWithKey.find_release]

/-- The one step that adds to what was seen: by `Timely`, what is added is not in the map. -/
theorem Inv.release (h : s.Inv) {c : Nat} {action : A} {r : GoResult V} {now : Int}
    (hc : s.calls[c]? = some ⟨key, action, .recorded p r⟩) (htimely : s.Timely (.release c now)) :
    ({ s with
        cache := s.cache.release p now
        observed := if s.seesTimedOut p now then (key, p) :: s.observed else s.observed }.move c
      (.returned r)).Inv := by
  intro key' p' hmem
  rw [retains_release]
  change p' < (s.cache.release p now).created.length ∧ _
  rw [OnceWithKey.release_created]
  change (key', p') ∈ (if s.seesTimedOut p now then (key, p) :: s.observed else s.observed) at hmem
  split at hmem
  · rename_i hseen
    rcases List.mem_cons.mp hmem with heq | hold
    · cases heq
      obtain ⟨once, hget, -⟩ := (Option.any_eq_true _ _).mp hseen
      refine ⟨(List.getElem?_eq_some_iff.mp hget).1, fun hr => ?_⟩
      exact htimely key action p r hc ⟨hseen, hr⟩
    · exact h key' p' hold
  · exact h key' p' hmem

/-- Every section keeps the invariant. -/
theorem Inv.step (h : s.Inv) {a : Action K A V} (htimely : s.Timely a)
    (hstep : s.step a = some s') : s'.Inv := by
  cases a with
  | call key action =>
    cases hstep
    exact h.mono rfl (le_refl _) fun _ _ _ hr => hr
  | acquire c now errorNow successNow =>
    simp only [OnceCalls.step] at hstep
    split at hstep
    · cases hstep
      exact h.mono rfl (length_acquireAt _ _ _ _ _ _) fun _ _ hp hr => find_of_acquireAt hp hr
    · cases hstep
  | invoke c =>
    simp only [OnceCalls.step] at hstep
    split at hstep
    · exact h.invoke hstep
    · cases hstep
  | answer c r =>
    simp only [OnceCalls.step] at hstep
    split at hstep
    · cases hstep
      exact h.mono rfl (by simp [move, OnceWithKey.update]) fun _ _ _ hr => hr
    · cases hstep
  | setError c =>
    simp only [OnceCalls.step] at hstep
    split at hstep
    · cases hstep
      refine h.mono rfl (by simp [move]) fun key p _ hr => ?_
      change (s.cache.setError _ _).find (.key key) = some p at hr
      rwa [OnceWithKey.find, OnceWithKey.setError_onces] at hr
    · cases hstep
  -- only here is an entry observed, and by `Timely` it is one that the map has lost
  | release c now =>
    simp only [OnceCalls.step] at hstep
    split at hstep
    · rename_i hc
      cases hstep
      exact h.release hc htimely
    · cases hstep

end Retained

/-- A new cache, and no calls yet. -/
def start (successTimeout errorTimeout : Int) : OnceCalls K A V :=
  { cache := .new successTimeout errorTimeout }

/-- **An entry is evicted if it has gone already.** A call that sees its entry timed out on its way
out leaves a map without this entry if and only if the entry is not timed out at that reading of
the clock, or the map has it under the key no longer; and in every run in which this is so whenever
a call leaves, no entry that was seen timed out is in the map afterwards. -/
theorem evicted_iff :
    (∀ (s s' : OnceCalls K A V) (c : Nat) (key : K) (action : A) (p : Nat) (r : GoResult V)
        (now : Int), s.calls[c]? = some ⟨key, action, .recorded p r⟩ →
      s.step (.release c now) = some s' →
        ((s.seesTimedOut p now = true → ¬ s'.Retains key p) ↔ s.Timely (.release c now)))
    ∧ ∀ (successTimeout errorTimeout : Int) (s : OnceCalls K A V),
      Machine.Run step Timely (start successTimeout errorTimeout) s →
        ∀ key p, (key, p) ∈ s.observed → ¬ s.Retains key p := by
  constructor
  · intro s s' c key action p r now hc hstep
    simp only [step, hc, Option.some.injEq] at hstep
    rw [← hstep, retains_release]
    constructor
    · intro hevicts key' action' p' r' hc'
      cases hc.symm.trans hc'
      exact fun ⟨hseen, hr⟩ => hevicts hseen hr
    · intro htimely hseen hr
      exact htimely key action p r hc ⟨hseen, hr⟩
  · intro successTimeout errorTimeout s hrun key p hmem
    have hinv : s.Inv := hrun.inv (fun key p hmem => by cases hmem)
      fun h htimely hstep => h.step htimely hstep
    exact (hinv key p hmem).2

end OnceCalls

/-! ## Two runs -/

namespace Sample

def oneSecond : Int := 10 ^ 9

/-- The call `c` makes an entry at the start of the clock, and its action takes five seconds. -/
def slowCall (c : Nat) : List (OnceCalls.Action String Unit Nat) :=
  [.acquire c 0 0 0, .invoke c, .answer c (3, none), .setError c]

/-- A check of a call that leaves. -/
def timely (s : OnceCalls String Unit Nat) : OnceCalls.Action String Unit Nat → Bool
  | .release c now =>
    match s.calls[c]? with
    | some ⟨key, _, .recorded p _⟩ =>
      !(s.seesTimedOut p now && s.cache.find (.key key) = some p)
    | _ => true
  | _ => true

/-- The check implies `Timely`. -/
theorem timely_spec (s : OnceCalls String Unit Nat) (a : OnceCalls.Action String Unit Nat)
    (h : timely s a = true) : s.Timely a := by
  cases a with
  | release c now =>
    rintro key action p r hc ⟨hseen, hretains⟩
    rw [timely, hc] at h
    simp [hseen, show s.cache.find (.key key) = some p from hretains] at h
  | _ => trivial

end Sample

namespace OnceCalls

/-- `evicted_iff` when another call has replaced the entry in the meantime. -/
theorem evicted_iff_replaced :
    ∃ s : OnceCalls String Unit Nat,
      Machine.Run step Timely (start Sample.oneSecond Sample.oneSecond) s
      ∧ ("key", 0) ∈ s.observed ∧ ¬ s.Retains "key" 0 := by
  have hscript : (Machine.script step Sample.timely (start Sample.oneSecond Sample.oneSecond)
      ([.call "key" (), .call "key" ()] ++ Sample.slowCall 0
        ++ [.acquire 1 (5 * Sample.oneSecond) (5 * Sample.oneSecond) (5 * Sample.oneSecond),
          .release 0 (5 * Sample.oneSecond)])).any (fun s => ("key", 0) ∈ s.observed) = true := by
    decide +kernel
  obtain ⟨s, hs, hobserved⟩ := (Option.any_eq_true _ _).mp hscript
  have hrun := Machine.run_of_script Sample.timely_spec hs
  have hmem := of_decide_eq_true hobserved
  exact ⟨s, hrun, hmem, evicted_iff.2 Sample.oneSecond Sample.oneSecond s hrun "key" 0 hmem⟩

/-- An action takes longer than the success timeout. The call sees its entry timed out when it
leaves, and the entry stays under the key. -/
theorem timed_out_entry_stays :
    ∃ s s' : OnceCalls String Unit Nat,
      Machine.Run step (fun _ _ => True) (start Sample.oneSecond Sample.oneSecond) s
        ∧ s.calls[0]? = some ⟨"key", (), .recorded 0 (3, none)⟩
        ∧ s.seesTimedOut 0 (5 * Sample.oneSecond) = true
        ∧ s.step (.release 0 (5 * Sample.oneSecond)) = some s' ∧ s'.Retains "key" 0 := by
  have hscript : (Machine.script step (fun _ _ => true) (start Sample.oneSecond Sample.oneSecond)
      ([.call "key" ()] ++ Sample.slowCall 0)).any (fun s =>
        s.calls[0]? = some ⟨"key", (), .recorded 0 (3, none)⟩
          ∧ s.seesTimedOut 0 (5 * Sample.oneSecond) = true
          ∧ (s.step (.release 0 (5 * Sample.oneSecond))).any
            (fun s' => s'.cache.find (.key "key") = some 0) = true) = true := by
    decide +kernel
  obtain ⟨s, hs, hend⟩ := (Option.any_eq_true _ _).mp hscript
  obtain ⟨hc, hseen, hreleased⟩ := of_decide_eq_true hend
  obtain ⟨s', hs', hfind⟩ := (Option.any_eq_true _ _).mp hreleased
  have hretains : s'.cache.find (.key "key") = some 0 := of_decide_eq_true hfind
  exact ⟨s, s', Machine.run_of_script (fun _ _ _ => trivial) hs, hc, hseen, hs', hretains⟩

end OnceCalls

end IbcRelayer

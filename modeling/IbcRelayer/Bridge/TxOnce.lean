import IbcRelayer.Lib.Machine
import IbcRelayer.Bridge.Once
import IbcRelayer.Bridge.Client

/-!
# IbcRelayer — the shared tx cache

The calls of a bridge client that go through `txOnce`, as one machine. Each call runs in a goroutine
of its own and has a context; a call that finds no entry for its hash in the cache creates one,
whose action is the request to the node under the context of this call. Whoever comes first to the
`sync.OnceValues` function of an entry runs its action, the others wait for it.

The node answers with an error that wraps `context.Canceled` only if the context of the request is
cancelled (`answers`).
-/

namespace IbcRelayer

/-- How far a call has come. -/
inductive TxPlace (V : Type) where
  /-- Before `Do`. -/
  | calling
  /-- After the first locked section of `Do`, with an entry of the cache. -/
  | holding (p : Nat)
  /-- It runs the action of the entry. -/
  | running (p : Nat)
  /-- The function of the entry has returned. -/
  | got (p : Nat) (r : Except GoError V)
  /-- The error is set, and the second locked section comes next. -/
  | recorded (p : Nat) (r : Except GoError V)
  /-- The latest header is asked for, under the context of the call. -/
  | asking (expiry : Int) (sentTs : Time)
  | returned (r : Except GoError TxAnswer)
  deriving DecidableEq

/-- A call, with the number of its context. -/
structure TxCall (V : Type) where
  query : TxQuery
  ctx : Nat
  place : TxPlace V := .calling
  deriving DecidableEq

/-- The calls of a client and its cache. An action is the context that the request captures. -/
structure TxOnce (V : Type) where
  txOnce : OnceWithKey String Nat (Except GoError V)
  calls : List (TxCall V) := []
  cancelled : List Nat := []
  now : Int := 0
  deriving DecidableEq

/-- The error that a call returns. -/
def errorOf {α : Type} : Except GoError α → Option GoError
  | .ok _ => none
  | .error err => some err

/-- An error that wraps `context.Canceled`. -/
def canceled {α : Type} : Except GoError α → Bool
  | .ok _ => false
  | .error err => err.is .contextCanceled

namespace TxOnce

inductive Action (V H : Type) where
  /-- Somebody calls a method of the client. -/
  | call (query : TxQuery) (ctx : Nat)
  | cancel (ctx : Nat)
  | tick (now : Int)
  /-- The call `c` gets an entry of the cache. -/
  | acquire (c : Nat)
  /-- The call `c` calls the function of its entry. -/
  | invoke (c : Nat)
  /-- The node answers the request that the call `c` makes. -/
  | answer (c : Nat) (r : Except GoError V)
  | setError (c : Nat)
  /-- The second locked section of `Do`, and what comes after it in the method. -/
  | release (c : Nat)
  /-- The node answers the call `c` about the latest header. -/
  | header (c : Nat) (r : Except GoError H)

variable {V H : Type} (client : TxClient V H)

/-- The node may answer so to a request with this context. -/
def answers {α : Type} (s : TxOnce V) (ctx : Nat) (r : Except GoError α) : Bool :=
  !canceled r || ctx ∈ s.cancelled

/-- The call `c` goes on. -/
def move (s : TxOnce V) (c : Nat) (place : TxPlace V) : TxOnce V :=
  { s with calls := s.calls.modify c fun call => { call with place } }

def acquire (s : TxOnce V) (c : Nat) (query : TxQuery) (ctx : Nat) : TxOnce V :=
  match client.check query with
  | some err => s.move c (.returned (.error err))
  | none =>
    let (txOnce, p) := s.txOnce.acquire (.key query.hash) ctx s.now
    { s with txOnce }.move c (.holding p)

/-- A call to the function that `sync.OnceValues` has made. -/
def invoke (s : TxOnce V) (c p : Nat) : Option (TxOnce V) :=
  match s.txOnce.created[p]? with
  | none => none
  | some once =>
    match once.run with
    | .waiting =>
      some ({ s with txOnce := s.txOnce.update p ({ · with run := .running }) }.move c (.running p))
    -- it is blocked until the first call is through
    | .running => none
    | .ran r => some (s.move c (.got p r))

def answer (s : TxOnce V) (c p : Nat) (r : Except GoError V) : Option (TxOnce V) :=
  match s.txOnce.created[p]? with
  | none => none
  | some once =>
    match once.run with
    | .running =>
      if s.answers once.action r then
        some ({ s with txOnce := s.txOnce.update p ({ · with run := .ran r }) }.move c (.got p r))
      else
        none
    | _ => none

def release (s : TxOnce V) (c p : Nat) (query : TxQuery) (r : Except GoError V) : TxOnce V :=
  { s with txOnce := s.txOnce.release p s.now }.move c
    (match client.next query r with
      | .return r => .returned r
      | .latestHeader expiry sentTs => .asking expiry sentTs)

def step (s : TxOnce V) : Action V H → Option (TxOnce V)
  | .call query ctx => some { s with calls := s.calls ++ [{ query, ctx }] }
  | .cancel ctx => some { s with cancelled := ctx :: s.cancelled }
  | .tick now => some { s with now }
  | .acquire c =>
    match s.calls[c]? with
    | some ⟨query, ctx, .calling⟩ => some (s.acquire client c query ctx)
    | _ => none
  | .invoke c =>
    match s.calls[c]? with
    | some ⟨_, _, .holding p⟩ => s.invoke c p
    | _ => none
  | .answer c r =>
    match s.calls[c]? with
    | some ⟨_, _, .running p⟩ => s.answer c p r
    | _ => none
  | .setError c =>
    match s.calls[c]? with
    | some ⟨_, _, .got p r⟩ =>
      some ({ s with txOnce := s.txOnce.setError p (errorOf r) }.move c (.recorded p r))
    | _ => none
  | .release c =>
    match s.calls[c]? with
    | some ⟨query, _, .recorded p r⟩ => some (s.release client c p query r)
    | _ => none
  | .header c r =>
    match s.calls[c]? with
    | some ⟨_, ctx, .asking expiry sentTs⟩ =>
      if s.answers ctx r then
        some (s.move c (.returned (retryUnlessFound expiry sentTs (client.headerTime r))))
      else
        none
    | _ => none

/-- What a step can do. -/
inductive Step (s : TxOnce V) : Action V H → TxOnce V → Prop where
  | call (query : TxQuery) (ctx : Nat) :
    Step s (.call query ctx) { s with calls := s.calls ++ [{ query, ctx }] }
  | cancel (ctx : Nat) : Step s (.cancel ctx) { s with cancelled := ctx :: s.cancelled }
  | tick (now : Int) : Step s (.tick now) { s with now }
  | acquire {c query ctx} (hc : s.calls[c]? = some ⟨query, ctx, .calling⟩) :
    Step s (.acquire c) (s.acquire client c query ctx)
  | invoke {c query ctx p s'} (hc : s.calls[c]? = some ⟨query, ctx, .holding p⟩)
    (h : s.invoke c p = some s') : Step s (.invoke c) s'
  | answer {c query ctx p r s'} (hc : s.calls[c]? = some ⟨query, ctx, .running p⟩)
    (h : s.answer c p r = some s') : Step s (.answer c r) s'
  | setError {c query ctx p r} (hc : s.calls[c]? = some ⟨query, ctx, .got p r⟩) :
    Step s (.setError c)
      ({ s with txOnce := s.txOnce.setError p (errorOf r) }.move c (.recorded p r))
  | release {c query ctx p r} (hc : s.calls[c]? = some ⟨query, ctx, .recorded p r⟩) :
    Step s (.release c) (s.release client c p query r)
  | header {c query ctx expiry sentTs r}
    (hc : s.calls[c]? = some ⟨query, ctx, .asking expiry sentTs⟩) (h : s.answers ctx r = true) :
    Step s (.header c r)
      (s.move c (.returned (retryUnlessFound expiry sentTs (client.headerTime r))))

variable {client}

/-- Every step of the model is one of `Step`. -/
theorem step_cases {s s' : TxOnce V} {a : Action V H} (h : s.step client a = some s') :
    Step client s a s' := by
  cases a <;> simp only [step] at h
  case call query ctx =>
    cases h
    exact .call query ctx
  case cancel ctx =>
    cases h
    exact .cancel ctx
  case tick now =>
    cases h
    exact .tick now
  -- from here on the place of the call decides whether there is a step
  case header c r =>
    split at h
    · split at h
      · cases h
        exact .header ‹_› ‹_›
      · cases h
    · cases h
  case acquire c =>
    split at h
    · cases h
      exact .acquire ‹_›
    · cases h
  case invoke c =>
    split at h
    · exact .invoke ‹_› h
    · cases h
  case answer c r =>
    split at h
    · exact .answer ‹_› h
    · cases h
  case setError c =>
    split at h
    · cases h
      exact .setError ‹_›
    · cases h
  case release c =>
    split at h
    · cases h
      exact .release ‹_›
    · cases h

end TxOnce

end IbcRelayer

import IbcRelayer.Golang
import IbcRelayer.Lib.Escape
import IbcRelayer.Lib.Machine

/-!
# IbcRelayer — the prices that are cached

`CachedPriceClient` (`shared/clients/coingecko/price_client.go`) keeps the last price of a coin in a
currency under a key, which is made of the two by `cacheKey`. Slashes inside them are doubled and a
slash is put between them.

* `cacheKey_eq_iff` — two pairs have one key if slashes at the end of one id are at the start of the
  other currency: the code of `Escape.join`.
* `PriceClients` — calls of `GetSimplePrice` that run at the same time, with what the internal
  client has answered. A price is handed out for the pair it was asked for as long as no two pairs
  are asked for that have one key (`prices_of_own_pair`).
-/

namespace IbcRelayer

/-- A Go `string` is its bytes, which need not be UTF-8. -/
abbrev GoString := List UInt8

/-- `'/'` -/
def slash : UInt8 := 0x2f

/-- `strings.ReplaceAll(s, old, new)`, where `old` is one byte. -/
def replaceAll (s : GoString) (old : UInt8) (new : GoString) : GoString :=
  s.flatMap fun byte => if byte = old then new else [byte]

/-- `cacheKey` -/
def cacheKey (coingeckoID currency : GoString) : GoString :=
  replaceAll coingeckoID slash [slash, slash] ++ [slash]
    ++ replaceAll currency slash [slash, slash]

/-! ## Keys -/

/-- One or more slashes at the end of the second id are at the start of the first currency. -/
def SlashesMoved (id₁ cur₁ id₂ cur₂ : GoString) : Prop :=
  ∃ k > 0, id₂ = id₁ ++ List.replicate k slash ∧ cur₁ = List.replicate k slash ++ cur₂

/-- The two pairs differ in this only: where slashes between the id and the currency belong. -/
def SlashesApart (id₁ cur₁ id₂ cur₂ : GoString) : Prop :=
  SlashesMoved id₁ cur₁ id₂ cur₂ ∨ SlashesMoved id₂ cur₂ id₁ cur₁

section Keys

variable {id₁ cur₁ id₂ cur₂ : GoString}

/-- The key is the code of the library. -/
theorem cacheKey_eq_join (coingeckoID currency : GoString) :
    cacheKey coingeckoID currency = Escape.join slash coingeckoID currency := by
  rw [cacheKey, List.append_assoc]
  rfl

theorem SlashesMoved.shift (h : SlashesMoved id₁ cur₁ id₂ cur₂) :
    Escape.Shift slash id₁ cur₁ id₂ cur₂ := by
  obtain ⟨k, -, hid, hcur⟩ := h
  exact ⟨k, hid, hcur⟩

theorem SlashesMoved.ne (h : SlashesMoved id₁ cur₁ id₂ cur₂) : id₁ ≠ id₂ := by
  obtain ⟨k, hk, rfl, -⟩ := h
  intro heq
  have hlength := congrArg List.length heq
  simp at hlength
  omega

/-- A shift moves slashes, or nothing. -/
theorem eq_or_moved_of_shift (h : Escape.Shift slash id₁ cur₁ id₂ cur₂) :
    (id₁ = id₂ ∧ cur₁ = cur₂) ∨ SlashesMoved id₁ cur₁ id₂ cur₂ := by
  obtain ⟨k, hid, hcur⟩ := h
  rcases Nat.eq_zero_or_pos k with rfl | hk
  · left
    simpa [eq_comm] using And.intro hid hcur
  · exact .inr ⟨k, hk, hid, hcur⟩

theorem SlashesApart.symm (h : SlashesApart id₁ cur₁ id₂ cur₂) :
    SlashesApart id₂ cur₂ id₁ cur₁ :=
  Or.symm h

/-- **Two pairs have one key** if they are the same, or differ only in where slashes between the id
and the currency belong. -/
theorem cacheKey_eq_iff :
    cacheKey id₁ cur₁ = cacheKey id₂ cur₂
      ↔ (id₁ = id₂ ∧ cur₁ = cur₂) ∨ SlashesApart id₁ cur₁ id₂ cur₂ := by
  rw [cacheKey_eq_join, cacheKey_eq_join, Escape.join_eq_join_iff]
  constructor
  · rintro (h | h)
    · exact (eq_or_moved_of_shift h).imp_right .inl
    -- the shift may be the other way round
    · rcases eq_or_moved_of_shift h with ⟨hid, hcur⟩ | hmoved
      · exact .inl ⟨hid.symm, hcur.symm⟩
      · exact .inr (.inr hmoved)
  · rintro (⟨rfl, rfl⟩ | h | h)
    · exact .inl (.refl _ _)
    · exact .inl h.shift
    · exact .inr h.shift

/-- The key tells the pair, unless it is apart in slashes only. -/
theorem cacheKey_injective_iff :
    (cacheKey id₁ cur₁ = cacheKey id₂ cur₂ → id₁ = id₂ ∧ cur₁ = cur₂)
      ↔ ¬ SlashesApart id₁ cur₁ id₂ cur₂ := by
  rw [cacheKey_eq_iff]
  constructor
  · intro h hapart
    obtain ⟨hid, -⟩ := h (.inr hapart)
    rcases hapart with hmoved | hmoved
    · exact hmoved.ne hid
    · exact hmoved.ne hid.symm
  · rintro hapart (heq | h)
    · exact heq
    · exact absurd h hapart

end Keys

/-! ## The client -/

/-- `PriceResponse` -/
structure PriceResponse (P : Type) where
  price : P
  lastUpdated : Time
  deriving DecidableEq, Repr

/-- `CachedPriceClient`. The interval is a duration, in nanoseconds. -/
structure CachedPriceClient (P : Type) where
  cache : List (GoString × PriceResponse P) := []
  cacheRefreshInterval : Int
  deriving DecidableEq, Repr

namespace CachedPriceClient

variable {P : Type} (c : CachedPriceClient P)

/-- `c.cache[key]` -/
def find (key : GoString) : Option (PriceResponse P) := (c.cache.find? (·.1 = key)).map (·.2)

/-- `c.cache[key] = priceResponse` -/
def store (key : GoString) (priceResponse : PriceResponse P) : CachedPriceClient P :=
  { c with cache := (key, priceResponse) :: c.cache.filter (·.1 ≠ key) }

/-- The cached response that `GetSimplePrice` uses, when the clock reads `now`. -/
def fresh (key : GoString) (now : Time) : Option (PriceResponse P) := do
  let priceResponse ← c.find key
  if now.sub priceResponse.lastUpdated > c.cacheRefreshInterval then none else some priceResponse

theorem find_mem {key : GoString} {priceResponse : PriceResponse P}
    (h : c.find key = some priceResponse) : (key, priceResponse) ∈ c.cache := by
  obtain ⟨⟨key', priceResponse'⟩, hfind, rfl⟩ := Option.map_eq_some_iff.mp h
  obtain rfl : key' = key := by simpa using List.find?_some hfind
  exact List.mem_of_find?_eq_some hfind

theorem fresh_mem {key : GoString} {now : Time} {priceResponse : PriceResponse P}
    (h : c.fresh key now = some priceResponse) : (key, priceResponse) ∈ c.cache := by
  obtain ⟨priceResponse', hfind, h⟩ := Option.bind_eq_some_iff.mp h
  split at h
  · cases h
  · cases h
    exact c.find_mem hfind

theorem store_mem {key key' : GoString} {priceResponse priceResponse' : PriceResponse P}
    (h : (key', priceResponse') ∈ (c.store key priceResponse).cache) :
    (key' = key ∧ priceResponse' = priceResponse) ∨ (key', priceResponse') ∈ c.cache := by
  rcases List.mem_cons.mp h with heq | hold
  · cases heq
    exact .inl ⟨rfl, rfl⟩
  · exact .inr (List.mem_of_mem_filter hold)

end CachedPriceClient

/-! ## Calls at the same time -/

/-- How far a call of `GetSimplePrice` has come. -/
inductive PricePlace (P : Type) where
  | calling
  /-- There is no cached price, or it is too old. -/
  | asking
  /-- The internal client has answered. -/
  | storing (priceResponse : PriceResponse P)
  | returned (r : Except GoError P)
  deriving DecidableEq

/-- A call of `GetSimplePrice`: its arguments, and how far it has come. -/
structure PriceCall (P : Type) where
  coingeckoID : GoString
  currency : GoString
  place : PricePlace P := .calling
  deriving DecidableEq

/-- A client and the calls that are made to it. `answered` has the prices of the internal client,
each with the pair it was asked for. -/
structure PriceClients (P : Type) where
  client : CachedPriceClient P
  calls : List (PriceCall P) := []
  answered : List ((GoString × GoString) × P) := []
  deriving DecidableEq

namespace PriceClients

inductive Action (P : Type) where
  | call (coingeckoID currency : GoString)
  /-- The call `c` looks into the cache, when the clock reads `now`. -/
  | lookup (c : Nat) (now : Time)
  /-- The internal client answers the call `c`. -/
  | answer (c : Nat) (r : Except GoError P) (now : Time)
  | store (c : Nat)

variable {P : Type}

/-- The call `c` goes on. -/
def move (s : PriceClients P) (c : Nat) (place : PricePlace P) : PriceClients P :=
  { s with calls := s.calls.modify c fun call => { call with place } }

/-- The sections of `GetSimplePrice` between its locks, as steps. -/
def step (s : PriceClients P) : Action P → Option (PriceClients P)
  | .call coingeckoID currency => some { s with calls := s.calls ++ [{ coingeckoID, currency }] }
  | .lookup c now =>
    match s.calls[c]? with
    | some ⟨coingeckoID, currency, .calling⟩ =>
      match s.client.fresh (cacheKey coingeckoID currency) now with
      | some priceResponse => some (s.move c (.returned (.ok priceResponse.price)))
      | none => some (s.move c .asking)
    | _ => none
  | .answer c r now =>
    match s.calls[c]? with
    | some ⟨coingeckoID, currency, .asking⟩ =>
      match r with
      | .error err => some (s.move c (.returned (.error err)))
      | .ok price =>
        some ({ s with answered := ((coingeckoID, currency), price) :: s.answered }.move c
          (.storing { price, lastUpdated := now }))
    | _ => none
  | .store c =>
    match s.calls[c]? with
    | some ⟨coingeckoID, currency, .storing priceResponse⟩ =>
      let client := s.client.store (cacheKey coingeckoID currency) priceResponse
      some ({ s with client }.move c (.returned (.ok priceResponse.price)))
    | _ => none

/-- A call is made only for a pair that is not apart in slashes from a pair that was asked for. -/
def Telling (s : PriceClients P) : Action P → Prop
  | .call coingeckoID currency =>
    ∀ call ∈ s.calls, ¬ SlashesApart call.coingeckoID call.currency coingeckoID currency
  | _ => True

/-! ### The invariant -/

/-- The internal client has given this price for the pair of the call. -/
def GivenTo (s : PriceClients P) (call : PriceCall P) (price : P) : Prop :=
  ((call.coingeckoID, call.currency), price) ∈ s.answered

/-- Every price that is cached, about to be stored, or returned is one that the internal client gave
for the pair. -/
structure Inv (s : PriceClients P) : Prop where
  /-- The pairs that are asked for have different keys. -/
  telling : ∀ call ∈ s.calls, ∀ call' ∈ s.calls,
    ¬ SlashesApart call.coingeckoID call.currency call'.coingeckoID call'.currency
  cached : ∀ key priceResponse, (key, priceResponse) ∈ s.client.cache →
    ∃ call ∈ s.calls, key = cacheKey call.coingeckoID call.currency
      ∧ s.GivenTo call priceResponse.price
  storing : ∀ call ∈ s.calls, ∀ priceResponse, call.place = .storing priceResponse →
    s.GivenTo call priceResponse.price
  returned : ∀ call ∈ s.calls, ∀ price, call.place = .returned (.ok price) → s.GivenTo call price

theorem not_slashesApart_self (coingeckoID currency : GoString) :
    ¬ SlashesApart coingeckoID currency coingeckoID currency := by
  rintro (h | h) <;> exact h.ne rfl

/-- A call after the step is the one that went on, or was there before. -/
theorem mem_move {s : PriceClients P} {c : Nat} {place : PricePlace P} {call call' : PriceCall P}
    (hc : s.calls[c]? = some call) (h : call' ∈ (s.move c place).calls) :
    call' = { call with place } ∨ call' ∈ s.calls := by
  obtain ⟨d, hd⟩ := List.getElem?_of_mem h
  simp only [move, List.getElem?_modify] at hd
  obtain ⟨old, hold, rfl⟩ := Option.map_eq_some_iff.mp hd
  split
  · rename_i hcd
    subst hcd
    cases hc.symm.trans hold
    exact .inl rfl
  · exact .inr (List.mem_of_getElem? hold)

/-- A call keeps its pair. -/
theorem move_mem {s : PriceClients P} {c : Nat} (place : PricePlace P) {call : PriceCall P}
    (h : call ∈ s.calls) :
    ∃ call' ∈ (s.move c place).calls,
      call'.coingeckoID = call.coingeckoID ∧ call'.currency = call.currency := by
  obtain ⟨d, hd⟩ := List.getElem?_of_mem h
  have hget : (s.move c place).calls[d]?
      = some (if c = d then { call with place } else call) := by
    rw [move, List.getElem?_modify, hd]
    split <;> rfl
  refine ⟨_, List.mem_of_getElem? hget, ?_⟩
  split <;> exact ⟨rfl, rfl⟩

/-- One call goes on, and the cache and the answers grow. -/
theorem Inv.move {s : PriceClients P} (h : s.Inv) {c : Nat} {call : PriceCall P}
    (hc : s.calls[c]? = some call) {place : PricePlace P} {client : CachedPriceClient P}
    {answered : List ((GoString × GoString) × P)} (hanswered : ∀ a ∈ s.answered, a ∈ answered)
    (hcached : ∀ key priceResponse, (key, priceResponse) ∈ client.cache →
      (key, priceResponse) ∈ s.client.cache ∨ key = cacheKey call.coingeckoID call.currency
        ∧ ((call.coingeckoID, call.currency), priceResponse.price) ∈ answered)
    (hstoring : ∀ priceResponse, place = .storing priceResponse →
      ((call.coingeckoID, call.currency), priceResponse.price) ∈ answered)
    (hreturned : ∀ price, place = .returned (.ok price) →
      ((call.coingeckoID, call.currency), price) ∈ answered) :
    Inv ({ s with client, answered }.move c place) := by
  have hmem : call ∈ s.calls := List.mem_of_getElem? hc
  let s' : PriceClients P := { s with client, answered }
  -- a call never changes what it asks for
  have hpair : ∀ call' ∈ (s'.move c place).calls, ∃ old ∈ s.calls,
      call'.coingeckoID = old.coingeckoID ∧ call'.currency = old.currency := by
    intro call' hcall'
    rcases mem_move (s := s') hc hcall' with rfl | hold
    · exact ⟨call, hmem, rfl, rfl⟩
    · exact ⟨call', hold, rfl, rfl⟩
  refine ⟨fun call₁ h₁ call₂ h₂ => ?_, fun key priceResponse hkey => ?_,
    fun call' hcall' priceResponse hplace => ?_, fun call' hcall' price hplace => ?_⟩
  · obtain ⟨old₁, hold₁, hid₁, hcur₁⟩ := hpair call₁ h₁
    obtain ⟨old₂, hold₂, hid₂, hcur₂⟩ := hpair call₂ h₂
    rw [hid₁, hcur₁, hid₂, hcur₂]
    exact h.telling old₁ hold₁ old₂ hold₂
  · rcases hcached key priceResponse hkey with hold | ⟨rfl, hgiven⟩
    · obtain ⟨old, hmem', rfl, hgiven⟩ := h.cached key priceResponse hold
      obtain ⟨call', hcall', hid, hcur⟩ := move_mem (s := s') (c := c) place hmem'
      refine ⟨call', hcall', by rw [hid, hcur], ?_⟩
      rw [GivenTo, hid, hcur]
      exact hanswered _ hgiven
    · obtain ⟨call', hcall', hid, hcur⟩ := move_mem (s := s') (c := c) place hmem
      refine ⟨call', hcall', by rw [hid, hcur], ?_⟩
      rw [GivenTo, hid, hcur]
      exact hgiven
  · rcases mem_move (s := s') hc hcall' with rfl | hold
    · exact hstoring priceResponse hplace
    · exact hanswered _ (h.storing call' hold priceResponse hplace)
  · rcases mem_move (s := s') hc hcall' with rfl | hold
    · exact hreturned price hplace
    · exact hanswered _ (h.returned call' hold price hplace)

/-- A call begins. Its pair must not be apart in slashes from one before, in either direction. -/
theorem Inv.call {s : PriceClients P} (h : s.Inv) {coingeckoID currency : GoString}
    (htelling : ∀ call ∈ s.calls,
      ¬ SlashesApart call.coingeckoID call.currency coingeckoID currency) :
    Inv { s with calls := s.calls ++ [{ coingeckoID, currency }] } := by
  refine ⟨fun call hcall call' hcall' => ?_, fun key priceResponse hkey => ?_,
    fun call hcall priceResponse hplace => ?_, fun call hcall price hplace => ?_⟩
  · rcases List.mem_append.mp hcall with hold | hnew <;>
      rcases List.mem_append.mp hcall' with hold' | hnew'
    · exact h.telling call hold call' hold'
    · cases List.mem_singleton.mp hnew'
      exact htelling call hold
    · cases List.mem_singleton.mp hnew
      exact fun hapart => htelling call' hold' hapart.symm
    · cases List.mem_singleton.mp hnew
      cases List.mem_singleton.mp hnew'
      exact not_slashesApart_self _ _
  · obtain ⟨call, hcall, hkey, hgiven⟩ := h.cached key priceResponse hkey
    exact ⟨call, List.mem_append_left _ hcall, hkey, hgiven⟩
  · rcases List.mem_append.mp hcall with hold | hnew
    · exact h.storing call hold priceResponse hplace
    · cases List.mem_singleton.mp hnew
      cases hplace
  · rcases List.mem_append.mp hcall with hold | hnew
    · exact h.returned call hold price hplace
    · cases List.mem_singleton.mp hnew
      cases hplace

/-- A cached price is that of the pair, because the key tells the pair. -/
theorem Inv.fresh {s : PriceClients P} (h : s.Inv) {call : PriceCall P} (hcall : call ∈ s.calls)
    {now : Time} {priceResponse : PriceResponse P}
    (hfresh : s.client.fresh (cacheKey call.coingeckoID call.currency) now = some priceResponse) :
    s.GivenTo call priceResponse.price := by
  obtain ⟨call', hcall', hkey, hgiven⟩ := h.cached _ _ (s.client.fresh_mem hfresh)
  obtain ⟨hid, hcur⟩ := cacheKey_injective_iff.mpr (h.telling call hcall call' hcall') hkey
  rw [GivenTo, hid, hcur]
  exact hgiven

/-- Every section of every call keeps the invariant. -/
theorem Inv.step {s s' : PriceClients P} (h : s.Inv) {a : Action P} (htelling : s.Telling a)
    (hstep : s.step a = some s') : s'.Inv := by
  cases a with
  | call coingeckoID currency =>
    cases hstep
    exact h.call htelling
  | lookup c now =>
    simp only [PriceClients.step] at hstep
    split at hstep
    · rename_i hc
      split at hstep
      · rename_i priceResponse hfresh
        cases hstep
        refine h.move hc (fun _ ha => ha) (fun _ _ hkey => .inl hkey) (by simp)
          fun price hplace => ?_
        cases hplace
        -- the price out of the cache was given for the pair with this key, which is the pair of the
        -- call
        exact h.fresh (List.mem_of_getElem? hc) hfresh
      · cases hstep
        exact h.move hc (fun _ ha => ha) (fun _ _ hkey => .inl hkey) (by simp) (by simp)
    · cases hstep
  | answer c r now =>
    simp only [PriceClients.step] at hstep
    split at hstep
    · rename_i hc
      cases r with
      | error err =>
        cases hstep
        exact h.move hc (fun _ ha => ha) (fun _ _ hkey => .inl hkey) (by simp) (by simp)
      | ok price =>
        cases hstep
        refine h.move hc (fun _ ha => List.mem_cons_of_mem _ ha) (fun _ _ hkey => .inl hkey)
          (fun priceResponse hplace => ?_) (by simp)
        cases hplace
        exact List.mem_cons_self
    · cases hstep
  | store c =>
    simp only [PriceClients.step] at hstep
    split at hstep
    · rename_i priceResponse hc
      cases hstep
      have hgiven := h.storing _ (List.mem_of_getElem? hc) priceResponse rfl
      refine h.move hc (fun _ ha => ha) (fun key priceResponse' hkey => ?_) (by simp)
        fun price hplace => ?_
      · rcases s.client.store_mem hkey with ⟨rfl, rfl⟩ | hold
        · exact .inr ⟨rfl, hgiven⟩
        · exact .inl hold
      · cases hplace
        exact hgiven
    · cases hstep

/-- `NewCachedPriceClient` -/
def start (cacheRefreshInterval : Int) : PriceClients P :=
  { client := { cacheRefreshInterval } }

theorem inv_start (cacheRefreshInterval : Int) :
    (start cacheRefreshInterval : PriceClients P).Inv :=
  ⟨by simp [start], by simp [start], by simp [start], by simp [start]⟩

/-- **A price is that of its pair.** The key of a pair tells it from another one if and only if the
two are not apart in slashes only; and in every run in which no two such pairs are asked for, a
price that is returned is one that the internal client gave for the same pair. -/
theorem prices_of_own_pair (cacheRefreshInterval : Int) (s : PriceClients P) :
    (∀ id₁ cur₁ id₂ cur₂, (cacheKey id₁ cur₁ = cacheKey id₂ cur₂ → id₁ = id₂ ∧ cur₁ = cur₂)
      ↔ ¬ SlashesApart id₁ cur₁ id₂ cur₂)
    ∧ (Machine.Run step Telling (start cacheRefreshInterval) s →
      ∀ call ∈ s.calls, ∀ price, call.place = .returned (.ok price) →
        ((call.coingeckoID, call.currency), price) ∈ s.answered) := by
  refine ⟨fun _ _ _ _ => cacheKey_injective_iff, fun hrun => ?_⟩
  have hinv : s.Inv := hrun.inv (inv_start cacheRefreshInterval)
    fun h htelling hstep => h.step htelling hstep
  exact hinv.returned

end PriceClients

/-! ## Two runs -/

namespace Sample

/-- `"a/"` and `"b"` -/
def slashAfter : GoString × GoString := ([0x61, slash], [0x62])

/-- `"a"` and `"/b"` -/
def slashBefore : GoString × GoString := ([0x61], [slash, 0x62])

/-- A price is asked for and cached, and within the interval one is asked for again. -/
def askedTwice (first second : GoString × GoString) : List (PriceClients.Action Nat) :=
  [.call first.1 first.2, .lookup 0 ⟨0, 0⟩, .answer 0 (.ok 3) ⟨1, 0⟩, .store 0,
    .call second.1 second.2, .lookup 1 ⟨2, 0⟩]

/-- A check of a call by its key. -/
def telling {P : Type} (s : PriceClients P) : PriceClients.Action P → Bool
  | .call coingeckoID currency =>
    s.calls.all fun call => cacheKey call.coingeckoID call.currency ≠ cacheKey coingeckoID currency
      ∨ call.coingeckoID = coingeckoID ∧ call.currency = currency
  | _ => true

/-- The check implies `Telling`: a key of its own, or the same pair. -/
theorem telling_spec {P : Type} (s : PriceClients P) (a : PriceClients.Action P)
    (h : telling s a = true) : s.Telling a := by
  cases a with
  | call coingeckoID currency =>
    intro call hcall
    rw [← cacheKey_injective_iff]
    intro hkey
    exact (of_decide_eq_true (List.all_eq_true.mp h call hcall)).resolve_left fun hne => hne hkey
  | _ => trivial

end Sample

namespace PriceClients

/-- `prices_of_own_pair` for a price that is asked for twice. -/
theorem prices_of_own_pair_cached :
    ∃ s : PriceClients Nat, Machine.Run step Telling (start minute) s
      ∧ ∃ call ∈ s.calls, call.place = .returned (.ok 3)
        ∧ ((call.coingeckoID, call.currency), 3) ∈ s.answered := by
  have hscript : (Machine.script step Sample.telling (start minute)
      (Sample.askedTwice Sample.slashAfter Sample.slashAfter)).any (fun s =>
        s.calls.any fun call => call.place = .returned (.ok 3)) = true := by decide +kernel
  obtain ⟨s, hs, hcalls⟩ := (Option.any_eq_true _ _).mp hscript
  obtain ⟨call, hcall, hplace⟩ := List.any_eq_true.mp hcalls
  have hrun := Machine.run_of_script Sample.telling_spec hs
  exact ⟨s, hrun, call, hcall, of_decide_eq_true hplace,
    (prices_of_own_pair minute s).2 hrun call hcall 3 (of_decide_eq_true hplace)⟩

/-- The price of `"a/"` in `"b"` is handed out for `"a"` in `"/b"`: their key is `"a///b"`, and the
internal client was never asked for the second price. -/
theorem price_of_other_pair :
    cacheKey Sample.slashAfter.1 Sample.slashAfter.2
        = cacheKey Sample.slashBefore.1 Sample.slashBefore.2
      ∧ Sample.slashAfter ≠ Sample.slashBefore
      ∧ ∃ s : PriceClients Nat, Machine.Run step (fun _ _ => True) (start minute) s
        ∧ s.answered = [(Sample.slashAfter, 3)]
        ∧ ∃ call ∈ s.calls, (call.coingeckoID, call.currency) = Sample.slashBefore
          ∧ call.place = .returned (.ok 3) := by
  have hscript : (Machine.script step (fun _ _ => true) (start minute)
      (Sample.askedTwice Sample.slashAfter Sample.slashBefore)).any (fun s =>
        s.answered = [(Sample.slashAfter, 3)] ∧ s.calls.any (fun call =>
          (call.coingeckoID, call.currency) = Sample.slashBefore
            ∧ call.place = .returned (.ok 3)) = true) = true := by decide +kernel
  obtain ⟨s, hs, hend⟩ := (Option.any_eq_true _ _).mp hscript
  obtain ⟨hanswered, hcalls⟩ := of_decide_eq_true hend
  obtain ⟨call, hcall, hplace⟩ := List.any_eq_true.mp hcalls
  obtain ⟨hpair, hplace⟩ := of_decide_eq_true hplace
  exact ⟨by decide, by decide, s, Machine.run_of_script (fun _ _ _ => trivial) hs, hanswered, call,
    hcall, hpair, hplace⟩

end PriceClients

end IbcRelayer

import Mathlib.Data.List.Basic

/-!
# Searches for events

A search is a list of conditions, joined by ` AND `. A condition compares a value that an event has
under a key with a text in quotes, `event.key='text'`, or with a word, `event.key=word`.

* `ReadsAsMeant` — what is asked of a reader: it takes the conditions that were written, or refuses.
* `parse` — such a reader, from left to right; there is no escape for a quote.
-/

namespace Query

inductive Operand where
  | quoted (text : String)
  | bare (word : String)
  deriving DecidableEq, Repr

structure Condition where
  event : String
  key : String
  operand : Operand
  deriving DecidableEq, Repr

/-- What the value is compared with. -/
def Operand.value : Operand → String
  | .quoted text => text
  | .bare word => word

/-! ## Writing -/

def Operand.render : Operand → String
  | .quoted text => "'" ++ text ++ "'"
  | .bare word => word

def Condition.render (c : Condition) : String :=
  c.event ++ "." ++ c.key ++ "=" ++ c.operand.render

def render (conds : List Condition) : String :=
  String.intercalate " AND " (conds.map Condition.render)

/-! ## What can be written -/

/-- The character in which a text stands. -/
def quote : Char := Char.ofNat 0x27

/-- A name is made of letters, digits and underscores. -/
def IsName (name : String) : Prop := name.toList.all (fun c => c.isAlphanum || c == '_') = true

instance (name : String) : Decidable (IsName name) :=
  inferInstanceAs (Decidable (name.toList.all (fun c => c.isAlphanum || c == '_') = true))

/-- A text has no quote, and a word is a number. -/
def Operand.WellFormed : Operand → Prop
  | .quoted text => quote ∉ text.toList
  | .bare word => ∃ n : Int, word = toString n

structure Condition.WellFormed (c : Condition) : Prop where
  event : IsName c.event
  key : IsName c.key
  operand : c.operand.WellFormed

/-- A search that is well formed is read as it was meant, or not at all. -/
def ReadsAsMeant (read : String → Option (List Condition)) : Prop :=
  ∀ conds, conds ≠ [] → (∀ c ∈ conds, c.WellFormed) →
    ∀ conds', read (render conds) = some conds' → conds' = conds

theorem IsName.notMem {name : String} {c : Char} (h : IsName name) (hc : c.isAlphanum = false)
    (hunder : c ≠ '_') : c ∉ name.toList := by
  intro hmem
  have hname := List.all_eq_true.mp h c hmem
  rw [hc, Bool.false_or, beq_iff_eq] at hname
  exact hunder hname

/-- A number is written with digits and a sign. -/
theorem notMem_number {c : Char} (hsign : c ≠ '-') (hdigit : c.isDigit = false) (n : Int) :
    c ∉ (toString n).toList := by
  have hdigits : ∀ m : Nat, c ∉ m.repr.toList := by
    intro m hm
    rw [Nat.toList_repr] at hm
    have hdigit' := Nat.isDigit_of_mem_toDigits (by decide) (by decide) hm
    exact Bool.false_ne_true (hdigit.symm.trans hdigit')
  intro h
  rw [Int.toString_eq_repr] at h
  cases n with
  | ofNat m => exact hdigits m h
  | negSucc m =>
    rw [Int.repr, String.toList_append] at h
    rcases List.mem_append.mp h with hminus | hm
    · exact hsign (List.mem_singleton.mp hminus)
    · exact hdigits _ hm

/-! ## Reading -/

/-- What stands before the first `stop`, and what comes after it. -/
def splitAt (stop : Char) (cs : List Char) : Option (String × List Char) :=
  match cs.dropWhile (· ≠ stop) with
  | [] => none
  | _ :: rest => some (String.ofList (cs.takeWhile (· ≠ stop)), rest)

def parseOperand (cs : List Char) : Option (Operand × List Char) :=
  if cs.head? = some quote then
    (splitAt quote cs.tail).map fun (text, rest) => (.quoted text, rest)
  else
    some (.bare (String.ofList (cs.takeWhile (· ≠ ' '))), cs.dropWhile (· ≠ ' '))

def parseCondition (cs : List Char) : Option (Condition × List Char) := do
  let (event, cs) ← splitAt '.' cs
  let (key, cs) ← splitAt '=' cs
  let (operand, rest) ← parseOperand cs
  return (⟨event, key, operand⟩, rest)

/-- At most `fuel` conditions. -/
def parseConditions : Nat → List Char → Option (List Condition)
  | 0, _ => none
  | fuel + 1, cs =>
    match parseCondition cs with
    | none => none
    | some (c, []) => some [c]
    | some (c, ' ' :: 'A' :: 'N' :: 'D' :: ' ' :: rest) => (parseConditions fuel rest).map (c :: ·)
    | some _ => none

def parse (q : String) : Option (List Condition) := parseConditions q.toList.length q.toList

/-! ## The round trip -/

/-- What may come after a condition. -/
def Follows (rest : List Char) : Prop := ∀ c, rest.head? = some c → c = ' '

/-- `splitAt` and `parseOperand` go on until the stop. -/
theorem all_ne {stop : Char} {cs : List Char} (h : stop ∉ cs) :
    ∀ c ∈ cs, decide (c ≠ stop) = true :=
  fun _ hc => decide_eq_true fun heq => h (heq ▸ hc)

/-- What is split off is the text before the stop, if the stop is not in it. -/
theorem splitAt_append {stop : Char} {text : String} (h : stop ∉ text.toList) (rest : List Char) :
    splitAt stop (text.toList ++ stop :: rest) = some (text, rest) := by
  unfold splitAt
  rw [List.dropWhile_append_of_pos (all_ne h), List.takeWhile_append_of_pos (all_ne h)]
  simp

/-- An operand is read to its end, whatever condition follows. -/
theorem parseOperand_render {o : Operand} (h : o.WellFormed) {rest : List Char}
    (hrest : Follows rest) : parseOperand (o.render.toList ++ rest) = some (o, rest) := by
  cases o with
  | quoted text =>
    have htext : (Operand.quoted text).render.toList ++ rest
        = quote :: (text.toList ++ quote :: rest) := by
      simp [Operand.render, quote]
    rw [htext, parseOperand, List.head?_cons, if_pos rfl, List.tail_cons, splitAt_append h]
    rfl
  | bare word =>
    obtain ⟨n, rfl⟩ := h
    have hspace : ' ' ∉ (toString n).toList := notMem_number (by decide) (by decide) n
    -- a number does not look like a text
    have hquote : ((toString n).toList ++ rest).head? ≠ some quote := by
      cases hcs : (toString n).toList with
      | nil => exact fun heq => absurd (hrest _ heq) (by decide)
      | cons c cs =>
        intro hhead
        have hin : quote ∈ (toString n).toList := by
          rw [hcs, ← Option.some.inj hhead]
          exact List.mem_cons_self
        exact notMem_number (by decide) (by decide) n hin
    have hstop : rest.takeWhile (· ≠ ' ') = [] ∧ rest.dropWhile (· ≠ ' ') = rest := by
      cases rest with
      | nil => exact ⟨rfl, rfl⟩
      | cons c rest =>
        rw [hrest c rfl]
        exact ⟨rfl, rfl⟩
    rw [Operand.render, parseOperand, if_neg hquote, List.takeWhile_append_of_pos (all_ne hspace),
      List.dropWhile_append_of_pos (all_ne hspace), hstop.1, hstop.2, List.append_nil,
      String.ofList_toList]

/-- So is a condition: its names end at the first `.` and the first `=`. -/
theorem parseCondition_render {c : Condition} (h : c.WellFormed) {rest : List Char}
    (hrest : Follows rest) : parseCondition (c.render.toList ++ rest) = some (c, rest) := by
  have htext : c.render.toList ++ rest
      = c.event.toList ++ '.' :: (c.key.toList ++ '=' :: (c.operand.render.toList ++ rest)) := by
    simp [Condition.render]
  have hdot : '.' ∉ c.event.toList := h.event.notMem (by decide) (by decide)
  have hequals : '=' ∉ c.key.toList := h.key.notMem (by decide) (by decide)
  simp only [htext, parseCondition, splitAt_append hdot, splitAt_append hequals,
    parseOperand_render h.operand hrest, Option.bind_eq_bind, Option.bind_some]
  rfl

theorem render_cons (c c' : Condition) (conds : List Condition) :
    (render (c :: c' :: conds)).toList
      = c.render.toList ++ ' ' :: 'A' :: 'N' :: 'D' :: ' ' :: (render (c' :: conds)).toList := by
  simp [render, String.toList_intercalate]

/-- The conditions are read one after the other; a step of fuel is enough for each of them. -/
theorem parseConditions_render {c : Condition} {conds : List Condition} {fuel : Nat}
    (hwf : ∀ c' ∈ c :: conds, c'.WellFormed) (hfuel : conds.length < fuel) :
    parseConditions fuel (render (c :: conds)).toList = some (c :: conds) := by
  induction conds generalizing c fuel with
  | nil =>
    obtain ⟨fuel, rfl⟩ := Nat.exists_eq_succ_of_ne_zero (Nat.ne_of_gt hfuel)
    have hparse : parseCondition (c.render.toList ++ []) = some (c, []) :=
      parseCondition_render (hwf c List.mem_cons_self) nofun
    rw [List.append_nil] at hparse
    simp [render, parseConditions, hparse]
  | cons c' conds ih =>
    obtain ⟨fuel, rfl⟩ := Nat.exists_eq_succ_of_ne_zero (Nat.ne_of_gt (Nat.zero_lt_of_lt hfuel))
    obtain ⟨hc, hrest⟩ := List.forall_mem_cons.mp hwf
    rw [render_cons, parseConditions, parseCondition_render hc (by rintro _ ⟨⟩; rfl)]
    simp [ih hrest (Nat.lt_of_succ_lt_succ hfuel)]

/-- The length of a search is fuel enough. -/
theorem length_le_render (c : Condition) (conds : List Condition) :
    conds.length < (render (c :: conds)).toList.length := by
  induction conds generalizing c with
  | nil =>
    have hdot : '.' ∈ (render [c]).toList := by simp [render, Condition.render]
    exact List.length_pos_of_mem hdot
  | cons c' conds ih =>
    rw [render_cons, List.length_append]
    have hrest := ih c'
    simp only [List.length_cons]
    omega

/-- **The round trip**: `parse` takes every search that is well formed, as it was meant. -/
theorem parse_readsAsMeant : ReadsAsMeant parse := by
  intro conds hne hwf conds' hread
  cases conds with
  | nil => exact absurd rfl hne
  | cons c conds =>
    have hparse : parse (render (c :: conds)) = some (c :: conds) :=
      parseConditions_render hwf (length_le_render c conds)
    exact Option.some.inj (hread.symm.trans hparse)

end Query

import Mathlib.Algebra.Ring.Int.Defs
import Mathlib.Algebra.Ring.Nat
import Mathlib.Data.List.Basic

/-!
# IbcRelayer — the Go values the relayer passes around

Errors, instants, and decimal and hexadecimal strings, as far as the relayer looks at them:

* `GoError` — an `error` value: its text and the sentinel errors that `errors.Is` finds in its
  chain. `GoError.wrap` is `fmt.Errorf("…: %w", err)`.
* `Time` — a `time.Time`: an instant and the offset of the zone it is shown in.
* `atoi` — `strconv.Atoi`, without its error.
* `decodeString` — `hex.DecodeString`, with the two errors it reports.
-/

namespace IbcRelayer

/-! ## Errors -/

/-- The sentinel errors that the relayer declares, tests with `errors.Is`, or returns. -/
inductive Sentinel where
  | contextCanceled
  | ethereumNotFound
  | errTxNotFound
  | errWriteAckDecoding
  | errWriteAckNotFoundForPacket
  | errSendNotFinalized
  | errTimeoutNotFinalized
  | errWriteAckNotFinalized
  | errRetryingRecvPacket
  | errRetryingAckPacket
  | errRetryingTimeoutPacket
  | errAlreadySubmitted
  | errNoRows
  deriving DecidableEq, Repr

/-- A non-nil `error`: what `Error()` prints, and the sentinels in its `Unwrap` chain. -/
structure GoError where
  text : String
  chain : List Sentinel := []
  deriving DecidableEq, Repr

/-- `errors.Is(err, target)` -/
def GoError.is (err : GoError) (target : Sentinel) : Bool :=
  err.chain.contains target

/-- `errors.New(text)` -/
def GoError.new (text : String) : GoError := { text }

/-- `fmt.Errorf(msg + ": %w", err)` -/
def GoError.wrap (msg : String) (err : GoError) : GoError :=
  { text := msg ++ ": " ++ err.text, chain := err.chain }

/-- Wrapping keeps the chain, so that `errors.Is` finds what it found before. -/
@[simp] theorem GoError.wrap_is (msg : String) (err : GoError) (target : Sentinel) :
    (err.wrap msg).is target = err.is target := rfl

/-- A wrapped error has a text; `Error() != ""` is how the pipeline tells that a transfer has
failed. -/
@[simp] theorem GoError.wrap_text_ne (msg : String) (err : GoError) :
    (err.wrap msg).text ≠ "" := by
  simp [GoError.wrap]

/-! ## Instants -/

/-- A `time.Time`: nanoseconds since the Unix epoch, and the seconds east of UTC of its location.
`After` and `Before` only look at the instant. -/
structure Time where
  unixNano : Int
  zone : Int := 0
  deriving DecidableEq, Repr

namespace Time

/-- `time.Time{}`: January 1 of year 1, UTC. -/
def zero : Time := { unixNano := -62135596800 * 10 ^ 9 }

/-- `t.After(u)` -/
def after (t u : Time) : Bool := u.unixNano < t.unixNano

@[simp] theorem after_eq_true {t u : Time} : t.after u = true ↔ u.unixNano < t.unixNano := by
  simp [after]

/-- `t.Sub(u)`, a duration in nanoseconds; one that does not fit an `int64` is cut off. -/
def sub (t u : Time) : Int := max (-2 ^ 63) (min (2 ^ 63 - 1) (t.unixNano - u.unixNano))

/-- The date of a day number, counted from 1970-01-01, in the proleptic Gregorian calendar. The
year is taken to start in March, so that the leap day is its last day. -/
def civil (days : Int) : Int × Int × Int :=
  let z := days + 719468
  -- 400 years, after which the calendar repeats
  let era := z / 146097
  let dayOfEra := z - era * 146097
  let yearOfEra := (dayOfEra - dayOfEra / 1460 + dayOfEra / 36524 - dayOfEra / 146096) / 365
  let dayOfYear := dayOfEra - (365 * yearOfEra + yearOfEra / 4 - yearOfEra / 100)
  -- the months from March on have 31, 30, 31, 30, 31 days, twice over
  let monthFromMarch := (5 * dayOfYear + 2) / 153
  let day := dayOfYear - (153 * monthFromMarch + 2) / 5 + 1
  let month := if monthFromMarch < 10 then monthFromMarch + 3 else monthFromMarch - 9
  let year := yearOfEra + era * 400
  (if month ≤ 2 then year + 1 else year, month, day)

/-- Decimal digits of `n`, left-padded with zeros to `width`. -/
def pad (width : Nat) (n : Int) : String :=
  let digits := toString n.natAbs
  let sign := if n < 0 then "-" else ""
  sign ++ String.ofList (List.replicate (width - digits.length) '0') ++ digits

/-- The wall clock shown in the zone of `t`: its day number and its second of that day. -/
def wallClock (t : Time) : Int × Int :=
  let seconds := t.unixNano / 10 ^ 9 + t.zone
  (seconds / 86400, seconds % 86400)

/-- The date, `2006-01-02`. -/
def dateText (t : Time) : String :=
  let (year, month, day) := civil t.wallClock.1
  pad 4 year ++ "-" ++ pad 2 month ++ "-" ++ pad 2 day

/-- The time of day, `15:04:05`. -/
def clockText (t : Time) : String :=
  let second := t.wallClock.2
  pad 2 (second / 3600) ++ ":" ++ pad 2 (second % 3600 / 60) ++ ":" ++ pad 2 (second % 60)

/-- The offset of the zone, hours and minutes parted by `separator`. -/
def offsetText (separator : String) (t : Time) : String :=
  (if t.zone < 0 then "-" else "+")
    ++ pad 2 (t.zone.natAbs / 3600) ++ separator ++ pad 2 (t.zone.natAbs % 3600 / 60)

/-- `t.Format(time.RFC3339)` -/
def formatRFC3339 (t : Time) : String :=
  t.dateText ++ "T" ++ t.clockText ++ if t.zone = 0 then "Z" else t.offsetText ":"

/-- `t.String()`, which `%s` prints: `2006-01-02 15:04:05.999999999 -0700 MST`. A `Time` has neither
the name of its zone nor a monotonic reading: the zone is `UTC` or, as for a zone without a name,
its offset, and the `m=` suffix of a fresh `time.Now()` is left out. -/
def string (t : Time) : String :=
  let digits := (pad 9 (t.unixNano % 10 ^ 9)).toList.reverse.dropWhile (· = '0')
  let fraction := if digits.isEmpty then "" else "." ++ String.ofList digits.reverse
  t.dateText ++ " " ++ t.clockText ++ fraction ++ " " ++ t.offsetText "" ++ " "
    ++ if t.zone = 0 then "UTC" else t.offsetText ""

/-- `t.UTC()` -/
def utc (t : Time) : Time := { t with zone := 0 }

end Time

/-- A `time.Location`: the seconds east of UTC that its clocks are at, at a Unix time. -/
abbrev Location := Int → Int64

def Location.utc : Location := fun _ => 0

/-- The seconds from January 1 of year 1, which a `time.Time` counts from, to the Unix epoch. -/
def unixToInternal : Int := 62135596800

/-- The instant that `time.Unix(sec, 0)` stands for. The sum is an `int64` and wraps around. -/
def unixSeconds (sec : Int64) : Int := (sec + Int64.ofInt unixToInternal).toInt - unixToInternal

/-- `time.Unix(sec, 0)`, on a host with the given local zone. -/
def Time.unix (location : Location) (sec : Int64) : Time where
  unixNano := unixSeconds sec * 10 ^ 9
  zone := (location (unixSeconds sec)).toInt

/-- The sum with the internal offset wraps around for the last `unixToInternal` seconds of an
`int64`, and only for them. -/
theorem unixSeconds_eq (sec : Int64) :
    unixSeconds sec
      = if sec.toInt + unixToInternal < 2 ^ 63 then sec.toInt else sec.toInt - 2 ^ 64 := by
  have hlow := sec.le_toInt
  have hhigh := sec.toInt_lt
  have hconst : (Int64.ofInt unixToInternal).toInt = unixToInternal := by decide
  rw [unixSeconds, Int64.toInt_add, hconst, Int.bmod_def]
  unfold unixToInternal
  split <;> split <;> omega

theorem toInt64_toInt (n : UInt64) :
    n.toInt64.toInt = if n.toNat < 2 ^ 63 then (n.toNat : Int) else (n.toNat : Int) - 2 ^ 64 := by
  have hn := n.toNat_lt
  change n.toBitVec.toInt = _
  rw [BitVec.toInt_eq_toNat_bmod, UInt64.toNat_toBitVec, Int.bmod_def]
  split <;> split <;> omega

theorem toInt_ofInt_natCast {n : Nat} (hn : n < 2 ^ 63) : (Int64.ofInt n).toInt = n := by
  rw [Int64.toInt_ofInt, Int.bmod_def]
  simp only [Int64.size]
  split <;> omega

/-- A number below `2 ^ 63` survives the conversion to `int64` and on to `uint64`. -/
theorem toNat_toUInt64_ofInt_natCast {n : Nat} (hn : n < 2 ^ 63) :
    (Int64.ofInt n).toUInt64.toNat = n := by
  change (BitVec.ofInt 64 n).toNat = n
  rw [BitVec.toNat_ofInt]
  omega

/-- The instant of `time.Unix(t, 0)`, for a number of seconds that fits. -/
theorem unixSeconds_natCast {n : Nat} (hn : n < 2 ^ 63) :
    unixSeconds (.ofInt n)
      = if (n : Int) + unixToInternal < 2 ^ 63 then (n : Int) else (n : Int) - 2 ^ 64 := by
  rw [unixSeconds_eq, toInt_ofInt_natCast hn]

/-- The instant of `time.Unix(int64(t), 0)`, for an unsigned number of seconds. -/
theorem unixSeconds_unsigned (t : UInt64) :
    unixSeconds t.toInt64
      = if (t.toNat : Int) + unixToInternal < 2 ^ 63 then (t.toNat : Int)
        else (t.toNat : Int) - 2 ^ 64 := by
  have ht := t.toNat_lt
  rw [unixSeconds_eq, toInt64_toInt]
  unfold unixToInternal
  -- the conversion to `int64` wraps around first, and the sum undoes it
  by_cases h : t.toNat < 2 ^ 63
  · rw [if_pos h]
  · rw [if_neg h]
    split <;> split <;> omega

/-- `time.Minute`, a duration in nanoseconds. -/
def minute : Int := 60 * 10 ^ 9

/-! ## Decimal strings -/

/-- The value of a string of decimal digits. -/
def decimalValue (digits : List Char) : Option Nat :=
  if digits ≠ [] ∧ digits.all Char.isDigit then
    some (digits.foldl (fun n digit => 10 * n + (digit.toNat - '0'.toNat)) 0)
  else
    none

def decimal (s : String) : Option Nat := decimalValue s.toList

/-- `strconv.Atoi(s)`: decimal digits, maybe with a sign, for a number that fits an `int64`. -/
def atoi (s : String) : Option Int64 :=
  let (sign, digits) : Int × List Char :=
    match s.toList with
    | '-' :: rest => (-1, rest)
    | '+' :: rest => (1, rest)
    | chars => (1, chars)
  match decimalValue digits with
  | none => none
  | some n =>
    let value := sign * n
    -- out of range is an error as well
    if -2 ^ 63 ≤ value ∧ value < 2 ^ 63 then some (.ofInt value) else none

/-- A string of digits without a sign is a number for `Atoi` as long as it fits an `int64`; `Atoi`
fails on a larger one. -/
theorem atoi_of_decimal {s : String} {n : Nat} (h : decimal s = some n) :
    atoi s = if n < 2 ^ 63 then some (.ofInt n) else none := by
  have hsign : (match s.toList with
      | '-' :: rest => ((-1 : Int), rest)
      | '+' :: rest => (1, rest)
      | chars => (1, chars)) = (1, s.toList) := by
    unfold decimal decimalValue at h
    split at h
    · rename_i hdigits
      -- a sign is no digit
      split
      · rename_i heq
        rw [heq] at hdigits
        simp at hdigits
      · rename_i heq
        rw [heq] at hdigits
        simp at hdigits
      · rfl
    · cases h
  have hrange : (-2 ^ 63 ≤ (n : Int) ∧ (n : Int) < 2 ^ 63) ↔ n < 2 ^ 63 := by omega
  unfold decimal at h
  unfold atoi
  rw [hsign]
  simp only [h, one_mul, hrange]

/-! ## Hexadecimal strings -/

/-- `strings.TrimPrefix(s, "0x")` -/
def trimHexMark (s : String) : String :=
  match s.toList with
  | '0' :: 'x' :: rest => String.ofList rest
  | _ => s

/-- The value of a hexadecimal digit, in either case. -/
def hexDigit (byte : UInt8) : Option UInt8 :=
  if 0x30 ≤ byte ∧ byte ≤ 0x39 then some (byte - 0x30)
  else if 0x61 ≤ byte ∧ byte ≤ 0x66 then some (byte - 0x61 + 10)
  else if 0x41 ≤ byte ∧ byte ≤ 0x46 then some (byte - 0x41 + 10)
  else none

/-- `hex.InvalidByteError(byte)`; `%#U` quotes the character when it is printable. -/
def invalidByteError (byte : UInt8) : GoError :=
  let n := byte.toNat
  let digits := String.ofList (Nat.toDigits 16 n) |>.toUpper
  let printable := (0x20 ≤ n ∧ n ≤ 0x7e) ∨ (0xa1 ≤ n ∧ n ≠ 0xad)
  .new ("encoding/hex: invalid byte: U+"
    ++ String.ofList (List.replicate (4 - digits.length) '0') ++ digits
    ++ if printable then " '" ++ String.singleton (Char.ofNat n) ++ "'" else "")

/-- `hex.Decode`: two digits make a byte. An odd digit left over is an error, and an invalid byte
is reported before a wrong length. -/
def decodeBytes : List UInt8 → Except GoError (List UInt8)
  | [] => .ok []
  | [last] =>
    match hexDigit last with
    | none => .error (invalidByteError last)
    -- a digit without its other half
    | some _ => .error (.new "encoding/hex: odd length hex string")
  | high :: low :: rest =>
    match hexDigit high, hexDigit low with
    | none, _ => .error (invalidByteError high)
    | some _, none => .error (invalidByteError low)
    | some h, some l =>
      match decodeBytes rest with
      | .ok bytes => .ok ((h * 16 + l) :: bytes)
      | .error err => .error err

/-- `hex.DecodeString(s)`, on the UTF-8 bytes of the string. -/
def decodeString (s : String) : Except GoError (List UInt8) :=
  decodeBytes s.toUTF8.data.toList

end IbcRelayer

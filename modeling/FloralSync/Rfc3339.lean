import Mathlib.Algebra.Order.Ring.Int
import Mathlib.Order.Basic
import Mathlib.Tactic.Ring

/-!
# UTC times and their RFC 3339 text

`Civil` is a UTC calendar time in any year, where every minute may have a second 60. `Civil.toText`
writes it with the offset `+00:00` and as many fractional digits as needed (0, 3, 6 or 9); a year
outside 0..=9999 gets a sign. `Civil.ofText` reads RFC 3339 text: exactly four year digits, `T`, `t`
or a space before the time, any number of fractional digits, `Z`, `z` or a numeric offset.
`Civil.ofText_toText` is their round trip.
-/

namespace Rfc3339

/-- The last `k` decimal digits of `n`. -/
def pad : Nat → Nat → List Char
  | 0, _ => []
  | k + 1, n => Nat.digitChar (n / 10 ^ k % 10) :: pad k n

def digitValue (c : Char) : Nat := c.toNat - '0'.toNat

/-- Reads exactly `k` digits after those that made `acc`. -/
def readDigits : Nat → Nat → List Char → Option (Nat × List Char)
  | 0, acc, cs => some (acc, cs)
  | _ + 1, _, [] => none
  | k + 1, acc, c :: cs => if c.isDigit then readDigits k (acc * 10 + digitValue c) cs else none

theorem digit_spec {d : Nat} (hd : d < 10) :
    (Nat.digitChar d).isDigit = true ∧ digitValue (Nat.digitChar d) = d := by
  revert d; decide

theorem readDigits_pad (k j acc n : Nat) (rest : List Char) :
    readDigits (k + j) acc (pad k n ++ rest) = readDigits j (acc * 10 ^ k + n % 10 ^ k) rest := by
  induction k generalizing acc with
  | zero => simp [pad, Nat.mod_one]
  | succ k ih =>
    obtain ⟨hdigit, hval⟩ := digit_spec (Nat.mod_lt (n / 10 ^ k) (by decide : 0 < 10))
    have hacc : (acc * 10 + n / 10 ^ k % 10) * 10 ^ k + n % 10 ^ k =
        acc * 10 ^ (k + 1) + n % 10 ^ (k + 1) := by
      rw [Nat.mod_pow_succ]; ring
    rw [pad, List.cons_append, show k + 1 + j = k + j + 1 by omega, readDigits, if_pos hdigit, hval, ih,
      hacc]

theorem readDigits_zeros (j i acc : Nat) :
    readDigits j acc (List.replicate (j + i) '0') = some (acc * 10 ^ j, List.replicate i '0') := by
  induction j generalizing acc with
  | zero => simp [readDigits]
  | succ j ih =>
    rw [show j + 1 + i = j + i + 1 by omega, List.replicate_succ, readDigits, if_pos (by decide), ih,
      show digitValue '0' = 0 from rfl]
    congr 2
    ring

theorem pad_add_mul (k a n : Nat) : pad k (a * 10 ^ k + n) = pad k n := by
  induction k generalizing a with
  | zero => rfl
  | succ k ih =>
    rw [pad, pad, show a * 10 ^ (k + 1) + n = (a * 10) * 10 ^ k + n by ring, ih,
      Nat.add_comm ((a * 10) * 10 ^ k), Nat.add_mul_div_right _ _ (Nat.pow_pos (by decide)),
      Nat.add_mul_mod_self_right]

theorem pad_succ {k d m : Nat} (hd : d < 10) (hm : m < 10 ^ k) :
    pad (k + 1) (d * 10 ^ k + m) = Nat.digitChar d :: pad k m := by
  rw [pad, pad_add_mul, Nat.add_comm, Nat.add_mul_div_right _ _ (Nat.pow_pos (by decide)), Nat.div_eq_of_lt hm,
    Nat.zero_add, Nat.mod_eq_of_lt hd]

theorem exists_digits {k n : Nat} (hn : n < 10 ^ (k + 1)) : ∃ d < 10, ∃ m < 10 ^ k, n = d * 10 ^ k + m := by
  have hpos : 0 < 10 ^ k := Nat.pow_pos (by decide)
  refine ⟨n / 10 ^ k, ?_, n % 10 ^ k, Nat.mod_lt _ hpos, (Nat.div_add_mod' n _).symm⟩
  rwa [Nat.div_lt_iff_lt_mul hpos, Nat.mul_comm, ← Nat.pow_succ]

theorem digit_of_isDigit {c : Char} (hc : c.isDigit = true) :
    digitValue c < 10 ∧ Nat.digitChar (digitValue c) = c := by
  obtain ⟨h₀, h₉⟩ : '0'.toNat ≤ c.toNat ∧ c.toNat ≤ '9'.toNat := by
    simpa [Char.isDigit, UInt32.le_iff_toNat_le] using hc
  have hlt : digitValue c < 10 := by
    have : '0'.toNat = 48 := rfl
    have : '9'.toNat = 57 := rfl
    unfold digitValue
    omega
  have hchar : ∀ d < 10, Nat.digitChar d = Char.ofNat (d + '0'.toNat) := by decide
  refine ⟨hlt, ?_⟩
  rw [hchar _ hlt, digitValue, Nat.sub_add_cancel h₀, Char.ofNat_toNat]

theorem readDigits_eq_some {k acc n : Nat} {cs rest : List Char} :
    readDigits k acc cs = some (n, rest) ↔ ∃ m < 10 ^ k, n = acc * 10 ^ k + m ∧ cs = pad k m ++ rest := by
  constructor
  · intro h
    induction k generalizing acc cs with
    | zero =>
      obtain ⟨rfl, rfl⟩ := Prod.mk.inj (Option.some.inj h)
      exact ⟨0, by decide, by simp, rfl⟩
    | succ k ih =>
      cases cs with
      | nil => cases h
      | cons c cs =>
        rw [readDigits] at h
        split_ifs at h with hc
        obtain ⟨hlt, hchar⟩ := digit_of_isDigit hc
        obtain ⟨m, hm, rfl, rfl⟩ := ih h
        refine ⟨digitValue c * 10 ^ k + m, ?_, by ring, ?_⟩
        · calc digitValue c * 10 ^ k + m < (digitValue c + 1) * 10 ^ k := by rw [Nat.succ_mul]; omega
            _ ≤ 10 * 10 ^ k := Nat.mul_le_mul_right _ hlt
            _ = 10 ^ (k + 1) := by ring
        · rw [pad_succ hlt hm, hchar, List.cons_append]
  · rintro ⟨m, hm, rfl, rfl⟩
    rw [show readDigits k = readDigits (k + 0) from rfl, readDigits_pad, Nat.mod_eq_of_lt hm]
    rfl

theorem readDigits_zero_eq_some {k n : Nat} {cs rest : List Char} :
    readDigits k 0 cs = some (n, rest) ↔ n < 10 ^ k ∧ cs = pad k n ++ rest := by
  rw [readDigits_eq_some]
  constructor
  · rintro ⟨m, hm, rfl, rfl⟩
    rw [Nat.zero_mul, Nat.zero_add]
    exact ⟨hm, rfl⟩
  · rintro ⟨hn, rfl⟩
    exact ⟨n, hn, by omega, rfl⟩

theorem isDigit_of_mem_pad {k n : Nat} {c : Char} (hc : c ∈ pad k n) : c.isDigit = true := by
  induction k with
  | zero => cases hc
  | succ k ih =>
    rcases List.mem_cons.1 hc with rfl | hc
    · exact (digit_spec (Nat.mod_lt _ (by decide))).1
    · exact ih hc

theorem length_pad (k n : Nat) : (pad k n).length = k := by
  induction k with
  | zero => rfl
  | succ k ih => rw [pad, List.length_cons, ih]

theorem eq_of_pad_append_eq {k m n : Nat} {cs ds : List Char} (hm : m < 10 ^ k) (hn : n < 10 ^ k)
    (h : pad k m ++ cs = pad k n ++ ds) : m = n ∧ cs = ds := by
  have hread := readDigits_zero_eq_some.2 ⟨hm, h.symm⟩
  rw [readDigits_zero_eq_some.2 ⟨hn, rfl⟩] at hread
  obtain ⟨rfl, rfl⟩ := Prod.mk.inj (Option.some.inj hread)
  exact ⟨rfl, rfl⟩

theorem eq_of_pad_eq {k m n : Nat} (hm : m < 10 ^ k) (hn : n < 10 ^ k) (h : pad k m = pad k n) : m = n := by
  rw [← List.append_nil (pad k m), ← List.append_nil (pad k n)] at h
  exact (eq_of_pad_append_eq hm hn h).1

def expect (c : Char) : List Char → Option (List Char)
  | [] => none
  | d :: cs => if d = c then some cs else none

/-- The separator of date and time. -/
def expectSeparator : List Char → Option (List Char)
  | [] => none
  | c :: cs => if c = 'T' ∨ c = 't' ∨ c = ' ' then some cs else none

/-- `MINUS SIGN`, which is a sign of offsets beside the hyphen. -/
def minusSign : Char := '\u2212'

/-! ### Calendar times -/

def isLeap (y : Int) : Bool := y % 4 = 0 && (y % 100 ≠ 0 || y % 400 = 0)

def daysInMonth (y : Int) (m : Nat) : Nat :=
  if m = 2 then if isLeap y then 29 else 28
  else if m = 4 ∨ m = 6 ∨ m = 9 ∨ m = 11 then 30 else 31

structure Fields where
  year : Int
  month : Nat
  day : Nat
  hour : Nat
  minute : Nat
  second : Nat
  nano : Nat
deriving DecidableEq, Repr

def Fields.Valid (f : Fields) : Prop :=
  (1 ≤ f.month ∧ f.month ≤ 12) ∧ (1 ≤ f.day ∧ f.day ≤ daysInMonth f.year f.month) ∧
    f.hour < 24 ∧ f.minute < 60 ∧ f.second ≤ 60 ∧ f.nano < 10 ^ 9

instance (f : Fields) : Decidable f.Valid := inferInstanceAs (Decidable (_ ∧ _))

/-- A UTC time. -/
structure Civil extends Fields where
  valid : toFields.Valid
deriving DecidableEq

namespace Civil

theorem day_le (t : Civil) : t.day ≤ 31 := by
  have h := t.valid.2.1.2
  unfold daysInMonth at h
  split_ifs at h <;> omega

/-- Orders times as calendar times. -/
def key (t : Civil) : Int :=
  (((((t.year * 13 + t.month) * 32 + t.day) * 24 + t.hour) * 60 + t.minute) * 61 + t.second) * 10 ^ 9 +
    t.nano

theorem key_injective : Function.Injective key := by
  rintro ⟨⟨y, mo, d, h, mi, s, n⟩, hv⟩ ⟨⟨y', mo', d', h', mi', s', n'⟩, hv'⟩ heq
  have hd := day_le ⟨_, hv⟩
  have hd' := day_le ⟨_, hv'⟩
  simp only [Fields.Valid] at hv hv' hd hd'
  simp only [key] at heq
  obtain ⟨rfl, rfl, rfl, rfl, rfl, rfl, rfl⟩ : y = y' ∧ mo = mo' ∧ d = d' ∧ h = h' ∧ mi = mi' ∧
      s = s' ∧ n = n' := by omega
  rfl

instance : LinearOrder Civil := LinearOrder.lift' key key_injective

end Civil

/-- Four digits for the years 0..=9999, a sign and at least four digits for all others. -/
def yearText (y : Int) : List Char :=
  if 0 ≤ y ∧ y ≤ 9999 then pad 4 y.toNat
  else (if y < 0 then '-' else '+') ::
    pad (if y.natAbs < 10 ^ 4 then 4 else if y.natAbs < 10 ^ 5 then 5 else 6) y.natAbs

theorem yearText_cases {y : Int} (hy : y.natAbs < 10 ^ 6) :
    (∃ n : Nat, y = n ∧ n < 10 ^ 4 ∧ yearText y = pad 4 n) ∨
      ∃ (n k : Nat) (sign : Char), n < 10 ^ k ∧ yearText y = sign :: pad k n ∧
        (sign = '+' ∧ y = n ∨ sign = '-' ∧ y = -n) := by
  unfold yearText
  split_ifs with hyear hneg h₄ h₅ h₄ h₅
  · exact .inl ⟨y.toNat, by omega, by omega, rfl⟩
  all_goals refine .inr ⟨y.natAbs, _, _, by omega, rfl, ?_⟩
  any_goals exact .inl ⟨rfl, by omega⟩
  all_goals exact .inr ⟨rfl, by omega⟩

/-- Years of up to six digits are told apart. -/
theorem eq_of_yearText_eq {y z : Int} (hy : y.natAbs < 10 ^ 6) (hz : z.natAbs < 10 ^ 6)
    (h : yearText y = yearText z) : y = z := by
  have hdigit : ∀ {k n : Nat} {sign : Char} {cs : List Char}, sign :: cs = pad k n → ¬ (sign = '+' ∨ sign = '-') := by
    intro k n sign cs heq hsign
    have hd := isDigit_of_mem_pad (heq ▸ List.mem_cons_self)
    rcases hsign with rfl | rfl <;> cases hd
  rcases yearText_cases hy with ⟨m, rfl, hm, heq⟩ | ⟨m, k, sign, hm, heq, hsign⟩ <;>
    rcases yearText_cases hz with ⟨n, rfl, hn, heq'⟩ | ⟨n, j, sign', hn, heq', hsign'⟩ <;>
    rw [heq, heq'] at h
  · rw [eq_of_pad_eq hm hn h]
  · exact absurd (hsign'.imp And.left And.left) (hdigit h.symm)
  · exact absurd (hsign.imp And.left And.left) (hdigit h)
  · obtain ⟨rfl, hpads⟩ := List.cons.inj h
    have hlength := congrArg List.length hpads
    rw [length_pad, length_pad] at hlength
    subst hlength
    obtain rfl := eq_of_pad_eq hm hn hpads
    rcases hsign with ⟨rfl, rfl⟩ | ⟨rfl, rfl⟩ <;> simpa [eq_comm] using hsign'

def fractionText (n : Nat) : List Char :=
  if n = 0 then []
  else if n % 10 ^ 6 = 0 then '.' :: pad 3 (n / 10 ^ 6)
  else if n % 10 ^ 3 = 0 then '.' :: pad 6 (n / 10 ^ 3)
  else '.' :: pad 9 n

def clockText (f : Fields) : List Char :=
  pad 2 f.hour ++ ':' :: (pad 2 f.minute ++ ':' :: (pad 2 f.second ++
    (fractionText f.nano ++ ['+', '0', '0', ':', '0', '0'])))

def Civil.toText (t : Civil) : String :=
  String.ofList (yearText t.year ++ '-' :: (pad 2 t.month ++ '-' :: (pad 2 t.day ++
    'T' :: clockText t.toFields)))

/-- The fraction as nanoseconds; digits after the ninth are dropped. -/
def readFraction : List Char → Option (Nat × List Char)
  | '.' :: cs =>
    let digits := cs.takeWhile Char.isDigit
    if digits = [] then none
    else do
      let (n, _) ← readDigits 9 0 (digits ++ List.replicate 9 '0')
      return (n, cs.dropWhile Char.isDigit)
  | cs => some (0, cs)

/-- The offset in minutes, at the end of the text. -/
def readOffset : List Char → Option Int
  | ['Z'] => some 0
  | ['z'] => some 0
  | sign :: cs =>
    if sign = '+' ∨ sign = '-' ∨ sign = minusSign then do
      let (h, cs) ← readDigits 2 0 cs
      let cs ← expect ':' cs
      let (m, cs) ← readDigits 2 0 cs
      if cs = [] ∧ h < 24 ∧ m < 60 then
        return if sign = '+' then (h * 60 + m : Int) else -(h * 60 + m : Int)
      else none
    else none
  | [] => none

def nextDay (f : Fields) : Fields :=
  if f.day < daysInMonth f.year f.month then { f with day := f.day + 1 }
  else if f.month < 12 then { f with month := f.month + 1, day := 1 }
  else { f with year := f.year + 1, month := 1, day := 1 }

def prevDay (f : Fields) : Fields :=
  if 1 < f.day then { f with day := f.day - 1 }
  else if 1 < f.month then { f with month := f.month - 1, day := daysInMonth f.year (f.month - 1) }
  else { f with year := f.year - 1, month := 12, day := 31 }

/-- The UTC fields of a local time at `offset` minutes. -/
def toUtc (f : Fields) (offset : Int) : Fields :=
  let minutes : Int := f.hour * 60 + f.minute - offset
  let day := if minutes < 0 then prevDay f else if 1440 ≤ minutes then nextDay f else f
  let minutes := (minutes % 1440).toNat
  { day with hour := minutes / 60, minute := minutes % 60 }

def readFields (cs : List Char) : Option (Fields × Int) := do
  let (year, cs) ← readDigits 4 0 cs
  let (month, cs) ← readDigits 2 0 (← expect '-' cs)
  let (day, cs) ← readDigits 2 0 (← expect '-' cs)
  let (hour, cs) ← readDigits 2 0 (← expectSeparator cs)
  let (minute, cs) ← readDigits 2 0 (← expect ':' cs)
  let (second, cs) ← readDigits 2 0 (← expect ':' cs)
  let (nano, cs) ← readFraction cs
  let offset ← readOffset cs
  return (⟨year, month, day, hour, minute, second, nano⟩, offset)

def Civil.ofFields (f : Fields) : Option Civil := if h : f.Valid then some ⟨f, h⟩ else none

def Civil.ofText (s : String) : Option Civil := do
  let (f, offset) ← readFields s.toList
  let _ ← Civil.ofFields f
  Civil.ofFields (toUtc f offset)

example : Civil.ofText "2026-01-01T00:30:00.25+01:00" =
    Civil.ofText "2025-12-31T23:30:00.250000Z" := by decide

def IsSeparator (c : Char) : Prop := c = 'T' ∨ c = 't' ∨ c = ' '

/-- The fraction as it is written; nothing for no digits. -/
def dotted : List Char → List Char
  | [] => []
  | digits => '.' :: digits

/-- The value of the first `k` digits of a fraction, in units of the `k`-th. -/
def fractionValue : Nat → List Char → Nat
  | 0, _ => 0
  | _ + 1, [] => 0
  | k + 1, c :: digits => digitValue c * 10 ^ k + fractionValue k digits

/-- A text with the fields `f` up to the seconds. -/
def stampText (separator : Char) (f : Fields) (tail : List Char) : List Char :=
  pad 4 f.year.toNat ++ '-' :: (pad 2 f.month ++ '-' :: (pad 2 f.day ++ separator ::
    (pad 2 f.hour ++ ':' :: (pad 2 f.minute ++ ':' :: (pad 2 f.second ++ tail)))))

/-- The fields have as many digits as their texts. -/
structure Fields.Written (f : Fields) : Prop where
  year : 0 ≤ f.year ∧ f.year ≤ 9999
  month : f.month < 100
  day : f.day < 100
  hour : f.hour < 100
  minute : f.minute < 100
  second : f.second < 100

theorem Fields.Valid.written {f : Fields} (hf : f.Valid) (hy : 0 ≤ f.year ∧ f.year ≤ 9999) : f.Written := by
  have hd : f.day ≤ 31 := Civil.day_le ⟨f, hf⟩
  obtain ⟨⟨-, hmo⟩, -, hh, hmi, hs, -⟩ := hf
  exact ⟨hy, by omega, by omega, by omega, by omega, by omega⟩

theorem expect_eq_some {c : Char} {cs ds : List Char} : expect c cs = some ds ↔ cs = c :: ds := by
  cases cs with
  | nil => simp [expect]
  | cons d cs => simp [expect]

theorem expectSeparator_eq_some {cs ds : List Char} :
    expectSeparator cs = some ds ↔ ∃ c, IsSeparator c ∧ cs = c :: ds := by
  cases cs with
  | nil => simp [expectSeparator]
  | cons d cs =>
    rw [expectSeparator]
    split_ifs with hd
    · refine ⟨fun h => ⟨d, hd, by rw [Option.some.inj h]⟩, ?_⟩
      rintro ⟨_, -, h⟩
      rw [(List.cons.inj h).2]
    · refine iff_of_false nofun ?_
      rintro ⟨_, hc, h⟩
      exact hd ((List.cons.inj h).1 ▸ hc)

theorem readDigits_fraction {k : Nat} (i acc : Nat) {digits : List Char} (hdigits : ∀ c ∈ digits, c.isDigit = true) :
    ∃ rest, readDigits k acc (digits ++ List.replicate (k + i) '0') =
      some (acc * 10 ^ k + fractionValue k digits, rest) := by
  induction k generalizing i acc digits with
  | zero => exact ⟨digits ++ List.replicate i '0', by simp [readDigits, fractionValue]⟩
  | succ k ih =>
    cases digits with
    | nil => exact ⟨_, readDigits_zeros (k + 1) i acc⟩
    | cons c digits =>
      obtain ⟨rest, hrest⟩ := ih (i + 1) (acc * 10 + digitValue c) fun d hd => hdigits d (List.mem_cons_of_mem _ hd)
      refine ⟨rest, ?_⟩
      rw [List.cons_append, readDigits, if_pos (hdigits c List.mem_cons_self), show k + 1 + i = k + (i + 1) by omega,
        hrest, fractionValue]
      congr 2
      ring

/-- What follows the digits of a fraction does not continue it. -/
def EndsFraction (zone : List Char) : Prop := ∃ c cs, zone = c :: cs ∧ c ≠ '.' ∧ c.isDigit = false

theorem readFraction_dotted {digits zone : List Char} (hdigits : ∀ c ∈ digits, c.isDigit = true)
    (hzone : EndsFraction zone) : readFraction (dotted digits ++ zone) = some (fractionValue 9 digits, zone) := by
  obtain ⟨c, cs, rfl, hdot, hc⟩ := hzone
  cases digits with
  | nil =>
    simp only [dotted, List.nil_append]
    rw [readFraction]
    · rfl
    · intro ds hds
      exact hdot (List.cons.inj hds).1
  | cons d digits =>
    have htake : ((d :: digits) ++ c :: cs).takeWhile Char.isDigit = d :: digits := by
      rw [List.takeWhile_append_of_pos hdigits, List.takeWhile_cons_of_neg (by simp [hc]), List.append_nil]
    have hdrop : ((d :: digits) ++ c :: cs).dropWhile Char.isDigit = c :: cs := by
      rw [List.dropWhile_append_of_pos hdigits, List.dropWhile_cons_of_neg (by simp [hc])]
    obtain ⟨rest, hread⟩ := readDigits_fraction (k := 9) 0 0 hdigits
    rw [Nat.zero_mul, Nat.zero_add] at hread
    simp only [dotted, List.cons_append] at *
    simp only [readFraction, htake, hdrop, reduceCtorEq, if_false, hread, List.cons_append, Option.bind_eq_bind,
      Option.bind_some]
    rfl

theorem exists_dotted_of_readFraction {cs zone : List Char} {n : Nat} (h : readFraction cs = some (n, zone)) :
    ∃ digits, (∀ c ∈ digits, c.isDigit = true) ∧ cs = dotted digits ++ zone ∧ n = fractionValue 9 digits := by
  unfold readFraction at h
  split at h
  next cs =>
    dsimp only at h
    split_ifs at h with hnil
    have hdigits : ∀ c ∈ cs.takeWhile Char.isDigit, c.isDigit = true := List.all_eq_true.1 List.all_takeWhile
    obtain ⟨rest, hread⟩ := readDigits_fraction (k := 9) 0 0 hdigits
    simp only [hread, Option.bind_eq_bind, Option.bind_some, Nat.zero_mul, Nat.zero_add] at h
    obtain ⟨rfl, rfl⟩ := Prod.mk.inj (Option.some.inj h)
    refine ⟨_, hdigits, ?_, rfl⟩
    rw [show dotted (cs.takeWhile Char.isDigit) = '.' :: cs.takeWhile Char.isDigit from ?_, List.cons_append,
      List.takeWhile_append_dropWhile]
    cases hd : cs.takeWhile Char.isDigit with
    | nil => exact absurd hd hnil
    | cons => rfl
  next =>
    obtain ⟨rfl, rfl⟩ := Prod.mk.inj (Option.some.inj h)
    exact ⟨[], nofun, rfl, rfl⟩

theorem head_of_readOffset {zone : List Char} {offset : Int} (h : readOffset zone = some offset) :
    ∃ c cs, zone = c :: cs ∧ (c = 'Z' ∨ c = 'z' ∨ c = '+' ∨ c = '-' ∨ c = minusSign) := by
  unfold readOffset at h
  split at h
  · exact ⟨_, _, rfl, .inl rfl⟩
  · exact ⟨_, _, rfl, .inr (.inl rfl)⟩
  · refine ⟨_, _, rfl, .inr (.inr (Classical.byContradiction fun hsign => ?_))⟩
    rw [if_neg hsign] at h
    cases h
  · cases h

theorem EndsFraction.of_readOffset {zone : List Char} {offset : Int} (h : readOffset zone = some offset) :
    EndsFraction zone := by
  obtain ⟨c, cs, rfl, hc⟩ := head_of_readOffset h
  refine ⟨c, cs, rfl, ?_⟩
  rcases hc with rfl | rfl | rfl | rfl | rfl <;> decide

/-- The texts that can be read, and what they give. -/
theorem readFields_eq_some {cs : List Char} {f : Fields} {offset : Int} :
    readFields cs = some (f, offset) ↔ f.Written ∧ ∃ separator digits zone, IsSeparator separator ∧
      (∀ c ∈ digits, c.isDigit = true) ∧ readOffset zone = some offset ∧ f.nano = fractionValue 9 digits ∧
      cs = stampText separator f (dotted digits ++ zone) := by
  simp only [readFields, Option.bind_eq_bind, Option.bind_eq_some_iff, Prod.exists, readDigits_zero_eq_some,
    expect_eq_some, expectSeparator_eq_some]
  constructor
  · rintro ⟨year, _, ⟨hyear, rfl⟩, _, rfl, month, _, ⟨hmonth, rfl⟩, _, rfl, day, _, ⟨hday, rfl⟩, _,
      ⟨separator, hseparator, rfl⟩, hour, _, ⟨hhour, rfl⟩, _, rfl, minute, _, ⟨hminute, rfl⟩, _, rfl, second, _,
      ⟨hsecond, rfl⟩, nano, zone, hfraction, offset', hoffset, h⟩
    obtain ⟨rfl, rfl⟩ := Prod.mk.inj (Option.some.inj h)
    obtain ⟨digits, hdigits, rfl, rfl⟩ := exists_dotted_of_readFraction hfraction
    have hrange : (year : Int) ≤ 9999 := by omega
    exact ⟨⟨⟨Int.natCast_nonneg year, hrange⟩, hmonth, hday, hhour, hminute, hsecond⟩, separator, digits, zone,
      hseparator, hdigits, hoffset, rfl, rfl⟩
  · rintro ⟨hf, separator, digits, zone, hseparator, hdigits, hoffset, hnano, rfl⟩
    obtain ⟨hyear, hmonth, hday, hhour, hminute, hsecond⟩ := hf
    refine ⟨_, _, ⟨by omega, rfl⟩, _, rfl, _, _, ⟨hmonth, rfl⟩, _, rfl, _, _, ⟨hday, rfl⟩, _, ⟨_, hseparator, rfl⟩,
      _, _, ⟨hhour, rfl⟩, _, rfl, _, _, ⟨hminute, rfl⟩, _, rfl, _, _, ⟨hsecond, rfl⟩, _, _,
      readFraction_dotted hdigits (.of_readOffset hoffset), _, hoffset, ?_⟩
    rw [Int.toNat_of_nonneg hyear.1, ← hnano]
    rfl

/-! ### The round trip -/

theorem fractionValue_pad (k j n : Nat) : fractionValue (k + j) (pad k n) = n % 10 ^ k * 10 ^ j := by
  induction k with
  | zero => rw [pad, Nat.pow_zero, Nat.mod_one, Nat.zero_mul]; cases 0 + j <;> rfl
  | succ k ih =>
    rw [show k + 1 + j = k + j + 1 by omega, pad, fractionValue, ih, (digit_spec (Nat.mod_lt _ (by decide))).2,
      Nat.mod_pow_succ]
    ring

theorem fractionText_eq {n : Nat} (hn : n < 10 ^ 9) : ∃ digits, (∀ c ∈ digits, c.isDigit = true) ∧
    fractionText n = dotted digits ∧ n = fractionValue 9 digits := by
  unfold fractionText
  split_ifs with h0 h3 h6
  · exact ⟨[], nofun, rfl, h0⟩
  · refine ⟨pad 3 (n / 10 ^ 6), fun c => isDigit_of_mem_pad, rfl, ?_⟩
    rw [fractionValue_pad 3 6]
    omega
  · refine ⟨pad 6 (n / 10 ^ 3), fun c => isDigit_of_mem_pad, rfl, ?_⟩
    rw [fractionValue_pad 6 3]
    omega
  · refine ⟨pad 9 n, fun c => isDigit_of_mem_pad, rfl, ?_⟩
    rw [fractionValue_pad 9 0]
    omega

/-- `+00:00` -/
def utcZone : List Char := ['+', '0', '0', ':', '0', '0']

theorem toText_eq (t : Civil) (h₀ : 0 ≤ t.year) (h₁ : t.year ≤ 9999) :
    t.toText.toList = stampText 'T' t.toFields (fractionText t.nano ++ utcZone) := by
  rw [Civil.toText, String.toList_ofList, yearText, if_pos ⟨h₀, h₁⟩]
  rfl

theorem readFields_toText (t : Civil) (h₀ : 0 ≤ t.year) (h₁ : t.year ≤ 9999) :
    readFields t.toText.toList = some (t.toFields, 0) := by
  obtain ⟨digits, hdigits, htext, hnano⟩ := fractionText_eq t.valid.2.2.2.2.2
  refine readFields_eq_some.2 ⟨t.valid.written ⟨h₀, h₁⟩, 'T', digits, utcZone, .inl rfl, hdigits, by decide, hnano, ?_⟩
  rw [toText_eq t h₀ h₁, htext]

theorem toUtc_zero (f : Fields) (hf : f.Valid) : toUtc f 0 = f := by
  obtain ⟨-, -, hh, hm, -, -⟩ := hf
  have h₁ : ¬ ((f.hour * 60 + f.minute - 0 : Int) < 0) := by omega
  have h₂ : ¬ (1440 ≤ (f.hour * 60 + f.minute - 0 : Int)) := by omega
  have h₃ : ((f.hour * 60 + f.minute - 0 : Int) % 1440).toNat = f.hour * 60 + f.minute := by omega
  simp only [toUtc, if_neg h₁, if_neg h₂, h₃]
  rw [show (f.hour * 60 + f.minute) / 60 = f.hour by omega,
    show (f.hour * 60 + f.minute) % 60 = f.minute by omega]

theorem Civil.ofText_toText (t : Civil) (h₀ : 0 ≤ t.year) (h₁ : t.year ≤ 9999) :
    Civil.ofText t.toText = some t := by
  have hof : Civil.ofFields t.toFields = some t := dif_pos t.valid
  simp only [Civil.ofText, readFields_toText t h₀ h₁, Option.bind_eq_bind, Option.bind_some, hof,
    toUtc_zero _ t.valid]

theorem Civil.isDigit_of_ofText {s : String} {t : Civil} (h : Civil.ofText s = some t) :
    ∃ c cs, s.toList = c :: cs ∧ c.isDigit = true := by
  obtain ⟨_, hfields, -⟩ := Option.bind_eq_some_iff.1 h
  obtain ⟨_, hyear, -⟩ := Option.bind_eq_some_iff.1 hfields
  cases hs : s.toList with
  | nil =>
    rw [hs] at hyear
    cases hyear
  | cons c cs =>
    refine ⟨c, cs, rfl, Classical.byContradiction fun hc => ?_⟩
    rw [hs, readDigits, if_neg hc] at hyear
    cases hyear

theorem Civil.toText_sign (t : Civil) (h : ¬ (0 ≤ t.year ∧ t.year ≤ 9999)) :
    ∃ c cs, t.toText.toList = c :: cs ∧ (c = '+' ∨ c = '-') := by
  rw [Civil.toText, String.toList_ofList, yearText, if_neg h]
  refine ⟨_, _, List.cons_append, ?_⟩
  split_ifs <;> simp

end Rfc3339

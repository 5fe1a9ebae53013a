import FloralSync.Rfc3339
import Mathlib.Data.String.Basic

/-!
# The order of RFC 3339 texts

A `TextForm` is a way to write times: the separator, the number of fractional digits and the offset. The texts of
the safe forms are in the order of their times (`lt_of_safe`); every other form has a text that is not, beside one
that `Civil.toText` writes (`exists_inversion`).
-/

namespace Rfc3339

theorem digitChar_lt_digitChar {d e : Nat} (hd : d < 10) (he : e < 10) :
    Nat.digitChar d < Nat.digitChar e ↔ d < e := by
  have h : ∀ d < 10, ∀ e < 10, (Nat.digitChar d < Nat.digitChar e ↔ d < e) := by decide
  exact h d hd e he

theorem digitChar_inj {d e : Nat} (hd : d < 10) (he : e < 10) : Nat.digitChar d = Nat.digitChar e ↔ d = e := by
  refine ⟨fun h => ?_, congrArg _⟩
  rw [← (digit_spec hd).2, h, (digit_spec he).2]

theorem digits_lt_digits {P d e m n : Nat} (hm : m < P) (hn : n < P) :
    d * P + m < e * P + n ↔ d < e ∨ d = e ∧ m < n := by
  rcases Nat.lt_trichotomy d e with hlt | rfl | hlt
  · have : (d + 1) * P ≤ e * P := Nat.mul_le_mul_right _ hlt
    rw [Nat.succ_mul] at this
    omega
  · simp
  · have : (e + 1) * P ≤ d * P := Nat.mul_le_mul_right _ hlt
    rw [Nat.succ_mul] at this
    omega

theorem digits_inj {P d e m n : Nat} (hm : m < P) (hn : n < P) : d * P + m = e * P + n ↔ d = e ∧ m = n := by
  have h := digits_lt_digits (d := d) (e := e) hm hn
  have h' := digits_lt_digits (d := e) (e := d) hn hm
  omega

theorem pad_append_lt {k m n : Nat} {cs ds : List Char} (hm : m < 10 ^ k) (hn : n < 10 ^ k) :
    pad k m ++ cs < pad k n ++ ds ↔ m < n ∨ m = n ∧ cs < ds := by
  induction k generalizing m n with
  | zero =>
    obtain ⟨rfl, rfl⟩ : m = 0 ∧ n = 0 := by omega
    simp [pad]
  | succ k ih =>
    obtain ⟨d, hd, i, hi, rfl⟩ := exists_digits hm
    obtain ⟨e, he, j, hj, rfl⟩ := exists_digits hn
    rw [pad_succ hd hi, pad_succ he hj, List.cons_append, List.cons_append, List.cons_lt_cons_iff, ih hi hj,
      digitChar_lt_digitChar hd he, digitChar_inj hd he, digits_lt_digits hi hj, digits_inj hi hj]
    tauto

theorem fractionValue_lt {k : Nat} {digits : List Char} (hdigits : ∀ c ∈ digits, c.isDigit = true) :
    fractionValue k digits < 10 ^ k := by
  induction k generalizing digits with
  | zero => exact Nat.one_pos
  | succ k ih =>
    cases digits with
    | nil => exact Nat.pow_pos (by decide)
    | cons c digits =>
      have hc := (digit_of_isDigit (hdigits c List.mem_cons_self)).1
      have hrest := ih fun d hd => hdigits d (List.mem_cons_of_mem _ hd)
      calc digitValue c * 10 ^ k + fractionValue k digits < (digitValue c + 1) * 10 ^ k := by
            rw [Nat.succ_mul]; omega
        _ ≤ 10 * 10 ^ k := Nat.mul_le_mul_right _ hc
        _ = 10 ^ (k + 1) := by ring

theorem fractionValue_replicate (k n : Nat) : fractionValue k (List.replicate n '0') = 0 := by
  induction k generalizing n with
  | zero => rfl
  | succ k ih =>
    cases n with
    | zero => rfl
    | succ n => rw [List.replicate_succ, fractionValue, ih, show digitValue '0' = 0 from rfl, Nat.zero_mul]

/-- A zone that a digit follows in the order of characters. -/
def BeforeDigits (zone : List Char) : Prop := ∃ cs, zone = '+' :: cs ∨ zone = '-' :: cs

/-- The smaller of two fractions stands first, when all its digits are written or the zone after it precedes the
digits. -/
theorem fraction_lt {k : Nat} {ds es zone zone' : List Char} (hds : ∀ c ∈ ds, c.isDigit = true)
    (hes : ∀ c ∈ es, c.isDigit = true) (hzone : k ≤ ds.length ∨ BeforeDigits zone)
    (h : fractionValue k ds < fractionValue k es) : ds ++ zone < es ++ zone' := by
  induction k generalizing ds es with
  | zero => cases h
  | succ k ih =>
    cases es with
    | nil => cases h
    | cons e es =>
      have he := digit_of_isDigit (hes e List.mem_cons_self)
      cases ds with
      | nil =>
        obtain ⟨cs, hcs⟩ : BeforeDigits zone := by
          rcases hzone with hlen | hzone
          · cases hlen
          · exact hzone
        have hlt : ∀ n < 10, '+' < Nat.digitChar n ∧ '-' < Nat.digitChar n := by decide
        rw [← he.2]
        rcases hcs with rfl | rfl
        · exact List.cons_lt_cons_iff.2 (.inl (hlt _ he.1).1)
        · exact List.cons_lt_cons_iff.2 (.inl (hlt _ he.1).2)
      | cons d ds =>
        have hd := digit_of_isDigit (hds d List.mem_cons_self)
        have hds' : ∀ c ∈ ds, c.isDigit = true := fun c hc => hds c (List.mem_cons_of_mem _ hc)
        have hes' : ∀ c ∈ es, c.isDigit = true := fun c hc => hes c (List.mem_cons_of_mem _ hc)
        rw [fractionValue, fractionValue, digits_lt_digits (fractionValue_lt hds') (fractionValue_lt hes')] at h
        rw [List.cons_append, List.cons_append, List.cons_lt_cons_iff, ← hd.2, ← he.2,
          digitChar_lt_digitChar hd.1 he.1, digitChar_inj hd.1 he.1]
        refine h.imp_right (And.imp_right (ih hds' hes' (hzone.imp_left ?_)))
        exact Nat.le_of_succ_le_succ

theorem dotted_lt {ds es zone zone' : List Char} (hds : ∀ c ∈ ds, c.isDigit = true)
    (hes : ∀ c ∈ es, c.isDigit = true) (hzone : 9 ≤ ds.length ∨ BeforeDigits zone)
    (h : fractionValue 9 ds < fractionValue 9 es) : dotted ds ++ zone < dotted es ++ zone' := by
  cases es with
  | nil => cases h
  | cons e es =>
    cases ds with
    | nil =>
      obtain ⟨cs, rfl | rfl⟩ : BeforeDigits zone := by
        rcases hzone with hlen | hzone
        · cases hlen
        · exact hzone
      · exact List.cons_lt_cons_iff.2 (.inl (by decide))
      · exact List.cons_lt_cons_iff.2 (.inl (by decide))
    | cons d ds => exact List.cons_lt_cons_iff.2 (.inr ⟨rfl, fraction_lt hds hes hzone h⟩)

/-- Orders dates; not a number of days. -/
def Fields.date (f : Fields) : Int := (f.year * 100 + f.month) * 100 + f.day

/-- Orders times of the day up to the second. -/
def Fields.clock (f : Fields) : Nat := (f.hour * 100 + f.minute) * 100 + f.second

theorem stampText_lt {c c' : Char} {f g : Fields} {cs ds : List Char} (hf : f.Written) (hg : g.Written) :
    stampText c f cs < stampText c' g ds ↔
      f.date < g.date ∨ f.date = g.date ∧ (c < c' ∨ c = c' ∧ (f.clock < g.clock ∨ f.clock = g.clock ∧ cs < ds)) := by
  obtain ⟨hfy, hfmo, hfda, hfh, hfmi, hfs⟩ := hf
  obtain ⟨hgy, hgmo, hgda, hgh, hgmi, hgs⟩ := hg
  have hdate : ∀ P : Prop, f.year.toNat < g.year.toNat ∨ f.year.toNat = g.year.toNat ∧ (f.month < g.month ∨
      f.month = g.month ∧ (f.day < g.day ∨ f.day = g.day ∧ P)) ↔ f.date < g.date ∨ f.date = g.date ∧ P := by
    intro P
    by_cases hP : P <;> simp only [hP, and_true, and_false, or_false, Fields.date] <;> omega
  have hclock : ∀ P : Prop, f.hour < g.hour ∨ f.hour = g.hour ∧ (f.minute < g.minute ∨ f.minute = g.minute ∧
      (f.second < g.second ∨ f.second = g.second ∧ P)) ↔ f.clock < g.clock ∨ f.clock = g.clock ∧ P := by
    intro P
    by_cases hP : P <;> simp only [hP, and_true, and_false, or_false, Fields.clock] <;> omega
  unfold stampText
  rw [pad_append_lt (by omega) (by omega), List.cons_lt_cons_self, pad_append_lt hfmo hgmo, List.cons_lt_cons_self,
    pad_append_lt hfda hgda, List.cons_lt_cons_iff, pad_append_lt hfh hgh, List.cons_lt_cons_self,
    pad_append_lt hfmi hgmi, List.cons_lt_cons_self, pad_append_lt hfs hgs, hdate, hclock]

theorem Civil.lt_iff {t u : Civil} : t < u ↔ t.date < u.date ∨ t.date = u.date ∧
    (t.clock < u.clock ∨ t.clock = u.clock ∧ t.nano < u.nano) := by
  have ht := t.day_le
  have hu := u.day_le
  obtain ⟨⟨-, htmo⟩, -, hth, htmi, hts, htn⟩ := t.valid
  obtain ⟨⟨-, humo⟩, -, huh, humi, hus, hun⟩ := u.valid
  have hdate : (t.date < u.date ↔ (t.year * 13 + t.month) * 32 + t.day < (u.year * 13 + u.month) * 32 + u.day) ∧
      (t.date = u.date ↔ (t.year * 13 + t.month) * 32 + t.day = (u.year * 13 + u.month) * 32 + u.day) := by
    simp only [Fields.date]
    omega
  have hclock : (t.clock < u.clock ↔
        (t.hour * 60 + t.minute) * 61 + t.second < (u.hour * 60 + u.minute) * 61 + u.second) ∧
      (t.clock = u.clock ↔ (t.hour * 60 + t.minute) * 61 + t.second = (u.hour * 60 + u.minute) * 61 + u.second) := by
    simp only [Fields.clock]
    omega
  show t.key < u.key ↔ _
  rw [hdate.1, hdate.2, hclock.1, hclock.2]
  simp only [Civil.key]
  omega

theorem Civil.ofText_eq_some {s : String} {t : Civil} : Civil.ofText s = some t ↔
    ∃ f offset, readFields s.toList = some (f, offset) ∧ f.Valid ∧ t.toFields = toUtc f offset := by
  have hof : ∀ {f : Fields} {t : Civil}, Civil.ofFields f = some t ↔ t.toFields = f := by
    intro f t
    unfold Civil.ofFields
    split_ifs with hf
    · exact ⟨fun h => by rw [← Option.some.inj h], fun h => congrArg some (by cases t; subst h; rfl)⟩
    · exact iff_of_false nofun fun h => hf (h ▸ t.valid)
  simp only [Civil.ofText, Option.bind_eq_bind, Option.bind_eq_some_iff, Prod.exists, hof]
  constructor
  · rintro ⟨f, offset, hread, u, rfl, ht⟩
    exact ⟨_, offset, hread, u.valid, ht⟩
  · rintro ⟨f, offset, hread, hf, ht⟩
    exact ⟨f, offset, hread, ⟨f, hf⟩, rfl, ht⟩

/-! ### Forms -/

/-- How a time is written: all but its fields and the values of the fractional digits. -/
structure TextForm where
  separator : Char
  fractionDigits : Nat
  zone : List Char
  offset : Int
  isSeparator : IsSeparator separator
  readOffset_zone : readOffset zone = some offset

namespace TextForm

/-- The text `s` is written in this form. -/
def Of (form : TextForm) (s : String) : Prop :=
  ∃ f digits, f.Written ∧ (∀ c ∈ digits, c.isDigit = true) ∧ digits.length = form.fractionDigits ∧
    s.toList = stampText form.separator f (dotted digits ++ form.zone)

/-- The form of times whose texts compare like the times. -/
structure Safe (form : TextForm) : Prop where
  separator : form.separator = 'T'
  offset : form.offset = 0
  zone : 9 ≤ form.fractionDigits ∨ BeforeDigits form.zone

variable {form form' : TextForm} {s s' : String} {t t' : Civil}

theorem exists_of (h : Civil.ofText s = some t) : ∃ form : TextForm, form.Of s := by
  obtain ⟨f, offset, hread, -, -⟩ := Civil.ofText_eq_some.1 h
  obtain ⟨hf, separator, digits, zone, hseparator, hdigits, hoffset, -, htext⟩ := readFields_eq_some.1 hread
  exact ⟨⟨separator, digits.length, zone, offset, hseparator, hoffset⟩, f, digits, hf, hdigits, rfl, htext⟩

theorem readFields_stampText (form : TextForm) {f : Fields} {digits : List Char} (hf : f.Written)
    (hdigits : ∀ c ∈ digits, c.isDigit = true) :
    readFields (stampText form.separator f (dotted digits ++ form.zone)) =
      some ({ f with nano := fractionValue 9 digits }, form.offset) :=
  readFields_eq_some.2 ⟨⟨hf.year, hf.month, hf.day, hf.hour, hf.minute, hf.second⟩, _, digits, _, form.isSeparator,
    hdigits, form.readOffset_zone, rfl, rfl⟩

/-- A text of a safe form is that of the time it is read as. -/
theorem Safe.exists_digits (hform : form.Safe) (hs : form.Of s) (h : Civil.ofText s = some t) : ∃ digits,
    t.Written ∧ (∀ c ∈ digits, c.isDigit = true) ∧ digits.length = form.fractionDigits ∧
      t.nano = fractionValue 9 digits ∧ s.toList = stampText 'T' t.toFields (dotted digits ++ form.zone) := by
  obtain ⟨f, digits, hf, hdigits, hlength, htext⟩ := hs
  obtain ⟨g, offset, hread, hg, ht⟩ := Civil.ofText_eq_some.1 h
  rw [htext, readFields_stampText form hf hdigits] at hread
  obtain ⟨rfl, rfl⟩ := Prod.mk.inj (Option.some.inj hread)
  rw [hform.offset, toUtc_zero _ hg] at ht
  refine ⟨digits, ?_, hdigits, hlength, by rw [ht], ?_⟩
  · rw [ht]
    exact ⟨hf.year, hf.month, hf.day, hf.hour, hf.minute, hf.second⟩
  · rw [htext, hform.separator, ht]
    rfl

/-- The texts of safe forms are in the order of their times. -/
theorem lt_of_safe (hform : form.Safe) (hform' : form'.Safe) (hs : form.Of s) (hs' : form'.Of s')
    (h : Civil.ofText s = some t) (h' : Civil.ofText s' = some t') (hlt : t < t') : s < s' := by
  obtain ⟨digits, hw, hdigits, hlength, hnano, htext⟩ := hform.exists_digits hs h
  obtain ⟨digits', hw', hdigits', -, hnano', htext'⟩ := hform'.exists_digits hs' h'
  rw [String.lt_iff_toList_lt, htext, htext', stampText_lt hw hw']
  refine (Civil.lt_iff.1 hlt).imp_right (And.imp_right fun hclock => .inr ⟨rfl, ?_⟩)
  refine hclock.imp_right (And.imp_right fun hfraction => ?_)
  rw [hnano, hnano'] at hfraction
  exact dotted_lt hdigits hdigits' (hlength ▸ hform.zone) hfraction

theorem exists_safe_of_toText (h₀ : 0 ≤ t.year) (h₁ : t.year ≤ 9999) :
    ∃ form : TextForm, form.Safe ∧ form.Of t.toText := by
  obtain ⟨digits, hdigits, htext, -⟩ := fractionText_eq t.valid.2.2.2.2.2
  refine ⟨⟨'T', digits.length, utcZone, 0, .inl rfl, by decide⟩, ⟨rfl, rfl, .inr ⟨_, .inl rfl⟩⟩, t.toFields, digits,
    t.valid.written ⟨h₀, h₁⟩, hdigits, rfl, ?_⟩
  rw [toText_eq t h₀ h₁, htext]

/-- The text of this form whose fractional digits are all zero. -/
def write (form : TextForm) (f : Fields) : String :=
  String.ofList (stampText form.separator f (dotted (List.replicate form.fractionDigits '0') ++ form.zone))

theorem of_write {f : Fields} (hf : f.Written) : form.Of (form.write f) :=
  ⟨f, _, hf, fun _ hc => by rw [List.eq_of_mem_replicate hc]; rfl, List.length_replicate, String.toList_ofList⟩

theorem ofText_write {f : Fields} (hf : f.Valid) (hy : 0 ≤ f.year ∧ f.year ≤ 9999) (hnano : f.nano = 0)
    (ht : t.toFields = toUtc f form.offset) : Civil.ofText (form.write f) = some t := by
  refine Civil.ofText_eq_some.2 ⟨f, form.offset, ?_, hf, ht⟩
  rw [write, String.toList_ofList, readFields_stampText form (hf.written hy) fun _ hc => by
    rw [List.eq_of_mem_replicate hc]; rfl, fractionValue_replicate, ← hnano]

theorem readOffset_bounds {zone : List Char} {offset : Int} (h : readOffset zone = some offset) :
    -1440 < offset ∧ offset < 1440 := by
  unfold readOffset at h
  split at h
  · obtain rfl := Option.some.inj h
    decide
  · obtain rfl := Option.some.inj h
    decide
  · split at h
    · simp only [Option.bind_eq_bind, Option.bind_eq_some_iff] at h
      obtain ⟨⟨hours, cs⟩, -, cs', -, ⟨minutes, rest⟩, -, h⟩ := h
      split_ifs at h with hrange
      all_goals
        obtain rfl := Option.some.inj h
        omega
    · cases h
  · cases h

/-- A time in May 2026. -/
def inMay (day hour minute second nano : Nat) : Fields := ⟨2026, 5, day, hour, minute, second, nano⟩

theorem valid_inMay {day hour minute second nano : Nat} (hd : 1 ≤ day ∧ day ≤ 31) (hh : hour < 24)
    (hm : minute < 60) (hs : second ≤ 60) (hn : nano < 10 ^ 9) : (inMay day hour minute second nano).Valid :=
  ⟨⟨show 1 ≤ 5 by decide, show 5 ≤ 12 by decide⟩, hd, hh, hm, hs, hn⟩

theorem valid_start : (inMay 18 0 0 0 0).Valid := by decide

theorem valid_end : (inMay 18 23 59 59 0).Valid := by decide

theorem toUtc_start {offset : Int} (h₀ : 0 < offset) (h₁ : offset < 1440) : toUtc (inMay 18 0 0 0 0) offset =
    inMay 17 ((1440 - offset).toNat / 60) ((1440 - offset).toNat % 60) 0 0 := by
  have hminutes : (((0 : Nat) * 60 + (0 : Nat) - offset : Int)) % 1440 = 1440 - offset := by omega
  have hday : ((0 : Nat) * 60 + (0 : Nat) - offset : Int) < 0 := by omega
  unfold toUtc inMay
  dsimp only
  rw [if_pos hday, hminutes]
  rfl

theorem toUtc_end {offset : Int} (h₀ : offset < 0) (h₁ : -1440 < offset) : toUtc (inMay 18 23 59 59 0) offset =
    inMay 19 ((-1 - offset).toNat / 60) ((-1 - offset).toNat % 60) 59 0 := by
  have hminutes : (((23 : Nat) * 60 + (59 : Nat) - offset : Int)) % 1440 = -1 - offset := by omega
  have hday : ¬ ((23 : Nat) * 60 + (59 : Nat) - offset : Int) < 0 := by omega
  have hday' : 1440 ≤ ((23 : Nat) * 60 + (59 : Nat) - offset : Int) := by omega
  unfold toUtc inMay
  dsimp only
  rw [if_neg hday, if_pos hday', hminutes]
  rfl

theorem write_lt_toText {f : Fields} (hf : f.Written) (hy : 0 ≤ t.year ∧ t.year ≤ 9999) :
    form.write f < t.toText ↔ f.date < t.date ∨ f.date = t.date ∧ (form.separator < 'T' ∨ form.separator = 'T' ∧
      (f.clock < t.clock ∨ f.clock = t.clock ∧
        dotted (List.replicate form.fractionDigits '0') ++ form.zone < fractionText t.nano ++ utcZone)) := by
  rw [String.lt_iff_toList_lt, write, String.toList_ofList, toText_eq t hy.1 hy.2,
    stampText_lt hf (t.valid.written hy)]

theorem toText_lt_write {f : Fields} (hf : f.Written) (hy : 0 ≤ t.year ∧ t.year ≤ 9999) :
    t.toText < form.write f ↔ t.date < f.date ∨ t.date = f.date ∧ ('T' < form.separator ∨ 'T' = form.separator ∧
      (t.clock < f.clock ∨ t.clock = f.clock ∧
        fractionText t.nano ++ utcZone < dotted (List.replicate form.fractionDigits '0') ++ form.zone)) := by
  rw [String.lt_iff_toList_lt, write, String.toList_ofList, toText_eq t hy.1 hy.2,
    stampText_lt (t.valid.written hy) hf]

theorem pad_one_lt {k n : Nat} {zone cs : List Char} (hn : n < k)
    (hzone : ∃ c ds, zone = c :: ds ∧ ∀ d < 10, Nat.digitChar d < c) :
    pad k 1 ++ cs < List.replicate n '0' ++ zone := by
  induction n generalizing k with
  | zero =>
    obtain ⟨k, rfl⟩ : ∃ j, k = j + 1 := ⟨k - 1, by omega⟩
    obtain ⟨c, ds, rfl, hc⟩ := hzone
    exact List.cons_lt_cons_iff.2 (.inl (hc _ (Nat.mod_lt _ (by decide))))
  | succ n ih =>
    obtain ⟨k, rfl⟩ : ∃ j, k = j + 1 := ⟨k - 1, by omega⟩
    have hone : 1 / 10 ^ k = 0 := Nat.div_eq_of_lt (Nat.one_lt_pow (by omega) (by decide))
    rw [pad, hone, List.replicate_succ, List.cons_append, List.cons_append]
    exact List.cons_lt_cons_iff.2 (.inr ⟨rfl, ih (by omega)⟩)

theorem fractionText_one_lt {n : Nat} {zone : List Char} {offset : Int} (hn : n < 9)
    (hoffset : readOffset zone = some offset) (hzone : ¬ BeforeDigits zone) :
    fractionText 1 ++ utcZone < dotted (List.replicate n '0') ++ zone := by
  obtain ⟨c, cs, rfl, hc⟩ := head_of_readOffset hoffset
  have hc : '.' < c ∧ ∀ d < 10, Nat.digitChar d < c := by
    rcases hc with rfl | rfl | rfl | rfl | rfl
    · decide
    · decide
    · exact absurd ⟨_, .inl rfl⟩ hzone
    · exact absurd ⟨_, .inr rfl⟩ hzone
    · decide
  cases n with
  | zero => exact List.cons_lt_cons_iff.2 (.inl hc.1)
  | succ n => exact List.cons_lt_cons_iff.2 (.inr ⟨rfl, pad_one_lt hn ⟨c, cs, rfl, hc.2⟩⟩)

/-- A text of this form is on the wrong side of one that `Civil.toText` writes. -/
def Inverted (form : TextForm) : Prop := ∃ (s : String) (t u : Civil), form.Of s ∧ Civil.ofText s = some t ∧
  (0 ≤ u.year ∧ u.year ≤ 9999) ∧ (s < u.toText ∧ u < t ∨ u.toText < s ∧ t < u)

theorem inverted_of_neg (h : form.offset < 0) : form.Inverted := by
  have hoffset := (readOffset_bounds form.readOffset_zone).1
  have hw := valid_end.written (by decide)
  have ht : (inMay 19 ((-1 - form.offset).toNat / 60) ((-1 - form.offset).toNat % 60) 59 0).Valid :=
    valid_inMay (by decide) (by omega) (by omega) (by decide) (by decide)
  refine ⟨_, ⟨_, ht⟩, ⟨inMay 19 0 0 0 0, by decide⟩, of_write hw,
    ofText_write valid_end (by decide) rfl (toUtc_end h hoffset).symm, by decide,
    .inl ⟨(write_lt_toText hw (by decide)).2 (.inl (by decide)), Civil.lt_iff.2 (.inr ⟨rfl, .inl ?_⟩)⟩⟩
  simp only [Fields.clock, inMay]
  omega

theorem inverted_of_pos (h : 0 < form.offset) : form.Inverted := by
  have hoffset := (readOffset_bounds form.readOffset_zone).2
  have hw := valid_start.written (by decide)
  have ht : (inMay 17 ((1440 - form.offset).toNat / 60) ((1440 - form.offset).toNat % 60) 0 0).Valid :=
    valid_inMay (by decide) (by omega) (by omega) (by decide) (by decide)
  refine ⟨_, ⟨_, ht⟩, ⟨inMay 17 23 59 59 0, by decide⟩, of_write hw,
    ofText_write valid_start (by decide) rfl (toUtc_start h hoffset).symm, by decide,
    .inr ⟨(toText_lt_write hw (by decide)).2 (.inl (by decide)), Civil.lt_iff.2 (.inr ⟨rfl, .inl ?_⟩)⟩⟩
  simp only [Fields.clock, inMay]
  omega

section

variable (hzero : form.offset = 0)
include hzero

theorem ofText_write_of_zero {f : Fields} (hf : f.Valid) (hy : 0 ≤ f.year ∧ f.year ≤ 9999) (hnano : f.nano = 0) :
    Civil.ofText (form.write f) = some ⟨f, hf⟩ :=
  ofText_write hf hy hnano (by rw [hzero, toUtc_zero _ hf])

theorem inverted_of_separator (h : form.separator ≠ 'T') : form.Inverted := by
  rcases form.isSeparator with hT | ht | hspace
  · exact absurd hT h
  · have hw := valid_start.written (by decide)
    refine ⟨_, _, ⟨inMay 18 23 59 59 0, by decide⟩, of_write hw, ofText_write_of_zero hzero valid_start (by decide) rfl,
      by decide, .inr ⟨(toText_lt_write hw (by decide)).2 (.inr ⟨rfl, .inl ?_⟩), by decide⟩⟩
    rw [ht]
    decide
  · have hw := valid_end.written (by decide)
    refine ⟨_, _, ⟨inMay 18 0 0 0 0, by decide⟩, of_write hw, ofText_write_of_zero hzero valid_end (by decide) rfl,
      by decide, .inl ⟨(write_lt_toText hw (by decide)).2 (.inr ⟨rfl, .inl ?_⟩), by decide⟩⟩
    rw [hspace]
    decide

theorem inverted_of_zone (hT : form.separator = 'T') (h : ¬ (9 ≤ form.fractionDigits ∨ BeforeDigits form.zone)) :
    form.Inverted := by
  obtain ⟨hdigits, hzone⟩ := not_or.1 h
  have hw := valid_start.written (by decide)
  refine ⟨_, _, ⟨inMay 18 0 0 0 1, by decide⟩, of_write hw, ofText_write_of_zero hzero valid_start (by decide) rfl,
    by decide, .inr ⟨(toText_lt_write hw (by decide)).2 (.inr ⟨rfl, .inr ⟨hT.symm, .inr ⟨rfl, ?_⟩⟩⟩), by decide⟩⟩
  exact fractionText_one_lt (Nat.lt_of_not_le hdigits) form.readOffset_zone hzone

end

theorem inverted_of_not_safe (h : ¬ form.Safe) : form.Inverted := by
  rcases Int.lt_trichotomy form.offset 0 with hneg | hzero | hpos
  · exact inverted_of_neg hneg
  · by_cases hT : form.separator = 'T'
    · exact inverted_of_zone hzero hT fun hzone => h ⟨hT, hzero, hzone⟩
    · exact inverted_of_separator hzero hT
  · exact inverted_of_pos hpos

end TextForm

end Rfc3339

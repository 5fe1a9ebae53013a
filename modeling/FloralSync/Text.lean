import FloralSync.Result
import Mathlib.Algebra.Group.Int.Defs
import Mathlib.Algebra.Group.Nat.Defs
import Mathlib.Data.List.Basic
import Mathlib.Tactic.SplitIfs

/-! # Text and integer conversions of the source languages -/

namespace FloralSync

/-- `char::is_whitespace`: the code points with the Unicode property `White_Space`. -/
def isWhitespace (c : Char) : Bool :=
  let n := c.toNat
  (9 ≤ n && n ≤ 13) || n = 0x20 || n = 0x85 || n = 0xA0 || n = 0x1680 || (0x2000 ≤ n && n ≤ 0x200A) ||
    n = 0x2028 || n = 0x2029 || n = 0x202F || n = 0x205F || n = 0x3000

/-- Dropping the characters that satisfy `p` from both ends. -/
def trimBy (p : Char → Bool) (s : String) : String :=
  String.ofList ((s.toList.dropWhile p).reverse.dropWhile p).reverse

/-- `str::trim` -/
def trim : String → String := trimBy isWhitespace

/-- SQLite's `TRIM`, which removes only U+0020. -/
def sqliteTrim : String → String := trimBy fun c => c = ' '

theorem trimBy_trimBy (p : Char → Bool) (s : String) : trimBy p (trimBy p s) = trimBy p s := by
  have h : ∀ t, trimBy p t = String.ofList ((t.toList.dropWhile p).rdropWhile p) := fun _ => rfl
  rw [h, h, String.toList_ofList, List.dropWhile_rdropWhile, List.rdropWhile_idempotent]

@[simp] theorem trim_trim (s : String) : trim (trim s) = trim s := trimBy_trimBy ..

theorem trimBy_eq_empty {p : Char → Bool} {s : String} : trimBy p s = "" ↔ ∀ c ∈ s.toList, p c = true := by
  have h : trimBy p s = String.ofList ((s.toList.dropWhile p).rdropWhile p) := rfl
  rw [h, ← String.ofList_nil, String.ofList_inj, List.rdropWhile_eq_nil_iff]
  constructor
  · intro hall
    refine List.dropWhile_eq_nil_iff.1 (List.head?_eq_none_iff.1 ?_)
    rw [Option.eq_none_iff_forall_ne_some]
    intro c hc
    have hnot := List.head?_dropWhile_not p s.toList
    rw [hc] at hnot
    simp [hall c (List.mem_of_mem_head? hc)] at hnot
  · intro hall c hc
    exact hall c ((List.dropWhile_suffix p).subset hc)

theorem trimBy_isInfix (p : Char → Bool) (s : String) : (trimBy p s).toList <:+: s.toList := by
  rw [trimBy, String.toList_ofList, ← List.reverse_infix, List.reverse_reverse]
  exact (List.dropWhile_suffix p).isInfix.trans (List.reverse_infix.2 (List.dropWhile_suffix p).isInfix)

/-- Whether all characters of a text are such is computed along the text. -/
theorem forall_mem_of_all {s : String} {p : Char → Prop} [DecidablePred p] (h : s.toList.all (p ·) = true) :
    ∀ c ∈ s.toList, p c := by simpa using h

theorem trim_pad {pad core pad' : List Char} (hpad : ∀ c ∈ pad, isWhitespace c = true)
    (hpad' : ∀ c ∈ pad', isWhitespace c = true) (hcore : ∀ c ∈ core, isWhitespace c = false) :
    trim (String.ofList (pad ++ core ++ pad')) = String.ofList core := by
  have hdrop : ∀ {l : List Char}, (∀ c ∈ l, isWhitespace c = false) → l.dropWhile isWhitespace = l := by
    intro l hl
    cases l with
    | nil => rfl
    | cons c l => rw [List.dropWhile_cons_of_neg (by simp [hl c (List.mem_cons_self ..)])]
  unfold trim trimBy
  rw [String.toList_ofList, List.append_assoc, List.dropWhile_append_of_pos hpad, List.dropWhile_append, hdrop hcore]
  split_ifs with hempty
  · rw [List.isEmpty_iff.1 hempty, List.dropWhile_eq_nil_iff.2 hpad']
    rfl
  · rw [List.reverse_append, List.dropWhile_append_of_pos fun c hc => hpad' c (List.mem_reverse.1 hc),
      hdrop fun c hc => hcore c (List.mem_reverse.1 hc), List.reverse_reverse]

theorem trim_eq_self {s : String} (h : ∀ c ∈ s.toList, isWhitespace c = false) : trim s = s := by
  have hpad := trim_pad (List.forall_mem_nil _) (List.forall_mem_nil _) h
  simpa using hpad

theorem exists_pads (s : String) : ∃ pad pad', s.toList = pad ++ (trim s).toList ++ pad' ∧
    (∀ c ∈ pad, isWhitespace c = true) ∧ ∀ c ∈ pad', isWhitespace c = true := by
  refine ⟨s.toList.takeWhile isWhitespace, ((s.toList.dropWhile isWhitespace).reverse.takeWhile isWhitespace).reverse,
    ?_, fun c hc => List.mem_takeWhile_imp hc, fun c hc => List.mem_takeWhile_imp (List.mem_reverse.1 hc)⟩
  unfold trim trimBy
  rw [String.toList_ofList, List.append_assoc, ← List.reverse_append, List.takeWhile_append_dropWhile,
    List.reverse_reverse, List.takeWhile_append_dropWhile]

/-- `str::split` at a character. -/
def split (sep : Char) (s : String) : List String := (s.toList.splitOn sep).map String.ofList

def splitAtFirst (pattern : List Char) : List Char → Option (List Char × List Char)
  | [] => if pattern = [] then some ([], []) else none
  | c :: cs =>
    if pattern.isPrefixOf (c :: cs) then some ([], (c :: cs).drop pattern.length)
    else (splitAtFirst pattern cs).map fun (before, after) => (c :: before, after)

/-- `str::split_once` -/
def splitOnce (pattern s : String) : Option (String × String) :=
  (splitAtFirst pattern.toList s.toList).map fun (before, after) => (String.ofList before, String.ofList after)

/-- `str::rsplit_once` at a character. -/
def rsplitOnce (sep : Char) (s : String) : Option (String × String) :=
  (splitAtFirst [sep] s.toList.reverse).map fun (after, before) =>
    (String.ofList before.reverse, String.ofList after.reverse)

/-- `str::strip_prefix`, of a character. -/
def stripPrefixChar (c : Char) (s : String) : Option String :=
  match s.toList with
  | d :: cs => if d = c then some (String.ofList cs) else none
  | [] => none

/-- `str::eq_ignore_ascii_case` -/
def eqIgnoreAsciiCase (a b : String) : Bool := a.toList.map Char.toLower = b.toList.map Char.toLower

/-- `str::parse::<u16>`: a sign `+` is accepted. -/
def parseU16 (s : String) : Option Nat :=
  let digits : List Char := match s.toList with
    | '+' :: cs => cs
    | cs => cs
  let value := digits.foldl (fun n c => n * 10 + (c.toNat - '0'.toNat)) 0
  if digits = [] ∨ !digits.all Char.isDigit ∨ 2 ^ 16 ≤ value then none else some value

theorem splitAtFirst_of_notMem {c : Char} {before : List Char} (h : c ∉ before) (after : List Char) :
    splitAtFirst [c] (before ++ c :: after) = some (before, after) := by
  induction before with
  | nil => simp [splitAtFirst]
  | cons d before ih =>
    obtain ⟨hd, h⟩ := not_or.1 (mt List.mem_cons.2 h)
    rw [List.cons_append, splitAtFirst, if_neg (by simpa using hd), ih h]
    rfl

theorem splitOnce_of_notMem {c : Char} {a : String} (h : c ∉ a.toList) (b : String) :
    splitOnce (String.singleton c) (a ++ String.singleton c ++ b) = some (a, b) := by
  unfold splitOnce
  rw [String.toList_append, String.toList_append, String.toList_singleton, List.append_assoc,
    List.singleton_append, splitAtFirst_of_notMem h]
  simp

theorem splitAtFirst_eq_some {pattern cs before after : List Char}
    (h : splitAtFirst pattern cs = some (before, after)) : cs = before ++ pattern ++ after := by
  induction cs generalizing before with
  | nil =>
    rw [splitAtFirst] at h
    split_ifs at h with hpattern
    obtain ⟨rfl, rfl⟩ := Prod.mk.inj (Option.some.inj h)
    rw [hpattern]
    rfl
  | cons c cs ih =>
    rw [splitAtFirst] at h
    split_ifs at h with hfront
    · obtain ⟨rfl, rfl⟩ := Prod.mk.inj (Option.some.inj h)
      exact (List.prefix_iff_eq_append.1 (List.isPrefixOf_iff_prefix.1 hfront)).symm
    · obtain ⟨⟨before, after⟩, hsplit, heq⟩ := Option.map_eq_some_iff.1 h
      obtain ⟨rfl, rfl⟩ := Prod.mk.inj heq
      rw [ih hsplit]
      rfl

theorem exists_splitAtFirst (pattern before after : List Char) :
    ∃ r, splitAtFirst pattern (before ++ pattern ++ after) = some r := by
  induction before with
  | nil =>
    cases h : pattern ++ after with
    | nil => exact ⟨_, by rw [List.nil_append, h, splitAtFirst, if_pos (List.append_eq_nil_iff.1 h).1]⟩
    | cons c cs =>
      have hfront : pattern.isPrefixOf (c :: cs) = true := List.isPrefixOf_iff_prefix.2 ⟨after, h⟩
      exact ⟨_, by rw [List.nil_append, h, splitAtFirst, if_pos hfront]⟩
  | cons c before ih =>
    obtain ⟨r, hr⟩ := ih
    rw [List.cons_append, List.cons_append, splitAtFirst, hr]
    split_ifs
    · exact ⟨_, rfl⟩
    · exact ⟨_, rfl⟩

theorem splitAtFirst_first {pattern cs before after a b : List Char}
    (h : splitAtFirst pattern cs = some (before, after)) (hcs : cs = a ++ pattern ++ b) : before.length ≤ a.length := by
  induction cs generalizing before a with
  | nil =>
    rw [splitAtFirst] at h
    split_ifs at h
    obtain ⟨rfl, -⟩ := Prod.mk.inj (Option.some.inj h)
    exact Nat.zero_le _
  | cons c cs ih =>
    rw [splitAtFirst] at h
    split_ifs at h with hfront
    · obtain ⟨rfl, -⟩ := Prod.mk.inj (Option.some.inj h)
      exact Nat.zero_le _
    · obtain ⟨⟨before, after⟩, hsplit, heq⟩ := Option.map_eq_some_iff.1 h
      obtain ⟨rfl, rfl⟩ := Prod.mk.inj heq
      cases a with
      | nil => exact absurd (List.isPrefixOf_iff_prefix.2 ⟨b, hcs.symm⟩) hfront
      | cons d a => exact Nat.succ_le_succ (ih hsplit (List.cons.inj hcs).2)

theorem splitAtFirst_eq_some_iff {pattern cs before after : List Char} :
    splitAtFirst pattern cs = some (before, after) ↔
      cs = before ++ pattern ++ after ∧ ∀ a b, cs = a ++ pattern ++ b → before.length ≤ a.length := by
  refine ⟨fun h => ⟨splitAtFirst_eq_some h, fun a b => splitAtFirst_first h⟩, ?_⟩
  rintro ⟨hcs, hfirst⟩
  obtain ⟨⟨before', after'⟩, h⟩ := exists_splitAtFirst pattern before after
  rw [← hcs] at h
  have hcs' := splitAtFirst_eq_some h
  have hlength : before'.length = before.length :=
    Nat.le_antisymm (splitAtFirst_first h hcs) (hfirst before' after' hcs')
  obtain ⟨hfront, rfl⟩ := List.append_inj (hcs'.symm.trans hcs) (by simp [hlength])
  rw [h, (List.append_inj hfront hlength).1]

theorem splitAtFirst_singleton {c : Char} {cs before after : List Char} :
    splitAtFirst [c] cs = some (before, after) ↔ cs = before ++ c :: after ∧ c ∉ before := by
  constructor
  · intro h
    refine ⟨by simpa using splitAtFirst_eq_some h, fun hmem => ?_⟩
    obtain ⟨front, back, rfl⟩ := List.append_of_mem hmem
    have hle := splitAtFirst_first (a := front) (b := back ++ c :: after) h (by simpa using splitAtFirst_eq_some h)
    rw [List.length_append, List.length_cons] at hle
    omega
  · rintro ⟨rfl, hmem⟩
    exact splitAtFirst_of_notMem hmem after

theorem splitAtFirst_eq_none {c : Char} {cs : List Char} : splitAtFirst [c] cs = none ↔ c ∉ cs := by
  constructor
  · intro h hmem
    obtain ⟨front, back, rfl⟩ := List.append_of_mem hmem
    obtain ⟨r, hr⟩ := exists_splitAtFirst [c] front back
    rw [List.append_assoc, List.singleton_append, h] at hr
    cases hr
  · intro hmem
    rw [Option.eq_none_iff_forall_ne_some]
    rintro ⟨before, after⟩ h
    rw [(splitAtFirst_singleton.1 h).1] at hmem
    exact hmem (by simp)

theorem splitOnce_eq_some_iff {pattern s a b : String} : splitOnce pattern s = some (a, b) ↔
    s = a ++ pattern ++ b ∧ ∀ a' b', s = a' ++ pattern ++ b' → a.length ≤ a'.length := by
  rw [splitOnce, Option.map_eq_some_iff]
  constructor
  · rintro ⟨⟨before, after⟩, hsplit, heq⟩
    obtain ⟨rfl, rfl⟩ := Prod.mk.inj heq
    obtain ⟨hs, hfirst⟩ := splitAtFirst_eq_some_iff.1 hsplit
    refine ⟨String.toList_inj.1 (by simpa using hs), fun a' b' h => ?_⟩
    have hle := hfirst a'.toList b'.toList (by simpa using congrArg String.toList h)
    rwa [String.length_ofList, ← String.length_toList]
  · rintro ⟨rfl, hfirst⟩
    refine ⟨(a.toList, b.toList), splitAtFirst_eq_some_iff.2 ⟨by simp, fun before after h => ?_⟩, by simp⟩
    have hle := hfirst (String.ofList before) (String.ofList after) (String.toList_inj.1 (by simpa using h))
    rwa [String.length_ofList, ← String.length_toList] at hle

theorem splitOnce_eq_some {pattern s a b : String} (h : splitOnce pattern s = some (a, b)) : s = a ++ pattern ++ b :=
  (splitOnce_eq_some_iff.1 h).1

theorem rsplitOnce_eq_some_iff {sep : Char} {s a b : String} : rsplitOnce sep s = some (a, b) ↔
    s = a ++ String.singleton sep ++ b ∧ sep ∉ b.toList := by
  rw [rsplitOnce, Option.map_eq_some_iff]
  constructor
  · rintro ⟨⟨after, before⟩, hsplit, heq⟩
    obtain ⟨rfl, rfl⟩ := Prod.mk.inj heq
    obtain ⟨hs, hmem⟩ := splitAtFirst_singleton.1 hsplit
    have hrev := congrArg List.reverse hs
    rw [List.reverse_reverse] at hrev
    exact ⟨String.toList_inj.1 (by simpa using hrev), by simpa using hmem⟩
  · rintro ⟨rfl, hmem⟩
    exact ⟨(b.toList.reverse, a.toList.reverse), splitAtFirst_singleton.2 ⟨by simp, by simpa using hmem⟩, by simp⟩

theorem rsplitOnce_eq_none {sep : Char} {s : String} : rsplitOnce sep s = none ↔ sep ∉ s.toList := by
  rw [rsplitOnce, Option.map_eq_none_iff, splitAtFirst_eq_none, List.mem_reverse]

theorem stripPrefixChar_eq_some {c : Char} {s rest : String} :
    stripPrefixChar c s = some rest ↔ s = String.singleton c ++ rest := by
  rw [← String.toList_inj, String.toList_append, String.toList_singleton, stripPrefixChar]
  cases s.toList with
  | nil => simp
  | cons d cs => simp [← String.toList_inj]

theorem stripPrefixChar_eq_none {c : Char} {s : String} : stripPrefixChar c s = none ↔ s.toList.head? ≠ some c := by
  rw [stripPrefixChar]
  cases s.toList <;> simp

theorem parseU16_notMem {c : Char} {s : String} {n : Nat} (h : parseU16 s = some n) (hdigit : c.isDigit = false)
    (hplus : c ≠ '+') : c ∉ s.toList := by
  intro hmem
  unfold parseU16 at h
  dsimp only at h
  split_ifs at h with hbad
  simp only [not_or, Bool.not_eq_true', Bool.not_eq_false] at hbad
  have hall := List.all_eq_true.1 hbad.2.1
  split at hall
  · rename_i cs hcs
    rw [hcs] at hmem
    rcases List.mem_cons.1 hmem with rfl | hmem
    · exact hplus rfl
    · exact absurd (hall c hmem) (by simp [hdigit])
  · exact absurd (hall c hmem) (by simp [hdigit])

theorem head?_split (sep : Char) (s : String) :
    (split sep s).head? = some (String.ofList (s.toList.takeWhile (· ≠ sep))) := by
  have hhead : ∀ cs : List Char, (cs.splitOn sep).head? = some (cs.takeWhile (· ≠ sep)) := by
    intro cs
    induction cs with
    | nil => simp
    | cons c cs ih =>
      rw [List.splitOn_cons_eq_if_modifyHead]
      by_cases hc : c = sep <;> simp [hc, ih]
  rw [split, List.head?_map, hhead]
  rfl

theorem split_of_notMem {sep : Char} {s : String} (h : sep ∉ s.toList) : split sep s = [s] := by
  rw [split, List.splitOn_eq_singleton h]
  simp

/-! ### 64-bit integers

`u64` values are naturals and `i64` values integers; the casts between them keep the bits. -/

/-- `x as u64` -/
def asU64 (x : Int) : Nat := (x % 2 ^ 64).toNat

/-- `n as i64`, where `n` may be the sum of two `u64` values: it is reduced first. -/
def asI64 (n : Nat) : Int := if n % 2 ^ 64 < 2 ^ 63 then (n % 2 ^ 64 : Nat) else (n % 2 ^ 64 : Nat) - 2 ^ 64

/-- `u64::saturating_mul` -/
def saturatingMul (a b : Nat) : Nat := min (a * b) (2 ^ 64 - 1)

def I64 (x : Int) : Prop := -2 ^ 63 ≤ x ∧ x < 2 ^ 63

instance (x : Int) : Decidable (I64 x) := inferInstanceAs (Decidable (_ ∧ _))

theorem asU64_natCast {n : Nat} (hn : n < 2 ^ 64) : asU64 n = n := by
  unfold asU64; omega

theorem asU64_of_nonneg {x : Int} (hx : 0 ≤ x) (hi : I64 x) : (asU64 x : Int) = x := by
  unfold asU64 I64 at *; omega

theorem asI64_of_lt {n : Nat} (hn : n < 2 ^ 63) : asI64 n = n := by
  unfold asI64; split_ifs <;> omega

theorem asI64_i64 (n : Nat) : I64 (asI64 n) := by
  unfold asI64 I64; split_ifs <;> omega

end FloralSync

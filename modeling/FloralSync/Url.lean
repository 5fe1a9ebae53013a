import Mathlib.Data.List.Basic
import Mathlib.Data.List.DropRight
import Mathlib.Tactic.SplitIfs

/-!
# URLs

Bytes are written as characters, some of them as they are and the others as `%` and two digits. Whatever is written
so is read back (`Coding.decode_encode`), also as part of a form (`Form.parse_serialize`). A path has the segments that
it was put together from if none of them is a dot segment (`requestTarget_eq`).
-/

namespace Url

def utf8 (s : String) : List UInt8 := s.toList.flatMap String.utf8EncodeChar

def ofUtf8 (bytes : List UInt8) : Option String := String.fromUTF8? bytes.toByteArray

theorem toByteArray_utf8 (s : String) : (utf8 s).toByteArray = s.toByteArray := by
  rw [← String.ofList_toList (s := s), String.toByteArray_ofList, List.utf8Encode, String.ofList_toList, utf8]

@[simp] theorem ofUtf8_utf8 (s : String) : ofUtf8 (utf8 s) = some s := by
  have hvalid : (utf8 s).toByteArray.IsValidUTF8 := toByteArray_utf8 s ▸ s.isValidUTF8
  rw [ofUtf8, String.fromUTF8?, dif_pos hvalid, Option.some_inj, ← String.toByteArray_inj]
  exact toByteArray_utf8 s

theorem utf8_of_ofUtf8 {bytes : List UInt8} {s : String} (h : ofUtf8 bytes = some s) : utf8 s = bytes := by
  rw [ofUtf8, String.fromUTF8?] at h
  split_ifs at h with hvalid
  obtain rfl := Option.some.inj h
  have hbytes : (utf8 (String.fromUTF8 bytes.toByteArray hvalid)).toByteArray = bytes.toByteArray := toByteArray_utf8 _
  have hdata := congrArg ByteArray.data hbytes
  rw [List.data_toByteArray, List.data_toByteArray] at hdata
  exact congrArg Array.toList hdata

theorem utf8_injective : utf8.Injective := by
  intro s t h
  have hs := congrArg ofUtf8 h
  simpa using hs

theorem utf8EncodeChar_of_lt {c : Char} (h : c.toNat < 128) : String.utf8EncodeChar c = [UInt8.ofNat c.toNat] :=
  if_pos (Nat.le_of_lt_succ h)

theorem countP_utf8EncodeChar (c : Char) :
    (String.utf8EncodeChar c).countP (· < 128) = if c.toNat < 128 then 1 else 0 := by
  unfold String.utf8EncodeChar
  change List.countP _ (if c.toNat ≤ 127 then _ else _) = _
  split_ifs <;> simp [UInt8.lt_iff_toNat_lt] <;> omega

theorem countP_utf8 (s : String) : (utf8 s).countP (· < 128) = s.toList.countP (·.toNat < 128) := by
  rw [utf8, List.countP_flatMap, List.countP_eq_length_filter]
  induction s.toList with
  | nil => rfl
  | cons c cs ih =>
    rw [List.map_cons, List.sum_cons, ih, Function.comp, countP_utf8EncodeChar]
    by_cases hc : c.toNat < 128 <;> simp [hc, Nat.add_comm]

theorem mem_utf8EncodeChar {b : UInt8} {c : Char} (hb : b < 128) :
    b ∈ String.utf8EncodeChar c ↔ c.toNat = b.toNat := by
  have hcount := countP_utf8EncodeChar c
  by_cases hc : c.toNat < 128
  · have hsize : c.toNat < UInt8.size := hc.trans (by decide)
    rw [utf8EncodeChar_of_lt hc, List.mem_singleton, ← UInt8.toNat_inj, UInt8.toNat_ofNat_of_lt' hsize, eq_comm]
  · rw [if_neg hc, List.countP_eq_zero] at hcount
    refine iff_of_false (fun hmem => hcount b hmem (decide_eq_true hb)) fun heq => hc ?_
    rw [heq]
    exact hb

theorem length_le_utf8 (cs : List Char) : cs.length ≤ (cs.flatMap String.utf8EncodeChar).length := by
  induction cs with
  | nil => rfl
  | cons c cs ih =>
    have hpos := c.utf8Size_pos
    rw [List.flatMap_cons, List.length_append, List.length_cons, String.length_utf8EncodeChar]
    omega

theorem ascii_of_length {cs : List Char} (h : (cs.flatMap String.utf8EncodeChar).length = cs.length) :
    ∀ c ∈ cs, c.toNat < 128 := by
  induction cs with
  | nil => exact nofun
  | cons c cs ih =>
    have hpos := c.utf8Size_pos
    have hle := length_le_utf8 cs
    rw [List.flatMap_cons, List.length_append, List.length_cons, String.length_utf8EncodeChar] at h
    refine List.forall_mem_cons.2 ⟨?_, ih (by omega)⟩
    have hone : c.utf8Size = 1 := by omega
    have hle : c.val ≤ 127 := Char.utf8Size_eq_one_iff.1 hone
    exact Nat.lt_succ_of_le hle

/-! ### Percent-encoding -/

/-- An upper-case digit. -/
def hexDigit (n : Nat) : Char := Char.ofNat (if n < 10 then 48 + n else 55 + n)

def hexValue (c : Char) : Option Nat :=
  if 48 ≤ c.toNat ∧ c.toNat ≤ 57 then some (c.toNat - 48)
  else if 65 ≤ c.toNat ∧ c.toNat ≤ 70 then some (c.toNat - 55)
  else if 97 ≤ c.toNat ∧ c.toNat ≤ 102 then some (c.toNat - 87)
  else none

theorem hexValue_hexDigit : ∀ n < 16, hexValue (hexDigit n) = some n := by decide

def escapeByte (b : UInt8) : List Char := ['%', hexDigit (b.toNat / 16), hexDigit (b.toNat % 16)]

/-- How bytes are written as characters: `plain` are those that are no escapes, and `read` is what stands for one. -/
structure Coding where
  plain : UInt8 → Option Char
  read : Char → List UInt8
  read_plain : ∀ {b c}, plain b = some c → c ≠ '%' ∧ read c = [b]

namespace Coding

variable (coding : Coding)

def encodeByte (b : UInt8) : List Char :=
  match coding.plain b with
  | some c => [c]
  | none => escapeByte b

def encode (bytes : List UInt8) : List Char := bytes.flatMap coding.encodeByte

/-- A `%` that two digits do not follow stands for itself. -/
def decode : List Char → List UInt8
  | [] => []
  | '%' :: hi :: lo :: cs =>
    match hexValue hi, hexValue lo with
    | some h, some l => UInt8.ofNat (16 * h + l) :: decode cs
    | _, _ => coding.read '%' ++ decode (hi :: lo :: cs)
  | c :: cs => coding.read c ++ decode cs

variable {coding}

theorem decode_cons {c : Char} (h : c ≠ '%') (cs : List Char) :
    coding.decode (c :: cs) = coding.read c ++ coding.decode cs := by
  rw [decode]
  intro _ _ _ hc
  exact absurd hc h

theorem decode_encodeByte (b : UInt8) (cs : List Char) :
    coding.decode (coding.encodeByte b ++ cs) = b :: coding.decode cs := by
  rw [encodeByte]
  cases hplain : coding.plain b with
  | some c =>
    obtain ⟨hc, hread⟩ := coding.read_plain hplain
    rw [List.singleton_append, decode_cons hc, hread]
    rfl
  | none =>
    have hb : b.toNat < 256 := b.toNat_lt
    show coding.decode ('%' :: hexDigit (b.toNat / 16) :: hexDigit (b.toNat % 16) :: cs) = _
    rw [decode, hexValue_hexDigit _ (by omega), hexValue_hexDigit _ (by omega)]
    dsimp only
    rw [Nat.div_add_mod, UInt8.ofNat_toNat]

theorem decode_encode (bytes : List UInt8) (cs : List Char) :
    coding.decode (coding.encode bytes ++ cs) = bytes ++ coding.decode cs := by
  induction bytes with
  | nil => rfl
  | cons b bytes ih =>
    rw [encode, List.flatMap_cons, List.append_assoc, decode_encodeByte]
    exact congrArg (b :: ·) ih

theorem forall_mem_encode {P : Char → Prop} (hpercent : P '%') (hdigit : ∀ n < 16, P (hexDigit n))
    (hplain : ∀ b c, coding.plain b = some c → P c) (bytes : List UInt8) : ∀ c ∈ coding.encode bytes, P c := by
  intro c hc
  obtain ⟨b, -, hc⟩ := List.mem_flatMap.1 hc
  rw [encodeByte] at hc
  cases hb : coding.plain b with
  | some d =>
    rw [hb, List.mem_singleton] at hc
    exact hc ▸ hplain b d hb
  | none =>
    rw [hb] at hc
    have hlt : b.toNat < 256 := b.toNat_lt
    have hcases : c = '%' ∨ c = hexDigit (b.toNat / 16) ∨ c = hexDigit (b.toNat % 16) := by
      simpa [escapeByte] using hc
    rcases hcases with rfl | rfl | rfl
    · exact hpercent
    · exact hdigit _ (by omega)
    · exact hdigit _ (by omega)

/-- A text, as the characters of its bytes. -/
def encodeText (coding : Coding) (s : String) : String := String.ofList (coding.encode (utf8 s))

def decodeText (coding : Coding) (s : String) : Option String := ofUtf8 (coding.decode s.toList)

theorem decode_encodeText (s : String) : coding.decode (coding.encodeText s).toList = utf8 s := by
  have hdecode := coding.decode_encode (utf8 s) []
  rw [List.append_nil, decode, List.append_nil] at hdecode
  rw [encodeText, String.toList_ofList, hdecode]

@[simp] theorem decodeText_encodeText (s : String) : coding.decodeText (coding.encodeText s) = some s := by
  rw [decodeText, decode_encodeText, ofUtf8_utf8]

theorem encodeText_injective : coding.encodeText.Injective := by
  intro s t h
  have hs := congrArg coding.decodeText h
  simpa using hs

end Coding

/-- The letters and digits of ASCII. -/
def alphanumerics : List Char :=
  ['A', 'B', 'C', 'D', 'E', 'F', 'G', 'H', 'I', 'J', 'K', 'L', 'M', 'N', 'O', 'P', 'Q', 'R', 'S', 'T',
   'U', 'V', 'W', 'X', 'Y', 'Z', 'a', 'b', 'c', 'd', 'e', 'f', 'g', 'h', 'i', 'j', 'k', 'l', 'm', 'n',
   'o', 'p', 'q', 'r', 's', 't', 'u', 'v', 'w', 'x', 'y', 'z', '0', '1', '2', '3', '4', '5', '6', '7',
   '8', '9']

/-- Escapes for all characters but those that are kept. -/
def Coding.keeping (kept : List Char) (h : '%' ∉ kept) : Coding where
  plain b := kept.find? fun c => String.utf8EncodeChar c = [b]
  read := String.utf8EncodeChar
  read_plain hplain :=
    ⟨fun heq => h (heq ▸ List.mem_of_find?_eq_some hplain), by simpa using List.find?_some hplain⟩

theorem Coding.mem_of_plain {kept : List Char} {h : '%' ∉ kept} {b : UInt8} {c : Char}
    (hplain : (keeping kept h).plain b = some c) : c ∈ kept := by
  change kept.find? _ = some c at hplain
  exact List.mem_of_find?_eq_some hplain

/-- `encodeURIComponent`, and how a part of a path is read. -/
def component : Coding :=
  .keeping (['-', '_', '.', '!', '~', '*', Char.ofNat 39, '(', ')'] ++ alphanumerics) (by decide)

/-- `application/x-www-form-urlencoded` -/
def form : Coding where
  plain b := if b = 32 then some '+' else (Coding.keeping (['*', '-', '.', '_'] ++ alphanumerics) (by decide)).plain b
  read c := if c = '+' then [32] else String.utf8EncodeChar c
  read_plain {b c} h := by
    split_ifs at h with hspace
    · obtain rfl := Option.some.inj h
      exact ⟨by decide, by rw [if_pos rfl, hspace]⟩
    · have hkept : c ∈ ['*', '-', '.', '_'] ++ alphanumerics := Coding.mem_of_plain h
      have hplus : c ≠ '+' := fun heq => absurd (heq ▸ hkept) (by decide)
      rw [if_neg hplus]
      exact Coding.read_plain _ h

theorem hexDigit_mem : ∀ n < 16, hexDigit n ∈ alphanumerics := by decide

theorem mem_component {s : String} : ∀ c ∈ (component.encodeText s).toList,
    c ∈ '%' :: (['-', '_', '.', '!', '~', '*', Char.ofNat 39, '(', ')'] ++ alphanumerics) := by
  rw [Coding.encodeText, String.toList_ofList]
  refine Coding.forall_mem_encode List.mem_cons_self (fun n hn => ?_) (fun b c hplain => ?_) _
  · exact List.mem_cons_of_mem _ (List.mem_append_right _ (hexDigit_mem n hn))
  · exact List.mem_cons_of_mem _ (Coding.mem_of_plain hplain)

theorem mem_form {s : String} : ∀ c ∈ (form.encodeText s).toList,
    c ∈ '%' :: '+' :: (['*', '-', '.', '_'] ++ alphanumerics) := by
  rw [Coding.encodeText, String.toList_ofList]
  refine Coding.forall_mem_encode List.mem_cons_self (fun n hn => ?_) (fun b c hplain => ?_) _
  · exact List.mem_cons_of_mem _ (List.mem_cons_of_mem _ (List.mem_append_right _ (hexDigit_mem n hn)))
  · change (if b = 32 then some '+' else _) = some c at hplain
    split_ifs at hplain
    · obtain rfl := Option.some.inj hplain
      exact List.mem_cons_of_mem _ List.mem_cons_self
    · exact List.mem_cons_of_mem _ (List.mem_cons_of_mem _ (Coding.mem_of_plain hplain))

theorem lt_of_hexValue {c : Char} {n : Nat} (h : hexValue c = some n) : c.toNat < 128 := by
  unfold hexValue at h
  split_ifs at h <;> omega

/-- Escapes are longer than what they stand for. -/
theorem countP_decode_le (cs : List Char) :
    (component.decode cs).countP (· < 128) ≤ cs.countP (·.toNat < 128) := by
  have hread : ∀ c : Char, (component.read c).countP (· < 128) = if c.toNat < 128 then 1 else 0 := countP_utf8EncodeChar
  fun_induction Coding.decode component cs with
  | case1 => rfl
  | case2 hi lo cs h l hlo hhi ih =>
    have hhex : hi.toNat < 128 ∧ lo.toNat < 128 := ⟨lt_of_hexValue hhi, lt_of_hexValue hlo⟩
    simp only [List.countP_cons, hhex, decide_true, if_true]
    split_ifs <;> omega
  | case3 hi lo cs hnot ih =>
    rw [List.countP_append, List.countP_cons, hread]
    simp only [decide_eq_true_eq]
    omega
  | case4 c cs hnot ih =>
    rw [List.countP_append, List.countP_cons, hread]
    simp only [decide_eq_true_eq]
    omega

/-- Every `%` begins an escape. -/
def wellEscaped : List Char → Bool
  | [] => true
  | '%' :: hi :: lo :: cs => (hexValue hi).isSome && (hexValue lo).isSome && wellEscaped cs
  | c :: cs => c ≠ '%' && wellEscaped cs

/-- `decodeURIComponent`, where it does not throw. -/
def decodeURIComponent (s : List Char) : Option String :=
  if wellEscaped s then ofUtf8 (component.decode s) else none

theorem countP_decodeURIComponent_le {cs : List Char} {s : String} (h : decodeURIComponent cs = some s) :
    s.toList.countP (·.toNat < 128) ≤ cs.countP (·.toNat < 128) := by
  unfold decodeURIComponent at h
  split_ifs at h
  rw [← countP_utf8, utf8_of_ofUtf8 h]
  exact countP_decode_le cs

namespace Form

def serialize (pairs : List (String × String)) : String :=
  String.ofList (['&'].intercalate (pairs.map fun (name, value) =>
    (form.encodeText name).toList ++ '=' :: (form.encodeText value).toList))

/-- The names and values of a form, where `lossy` gives the text of any bytes. -/
def parse (lossy : List UInt8 → String) (s : String) : List (String × String) :=
  ((s.toList.splitOn '&').filter (· ≠ [])).map fun part =>
    (lossy (form.decode (part.takeWhile (· ≠ '='))), lossy (form.decode ((part.dropWhile (· ≠ '=')).drop 1)))

theorem notMem_encodeText {c : Char} (h : c ∉ '%' :: '+' :: (['*', '-', '.', '_'] ++ alphanumerics)) (s : String) :
    c ∉ (form.encodeText s).toList := fun hc => h (mem_form c hc)

theorem parse_serialize {lossy : List UInt8 → String} (h : ∀ s, lossy (utf8 s) = s) (pairs : List (String × String)) :
    parse lossy (serialize pairs) = pairs := by
  rcases eq_or_ne pairs [] with rfl | hne
  · rfl
  have hand : ∀ part ∈ pairs.map fun (name, value) =>
      (form.encodeText name).toList ++ '=' :: (form.encodeText value).toList, '&' ∉ part := by
    intro part hpart
    obtain ⟨⟨name, value⟩, -, rfl⟩ := List.mem_map.1 hpart
    have hname := notMem_encodeText (c := '&') (by decide) name
    have hvalue := notMem_encodeText (c := '&') (by decide) value
    simp [hname, hvalue]
  have htake : ∀ name value : String, ((form.encodeText name).toList ++ '=' :: (form.encodeText value).toList).takeWhile
      (· ≠ '=') = (form.encodeText name).toList ∧ ((form.encodeText name).toList ++
      '=' :: (form.encodeText value).toList).dropWhile (· ≠ '=') = '=' :: (form.encodeText value).toList := by
    intro name value
    have hname : ∀ c ∈ (form.encodeText name).toList, decide (c ≠ '=') = true := fun c hc =>
      decide_eq_true fun heq => notMem_encodeText (by decide) name (heq ▸ hc)
    rw [List.takeWhile_append_of_pos hname, List.dropWhile_append_of_pos hname]
    simp
  rw [parse, serialize, String.toList_ofList, List.splitOn_intercalate _ hand (by simpa using hne),
    List.filter_eq_self.2, List.map_map]
  · refine (List.map_congr_left fun pair _ => ?_).trans (List.map_id pairs)
    obtain ⟨name, value⟩ := pair
    simp only [Function.comp, htake, List.drop_succ_cons, List.drop_zero, Coding.decode_encodeText, h, id]
  · intro part hpart
    obtain ⟨pair, -, rfl⟩ := List.mem_map.1 hpart
    simp

theorem serialize_eq_empty {pairs : List (String × String)} : serialize pairs = "" ↔ pairs = [] := by
  cases pairs with
  | nil => simp [serialize]
  | cons pair pairs => cases pairs <;> simp [serialize, List.intercalate]

end Form

/-! ### Paths -/

/-- Characters that are replaced by escapes. -/
def escape (escaped : Char → Bool) (s : List Char) : List Char :=
  s.flatMap fun c => if escaped c then (String.utf8EncodeChar c).flatMap escapeByte else [c]

theorem escape_eq_self {escaped : Char → Bool} {s : List Char} (h : ∀ c ∈ s, escaped c = false) :
    escape escaped s = s := by
  induction s with
  | nil => rfl
  | cons c s ih =>
    obtain ⟨hc, hs⟩ := List.forall_mem_cons.1 h
    rw [escape, List.flatMap_cons, hc]
    exact congrArg (c :: ·) (ih hs)

/-- The characters that the query of a special URL cannot have. -/
def inQuerySet (c : Char) : Bool :=
  c.toNat ≤ 32 || 126 < c.toNat || c ∈ [Char.ofNat 34, '#', '<', '>', Char.ofNat 39]

/-- Those that a path cannot have. -/
def inPathSet (c : Char) : Bool :=
  c.toNat ≤ 32 || 126 < c.toNat || c ∈ [Char.ofNat 34, '#', '<', '>', '?', '^', Char.ofNat 96, '{', '}']

def isSingleDot (segment : String) : Bool := segment.toList.map Char.toLower ∈ [['.'], ['%', '2', 'e']]

def isDoubleDot (segment : String) : Bool :=
  segment.toList.map Char.toLower ∈ [['.', '.'], ['.', '%', '2', 'e'], ['%', '2', 'e', '.'],
    ['%', '2', 'e', '%', '2', 'e']]

/-- The segments that `path` is followed by. A dot segment at the end leaves an empty one. -/
def removeDotSegments (path : List String) : List String → List String
  | [] => path
  | segment :: segments =>
    let last := if segments = [] then [""] else []
    if isDoubleDot segment then removeDotSegments (path.dropLast ++ last) segments
    else if isSingleDot segment then removeDotSegments (path ++ last) segments
    else removeDotSegments (path ++ [segment]) segments

/-- The path and the query of a URL that begins with its path, without its fragment. -/
def requestTarget (s : String) : List String × Option String :=
  let s := (s.toList.dropWhile (·.toNat ≤ 32)).rdropWhile (·.toNat ≤ 32)
  let s := (s.filter fun c => c.toNat ∉ [9, 10, 13]).takeWhile (· ≠ '#')
  let segments := ((s.takeWhile (· ≠ '?')).map fun c => if c = Char.ofNat 92 then '/' else c).splitOn '/'
  (removeDotSegments [] ((segments.drop 1).map fun segment => String.ofList (escape inPathSet segment)),
    match s.dropWhile (· ≠ '?') with
    | [] => none
    | _ :: query => some (String.ofList (escape inQuerySet query)))

/-- A character that stands for itself in a segment. -/
def SegmentChar (c : Char) : Prop := inPathSet c = false ∧ c ∉ ['/', Char.ofNat 92]

instance (c : Char) : Decidable (SegmentChar c) := inferInstanceAs (Decidable (_ ∧ _))

theorem mem_intercalate {sep c : Char} {pieces : List (List Char)} (h : c ∈ [sep].intercalate pieces) :
    c = sep ∨ ∃ piece ∈ pieces, c ∈ piece := by
  induction pieces with
  | nil => simp at h
  | cons piece pieces ih =>
    cases pieces with
    | nil => exact .inr ⟨piece, List.mem_cons_self, by simpa using h⟩
    | cons next pieces =>
      rw [List.intercalate_cons_cons, List.mem_append, List.mem_append, List.mem_singleton] at h
      rcases h with (h | h) | h
      · exact .inr ⟨piece, List.mem_cons_self, h⟩
      · exact .inl h
      · exact (ih h).imp_right fun ⟨piece, hpiece, hc⟩ => ⟨piece, List.mem_cons_of_mem _ hpiece, hc⟩

theorem segmentChar_component {s : String} : ∀ c ∈ (component.encodeText s).toList, SegmentChar c := by
  have hall : ('%' :: (['-', '_', '.', '!', '~', '*', Char.ofNat 39, '(', ')'] ++ alphanumerics)).all
      (SegmentChar ·) = true := by decide +kernel
  exact fun c hc => of_decide_eq_true (List.all_eq_true.1 hall c (mem_component c hc))

theorem inQuerySet_serialize {pairs : List (String × String)} :
    ∀ c ∈ (Form.serialize pairs).toList, inQuerySet c = false := by
  have hall : ('%' :: '+' :: (['*', '-', '.', '_'] ++ alphanumerics)).all (inQuerySet · = false) = true := by
    decide +kernel
  have hform : ∀ {text : String}, ∀ c ∈ (form.encodeText text).toList, inQuerySet c = false :=
    fun c hc => of_decide_eq_true (List.all_eq_true.1 hall c (mem_form c hc))
  intro c hc
  rw [Form.serialize, String.toList_ofList] at hc
  rcases mem_intercalate hc with rfl | ⟨part, hpart, hc⟩
  · decide
  obtain ⟨⟨name, value⟩, -, rfl⟩ := List.mem_map.1 hpart
  rcases List.mem_append.1 hc with hc | hc
  · exact hform c hc
  rcases List.mem_cons.1 hc with rfl | hc
  · decide
  · exact hform c hc

theorem toLower_eq {c d : Char} (h : c.toLower = d) : c = d ∨ 97 ≤ d.toNat ∧ d.toNat = c.toNat + 32 := by
  unfold Char.toLower at h
  split_ifs at h with hupper
  · have hge : 65 ≤ c.val.toNat := hupper.1
    have hle : c.val.toNat ≤ 90 := hupper.2
    have hval : d.toNat = (c.val + 32).toNat := congrArg Char.toNat h.symm
    rw [UInt32.toNat_add] at hval
    change d.toNat = (c.val.toNat + 32) % 2 ^ 32 at hval
    refine .inr ⟨by omega, ?_⟩
    show d.toNat = c.val.toNat + 32
    omega
  · exact .inl h

theorem eq_of_toLower_eq {c d : Char} (h : c.toLower = d) (hd : d.toNat < 97) : c = d := by
  rcases toLower_eq h with heq | ⟨hle, -⟩
  · exact heq
  · omega

theorem hexValue_of_toLower_eq {c : Char} (h : c.toLower = 'e') : hexValue c = some 14 := by
  rcases toLower_eq h with rfl | ⟨-, heq⟩
  · decide
  · have hc : c.toNat = 69 := by
      change 101 = c.toNat + 32 at heq
      omega
    simp [hexValue, hc]

theorem decode_dot {l : List Char} (h : l.map Char.toLower = ['.'] ∨ l.map Char.toLower = ['%', '2', 'e'])
    (cs : List Char) : component.decode (l ++ cs) = 46 :: component.decode cs := by
  rcases h with h | h
  · obtain ⟨c, rfl, hc⟩ := List.map_eq_singleton_iff.1 h
    obtain rfl := eq_of_toLower_eq hc (by decide)
    exact Coding.decode_cons (by decide) cs
  · obtain ⟨a, l, rfl, ha, h⟩ := List.map_eq_cons_iff.1 h
    obtain ⟨b, l, rfl, hb, h⟩ := List.map_eq_cons_iff.1 h
    obtain ⟨c, rfl, hc⟩ := List.map_eq_singleton_iff.1 h
    obtain rfl := eq_of_toLower_eq ha (by decide)
    obtain rfl := eq_of_toLower_eq hb (by decide)
    show component.decode ('%' :: '2' :: c :: cs) = _
    rw [Coding.decode, show hexValue '2' = some 2 by decide, hexValue_of_toLower_eq hc]
    rfl

theorem decode_of_isSingleDot {s : String} (h : isSingleDot s = true) : component.decode s.toList = [46] := by
  have hdot := decode_dot (l := s.toList) (by simpa [isSingleDot] using h) []
  rwa [List.append_nil] at hdot

theorem decode_of_isDoubleDot {s : String} (h : isDoubleDot s = true) : component.decode s.toList = [46, 46] := by
  have hcases : ∃ l l', s.toList = l ++ l' ∧ (l.map Char.toLower = ['.'] ∨ l.map Char.toLower = ['%', '2', 'e']) ∧
      (l'.map Char.toLower = ['.'] ∨ l'.map Char.toLower = ['%', '2', 'e']) := by
    have hmem : s.toList.map Char.toLower = ['.'] ++ ['.'] ∨ s.toList.map Char.toLower = ['.'] ++ ['%', '2', 'e'] ∨
        s.toList.map Char.toLower = ['%', '2', 'e'] ++ ['.'] ∨
        s.toList.map Char.toLower = ['%', '2', 'e'] ++ ['%', '2', 'e'] := by simpa [isDoubleDot] using h
    rcases hmem with hmem | hmem | hmem | hmem
    all_goals
      obtain ⟨l, l', heq, hl, hl'⟩ := List.map_eq_append_iff.1 hmem
      exact ⟨l, l', heq, by simp [hl], by simp [hl']⟩
  obtain ⟨l, l', heq, hl, hl'⟩ := hcases
  have hdot := decode_dot hl' []
  rw [List.append_nil] at hdot
  rw [heq, decode_dot hl, hdot]
  rfl

theorem isSingleDot_component {s : String} : isSingleDot (component.encodeText s) = true ↔ s = "." := by
  constructor
  · intro h
    have hdecode := decode_of_isSingleDot h
    rw [Coding.decode_encodeText] at hdecode
    exact utf8_injective (hdecode.trans (by decide +kernel))
  · rintro rfl
    decide +kernel

theorem isDoubleDot_component {s : String} : isDoubleDot (component.encodeText s) = true ↔ s = ".." := by
  constructor
  · intro h
    have hdecode := decode_of_isDoubleDot h
    rw [Coding.decode_encodeText] at hdecode
    exact utf8_injective (hdecode.trans (by decide +kernel))
  · rintro rfl
    decide +kernel

theorem removeDotSegments_append {path segments : List String}
    (h : ∀ segment ∈ segments, isDoubleDot segment = false ∧ isSingleDot segment = false) (rest : List String) :
    removeDotSegments path (segments ++ rest) = removeDotSegments (path ++ segments) rest := by
  induction segments generalizing path with
  | nil => simp
  | cons segment segments ih =>
    obtain ⟨⟨hdouble, hsingle⟩, h⟩ := List.forall_mem_cons.1 h
    rw [List.cons_append, removeDotSegments, if_neg (by simp [hdouble]), if_neg (by simp [hsingle]), ih h,
      List.append_assoc]
    rfl

theorem SegmentChar.cases {c : Char} (h : SegmentChar c) :
    32 < c.toNat ∧ c ≠ '#' ∧ c ≠ '?' ∧ c ≠ '/' ∧ c ≠ Char.ofNat 92 := by
  obtain ⟨hpath, hslash⟩ := h
  simp only [inPathSet, Bool.or_eq_false_iff, decide_eq_false_iff_not, List.mem_cons, not_or] at hpath hslash
  exact ⟨by omega, hpath.2.2.1, hpath.2.2.2.2.2.1, hslash.1, hslash.2.1⟩

theorem lt_of_inQuerySet {c : Char} (h : inQuerySet c = false) : 32 < c.toNat ∧ c ≠ '#' := by
  simp only [inQuerySet, Bool.or_eq_false_iff, decide_eq_false_iff_not, List.mem_cons, not_or] at h
  exact ⟨by omega, h.2.2.1⟩

/-- What is put together from segments and a query, is taken apart again. -/
theorem requestTarget_eq {segments : List String} {query : Option String}
    (hsegments : ∀ segment ∈ segments, ∀ c ∈ segment.toList, SegmentChar c)
    (hquery : ∀ q ∈ query, ∀ c ∈ q.toList, inQuerySet c = false) {s : String}
    (hs : s.toList = ['/'].intercalate ([] :: segments.map String.toList) ++
      (query.elim [] fun q => '?' :: q.toList)) :
    requestTarget s = (removeDotSegments [] segments, query) := by
  set path := ['/'].intercalate ([] :: segments.map String.toList) with hpath
  have hpathChars : ∀ c ∈ path, 32 < c.toNat ∧ c ≠ '#' ∧ c ≠ '?' ∧ c ≠ Char.ofNat 92 := by
    intro c hc
    rcases mem_intercalate hc with rfl | ⟨piece, hpiece, hmem⟩
    · decide
    rcases List.mem_cons.1 hpiece with rfl | hpiece
    · cases hmem
    · obtain ⟨segment, hsegment, rfl⟩ := List.mem_map.1 hpiece
      obtain ⟨hlt, hfragment, hquestion, -, hbackslash⟩ := (hsegments segment hsegment c hmem).cases
      exact ⟨hlt, hfragment, hquestion, hbackslash⟩
  have hall : ∀ c ∈ s.toList, 32 < c.toNat ∧ c ≠ '#' := by
    intro c hc
    rw [hs] at hc
    rcases List.mem_append.1 hc with hc | hc
    · exact ⟨(hpathChars c hc).1, (hpathChars c hc).2.1⟩
    · cases query with
      | none => cases hc
      | some q =>
        rcases List.mem_cons.1 hc with rfl | hc
        · decide
        · exact lt_of_inQuerySet (hquery q rfl c hc)
  have hdrop : s.toList.dropWhile (·.toNat ≤ 32) = s.toList :=
    List.dropWhile_eq_self_iff.2 fun hl => by simpa using (hall _ (List.getElem_mem hl)).1
  have hrdrop : s.toList.rdropWhile (·.toNat ≤ 32) = s.toList :=
    List.rdropWhile_eq_self_iff.2 fun hl => by simpa using (hall _ (List.getLast_mem hl)).1
  have hfilter : s.toList.filter (fun c => c.toNat ∉ [9, 10, 13]) = s.toList := by
    refine List.filter_eq_self.2 fun c hc => decide_eq_true ?_
    have hlt := (hall c hc).1
    simp
    omega
  have hfragment : s.toList.takeWhile (· ≠ '#') = s.toList :=
    List.takeWhile_eq_self_iff.2 fun c hc => decide_eq_true (hall c hc).2
  have hquestion : ∀ c ∈ path, decide (c ≠ '?') = true := fun c hc => decide_eq_true (hpathChars c hc).2.2.1
  have htake : s.toList.takeWhile (· ≠ '?') = path := by
    rw [hs, List.takeWhile_append_of_pos hquestion]
    cases query <;> simp
  have hrest : s.toList.dropWhile (· ≠ '?') = query.elim [] fun q => '?' :: q.toList := by
    rw [hs, List.dropWhile_append_of_pos hquestion]
    cases query <;> simp
  have hmap : path.map (fun c => if c = Char.ofNat 92 then '/' else c) = path := by
    refine (List.map_congr_left fun c hc => ?_).trans (List.map_id path)
    rw [if_neg (hpathChars c hc).2.2.2, id]
  have hsplit : path.splitOn '/' = [] :: segments.map String.toList := by
    refine List.splitOn_intercalate _ (fun piece hpiece => ?_) (List.cons_ne_nil _ _)
    rcases List.mem_cons.1 hpiece with rfl | hpiece
    · exact List.not_mem_nil
    · obtain ⟨segment, hsegment, rfl⟩ := List.mem_map.1 hpiece
      exact fun hc => (hsegments segment hsegment _ hc).cases.2.2.2.1 rfl
  have hescape : segments.map ((fun segment => String.ofList (escape inPathSet segment)) ∘ String.toList) =
      segments := by
    refine (List.map_congr_left fun segment hsegment => ?_).trans (List.map_id segments)
    rw [Function.comp, escape_eq_self fun c hc => (hsegments segment hsegment c hc).1, String.ofList_toList, id]
  rw [requestTarget]
  simp only [hdrop, hrdrop, hfilter, hfragment, htake, hrest, hmap, hsplit, List.drop_succ_cons, List.drop_zero,
    List.map_map, hescape]
  cases query with
  | none => rfl
  | some q =>
    show (_, some (String.ofList (escape inQuerySet q.toList))) = _
    rw [escape_eq_self (hquery q rfl), String.ofList_toList]

end Url

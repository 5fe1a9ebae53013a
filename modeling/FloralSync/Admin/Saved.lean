import FloralSync.Admin.Client

/-!
# Downloads as the admin UI saves them (`lib/api.ts`)

The name of a file goes through a header whose bytes the browser reads as Latin-1. The UI finds it there again unless
it has a double quote, characters beyond ASCII, or a `filename*` of its own (`extractFileName_contentDisposition`). A
note is saved under the name that the server gives it if its heading has a letter or digit, or its id is of this kind
(`downloadNote_eq_iff`).
-/

namespace FloralSync

open Url
open Rfc3339 (Civil)

/-- What follows a text, which is in lower case and may be there in any case. -/
def afterText (text s : List Char) : Option (List Char) :=
  if text.isPrefixOf (s.map Char.toLower) then some (s.drop text.length) else none

/-- The first place in `s` where the text is and the group that follows it matches. -/
def firstMatch (text : List Char) (group : List Char → Option (List Char)) : List Char → Option (List Char)
  | [] => none
  | c :: cs => ((afterText text (c :: cs)).bind group).or (firstMatch text group cs)

/-- `([^;]+)` -/
def upToSemicolon (s : List Char) : Option (List Char) :=
  let run := s.takeWhile (· ≠ ';')
  if run = [] then none else some run

/-- `([^"]+)"` -/
def upToQuote (s : List Char) : Option (List Char) :=
  let run := s.takeWhile (· ≠ '"')
  if run = [] ∨ '"' ∉ s then none else some run

/-- `filename*=utf-8''` -/
def utf8Name : List Char :=
  ['f', 'i', 'l', 'e', 'n', 'a', 'm', 'e', '*', '=', 'u', 't', 'f', '-', '8', Char.ofNat 39, Char.ofNat 39]

def extractFileName : Option String → Option String
  | none => none
  | some contentDisposition =>
    let s := contentDisposition.toList
    match firstMatch utf8Name upToSemicolon s with
    | some run => some ((decodeURIComponent run).getD (String.ofList run))
    | none =>
      match firstMatch "filename=\"".toList upToQuote s with
      | some run => some (String.ofList run)
      | none => (firstMatch "filename=".toList upToSemicolon s).map fun run => jsTrim (String.ofList run)

/-- `DownloadedNote` -/
structure DownloadedNote where
  fileName : String
  markdown : String
deriving DecidableEq

/-- `Headers.get`, which reads bytes as Latin-1. -/
def headerText (value : String) : String := String.ofList (textOf (utf8 value))

/-- What `downloadNote` makes of the reply. -/
def downloadedNote (id : String) (reply : FileReply String) : DownloadedNote where
  fileName := (extractFileName (some (headerText reply.contentDisposition))).getD (id ++ ".md")
  markdown := reply.body

section Matches

variable {text s run : List Char} {group : List Char → Option (List Char)}

theorem firstMatch_eq_some (h : firstMatch text group s = some run) : ∃ front hit rest, s = front ++ hit ++ rest ∧
    hit.map Char.toLower = text ∧ group rest = some run := by
  induction s with
  | nil => cases h
  | cons c cs ih =>
    rw [firstMatch, Option.or_eq_some_iff] at h
    rcases h with h | ⟨-, h⟩
    · obtain ⟨rest, hafter, hgroup⟩ := Option.bind_eq_some_iff.1 h
      unfold afterText at hafter
      split_ifs at hafter with hprefix
      obtain rfl := Option.some.inj hafter
      refine ⟨[], (c :: cs).take text.length, _, (List.take_append_drop ..).symm, ?_, hgroup⟩
      rw [List.map_take]
      exact (List.prefix_iff_eq_take.1 (List.isPrefixOf_iff_prefix.1 hprefix)).symm
    · obtain ⟨front, hit, rest, rfl, hhit, hgroup⟩ := ih h
      exact ⟨c :: front, hit, rest, rfl, hhit, hgroup⟩

theorem firstMatch_ne_none {front hit rest : List Char} (hne : text ≠ []) (hhit : hit.map Char.toLower = text)
    (hgroup : group rest ≠ none) : firstMatch text group (front ++ hit ++ rest) ≠ none := by
  induction front with
  | nil =>
    have hafter : afterText text (hit ++ rest) = some rest := by
      have hlength : hit.length = text.length := by rw [← hhit, List.length_map]
      rw [afterText, if_pos, ← hlength, List.drop_left]
      rw [List.map_append, hhit]
      exact List.isPrefixOf_iff_prefix.2 (List.prefix_append ..)
    rw [List.nil_append]
    cases hit with
    | nil => exact absurd hhit.symm hne
    | cons c cs =>
      show ((afterText text (c :: cs ++ rest)).bind group).or _ ≠ none
      rw [hafter]
      simp [hgroup]
  | cons c front ih =>
    show ((afterText text (c :: (front ++ hit ++ rest))).bind group).or
      (firstMatch text group (front ++ hit ++ rest)) ≠ none
    exact fun h => ih (Option.or_eq_none_iff.1 h).2

/-- What goes before the name. -/
def disposition : List Char := "attachment; filename=\"".toList

theorem firstMatch_utf8Name_disposition (s : List Char) :
    firstMatch utf8Name upToSemicolon (disposition ++ s) = firstMatch utf8Name upToSemicolon s := rfl

theorem firstMatch_quoted_disposition (s : List Char) : firstMatch "filename=\"".toList upToQuote (disposition ++ s) =
    (upToQuote s).or (firstMatch "filename=\"".toList upToQuote s) := rfl

theorem firstMatch_plain_disposition (s : List Char) : firstMatch "filename=".toList upToSemicolon (disposition ++ s) =
    upToSemicolon ('"' :: s) := rfl

theorem upToSemicolon_eq_some (h : upToSemicolon s = some run) :
    run = s.takeWhile (· ≠ ';') ∧ s.head? ≠ some ';' ∧ s ≠ [] := by
  unfold upToSemicolon at h
  dsimp only at h
  split_ifs at h with hrun
  refine ⟨(Option.some.inj h).symm, fun hhead => ?_, fun hnil => hrun (by rw [hnil]; rfl)⟩
  obtain ⟨cs, rfl⟩ := List.head?_eq_some_iff.1 hhead
  simp at hrun

theorem upToSemicolon_ne_none (hhead : s.head? ≠ some ';') (hne : s ≠ []) : upToSemicolon s ≠ none := by
  cases s with
  | nil => exact absurd rfl hne
  | cons c cs =>
    have hc : c ≠ ';' := fun heq => hhead (by rw [heq]; rfl)
    simp [upToSemicolon, hc]

theorem upToQuote_eq_some (h : upToQuote s = some run) : run = s.takeWhile (· ≠ '"') := by
  unfold upToQuote at h
  dsimp only at h
  split_ifs at h
  exact (Option.some.inj h).symm

end Matches

/-! ### The name in the header -/

/-- A name that is found again: in ASCII, without a double quote or a `filename*` with a value. -/
structure KeptName (name : List Char) : Prop where
  ascii : ∀ c ∈ name, c.toNat < 128 ∧ c ≠ '"'
  plain : ∀ front hit rest, name = front ++ hit ++ rest → hit.map Char.toLower = utf8Name → rest.head? = some ';'

section Name

variable {name : String} {cs run : List Char}

theorem firstMatch_eq_none_iff : firstMatch utf8Name upToSemicolon (cs ++ ['"']) = none ↔
    ∀ front hit rest, cs = front ++ hit ++ rest → hit.map Char.toLower = utf8Name → rest.head? = some ';' := by
  constructor
  · rintro hnone front hit rest rfl hhit
    by_contra hhead
    have hquote : (rest ++ ['"']).head? ≠ some ';' := by
      cases rest with
      | nil => decide
      | cons c rest => exact hhead
    have hgroup := upToSemicolon_ne_none hquote (by simp)
    rw [List.append_assoc] at hnone
    exact firstMatch_ne_none (by decide) hhit hgroup hnone
  · intro h
    cases hmatch : firstMatch utf8Name upToSemicolon (cs ++ ['"']) with
    | none => rfl
    | some run =>
      obtain ⟨front, hit, rest, heq, hhit, hgroup⟩ := firstMatch_eq_some hmatch
      obtain ⟨-, hhead, hne⟩ := upToSemicolon_eq_some hgroup
      obtain ⟨rest, c, rfl⟩ := (List.eq_nil_or_concat' rest).resolve_left hne
      rw [← List.append_assoc] at heq
      obtain ⟨rfl, hc⟩ := List.append_inj' heq rfl
      have hrest := h front hit rest rfl hhit
      rw [List.head?_append, hrest] at hhead
      exact absurd rfl hhead

/-- How much of a text is ASCII. -/
def asciiLength (cs : List Char) : Nat := cs.countP (·.toNat < 128)

theorem asciiLength_textOf (name : String) : asciiLength (textOf (utf8 name)) = asciiLength name.toList := by
  rw [asciiLength, asciiLength, ← countP_utf8, textOf, List.countP_map]
  refine List.countP_congr fun b _ => ?_
  rw [Function.comp, toNat_charOf]
  simp [UInt8.lt_iff_toNat_lt]

theorem mem_textOf_utf8 {c : Char} (hc : c.toNat < 128) : c ∈ textOf (utf8 name) ↔ c ∈ name.toList := by
  rw [textOf, List.mem_map]
  constructor
  · rintro ⟨b, hb, rfl⟩
    rw [toNat_charOf] at hc
    obtain ⟨c, hmem, hb⟩ := List.mem_flatMap.1 hb
    rw [← (mem_utf8EncodeChar hc).1 hb, Char.ofNat_toNat]
    exact hmem
  · intro hmem
    have hbyte : (UInt8.ofNat c.toNat).toNat = c.toNat := UInt8.toNat_ofNat_of_lt' (hc.trans (by decide))
    refine ⟨UInt8.ofNat c.toNat, List.mem_flatMap.2 ⟨c, hmem, ?_⟩, by rw [hbyte, Char.ofNat_toNat]⟩
    rw [utf8EncodeChar_of_lt hc]
    exact List.mem_singleton_self _

theorem textOf_utf8_eq_iff : textOf (utf8 name) = name.toList ↔ ∀ c ∈ name.toList, c.toNat < 128 := by
  constructor
  · intro heq
    refine ascii_of_length ?_
    rw [← utf8, ← heq, textOf, List.length_map]
  · intro hascii
    have hbytes : utf8 name = bytesOf name.toList := by
      rw [utf8, bytesOf, ← List.flatMap_singleton' (name.toList.map _), List.flatMap_map]
      exact List.flatMap_congr fun c hc => utf8EncodeChar_of_lt (hascii c hc)
    rw [hbytes, textOf_bytesOf fun c hc => (hascii c hc).trans (by decide)]

theorem lt_of_toLower {c : Char} (h : c.toLower.toNat < 128) : c.toNat < 128 := by
  unfold Char.toLower at h
  split_ifs at h with hupper
  · exact Nat.lt_of_le_of_lt hupper.2 (by decide)
  · exact h

theorem asciiLength_of_firstMatch (h : firstMatch utf8Name upToSemicolon (cs ++ ['"']) = some run) :
    asciiLength ((decodeURIComponent run).getD (String.ofList run)).toList < asciiLength cs := by
  obtain ⟨front, hit, rest, heq, hhit, hgroup⟩ := firstMatch_eq_some h
  have hrun : asciiLength run ≤ asciiLength rest := by
    rw [(upToSemicolon_eq_some hgroup).1]
    exact (List.takeWhile_sublist _).countP_le
  have hdecode : asciiLength ((decodeURIComponent run).getD (String.ofList run)).toList ≤ asciiLength run := by
    cases hdecode : decodeURIComponent run with
    | none => rw [Option.getD_none, String.toList_ofList]
    | some s => exact countP_decodeURIComponent_le hdecode
  have hlength : asciiLength hit = 17 := by
    have hascii : ∀ c ∈ hit, c.toNat < 128 := by
      intro c hc
      have hlower : c.toLower ∈ utf8Name := hhit ▸ List.mem_map_of_mem hc
      have hall : utf8Name.all (·.toNat < 128) = true := by decide
      exact lt_of_toLower (of_decide_eq_true (List.all_eq_true.1 hall _ hlower))
    have hcount : asciiLength hit = hit.length := List.countP_eq_length.2 fun c hc => decide_eq_true (hascii c hc)
    rw [hcount, ← List.length_map Char.toLower, hhit]
    rfl
  have hcount := congrArg asciiLength heq
  simp only [asciiLength, List.countP_append, List.countP_singleton] at *
  simp at *
  omega

theorem upToQuote_of_notMem (hne : cs ≠ []) (hquote : '"' ∉ cs) : upToQuote (cs ++ ['"']) = some cs := by
  have htake : (cs ++ ['"']).takeWhile (· ≠ '"') = cs := by
    have hall : ∀ c ∈ cs, decide (c ≠ '"') = true := fun c hc => decide_eq_true fun heq : c = '"' => hquote (heq ▸ hc)
    rw [List.takeWhile_append_of_pos hall]
    simp
  unfold upToQuote
  dsimp only
  rw [htake, if_neg (by simp [hne])]

theorem notMem_of_upToQuote {s : List Char} (h : upToQuote s = some run) : '"' ∉ run := by
  rw [upToQuote_eq_some h]
  intro hmem
  simpa using List.mem_takeWhile_imp hmem

theorem notMem_of_quoted {text s s' : List Char} (h : (upToQuote s).or (firstMatch text upToQuote s') = some run) :
    '"' ∉ run := by
  rcases Option.or_eq_some_iff.1 h with hrun | ⟨-, hrun⟩
  · exact notMem_of_upToQuote hrun
  · obtain ⟨front, hit, rest, -, -, hgroup⟩ := firstMatch_eq_some hrun
    exact notMem_of_upToQuote hgroup

theorem trimBy_eq_self {p : Char → Bool} {c d : Char} (hc : p c = false) (hd : p d = false) (cs : List Char) :
    trimBy p (String.ofList (c :: (cs ++ [d]))) = String.ofList (c :: (cs ++ [d])) := by
  rw [trimBy, String.toList_ofList, List.dropWhile_cons_of_neg (by simp [hc]), ← List.cons_append, List.reverse_append]
  simp [hd]

/-- What is left of a name that has a double quote is another name. -/
theorem jsTrim_ne (hlength : asciiLength name.toList = asciiLength cs) (hsemicolon : ';' ∈ name.toList ↔ ';' ∈ cs)
    (h : upToSemicolon ('"' :: (cs ++ ['"'])) = some run) : jsTrim (String.ofList run) ≠ name := by
  obtain ⟨rfl, -, -⟩ := upToSemicolon_eq_some h
  intro heq
  by_cases hmem : ';' ∈ cs
  · have hname := hsemicolon.2 hmem
    rw [← heq] at hname
    have htake := (trimBy_isInfix _ _).subset hname
    rw [String.toList_ofList] at htake
    simpa using List.mem_takeWhile_imp htake
  · have hall : ∀ c ∈ '"' :: (cs ++ ['"']), decide (c ≠ ';') = true := by
      intro c hc
      refine decide_eq_true fun hsemi => ?_
      rw [hsemi] at hc
      simp [hmem] at hc
    rw [List.takeWhile_eq_self_iff.2 hall, jsTrim, trimBy_eq_self (by decide) (by decide)] at heq
    rw [← heq, String.toList_ofList] at hlength
    have hquotes : asciiLength cs + 1 + 1 = asciiLength cs := by simpa [asciiLength] using hlength
    omega

theorem toList_headerText (name : String) : (headerText ("attachment; filename=\"" ++ name ++ "\"")).toList =
    disposition ++ (textOf (utf8 name) ++ ['"']) := by
  rw [headerText, String.toList_ofList, utf8, String.toList_append, String.toList_append, List.flatMap_append,
    List.flatMap_append, textOf_append, textOf_append, List.append_assoc]
  rfl

theorem extractFileName_ne_none (name : String) :
    extractFileName (some (headerText ("attachment; filename=\"" ++ name ++ "\""))) ≠ none := by
  have hplain : upToSemicolon ('"' :: (textOf (utf8 name) ++ ['"'])) ≠ none := upToSemicolon_ne_none (by simp) (by simp)
  rw [extractFileName, toList_headerText, firstMatch_utf8Name_disposition, firstMatch_quoted_disposition,
    firstMatch_plain_disposition]
  split
  · simp
  · split
    · simp
    · exact mt Option.map_eq_none_iff.1 hplain

theorem extractFileName_contentDisposition (hne : name ≠ "") :
    extractFileName (some (headerText ("attachment; filename=\"" ++ name ++ "\""))) = some name ↔
      KeptName name.toList := by
  have hcs : textOf (utf8 name) ≠ [] := by
    have hle := length_le_utf8 name.toList
    intro hnil
    rw [← utf8, ← List.length_map (fun b : UInt8 => Char.ofNat b.toNat), ← textOf, hnil] at hle
    exact hne (by simpa using hle)
  rw [extractFileName, toList_headerText, firstMatch_utf8Name_disposition, firstMatch_quoted_disposition,
    firstMatch_plain_disposition]
  constructor
  · intro h
    have hlength := asciiLength_textOf name
    cases hutf8 : firstMatch utf8Name upToSemicolon (textOf (utf8 name) ++ ['"']) with
    | some run =>
      have hlt := asciiLength_of_firstMatch hutf8
      rw [hutf8] at h
      rw [Option.some.inj h] at hlt
      omega
    | none =>
      rw [hutf8] at h
      dsimp only at h
      have hquote : '"' ∉ textOf (utf8 name) := by
        intro hmem
        have hname : '"' ∈ name.toList := (mem_textOf_utf8 (by decide)).1 hmem
        cases hrun : (upToQuote (textOf (utf8 name) ++ ['"'])).or
            (firstMatch "filename=\"".toList upToQuote (textOf (utf8 name) ++ ['"'])) with
        | some run =>
          rw [hrun] at h
          rw [← Option.some.inj h, String.toList_ofList] at hname
          exact notMem_of_quoted hrun hname
        | none =>
          rw [hrun] at h
          obtain ⟨run, hrun, htrim⟩ := Option.map_eq_some_iff.1 h
          exact jsTrim_ne hlength.symm (mem_textOf_utf8 (by decide)).symm hrun htrim
      rw [upToQuote_of_notMem hcs hquote, Option.some_or] at h
      have htext := congrArg String.toList (Option.some.inj h)
      rw [String.toList_ofList] at htext
      rw [htext] at hutf8 hquote
      have hascii := textOf_utf8_eq_iff.1 htext
      exact ⟨fun c hc => ⟨hascii c hc, fun heq => hquote (heq ▸ hc)⟩, firstMatch_eq_none_iff.1 hutf8⟩
  · intro h
    have htext := textOf_utf8_eq_iff.2 fun c hc => (h.ascii c hc).1
    have hquote : '"' ∉ name.toList := fun hc => (h.ascii _ hc).2 rfl
    rw [htext] at hcs ⊢
    rw [firstMatch_eq_none_iff.2 h.plain, upToQuote_of_notMem hcs hquote, Option.some_or]
    exact congrArg some String.ofList_toList

end Name

section Note

variable {τ : Type} [Chrono τ] {valid : Char → Bool} {crates : Crates} {now : Instant} {headers : HeaderMap}
  {config : ServerConfig} {db : Database} {noteId : String} {note : NoteDetail τ} {reply : FileReply String}
  {cs : List Char}

theorem KeptName.of_notMem (hascii : ∀ c ∈ cs, c.toNat < 128 ∧ c ≠ '"') (hstar : '*' ∉ cs) : KeptName cs := by
  refine ⟨hascii, ?_⟩
  rintro front hit rest rfl hhit
  obtain ⟨c, hc, hlower⟩ : ∃ c ∈ hit, c.toLower = '*' := List.mem_map.1 (hhit ▸ by decide)
  obtain rfl : c = '*' := (toLower_eq hlower).resolve_right fun h => absurd h.1 (by decide)
  exact absurd (List.mem_append_left rest (List.mem_append_right front hc)) hstar

theorem keptName_append_md : KeptName (cs ++ ".md".toList) ↔ KeptName cs := by
  constructor
  · intro h
    refine ⟨fun c hc => h.ascii c (List.mem_append_left _ hc), ?_⟩
    rintro front hit rest rfl hhit
    have hhead := h.plain front hit (rest ++ ".md".toList) (List.append_assoc ..) hhit
    cases rest with
    | nil => exact absurd hhead (by decide)
    | cons c rest => exact hhead
  · intro h
    constructor
    · have hmd : ∀ c ∈ ".md".toList, c.toNat < 128 ∧ c ≠ '"' := forall_mem_of_all (by decide)
      exact List.forall_mem_append.2 ⟨h.ascii, hmd⟩
    intro front hit rest heq hhit
    have hlength : hit.length = 17 := by rw [← List.length_map Char.toLower, hhit]; rfl
    have hdot : '.' ∉ hit := fun hc =>
      absurd (hhit ▸ List.mem_map_of_mem hc : Char.toLower '.' ∈ utf8Name) (by decide)
    rcases List.append_eq_append_iff.1 heq with ⟨tail, hfront, hmd⟩ | ⟨tail, rfl, rfl⟩
    · -- a match that ends in the extension would have its dot
      have htail : tail.length ≤ 3 := by
        have hcount := congrArg List.length hmd
        rw [List.length_append] at hcount
        exact Nat.le.intro hcount.symm
      cases tail with
      | nil =>
        rw [List.append_nil] at hfront
        exact absurd (h.plain front hit [] (by rw [hfront, List.append_nil]) hhit) nofun
      | cons c tail =>
        obtain rfl : '.' = c := (List.cons.inj hmd).1
        rcases List.append_eq_append_iff.1 hfront with ⟨x, -, rfl⟩ | ⟨x, -, hx⟩
        · exact absurd (List.mem_append_right x List.mem_cons_self) hdot
        · have hcount := congrArg List.length hx
          rw [List.length_append, hlength] at hcount
          omega
    · rw [List.head?_append, h.plain front hit tail rfl hhit]
      rfl

theorem keptName_fileName : KeptName note.download.fileName.toList ↔
    HasAlphanum note.heading ∨ KeptName note.id.toList := by
  show KeptName (sanitizeFileStem note.heading note.id ++ ".md").toList ↔ _
  rw [String.toList_append, keptName_append_md]
  by_cases halnum : HasAlphanum note.heading
  · have hstem : ∀ c ∈ (sanitizeFileStem note.heading note.id).toList, StemChar c := stemChar_of_hasAlphanum halnum
    refine iff_of_true (.of_notMem (fun c hc => ?_) fun hc => ?_) (.inl halnum)
    · obtain ⟨hsafe, -, hlt⟩ := (hstem c hc).safe
      exact ⟨by omega, hsafe.2.2.1⟩
    · rcases hstem _ hc with h | h <;> exact absurd h (by decide)
  · rw [sanitizeFileStem_of_not halnum, or_iff_right halnum]

theorem eq_of_contentDisposition {fileName value : String} (h : contentDisposition valid fileName = .ok value) :
    value = "attachment; filename=\"" ++ fileName ++ "\"" := by
  unfold contentDisposition headerFromStr at h
  split_ifs at h
  exact (Except.ok.inj h).symm

/-- The UI saves what the server sends, under its name if and only if the heading gives the name or the id is kept. -/
theorem downloadedNote_eq_iff (h : noteDownload τ valid crates now headers config db noteId = .ok reply)
    (hnote : noteDetail db noteId = .ok (some note)) :
    downloadedNote noteId reply = ⟨note.download.fileName, note.download.markdown⟩ ↔
      HasAlphanum note.heading ∨ KeptName noteId.toList := by
  obtain ⟨-, download, hdownload, disposition, hdisposition, rfl⟩ := noteDownload_eq_ok.1 h
  obtain ⟨note', hnote', hsome⟩ := markdownDownload_eq_ok.1 hdownload
  obtain rfl : some note = note' := Except.ok.inj (hnote.symm.trans hnote')
  obtain rfl : download = note.download := Option.some.inj hsome
  obtain rfl := eq_of_contentDisposition hdisposition
  have hne : note.download.fileName ≠ "" := by
    show sanitizeFileStem note.heading note.id ++ ".md" ≠ ""
    simp
  rw [← id_of_noteDetail hnote, ← keptName_fileName, ← extractFileName_contentDisposition hne, downloadedNote,
    DownloadedNote.mk.injEq, and_iff_left rfl]
  constructor
  · intro hname
    obtain ⟨name, hfound⟩ := Option.ne_none_iff_exists'.1 (extractFileName_ne_none note.download.fileName)
    rw [hfound, Option.getD_some] at hname
    rw [hfound, hname]
  · intro hname
    rw [hname, Option.getD_some]

end Note

/-- A title in letters gives the name. -/
theorem downloadedNote_oneNote : ∃ reply, noteDownload Civil visibleAscii sampleCrates sampleClaims.issuedAt
    sampleHeaders sampleConfig Sample.oneNoteStore.db "n1" = .ok reply ∧
      downloadedNote "n1" reply = ⟨"note.md", (detailOf (Sample.stored "n1" "note" Sample.eight) 1).markdown⟩ := by
  have hdownload : markdownDownload Civil Sample.oneNoteStore.db "n1" =
      .ok (some ⟨"note.md", (detailOf (Sample.stored "n1" "note" Sample.eight) 1).markdown⟩) :=
    markdownDownload_eq_ok.2 ⟨_, noteDetail_oneNote, by decide +kernel⟩
  have hvisible : ∀ c ∈ "note.md".toList, visibleAscii c = true := forall_mem_of_all (by decide +kernel)
  obtain ⟨value, hvalue⟩ := exists_contentDisposition takesVisible_visibleAscii hvisible
  have hreply := noteDownload_eq_ok.2 ⟨⟨_, requireSession_sampleConfig⟩, _, hdownload, value, hvalue, rfl⟩
  exact ⟨_, hreply, (downloadedNote_eq_iff hreply noteDetail_oneNote).2 (.inl (by decide +kernel))⟩

end FloralSync

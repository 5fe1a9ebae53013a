import FloralSync.Store.Admin

/-!
# Notes as Markdown (`admin_store.rs`)

A download is named after the ASCII letters and digits of the heading, or after the id where the heading has none.
-/

namespace FloralSync

/-- One round of the loop of `sanitize_file_stem`, on the stem and `last_was_dash`. -/
def sanitizeChar : String × Bool → Char → String × Bool
  | (stem, lastWasDash), ch =>
    if ch.isAlphanum then (stem.push ch.toLower, false)
    else if ch = ' ' ∨ ch = '-' ∨ ch = '_' then
      if lastWasDash then (stem, lastWasDash) else (stem.push '-', true)
    else (stem, lastWasDash)

def sanitizeFileStem (title fallbackId : String) : String :=
  let stem := trimBy (· = '-') (title.toList.foldl sanitizeChar ("", false)).1
  if stem = "" then fallbackId else stem

/-- The characters of a stem. -/
def StemChar (c : Char) : Prop := c.isAlphanum = true ∨ c = '-'

/-- The title has an ASCII letter or digit. -/
def HasAlphanum (title : String) : Prop := ∃ c ∈ title.toList, c.isAlphanum = true

instance (title : String) : Decidable (HasAlphanum title) :=
  decidable_of_iff (title.toList.any Char.isAlphanum = true) List.any_eq_true

section Stem

variable {title id : String} {acc : String × Bool} {c : Char}

theorem isAlphanum_iff : c.isAlphanum = true ↔ 48 ≤ c.toNat ∧ c.toNat ≤ 57 ∨ 65 ≤ c.toNat ∧ c.toNat ≤ 90 ∨
    97 ≤ c.toNat ∧ c.toNat ≤ 122 := by
  unfold Char.isAlphanum Char.isAlpha Char.isUpper Char.isLower Char.isDigit
  simp only [Bool.or_eq_true, Bool.and_eq_true, decide_eq_true_eq, UInt32.le_iff_toNat_le, ge_iff_le]
  change (65 ≤ c.toNat ∧ c.toNat ≤ 90 ∨ 97 ≤ c.toNat ∧ c.toNat ≤ 122) ∨ 48 ≤ c.toNat ∧ c.toNat ≤ 57 ↔ _
  omega

theorem isAlphanum_toLower (h : c.isAlphanum = true) : c.toLower.isAlphanum = true := by
  unfold Char.toLower
  split_ifs with hupper
  · have hge : 65 ≤ c.val.toNat := hupper.1
    have hle : c.val.toNat ≤ 90 := hupper.2
    refine isAlphanum_iff.2 (.inr (.inr ?_))
    change 97 ≤ (c.val + 32).toNat ∧ (c.val + 32).toNat ≤ 122
    rw [UInt32.toNat_add]
    change 97 ≤ (c.val.toNat + 32) % 2 ^ 32 ∧ (c.val.toNat + 32) % 2 ^ 32 ≤ 122
    omega
  · exact h

theorem sanitizeChar_spec (hacc : ∀ d ∈ acc.1.toList, StemChar d) :
    (∀ d ∈ (sanitizeChar acc c).1.toList, StemChar d) ∧
      (HasAlphanum (sanitizeChar acc c).1 ↔ HasAlphanum acc.1 ∨ c.isAlphanum = true) := by
  have hdash : ¬ '-'.isAlphanum = true := by decide
  rw [sanitizeChar]
  split_ifs with halnum
  · have hlower := isAlphanum_toLower halnum
    simp_all [HasAlphanum, StemChar, or_imp]
  all_goals simp_all [HasAlphanum, StemChar, or_imp]

theorem foldl_sanitizeChar_spec (cs : List Char) (acc : String × Bool) (hacc : ∀ d ∈ acc.1.toList, StemChar d) :
    (∀ d ∈ (cs.foldl sanitizeChar acc).1.toList, StemChar d) ∧
      (HasAlphanum (cs.foldl sanitizeChar acc).1 ↔ HasAlphanum acc.1 ∨ ∃ c ∈ cs, c.isAlphanum = true) := by
  induction cs generalizing acc with
  | nil => exact ⟨hacc, by simp⟩
  | cons c cs ih =>
    obtain ⟨hchars, halnum⟩ := sanitizeChar_spec (c := c) hacc
    obtain ⟨hchars, hrest⟩ := ih _ hchars
    refine ⟨hchars, ?_⟩
    rw [List.foldl_cons, hrest, halnum, or_assoc]
    simp

theorem stemChar_of_hasAlphanum (h : HasAlphanum title) : ∀ c ∈ (sanitizeFileStem title id).toList, StemChar c := by
  obtain ⟨hchars, halnum⟩ := foldl_sanitizeChar_spec title.toList ("", false) (by simp)
  have hne : trimBy (· = '-') (title.toList.foldl sanitizeChar ("", false)).1 ≠ "" := by
    intro hempty
    obtain ⟨c, hc, hcalnum⟩ := halnum.2 (.inr h)
    obtain rfl := of_decide_eq_true (trimBy_eq_empty.1 hempty c hc)
    exact absurd hcalnum (by decide)
  rw [sanitizeFileStem, if_neg hne]
  exact fun c hc => hchars c ((trimBy_isInfix _ _).subset hc)

theorem sanitizeFileStem_of_not (h : ¬ HasAlphanum title) : sanitizeFileStem title id = id := by
  obtain ⟨hchars, halnum⟩ := foldl_sanitizeChar_spec title.toList ("", false) (by simp)
  have hempty : trimBy (· = '-') (title.toList.foldl sanitizeChar ("", false)).1 = "" := by
    refine trimBy_eq_empty.2 fun c hc => decide_eq_true ?_
    exact (hchars c hc).resolve_left fun hcalnum => (halnum.1 ⟨c, hc, hcalnum⟩).elim (by simp [HasAlphanum]) h
  rw [sanitizeFileStem, if_pos hempty]

end Stem

/-! ### The download -/

structure MarkdownDownload where
  fileName : String
  markdown : String
deriving DecidableEq

variable {τ : Type} [Chrono τ]

/-- The title, or the id of a note whose title is blank. -/
def NoteDetail.heading (note : NoteDetail τ) : String := if trim note.title = "" then note.id else note.title

/-- The text of a note, ended by a newline. -/
def NoteDetail.markdown (note : NoteDetail τ) : String :=
  let markdown := "# " ++ note.heading ++ "\n\n"
  let markdown := if trim note.category ≠ "" then markdown ++ "Category: " ++ note.category ++ "\n" else markdown
  let markdown := markdown ++ "Updated: " ++ toRfc3339 note.updatedAt ++ "\n"
  let markdown := match note.deletedAt with
    | some deletedAt => markdown ++ "Deleted: " ++ toRfc3339 deletedAt ++ "\n"
    | none => markdown
  let markdown := markdown ++ "Revision: " ++ toString note.revision ++ "\n"
  let markdown := markdown ++ "Device: " ++ note.deviceId ++ "\n\n" ++ "---\n\n" ++ note.content
  if markdown.toList.getLast? = some '\n' then markdown else markdown.push '\n'

def NoteDetail.download (note : NoteDetail τ) : MarkdownDownload where
  fileName := sanitizeFileStem note.heading note.id ++ ".md"
  markdown := note.markdown

variable (τ) in
def markdownDownload (db : Database) (noteId : String) : Except StoreError (Option MarkdownDownload) := do
  let note : Option (NoteDetail τ) ← noteDetail db noteId
  return note.map NoteDetail.download

theorem id_of_noteDetail {db : Database} {noteId : String} {note : NoteDetail τ}
    (h : noteDetail db noteId = .ok (some note)) : note.id = noteId := by
  obtain ⟨notes, -, h⟩ := noteDetail_eq_ok.1 h
  cases hlookup : notes.lookup noteId with
  | none => rw [hlookup] at h; cases h
  | some row =>
    rw [hlookup] at h
    obtain ⟨change, hdecode, -, h⟩ := h
    obtain rfl := Option.some.inj h
    exact (ChangeRow.id_of_decode hdecode).trans (Replication.Keyed.lookup_eq_some.1 hlookup).2

theorem markdownDownload_eq_ok {db : Database} {noteId : String} {download : Option MarkdownDownload} :
    markdownDownload τ db noteId = .ok download ↔
      ∃ note : Option (NoteDetail τ), noteDetail db noteId = .ok note ∧ download = note.map NoteDetail.download := by
  simp only [markdownDownload, Except.bind_eq_ok]
  exact exists_congr fun note => and_congr_right fun _ => ⟨fun h => (Except.ok.inj h).symm, fun h => congrArg _ h.symm⟩

end FloralSync

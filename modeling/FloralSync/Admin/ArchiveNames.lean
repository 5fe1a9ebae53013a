import FloralSync.Admin.Archive

/-!
# The numbers in an archive's names (`admin_api.rs`)

The suffix of `unique_archive_file_name` is an `i32`, which wraps around in a release build. The loop goes on as
long as all its candidates are used, so with all of the 2^32 candidates used it never ends. An archive of fewer
than 2^31 notes does not come that far: there the loop is the one without a bound on the suffix
(`uniqueArchiveFileNameWithin_eq`).
-/

namespace FloralSync

open Fresh
open Rfc3339 (Civil)

/-- `(stem, extension)` -/
def stemAndExtension (fileName : String) : String × Option String :=
  match rsplitOnce '.' fileName with
  | some (stem, extension) => if stem ≠ "" then (stem, some extension) else (fileName, none)
  | none => (fileName, none)

def candidateName (fileName : String) (suffix : Int32) : String :=
  match stemAndExtension fileName with
  | (stem, some extension) => stem ++ "-" ++ toString suffix ++ "." ++ extension
  | (stem, none) => stem ++ "-" ++ toString suffix

/-- The loop, if it ends within so many rounds. -/
def suffixLoop (candidate : Int32 → String) (used : Finset String) : Nat → Int32 → Option (String × Finset String)
  | 0, _ => none
  | rounds + 1, suffix =>
    if candidate suffix ∉ used then some (candidate suffix, insert (candidate suffix) used)
    else suffixLoop candidate used rounds (suffix + 1)

/-- `unique_archive_file_name`, if its loop ends within so many rounds. -/
def uniqueArchiveFileNameWithin (rounds : Nat) (fileName : String) (used : Finset String) :
    Option (String × Finset String) :=
  if fileName ∉ used then some (fileName, insert fileName used)
  else suffixLoop (candidateName fileName) used rounds 2

variable {ω ζ : Type}

/-- The loop of `build_notes_archive`, if every loop for a name ends within so many rounds. -/
def addDownloadsWithin (rounds : Nat) (zip : Zip ω ζ) : List MarkdownDownload → ω → Finset String →
    Option (Except ApiError ω)
  | [], writer, _ => some (.ok writer)
  | download :: downloads, writer, used =>
    match uniqueArchiveFileNameWithin rounds download.fileName used with
    | none => none
    | some (fileName, used) =>
      match zip.addFile writer fileName download.markdown with
      | .error e => some (.error e)
      | .ok writer => addDownloadsWithin rounds zip downloads writer used

def buildNotesArchiveWithin (rounds : Nat) (zip : Zip ω ζ) (now : Civil) (downloads : List MarkdownDownload) :
    Option (Except ApiError (NotesArchive ζ)) :=
  (addDownloadsWithin rounds zip downloads zip.new ∅).map fun result => do
    let writer ← result
    let bytes ← (zip.finish writer).mapError .internal
    return { fileName := archiveFileName now, bytes }

/-- The entry has the text of the download, under its own name or one with a number. -/
def EntryOf (download : MarkdownDownload) (entry : String × String) : Prop := entry.2 = download.markdown ∧
  (entry.1 = download.fileName ∨ ∃ k ≥ 2, entry.1 = archiveCandidate download.fileName k)

section Candidates

variable {fileName : String} {m n : Nat}

theorem int_repr_injective {m n : Int} (h : m.repr = n.repr) : m = n := by
  have hnat : ∀ {a b : Nat}, a.repr = b.repr → a = b := by
    intro a b hab
    simpa [Nat.toList_repr] using congrArg (fun s => Nat.ofDigitChars 10 s.toList 0) hab
  have hdigit : ∀ {a b : Nat}, a.repr ≠ "-" ++ b.repr := by
    intro a b hab
    have hmem : '-' ∈ a.repr.toList := by simp [hab]
    rw [Nat.toList_repr] at hmem
    exact absurd (Nat.isDigit_of_mem_toDigits (by decide) (by decide) hmem) (by decide)
  rw [Int.repr_eq_if, Int.repr_eq_if] at h
  split_ifs at h with hm hn hn
  · have := hnat h
    omega
  · exact absurd h hdigit
  · exact absurd h.symm hdigit
  · have := hnat ((String.append_right_inj _).1 h)
    omega

theorem candidateName_injective (fileName : String) : (candidateName fileName).Injective := by
  have hsuffix : ∀ {front : String} {m n : Int32}, front ++ toString m = front ++ toString n → m = n := by
    intro front m n h
    exact Int32.toInt.inj (int_repr_injective ((String.append_right_inj _).1 h))
  intro m n h
  unfold candidateName at h
  split at h
  · exact hsuffix ((String.append_left_inj _).1 ((String.append_left_inj _).1 h))
  · exact hsuffix h

theorem candidateName_ofNat (hn : n < 2 ^ 31) :
    candidateName fileName (Int32.ofNat n) = archiveCandidate fileName n := by
  have htext : toString (Int32.ofNat n) = toString n := by
    show toString (Int32.ofNat n).toInt = _
    rw [Int32.toInt_ofNat_of_lt hn]
    rfl
  unfold candidateName stemAndExtension archiveCandidate
  rw [htext]
  cases rsplitOnce '.' fileName with
  | none => rfl
  | some parts =>
    dsimp only
    split_ifs <;> rfl

theorem ne_archiveCandidate (fileName : String) (n : Nat) : fileName ≠ archiveCandidate fileName n := by
  obtain ⟨front, back, hname, hcandidate⟩ := archiveCandidate_eq fileName
  intro heq
  have hlength := congrArg String.length heq
  rw [hcandidate] at hlength
  nth_rewrite 1 [hname] at hlength
  simp only [String.length_append] at hlength
  have : "-".length = 1 := rfl
  omega

/-- In 2^32 rounds no candidate comes twice. -/
theorem candidateName_injOn (fileName : String) :
    Set.InjOn (fun k => candidateName fileName (Int32.ofNat (2 + k))) (Set.Iio (2 ^ 32)) := by
  intro i hi j hj heq
  have hmod := congrArg (fun s => s.toBitVec.toNat) (candidateName_injective fileName heq)
  simp only [Int32.toBitVec_ofNat', BitVec.toNat_ofNat] at hmod
  rw [Set.mem_Iio] at hi hj
  omega

theorem exists_round (suffix : Int32) : ∃ k < 2 ^ 32, suffix = Int32.ofNat (2 + k) := by
  have hofNat : Int32.ofNat (suffix - 2).toBitVec.toNat = suffix - 2 := by
    rw [← Int32.toBitVec_inj]
    exact BitVec.ofNat_toNat ..
  refine ⟨(suffix - 2).toBitVec.toNat, (suffix - 2).toBitVec.isLt, ?_⟩
  rw [Int32.ofNat_add, hofNat]
  show suffix = 2 + (suffix - 2)
  grind

end Candidates

/-! ### The loops -/

section Loops

variable {candidate : Int32 → String} {fileName : String} {used : Finset String} {rounds m n : Nat}

theorem suffixLoop_eq (hused : ∀ j < m, candidate (Int32.ofNat (n + j)) ∈ used)
    (hnew : candidate (Int32.ofNat (n + m)) ∉ used) (hrounds : m < rounds) :
    suffixLoop candidate used rounds (Int32.ofNat n) =
      some (candidate (Int32.ofNat (n + m)), insert (candidate (Int32.ofNat (n + m))) used) := by
  induction rounds generalizing m n with
  | zero => exact absurd hrounds (Nat.not_lt_zero m)
  | succ rounds ih =>
    unfold suffixLoop
    cases m with
    | zero => exact if_pos hnew
    | succ m =>
      have hnext : Int32.ofNat n + 1 = Int32.ofNat (n + 1) := (Int32.ofNat_add n 1).symm
      have hshift : ∀ j, n + (j + 1) = n + 1 + j := fun j => by omega
      have hfirst : candidate (Int32.ofNat n) ∈ used := hused 0 (Nat.succ_pos m)
      rw [hshift] at hnew ⊢
      rw [if_neg (not_not.2 hfirst), hnext]
      refine ih (fun j hj => ?_) hnew (Nat.lt_of_succ_lt_succ hrounds)
      rw [← hshift]
      exact hused (j + 1) (Nat.succ_lt_succ hj)

theorem suffixLoop_eq_none (h : ∀ suffix, candidate suffix ∈ used) (rounds : Nat) (suffix : Int32) :
    suffixLoop candidate used rounds suffix = none := by
  induction rounds generalizing suffix with
  | zero => rfl
  | succ rounds ih => rw [suffixLoop, if_neg (not_not.2 (h suffix)), ih]

theorem exists_suffixLoop (h : ∃ suffix, candidateName fileName suffix ∉ used) :
    ∃ result, suffixLoop (candidateName fileName) used (used.card + 1) 2 = some result := by
  have hround : ∃ k, candidateName fileName (Int32.ofNat (2 + k)) ∉ used := by
    obtain ⟨suffix, hsuffix⟩ := h
    obtain ⟨k, -, rfl⟩ := exists_round suffix
    exact ⟨k, hsuffix⟩
  have hbefore : ∀ j < Nat.find hround, candidateName fileName (Int32.ofNat (2 + j)) ∈ used :=
    fun j hj => not_not.1 (Nat.find_min hround hj)
  have hlt : Nat.find hround < 2 ^ 32 := by
    obtain ⟨suffix, hsuffix⟩ := h
    obtain ⟨k, hk, rfl⟩ := exists_round suffix
    exact (Nat.find_min' hround hsuffix).trans_lt hk
  have hcard := le_card_of_used ((candidateName_injOn fileName).mono (Set.Iio_subset_Iio hlt.le)) hbefore
  exact ⟨_, suffixLoop_eq hbefore (Nat.find_spec hround) (Nat.lt_succ_of_le hcard)⟩

/-- With fewer than 2^31 - 1 names in use, the suffix stays below 2^31. -/
theorem uniqueArchiveFileNameWithin_eq (hcard : used.card < 2 ^ 31 - 1) (hrounds : used.card ≤ rounds) :
    uniqueArchiveFileNameWithin rounds fileName used = some (uniqueArchiveFileName fileName used) := by
  unfold uniqueArchiveFileNameWithin
  by_cases hmem : fileName ∈ used
  swap
  · rw [if_pos hmem, uniqueArchiveFileName, if_neg hmem]
  have hnew := uniqueArchiveFileName_notMem fileName used
  rw [if_neg (not_not.2 hmem), uniqueArchiveFileName, if_pos hmem]
  rw [uniqueArchiveFileName, if_pos hmem] at hnew
  obtain ⟨k, heq, hbefore⟩ := firstUnused_spec (archiveCandidate fileName) used used.card 2
  dsimp only at hnew
  rw [heq] at hnew ⊢
  -- the name itself is in use, and no candidate
  have hk : k ≤ (used.erase fileName).card := by
    have hinj : (fun j => archiveCandidate fileName (2 + j)).Injective :=
      fun _ _ h => Nat.add_left_cancel (archiveCandidate_injective fileName h)
    refine le_card_of_used hinj.injOn fun j hj => ?_
    exact Finset.mem_erase.2 ⟨(ne_archiveCandidate fileName (2 + j)).symm, hbefore j hj⟩
  rw [Finset.card_erase_of_mem hmem] at hk
  have hpos := Finset.card_pos.2 ⟨_, hmem⟩
  have hcandidate : ∀ j ≤ k, candidateName fileName (Int32.ofNat (2 + j)) = archiveCandidate fileName (2 + j) :=
    fun j hj => candidateName_ofNat (by omega)
  rw [← hcandidate k le_rfl] at hnew ⊢
  refine suffixLoop_eq (fun j hj => ?_) hnew (by omega)
  rw [hcandidate j hj.le]
  exact hbefore j hj

theorem card_uniqueArchiveFileName_le (fileName : String) (used : Finset String) :
    (uniqueArchiveFileName fileName used).2.card ≤ used.card + 1 := by
  rw [uniqueArchiveFileName_snd]
  exact Finset.card_insert_le ..

theorem addDownloadsWithin_eq {zip : Zip ω ζ} {downloads : List MarkdownDownload} {writer : ω}
    (hlength : used.card + downloads.length < 2 ^ 31) (hrounds : used.card + downloads.length ≤ rounds) :
    addDownloadsWithin rounds zip downloads writer used =
      some ((archiveEntries used downloads).foldlM (fun writer entry => zip.addFile writer entry.1 entry.2) writer) := by
  induction downloads generalizing writer used with
  | nil => rfl
  | cons download downloads ih =>
    rw [List.length_cons] at hlength hrounds
    have hcard := card_uniqueArchiveFileName_le download.fileName used
    rw [addDownloadsWithin, uniqueArchiveFileNameWithin_eq (by omega) (by omega), archiveEntries, List.foldlM_cons]
    dsimp only
    cases zip.addFile writer (uniqueArchiveFileName download.fileName used).1 download.markdown with
    | error e => rfl
    | ok writer => exact ih (by omega) (by omega)

theorem buildNotesArchiveWithin_eq (zip : Zip ω ζ) (now : Civil) {downloads : List MarkdownDownload}
    (hlength : downloads.length < 2 ^ 31) (hrounds : downloads.length ≤ rounds) :
    buildNotesArchiveWithin rounds zip now downloads = some (do
      let bytes ← zip.write (archiveEntries ∅ downloads)
      return { fileName := archiveFileName now, bytes }) := by
  have hempty : (∅ : Finset String).card + downloads.length = downloads.length := by simp
  rw [buildNotesArchiveWithin, addDownloadsWithin_eq (by rwa [hempty]) (by rwa [hempty]), Option.map_some, Zip.write]
  cases (archiveEntries ∅ downloads).foldlM (fun writer entry => zip.addFile writer entry.1 entry.2) zip.new <;> rfl

theorem archiveEntries_entryOf (used : Finset String) (downloads : List MarkdownDownload) :
    List.Forall₂ EntryOf downloads (archiveEntries used downloads) := by
  induction downloads generalizing used with
  | nil => exact .nil
  | cons download downloads ih => exact .cons ⟨rfl, uniqueArchiveFileName_cases ..⟩ (ih _)

end Loops

/-- An archive of fewer than 2^31 notes has an entry for each, under names of their own. The loop for a name ends
in time unless all its candidates are used. -/
theorem archive_names :
    (∀ downloads : List MarkdownDownload, downloads.length < 2 ^ 31 →
      ∃ entries : List (String × String), (entries.map Prod.fst).Nodup ∧ List.Forall₂ EntryOf downloads entries ∧
        ∀ {ω ζ : Type} (zip : Zip ω ζ) (now : Civil) (rounds : Nat), downloads.length ≤ rounds →
          buildNotesArchiveWithin rounds zip now downloads = some (do
            let bytes ← zip.write entries
            return { fileName := archiveFileName now, bytes })) ∧
    ∀ (fileName : String) (used : Finset String), (∃ suffix, candidateName fileName suffix ∉ used) →
      ∃ result, suffixLoop (candidateName fileName) used (used.card + 1) 2 = some result := by
  refine ⟨fun downloads hlength => ?_, fun fileName used h => exists_suffixLoop h⟩
  exact ⟨archiveEntries ∅ downloads, (archiveEntries_names ∅ downloads).1, archiveEntries_entryOf ∅ downloads,
    fun zip now rounds hrounds => buildNotesArchiveWithin_eq zip now hlength hrounds⟩

/-- Two notes of one name. -/
theorem archive_names_of_twins : (∃ entries : List (String × String), (entries.map Prod.fst).Nodup ∧
      List.Forall₂ EntryOf [⟨"a.md", "one"⟩, ⟨"a.md", "two"⟩] entries) ∧
    ∃ result, suffixLoop (candidateName "a.md") {"a.md"} 2 2 = some result := by
  obtain ⟨entries, hnodup, hentries, -⟩ := archive_names.1 [⟨"a.md", "one"⟩, ⟨"a.md", "two"⟩] (by decide)
  exact ⟨⟨entries, hnodup, hentries⟩, archive_names.2 "a.md" {"a.md"} ⟨2, by decide +kernel⟩⟩

/-- All candidates are in use. -/
theorem suffix_loop_endless : ∃ used : Finset String, "a.md" ∈ used ∧
    ∀ rounds, uniqueArchiveFileNameWithin rounds "a.md" used = none := by
  refine ⟨insert "a.md" ((Finset.range (2 ^ 32)).image fun k => candidateName "a.md" (Int32.ofNat (2 + k))),
    Finset.mem_insert_self .., fun rounds => ?_⟩
  rw [uniqueArchiveFileNameWithin, if_neg (not_not.2 (Finset.mem_insert_self ..))]
  refine suffixLoop_eq_none (fun suffix => ?_) rounds 2
  obtain ⟨k, hk, rfl⟩ := exists_round suffix
  exact Finset.mem_insert_of_mem (Finset.mem_image.2 ⟨k, Finset.mem_range.2 hk, rfl⟩)

end FloralSync

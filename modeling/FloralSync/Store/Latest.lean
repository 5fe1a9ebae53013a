import FloralSync.Rfc3339Order
import FloralSync.Store.Listing
import FloralSync.Store.Runs
import Mathlib.Data.Set.Basic

/-!
# The latest snapshot (`AdminStore::overview`)

`MAX(captured_at)` is the greatest text, and `overview` reads it as a time. `insert_snapshot` writes the clock with
`to_rfc3339`, but the backfill copies what a legacy note says. `latestSnapshot_iff`: the greatest text is the latest
time in every table exactly where the clock keeps to four-digit years and the legacy texts to safe forms.
-/

namespace FloralSync

open List (Forall₂)
open Rfc3339 (Civil TextForm)

/-- Where texts are in the order of what they stand for, the greatest stands for the greatest. -/
theorem max?_of_forall₂ {α β : Type} [LinearOrder α] [LinearOrder β] {R : α → β → Prop} {xs : List α} {ys : List β}
    (hR : ∀ {x x' y y'}, R x y → R x' y' → y < y' → x < x') (h : Forall₂ R xs ys) {x : α} (hx : xs.max? = some x) :
    ∃ y, R x y ∧ ys.max? = some y := by
  obtain ⟨hmem, hmax⟩ := List.max?_eq_some_iff.1 hx
  obtain ⟨y, hy, hxy⟩ := List.exists_of_forall₂ h hmem
  refine ⟨y, hxy, List.max?_eq_some_iff.2 ⟨hy, fun y' hy' => le_of_not_gt fun hlt => ?_⟩⟩
  obtain ⟨x', hx', hxy'⟩ := List.exists_of_forall₂ h.flip hy'
  exact not_le_of_gt (hR hxy hxy' hlt) (hmax x' hx')

theorem overview_latestSnapshotAt {db : Database} {snapshots : SnapshotTable} {latest : Option Civil}
    (hdb : db.noteSnapshots = some snapshots) (hrevision : ∃ revision, currentRevision db = .ok revision) :
    (∃ o : AdminOverview Civil, overview db = .ok o ∧ o.latestSnapshotAt = latest) ↔
      (snapshots.rows.map SnapshotRow.capturedAt).max?.mapM parseFromRfc3339 = some latest := by
  have hparse : ∀ (value : Option String), value.mapM parseDbTime = .ok latest ↔
      value.mapM parseFromRfc3339 = some latest := by
    intro value
    cases value with
    | none => exact ⟨fun h => congrArg some (Except.ok.inj h), fun h => congrArg _ (Option.some.inj h)⟩
    | some value =>
      simp only [Option.mapM_some, parseDbTime]
      cases (parseFromRfc3339 value : Option Civil) with
      | none => exact iff_of_false nofun nofun
      | some t => exact ⟨fun h => congrArg some (Except.ok.inj h), fun h => congrArg _ (Option.some.inj h)⟩
  obtain ⟨_, hrevision⟩ := hrevision
  obtain ⟨notes, hnotes, hi, -⟩ := currentRevision_eq_ok.1 hrevision
  rw [← hparse]
  simp only [overview, Except.bind_eq_ok, Database.selectNotes_eq_ok, Database.selectSnapshots_eq_ok, getI64_eq_ok]
  constructor
  · rintro ⟨o, ⟨_, -, _, -, _, hsnapshots, latest', hlatest, ho⟩, rfl⟩
    obtain rfl := Option.some.inj (hdb.symm.trans hsnapshots)
    rw [← Except.ok.inj ho, hlatest]
  · intro hlatest
    exact ⟨_, ⟨notes, hnotes, _, ⟨hi, rfl⟩, snapshots, hdb, latest, hlatest, rfl⟩, rfl⟩

/-- `text` is the `captured_at` of a snapshot taken at `t`: `insert_snapshot` wrote a reading of the clock, in a
four-digit year or one of `beyond`, or the backfill copied a text of a `legacy` form. -/
inductive CapturedAt (beyond : Set Civil) (legacy : Set TextForm) : String → Civil → Prop
  | inserted {t : Civil} : FourDigitYear t ∨ t ∈ beyond → CapturedAt beyond legacy (toRfc3339 t) t
  | backfilled {text : String} {form : TextForm} {t : Civil} : form ∈ legacy → form.Of text →
      parseFromRfc3339 text = some t → CapturedAt beyond legacy text t

/-- The snapshots were taken at these times. -/
def SnapshotsTaken (beyond : Set Civil) (legacy : Set TextForm) (db : Database) (times : List Civil) : Prop :=
  ∃ snapshots, db.noteSnapshots = some snapshots ∧
    Forall₂ (CapturedAt beyond legacy) (snapshots.rows.map SnapshotRow.capturedAt) times

/-- In every table, `overview` gives the latest of the times at which the snapshots were taken. -/
def LatestSnapshot (beyond : Set Civil) (legacy : Set TextForm) : Prop :=
  ∀ (db : Database) (times : List Civil), SnapshotsTaken beyond legacy db times →
    (∃ revision, currentRevision db = .ok revision) →
      ∃ o : AdminOverview Civil, overview db = .ok o ∧ o.latestSnapshotAt = times.max?

variable {beyond : Set Civil} {legacy : Set TextForm} {db db' : Database} {times : List Civil} {s s' : String}
  {t t' : Civil}

namespace SnapshotsTaken

theorem insertSnapshot {now : Nat → Civil} {change : SyncChange Civil} {revision : Nat}
    (h : SnapshotsTaken beyond legacy db times) (hnow : ∀ id, FourDigitYear (now id) ∨ now id ∈ beyond)
    (hinsert : FloralSync.insertSnapshot now change revision db = .ok db') :
    ∃ t, SnapshotsTaken beyond legacy db' (times ++ [t]) := by
  obtain ⟨snapshots, hdb, htimes⟩ := h
  simp only [FloralSync.insertSnapshot, Except.bind_eq_ok, Database.selectSnapshots_eq_ok] at hinsert
  obtain ⟨_, hdb', hinsert⟩ := hinsert
  obtain rfl := Option.some.inj (hdb.symm.trans hdb')
  obtain rfl := Except.ok.inj hinsert
  refine ⟨now snapshots.nextId, _, rfl, ?_⟩
  rw [SnapshotTable.rows_insert, List.map_append]
  exact List.rel_append htimes (.cons (.inserted (hnow _)) .nil)

theorem backfill {missing : List NoteRow} {snapshots : SnapshotTable} (hmissing : ∀ note ∈ missing,
      ∃ t, CapturedAt beyond legacy (note.change.deletedAt.getD note.change.updatedAt) t)
    (h : Forall₂ (CapturedAt beyond legacy) (snapshots.rows.map SnapshotRow.capturedAt) times) :
    ∃ new, Forall₂ (CapturedAt beyond legacy) ((missing.foldl (fun t note => t.insert note.change note.revision
      fun _ => note.change.deletedAt.getD note.change.updatedAt) snapshots).rows.map SnapshotRow.capturedAt)
        (times ++ new) := by
  induction missing generalizing snapshots times with
  | nil => exact ⟨[], by rwa [List.append_nil]⟩
  | cons note missing ih =>
    obtain ⟨t, ht⟩ := hmissing note List.mem_cons_self
    have hinsert : Forall₂ (CapturedAt beyond legacy) ((snapshots.insert note.change note.revision
        fun _ => note.change.deletedAt.getD note.change.updatedAt).rows.map SnapshotRow.capturedAt) (times ++ [t]) := by
      rw [SnapshotTable.rows_insert, List.map_append]
      exact List.rel_append h (.cons ht .nil)
    obtain ⟨new, hnew⟩ := ih (fun row hrow => hmissing row (List.mem_cons_of_mem _ hrow)) hinsert
    exact ⟨t :: new, by rwa [List.append_assoc] at hnew⟩

/-- Opening a database adds a snapshot for each note that has none. -/
theorem initConnection
    (h : Forall₂ (CapturedAt beyond legacy) ((db.noteSnapshots.getD .empty).rows.map SnapshotRow.capturedAt) times)
    (hnotes : ∀ note ∈ (db.notes.getD Replication.Keyed.empty).rows,
      ∃ t, CapturedAt beyond legacy (note.change.deletedAt.getD note.change.updatedAt) t) :
    ∃ new, SnapshotsTaken beyond legacy (FloralSync.initConnection db) (times ++ new) := by
  obtain ⟨new, hnew⟩ := backfill (fun note hnote => hnotes note (List.mem_of_mem_filter hnote)) h
  exact ⟨new, _, rfl, hnew⟩

end SnapshotsTaken

/-! ### When the greatest text is the latest -/

theorem CapturedAt.exists_safe (hbeyond : ∀ t ∈ beyond, FourDigitYear t) (hlegacy : ∀ form ∈ legacy, form.Safe)
    (h : CapturedAt beyond legacy s t) : ∃ form : TextForm, form.Safe ∧ form.Of s ∧ Civil.ofText s = some t := by
  cases h with
  | inserted ht =>
    obtain ⟨h₀, h₁⟩ : FourDigitYear t := ht.elim id (hbeyond t)
    obtain ⟨form, hsafe, hform⟩ := TextForm.exists_safe_of_toText h₀ h₁
    exact ⟨form, hsafe, hform, t.ofText_toText h₀ h₁⟩
  | backfilled hmem hform ht => exact ⟨_, hlegacy _ hmem, hform, ht⟩

theorem LatestSnapshot.of_safe (hbeyond : ∀ t ∈ beyond, FourDigitYear t) (hlegacy : ∀ form ∈ legacy, form.Safe) :
    LatestSnapshot beyond legacy := by
  rintro db times ⟨snapshots, hdb, htimes⟩ hrevision
  rw [overview_latestSnapshotAt hdb hrevision]
  cases htext : (snapshots.rows.map SnapshotRow.capturedAt).max? with
  | none =>
    rw [List.max?_eq_none_iff] at htext
    rw [htext] at htimes
    cases htimes
    rfl
  | some text =>
    obtain ⟨t, ht, hmax⟩ := max?_of_forall₂ (fun h h' hlt => by
      obtain ⟨form, hsafe, hform, hread⟩ := h.exists_safe hbeyond hlegacy
      obtain ⟨form', hsafe', hform', hread'⟩ := h'.exists_safe hbeyond hlegacy
      exact TextForm.lt_of_safe hsafe hsafe' hform hform' hread hread' hlt) htimes htext
    obtain ⟨-, -, -, hread⟩ := ht.exists_safe hbeyond hlegacy
    rw [Option.mapM_some, hmax]
    show (Civil.ofText text).map some = _
    rw [hread]
    rfl

theorem LatestSnapshot.pair (h : LatestSnapshot beyond legacy) (hs : CapturedAt beyond legacy s t)
    (hs' : CapturedAt beyond legacy s' t') : Civil.ofText (max s s') = some (max t t') := by
  let row : ChangeRow := .ofChange (Sample.note "n1" "note" Sample.eight)
  let snapshots := (SnapshotTable.empty.insert row 1 fun _ => s).insert row 2 fun _ => s'
  have hrevision : currentRevision ⟨some Replication.Keyed.empty, some snapshots⟩ = .ok 0 := rfl
  have hlatest := h ⟨some Replication.Keyed.empty, some snapshots⟩ [t, t'] ⟨snapshots, rfl, .cons hs (.cons hs' .nil)⟩
    ⟨0, hrevision⟩
  rw [overview_latestSnapshotAt rfl ⟨0, hrevision⟩] at hlatest
  obtain ⟨latest, hread, ht⟩ : ∃ latest, Civil.ofText (max s s') = some latest ∧ some latest = some (max t t') :=
    Option.map_eq_some_iff.1 hlatest
  rw [hread, ht]

/-- The latest snapshot time is the latest in every table that the clock and the legacy texts can fill, exactly if the
clock keeps to four-digit years, and every legacy text has a `T`, the offset zero, and after fewer than nine fractional
digits `+00:00` or `-00:00`. -/
theorem latestSnapshot_iff (beyond : Set Civil) (legacy : Set TextForm) : LatestSnapshot beyond legacy ↔
    (∀ t ∈ beyond, FourDigitYear t) ∧ ∀ form ∈ legacy, form.Safe := by
  constructor
  · intro h
    refine ⟨fun t ht => ?_, fun form hform => ?_⟩
    · have hread := h.pair (.inserted (.inr ht)) (.inserted (.inr ht))
      rw [max_self, max_self] at hread
      by_contra hyear
      have hparse := parse_toRfc3339 t
      rw [if_neg hyear] at hparse
      cases hparse.symm.trans hread
    · by_contra hsafe
      obtain ⟨s, t, u, hs, ht, hu, hinverted⟩ := TextForm.inverted_of_not_safe hsafe
      have hread : Civil.ofText (max s u.toText) = some (max t u) :=
        h.pair (.backfilled hform hs ht) (.inserted (.inl hu))
      have hu := u.ofText_toText hu.1 hu.2
      rcases hinverted with ⟨hlt, hgt⟩ | ⟨hlt, hgt⟩
      · rw [max_eq_right (le_of_lt hlt), max_eq_left (le_of_lt hgt)] at hread
        exact ne_of_lt hgt (Option.some.inj (hu.symm.trans hread))
      · rw [max_eq_left (le_of_lt hlt), max_eq_right (le_of_lt hgt)] at hread
        exact ne_of_lt hgt (Option.some.inj (ht.symm.trans hread))
  · exact fun h => .of_safe h.1 h.2

/-- A legacy database that was opened and has stored changes since. -/
inductive Upgraded (legacy : Set TextForm) : Database → Prop
  | opened {notes : NotesTable} : (∀ note ∈ notes.rows, ∃ form ∈ legacy, ∃ t,
      form.Of (note.change.deletedAt.getD note.change.updatedAt) ∧
        parseFromRfc3339 (note.change.deletedAt.getD note.change.updatedAt) = some (t : Civil)) →
      Upgraded legacy (initConnection ⟨some notes, none⟩)
  | stored {db db' : Database} {now : Nat → Civil} {change : SyncChange Civil} {revision : Nat} :
      Upgraded legacy db → (∀ id, FourDigitYear (now id)) → storeChange now change revision db = .ok db' →
      Upgraded legacy db'

theorem Upgraded.exists_taken (h : Upgraded legacy db) : ∃ times, SnapshotsTaken ∅ legacy db times := by
  induction h with
  | @opened notes hnotes =>
    have htexts : ∀ note ∈ notes.rows,
        ∃ t, CapturedAt ∅ legacy (note.change.deletedAt.getD note.change.updatedAt) t := fun note hnote => by
      obtain ⟨form, hmem, t, hform, ht⟩ := hnotes note hnote
      exact ⟨t, .backfilled hmem hform ht⟩
    obtain ⟨times, htimes⟩ : ∃ new, SnapshotsTaken ∅ legacy (initConnection ⟨some notes, none⟩) ([] ++ new) :=
      SnapshotsTaken.initConnection .nil htexts
    exact ⟨times, htimes⟩
  | @stored db _ _ change revision _ hnow hstore ih =>
    obtain ⟨times, snapshots, hdb, htimes⟩ := ih
    simp only [storeChange, Except.bind_eq_ok] at hstore
    obtain ⟨notes, -, hinsert⟩ := hstore
    have hupsert : SnapshotsTaken ∅ legacy { db with notes := some (notes.upsert ⟨.ofChange change, asI64 revision⟩) }
        times := ⟨snapshots, hdb, htimes⟩
    obtain ⟨t, ht⟩ := hupsert.insertSnapshot (fun id => .inl (hnow id)) hinsert
    exact ⟨_, ht⟩

/-- With legacy texts of safe forms the overview is right from the upgrade on. -/
theorem Upgraded.latestSnapshot (h : Upgraded legacy db) (hlegacy : ∀ form ∈ legacy, form.Safe)
    (hrevision : ∃ revision, currentRevision db = .ok revision) : ∃ times, SnapshotsTaken ∅ legacy db times ∧
      ∃ o : AdminOverview Civil, overview db = .ok o ∧ o.latestSnapshotAt = times.max? := by
  obtain ⟨times, htimes⟩ := h.exists_taken
  exact ⟨times, htimes, LatestSnapshot.of_safe (fun _ h => h.elim) hlegacy db times htimes hrevision⟩

namespace Sample

/-- Two legacy notes, one of which a client two hours east of Greenwich wrote. -/
def zonedNotes : Database where
  notes := some ⟨[⟨{ ChangeRow.ofChange (note "n1" "note" eight) with updatedAt := "2026-05-18T10:00:00+02:00" }, 1⟩,
    ⟨{ ChangeRow.ofChange (note "n2" "plan" nine) with updatedAt := "2026-05-18T09:00:00+00:00" }, 2⟩], by decide⟩
  noteSnapshots := none

end Sample

open Sample in
/-- The note of nine o'clock is the latest, but that of eight o'clock has the greatest text. -/
theorem latestSnapshot_earlier : SnapshotsTaken ∅ Set.univ (initConnection zonedNotes) [eight, nine] ∧ eight < nine ∧
    (∃ o : AdminOverview Civil, overview (initConnection zonedNotes) = .ok o ∧ o.latestSnapshotAt = some eight) ∧
      ¬ LatestSnapshot ∅ Set.univ := by
  have htaken : SnapshotsTaken ∅ Set.univ (initConnection zonedNotes) [eight, nine] := by
    have height : Civil.ofText "2026-05-18T10:00:00+02:00" = some eight := by decide +kernel
    have hnine : Civil.ofText "2026-05-18T09:00:00+00:00" = some nine := by decide +kernel
    obtain ⟨form, hform⟩ := TextForm.exists_of height
    obtain ⟨form', hform'⟩ := TextForm.exists_of hnine
    refine ⟨_, rfl, ?_⟩
    exact .cons (.backfilled (Set.mem_univ _) hform height) (.cons (.backfilled (Set.mem_univ _) hform' hnine) .nil)
  have hrevision : currentRevision (initConnection zonedNotes) = .ok 2 := by decide +kernel
  have hlatest : ∃ o : AdminOverview Civil, overview (initConnection zonedNotes) = .ok o ∧
      o.latestSnapshotAt = some eight :=
    (overview_latestSnapshotAt rfl ⟨2, hrevision⟩).2 (by decide +kernel)
  refine ⟨htaken, by decide, hlatest, fun h => ?_⟩
  obtain ⟨o, ho, hmax⟩ := h _ _ htaken ⟨2, hrevision⟩
  obtain ⟨o', ho', height⟩ := hlatest
  obtain rfl := Except.ok.inj (ho.symm.trans ho')
  exact absurd (hmax.symm.trans height) (by decide)

end FloralSync

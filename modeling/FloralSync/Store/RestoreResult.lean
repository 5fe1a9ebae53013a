import FloralSync.Store.Reachable

/-!
# The notes after a restore

A restore installs the notes of the file and buries the others: each live note that is missing from
the file gets a tombstone above them.
-/

namespace FloralSync

open Replication StoreM
open Rfc3339 (Civil)

variable {τ : Type} [Chrono τ]

namespace TombstonesOf

variable {restoreTime : τ} {J K : Journal (SyncChange τ)} {ts : List (SyncChange τ)} {id : String}
  {e e' : Nat × SyncChange τ}

theorem latest_of_file (h : TombstonesOf restoreTime J K ts) (he : K.latest SyncChange.id id = some e) :
    ((K.past J.head).appendAll ts).latest SyncChange.id id =
      some (e.1 + if K.head ≤ J.head then J.head else 0, e.2) := by
  rw [Journal.latest_appendAll_of_ne, Journal.past, Journal.latest_shift, he, Option.map_some]
  intro c hc hid
  obtain ⟨e', -, hK, rfl⟩ := (h.mem c).1 hc
  rw [tombstone_id] at hid
  rw [hid, he] at hK
  cases hK

theorem latest_of_missing (h : TombstonesOf restoreTime J K ts) (he : J.latest SyncChange.id id = some e)
    (hK : K.latest SyncChange.id id = none) :
    ∃ r, (r, tombstone restoreTime e.2) ∈ number ((K.past J.head).head + 1) ts ∧
      ((K.past J.head).appendAll ts).latest SyncChange.id id = some (r, tombstone restoreTime e.2) := by
  have hid : e.2.id = id := (Journal.latest_spec he).2.1
  have hmem : tombstone restoreTime e.2 ∈ ts := (h.mem _).2 ⟨e, hid ▸ he, hid ▸ hK, rfl⟩
  have hnd : (ts.map SyncChange.id).Nodup := h.sorted.imp ne_of_lt
  obtain ⟨r, hr, hlatest⟩ := Journal.latest_appendAll_of_mem (J := K.past J.head) hnd hmem
  rw [tombstone_id, hid] at hlatest
  exact ⟨r, hr, hlatest⟩

theorem latest_eq_none (h : TombstonesOf restoreTime J K ts) :
    ((K.past J.head).appendAll ts).latest SyncChange.id id = none ↔
      K.latest SyncChange.id id = none ∧ J.latest SyncChange.id id = none := by
  constructor
  · intro hnone
    have hK : K.latest SyncChange.id id = none := by
      cases hK : K.latest SyncChange.id id with
      | none => rfl
      | some e => rw [h.latest_of_file hK] at hnone; cases hnone
    refine ⟨hK, ?_⟩
    cases hJ : J.latest SyncChange.id id with
    | none => rfl
    | some e =>
      obtain ⟨r, -, hlatest⟩ := h.latest_of_missing hJ hK
      rw [hlatest] at hnone
      cases hnone
  · rintro ⟨hK, hJ⟩
    rw [Journal.latest_appendAll_of_ne, Journal.past, Journal.latest_shift, hK, Option.map_none]
    intro c hc hid
    obtain ⟨e', hJ', -, rfl⟩ := (h.mem c).1 hc
    rw [tombstone_id] at hid
    rw [hid, hJ] at hJ'
    cases hJ'

theorem latest_cases (h : TombstonesOf restoreTime J K ts)
    (he : ((K.past J.head).appendAll ts).latest SyncChange.id id = some e) :
    (∃ e₀, K.latest SyncChange.id id = some e₀ ∧
      e = (e₀.1 + if K.head ≤ J.head then J.head else 0, e₀.2)) ∨
    (K.latest SyncChange.id id = none ∧ ∃ e₀, J.latest SyncChange.id id = some e₀ ∧
      e ∈ number ((K.past J.head).head + 1) ts ∧ e.2 = tombstone restoreTime e₀.2) := by
  cases hK : K.latest SyncChange.id id with
  | some e₀ =>
    rw [h.latest_of_file hK] at he
    exact .inl ⟨e₀, rfl, (Option.some.inj he).symm⟩
  | none =>
    cases hJ : J.latest SyncChange.id id with
    | none =>
      rw [h.latest_eq_none.2 ⟨hK, hJ⟩] at he
      cases he
    | some e₀ =>
      obtain ⟨r, hr, hlatest⟩ := h.latest_of_missing hJ hK
      rw [hlatest] at he
      obtain rfl := Option.some.inj he
      exact .inr ⟨rfl, e₀, rfl, hr, rfl⟩

theorem revision_lt_of_id_lt (h : TombstonesOf restoreTime J K ts) {n : Nat} (he : e ∈ number n ts)
    (he' : e' ∈ number n ts) (hlt : e.2.id < e'.2.id) : e.1 < e'.1 := by
  have hpair := number_pairwise (n := n) (List.pairwise_map.1 h.sorted)
  exact List.Pairwise.forall_of_forall_of_flip (R := fun e e' => e.2.id < e'.2.id → e.1 < e'.1)
    (fun e _ h => absurd h (lt_irrefl _)) (hpair.imp fun h _ => h.1)
    (hpair.imp fun h h' => absurd h' (lt_asymm h.2)) he he' hlt

end TombstonesOf

/-! ### The postcondition -/

variable (τ) in
/-- The live notes that the restore deletes. -/
def Buried (live content : Database) (id : String) (p : RevisionedChange τ) : Prop :=
  recordAt live id = some p ∧ noteAt content id = none

/-- What a restore of `content` over `live` leaves in the table of notes. -/
structure RestoreResult (τ : Type) [Chrono τ] (live content db : Database) : Prop where
  ids : ∀ id, noteAt db id ≠ none ↔ noteAt content id ≠ none ∨ noteAt live id ≠ none
  kept : ∀ id (c : RevisionedChange τ), recordAt content id = some c →
    ∃ r, recordAt db id = some (⟨r, c.note⟩ : RevisionedChange τ)
  buried : ∀ id p, Buried τ live content id p → ∃ r t d, recordAt db id = some ⟨r, t⟩ ∧
    t.title = p.note.title ∧ t.content = p.note.content ∧ t.category = p.note.category ∧
    t.createdAt = p.note.createdAt ∧ t.contentHash = p.note.contentHash ∧ t.deviceId = p.note.deviceId ∧
    t.deletedAt = some d ∧ changeTime p.note ≤ d ∧ d ≤ t.updatedAt
  order : ∀ id id' (c c' d d' : RevisionedChange τ), recordAt content id = some c →
    recordAt content id' = some c' → recordAt db id = some d → recordAt db id' = some d' →
    (c.revision < c'.revision ↔ d.revision < d'.revision)
  above : ∀ id id' (c d d' : RevisionedChange τ) p, recordAt content id = some c → Buried τ live content id' p →
    recordAt db id = some d → recordAt db id' = some d' → d.revision < d'.revision
  ascending : ∀ id id' p p' (d d' : RevisionedChange τ), Buried τ live content id p →
    Buried τ live content id' p' → recordAt db id = some d → recordAt db id' = some d' → id < id' →
    d.revision < d'.revision

section Result

variable {live content db : Database} {J K : Journal (SyncChange τ)} {id : String} {c : RevisionedChange τ}

theorem Represents.noteAt_eq_none (h : Represents db J) :
    noteAt db id = none ↔ J.latest SyncChange.id id = none := by
  rw [h.noteAt_eq, Option.map_eq_none_iff]

variable [LawfulChrono τ]

theorem Represents.recordAt_eq_some (h : Represents db J) :
    recordAt db id = some c ↔ J.latest SyncChange.id id = some (c.revision, c.note) := by
  rw [h.recordAt_eq, Option.map_eq_some_iff]
  constructor
  · rintro ⟨e, he, rfl⟩; exact he
  · intro he; exact ⟨_, he, rfl⟩

section Restored

variable {restoreTime : τ} {ts : List (SyncChange τ)} {p : RevisionedChange τ}

theorem recordAt_of_file (hK : Represents content K) (hts : TombstonesOf restoreTime J K ts)
    (hdb : Represents db ((K.past J.head).appendAll ts)) (hc : recordAt content id = some c) :
    recordAt db id = some ⟨c.revision + if K.head ≤ J.head then J.head else 0, c.note⟩ :=
  hdb.recordAt_eq_some.2 (hts.latest_of_file (hK.recordAt_eq_some.1 hc))

theorem exists_of_buried (hJ : Represents live J) (hK : Represents content K) (hts : TombstonesOf restoreTime J K ts)
    (hdb : Represents db ((K.past J.head).appendAll ts)) (hp : Buried τ live content id p) :
    ∃ r, (r, tombstone restoreTime p.note) ∈ number ((K.past J.head).head + 1) ts ∧
      recordAt db id = some ⟨r, tombstone restoreTime p.note⟩ := by
  obtain ⟨r, hr, hlatest⟩ := hts.latest_of_missing (hJ.recordAt_eq_some.1 hp.1) (hK.noteAt_eq_none.1 hp.2)
  exact ⟨r, hr, hdb.recordAt_eq_some.2 hlatest⟩

theorem le_head_of_file (J : Journal (SyncChange τ)) (hK : Represents content K) (hc : recordAt content id = some c) :
    c.revision + (if K.head ≤ J.head then J.head else 0) ≤ (K.past J.head).head := by
  have hmem : (c.revision + (if K.head ≤ J.head then J.head else 0), c.note) ∈ (K.past J.head).entries :=
    List.mem_map_of_mem (Journal.latest_spec (hK.recordAt_eq_some.1 hc)).1
  exact Journal.le_head hmem

theorem restoreResult_of_represents (hJ : Represents live J) (hK : Represents content K)
    (hts : TombstonesOf restoreTime J K ts) (hdb : Represents db ((K.past J.head).appendAll ts)) :
    RestoreResult τ live content db where
  ids := by
    intro id
    rw [ne_eq, hdb.noteAt_eq_none, hts.latest_eq_none, ne_eq, hK.noteAt_eq_none, ne_eq, hJ.noteAt_eq_none,
      not_and_or]
  kept := fun id c hc => ⟨_, recordAt_of_file hK hts hdb hc⟩
  buried := by
    intro id p hp
    obtain ⟨r, -, hrecord⟩ := exists_of_buried hJ hK hts hdb hp
    exact ⟨r, _, _, hrecord, rfl, rfl, rfl, rfl, rfl, rfl, rfl, le_max_left _ _, le_max_right _ _⟩
  order := by
    intro id id' c c' d d' hc hc' hd hd'
    obtain rfl := Option.some.inj ((recordAt_of_file hK hts hdb hc).symm.trans hd)
    obtain rfl := Option.some.inj ((recordAt_of_file hK hts hdb hc').symm.trans hd')
    exact (Nat.add_lt_add_iff_right).symm
  above := by
    intro id id' c d d' p hc hp hd hd'
    obtain ⟨r, hr, hrecord⟩ := exists_of_buried hJ hK hts hdb hp
    obtain rfl := Option.some.inj ((recordAt_of_file hK hts hdb hc).symm.trans hd)
    obtain rfl := Option.some.inj (hrecord.symm.trans hd')
    have hle := le_head_of_file J hK hc
    have hge : (K.past J.head).head + 1 ≤ r := (mem_number hr).2.1
    exact Nat.lt_of_le_of_lt hle hge
  ascending := by
    intro id id' p p' d d' hp hp' hd hd' hlt
    obtain ⟨r, hr, hrecord⟩ := exists_of_buried hJ hK hts hdb hp
    obtain ⟨r', hr', hrecord'⟩ := exists_of_buried hJ hK hts hdb hp'
    obtain rfl := Option.some.inj (hrecord.symm.trans hd)
    obtain rfl := Option.some.inj (hrecord'.symm.trans hd')
    have hid : p.note.id = id := (Journal.latest_spec (hJ.recordAt_eq_some.1 hp.1)).2.1
    have hid' : p'.note.id = id' := (Journal.latest_spec (hJ.recordAt_eq_some.1 hp'.1)).2.1
    exact hts.revision_lt_of_id_lt hr hr' (by simpa [hid, hid'] using hlt)

end Restored

theorem restoreFrom_result {s s' t t' : SyncStore} {env : RestoreEnv τ} {fault : Option StoreError}
    {file : SourceFile} (hs : Reachable τ s) (ht : Reachable τ t)
    (hbackup : (SyncStore.backupTo fault).exec t = (.ok file, t'))
    (hrestore : (SyncStore.restoreFrom env file).exec s = (.ok (), s')) (henv : env.InRange)
    (hfits : RestoreFits s.db t.db s'.db) : RestoreResult τ s.db t.db s'.db := by
  obtain ⟨J, hJ⟩ := hs.represents
  obtain ⟨K, hK⟩ := ht.represents
  obtain ⟨-, rfl, -⟩ := exec_backupTo_ok.1 hbackup
  obtain ⟨ts, hts, hdb⟩ := hJ.restoreFrom hK hrestore henv hfits
  exact restoreResult_of_represents hJ hK hts hdb

end Result

theorem restoreFrom_result_of_other_notes :
    RestoreResult Civil Sample.oneNoteStore.db Sample.otherNotesStore.db
      (Sample.restored Sample.nine Sample.otherNotesStore.db Sample.oneNoteStore).db := by
  have hm : currentRevision Sample.oneNoteStore.db = .ok 1 := by decide +kernel
  have hr : currentRevision Sample.otherNotesStore.db = .ok 2 := by decide +kernel
  exact restoreFrom_result Sample.reachable_oneNote Sample.reachable_otherNotes (Sample.exec_backupTo _)
    (Sample.exec_restoreFrom (by decide +kernel)) Sample.restoreEnv_inRange
    (.of_eq hm hr (by decide +kernel))

end FloralSync

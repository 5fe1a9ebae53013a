import FloralSync.Store.Client

/-!
# Clients after a restore

A client that was up to date before a restore polls from the old revision. It follows the restore when
everything at or below that revision is as it was: always when the file's revision is not higher than
the live one (the rebase lifts every note), unless the file has no notes at all, where there is nothing
to lift and the tombstones are numbered from 1 again.
-/

namespace FloralSync

open Replication StoreM
open Rfc3339 (Civil)

variable {τ : Type} [Chrono τ]

/-- A client whose replica and cursor are those of `s` follows the change to `s'`. -/
def Follows (τ : Type) [Chrono τ] (s s' : SyncStore) : Prop :=
  ∃ (cursor : Nat) (response : ChangesResponse τ), currentRevision s.db = .ok cursor ∧
    changesSince s'.db cursor = .ok response ∧
    (Client.receive ⟨recordAt s.db, cursor⟩ response).replica = recordAt s'.db ∧
    ((recordAt s'.db : String → Option (RevisionedChange τ)) ≠ recordAt s.db → cursor < response.revision)

/-- The note is a tombstone that a restore at `restoreTime` would leave as it is. -/
def Settled (restoreTime : τ) (note : SyncChange τ) : Prop :=
  ∃ d, note.deletedAt = some d ∧ restoreTime ≤ d ∧ d ≤ note.updatedAt

theorem tombstone_eq_self {restoreTime : τ} {note : SyncChange τ} :
    tombstone restoreTime note = note ↔ Settled restoreTime note := by
  obtain ⟨id, title, content, category, createdAt, updatedAt, deletedAt, contentHash, deviceId⟩ := note
  cases deletedAt with
  | none => simp [tombstone, Settled]
  | some d =>
    have hd : (d ≤ updatedAt ∧ restoreTime ≤ updatedAt) ∧ restoreTime ≤ d ↔ restoreTime ≤ d ∧ d ≤ updatedAt :=
      ⟨fun h => ⟨h.2, h.1.1⟩, fun h => ⟨⟨h.2, h.1.trans h.2⟩, h.1⟩⟩
    simpa [tombstone, Settled, changeTime] using hd

def Database.noteIds (db : Database) : List String :=
  (db.notes.map fun notes => notes.rows.map NoteRow.id).getD []

/-- When clients follow the restore of a file with revision `r` over a store with revision `m`. -/
inductive ClientsFollow (restoreTime : τ) (live content : Database) (m r : Nat) : Prop
  | rebased : 0 < r → r ≤ m → ClientsFollow restoreTime live content m r
  | ahead : m < r → (∀ id (c : RevisionedChange τ), recordAt content id = some c → c.revision ≤ m →
      recordAt live id = some c) → ClientsFollow restoreTime live content m r
  | nothing : r = 0 → (∀ id (c : RevisionedChange τ), recordAt live id = some c →
      Settled restoreTime c.note ∧ c.revision = live.noteIds.countP (· < id) + 1) →
      ClientsFollow restoreTime live content m r

section Follows

variable [LawfulChrono τ] {s s' : SyncStore} {J K L : Journal (SyncChange τ)}

/-- A client at the head of `J` gets from there to `L`. -/
structure Continues (J L : Journal (SyncChange τ)) : Prop where
  kept : ∀ id e, L.latest SyncChange.id id = some e → e.1 ≤ J.head → J.latest SyncChange.id id = some e
  moved : (∃ id, L.latest SyncChange.id id ≠ J.latest SyncChange.id id) → J.head < L.head

/-- Following is a matter of the records at or below the old revision. -/
theorem follows_iff (hJ : Represents s.db J) (hL : Represents s'.db L)
    (habsent : ∀ id, L.latest SyncChange.id id = none → J.latest SyncChange.id id = none) :
    Follows τ s s' ↔ Continues J L := by
  have hstep : InStep s'.db J.head (recordAt (τ := τ) s.db) ↔ ∀ id e, L.latest SyncChange.id id = some e →
      e.1 ≤ J.head → J.latest SyncChange.id id = some e := by
    constructor
    · intro h id e he hle
      exact hJ.recordAt_eq_some.1 (h.kept id (entryRecord e) (hL.recordAt_eq_some.2 he) hle)
    · intro h
      refine ⟨fun id hid => ?_,
        fun id c hc hle => hJ.recordAt_eq_some.2 (h id _ (hL.recordAt_eq_some.1 hc) hle)⟩
      rw [hL.recordAt_eq, Option.map_eq_none_iff] at hid
      rw [hJ.recordAt_eq, habsent id hid, Option.map_none]
  have hchanged : (recordAt s'.db : String → Option (RevisionedChange τ)) ≠ recordAt s.db ↔
      ∃ id, L.latest SyncChange.id id ≠ J.latest SyncChange.id id := by
    rw [Function.ne_iff]
    refine exists_congr fun id => not_congr ?_
    rw [hL.recordAt_eq, hJ.recordAt_eq, (Option.map_injective entryRecord_injective).eq_iff]
  constructor
  · rintro ⟨cursor, response, hcursor, hpoll, hreplica, hrev⟩
    rw [hJ.currentRevision_eq] at hcursor
    obtain rfl := Except.ok.inj hcursor
    rw [hL.revision_of_poll hpoll, hchanged] at hrev
    exact ⟨hstep.1 ((hL.receive_eq_iff hpoll _).1 hreplica), hrev⟩
  · rintro ⟨hkept, hmoved⟩
    obtain ⟨response, hpoll⟩ := hL.healthy.exists_changesSince hJ.head_lt
    refine ⟨J.head, response, hJ.currentRevision_eq, hpoll, (hL.receive_eq_iff hpoll _).2 (hstep.2 hkept), ?_⟩
    rwa [hL.revision_of_poll hpoll, hchanged]

end Follows

/-! ### The three ways -/

section Restored

variable {restoreTime : τ} {J K : Journal (SyncChange τ)} {ts : List (SyncChange τ)} {id : String}
  {e : Nat × SyncChange τ} {db : Database}

theorem Represents.mem_noteIds (h : Represents db J) :
    id ∈ db.noteIds ↔ ∃ e, J.latest SyncChange.id id = some e := by
  obtain ⟨notes, snapshots, rfl⟩ := h.tables
  show id ∈ notes.rows.map NoteRow.id ↔ _
  rw [List.mem_map]
  constructor
  · rintro ⟨row, hrow, rfl⟩
    obtain ⟨e, he, rfl⟩ := (h.mem_notes rfl).1 hrow
    exact ⟨e, he⟩
  · rintro ⟨e, he⟩
    have hid : e.2.id = id := (Journal.latest_spec he).2.1
    exact ⟨noteRow e, (h.mem_notes rfl).2 ⟨e, hid ▸ he, rfl⟩, hid⟩

theorem Represents.nodup_noteIds (h : Represents db J) : db.noteIds.Nodup := by
  obtain ⟨notes, snapshots, rfl⟩ := h.tables
  exact notes.nodup

/-- Notes have distinct revisions, so there are no more of them than the current revision. -/
theorem Represents.length_noteIds_le (h : Represents db J) : db.noteIds.length ≤ J.head := by
  obtain ⟨notes, snapshots, rfl⟩ := h.tables
  have hsub : notes.rows.map NoteRow.revision ⊆ (List.range' 1 J.head).map Nat.cast := by
    intro r hr
    obtain ⟨row, hrow, rfl⟩ := List.mem_map.1 hr
    obtain ⟨e, he, rfl⟩ := (h.mem_notes rfl).1 hrow
    have hmem := (Journal.latest_spec he).1
    have hpos := J.positive e hmem
    have hle := Journal.le_head hmem
    exact List.mem_map.2 ⟨e.1, List.mem_range'_1.2 ⟨hpos, by omega⟩, rfl⟩
  have hlen := (List.subperm_of_subset h.revision_nodup hsub).length_le
  rw [List.length_map, List.length_map, List.length_range'] at hlen
  show (notes.rows.map NoteRow.id).length ≤ _
  rwa [List.length_map]

namespace TombstonesOf

theorem perm_noteIds (hts : TombstonesOf restoreTime J K ts) (hJ : Represents db J) (hK : K.entries = []) :
    (ts.map SyncChange.id).Perm db.noteIds := by
  refine (List.perm_ext_iff_of_nodup (hts.sorted.imp ne_of_lt) hJ.nodup_noteIds).2 fun id => ?_
  rw [hJ.mem_noteIds, List.mem_map]
  constructor
  · rintro ⟨c, hc, rfl⟩
    obtain ⟨e, he, -, rfl⟩ := (hts.mem c).1 hc
    exact ⟨e, he⟩
  · rintro ⟨e, he⟩
    have hid : e.2.id = id := (Journal.latest_spec he).2.1
    exact ⟨tombstone restoreTime e.2, (hts.mem _).2 ⟨e, hid ▸ he, Journal.latest_of_nil hK, rfl⟩, hid⟩

/-- A rebase puts everything above the old revision. -/
theorem lt_of_rebased (hts : TombstonesOf restoreTime J K ts) (hpos : 0 < K.head) (hle : K.head ≤ J.head)
    (he : ((K.past J.head).appendAll ts).latest SyncChange.id id = some e) : J.head < e.1 := by
  rcases hts.latest_cases he with ⟨e₀, he₀, rfl⟩ | ⟨-, e₀, -, he₀, -⟩
  · rw [if_pos hle]
    have := K.positive e₀ (Journal.latest_spec he₀).1
    show J.head < e₀.1 + J.head
    omega
  · have hge := (mem_number he₀).2.1
    have hne : K.entries ≠ [] := fun h => by rw [Journal.head_eq_zero.2 h] at hpos; cases hpos
    rw [Journal.head_past, if_pos ⟨hle, hne⟩] at hge
    omega

theorem latest_of_nothing (hts : TombstonesOf restoreTime J K ts) (hJ : Represents db J) (hK : K.entries = [])
    (he : J.latest SyncChange.id id = some e) :
    ((K.past J.head).appendAll ts).latest SyncChange.id id =
      some (db.noteIds.countP (· < id) + 1, tombstone restoreTime e.2) := by
  obtain ⟨r, hr, hlatest⟩ := hts.latest_of_missing he (Journal.latest_of_nil hK)
  have hid : e.2.id = id := (Journal.latest_spec he).2.1
  have hrev := revision_of_mem_number hts.sorted hr
  rw [Journal.head_past, if_neg fun h => h.2 hK, Journal.head_eq_zero.2 hK,
    (hts.perm_noteIds hJ hK).countP_eq] at hrev
  simp only [tombstone_id, hid] at hrev
  rw [hlatest, hrev, Nat.add_comm (0 + 1)]

theorem continues_of_rebased (hts : TombstonesOf restoreTime J K ts) (hpos : 0 < K.head) (hle : K.head ≤ J.head) :
    Continues J ((K.past J.head).appendAll ts) where
  kept id e he hle' := absurd hle' (Nat.not_le.2 (hts.lt_of_rebased hpos hle he))
  moved _ := by
    have hne : K.entries ≠ [] := fun h => by rw [Journal.head_eq_zero.2 h] at hpos; cases hpos
    rw [Journal.head_appendAll, Journal.head_past, if_pos ⟨hle, hne⟩]
    omega

/-- A file that is ahead is not rebased. -/
theorem continues_of_ahead (hts : TombstonesOf restoreTime J K ts) (hlt : J.head < K.head) :
    Continues J ((K.past J.head).appendAll ts) ↔
      ∀ id e, K.latest SyncChange.id id = some e → e.1 ≤ J.head → J.latest SyncChange.id id = some e := by
  have hoff : (if K.head ≤ J.head then J.head else 0) = 0 := if_neg (Nat.not_le.2 hlt)
  have hhead : (K.past J.head).head = K.head := by
    rw [Journal.head_past, if_neg fun h => Nat.not_le.2 hlt h.1]
  constructor
  · intro h id e he hle
    refine h.kept id e ?_ hle
    rw [hts.latest_of_file he, hoff, Nat.add_zero]
  · intro h
    refine ⟨fun id e he hle => ?_, fun _ => ?_⟩
    · rcases hts.latest_cases he with ⟨e₀, he₀, rfl⟩ | ⟨-, e₀, -, he₀, -⟩
      · rw [hoff] at hle ⊢
        exact h id e₀ he₀ hle
      · have hge := (mem_number he₀).2.1
        rw [hhead] at hge
        omega
    · rw [Journal.head_appendAll, hhead]
      omega

/-- With nothing to restore, every tombstone must be there already. -/
theorem continues_of_nothing (hts : TombstonesOf restoreTime J K ts) (hJ : Represents db J) (hK : K.entries = []) :
    Continues J ((K.past J.head).appendAll ts) ↔ ∀ id e, J.latest SyncChange.id id = some e →
      Settled restoreTime e.2 ∧ e.1 = db.noteIds.countP (· < id) + 1 := by
  have hhead : ((K.past J.head).appendAll ts).head ≤ J.head := by
    rw [Journal.head_appendAll, Journal.head_past, if_neg fun h => h.2 hK, Journal.head_eq_zero.2 hK, Nat.zero_add,
      ← List.length_map SyncChange.id, (hts.perm_noteIds hJ hK).length_eq]
    exact hJ.length_noteIds_le
  constructor
  · intro h id e he
    have hlatest := hts.latest_of_nothing hJ hK he
    have hsame := h.kept id _ hlatest ((Journal.le_head (Journal.latest_spec hlatest).1).trans hhead)
    rw [he] at hsame
    obtain ⟨hrev, hnote⟩ := Prod.mk.inj (Option.some.inj hsame)
    exact ⟨tombstone_eq_self.1 hnote.symm, hrev⟩
  · intro h
    have hsame : ∀ id, ((K.past J.head).appendAll ts).latest SyncChange.id id = J.latest SyncChange.id id := by
      intro id
      cases he : J.latest SyncChange.id id with
      | none => exact hts.latest_eq_none.2 ⟨Journal.latest_of_nil hK, he⟩
      | some e =>
        obtain ⟨hsettled, hrev⟩ := h id e he
        rw [hts.latest_of_nothing hJ hK he, tombstone_eq_self.2 hsettled, ← hrev]
    exact ⟨fun id e he _ => hsame id ▸ he, fun ⟨id, hne⟩ => absurd (hsame id) hne⟩

end TombstonesOf

/-- When clients follow a restore. -/
theorem follows_restore_iff [LawfulChrono τ] {s s' t t' : SyncStore} {env : RestoreEnv τ}
    {fault : Option StoreError} {file : SourceFile} {m r : Nat} (hs : Reachable τ s) (ht : Reachable τ t)
    (hbackup : (SyncStore.backupTo fault).exec t = (.ok file, t'))
    (hrestore : (SyncStore.restoreFrom env file).exec s = (.ok (), s')) (henv : env.InRange)
    (hfits : RestoreFits s.db t.db s'.db) (hm : currentRevision s.db = .ok m)
    (hr : currentRevision t.db = .ok r) :
    Follows τ s s' ↔ ClientsFollow env.restoreTime s.db t.db m r := by
  obtain ⟨J, hJ⟩ := hs.represents
  obtain ⟨K, hK⟩ := ht.represents
  obtain ⟨-, rfl, -⟩ := exec_backupTo_ok.1 hbackup
  obtain ⟨ts, hts, hL⟩ := hJ.restoreFrom hK hrestore henv hfits
  rw [hJ.currentRevision_eq] at hm
  rw [hK.currentRevision_eq] at hr
  obtain rfl := Except.ok.inj hm
  obtain rfl := Except.ok.inj hr
  rw [follows_iff hJ hL fun id hid => (hts.latest_eq_none.1 hid).2]
  rcases Nat.eq_zero_or_pos K.head with hzero | hpos
  · rw [hts.continues_of_nothing hJ (Journal.head_eq_zero.1 hzero)]
    constructor
    · intro h
      exact .nothing hzero fun id c hc => h id _ (hJ.recordAt_eq_some.1 hc)
    · rintro (⟨hpos, -⟩ | ⟨hlt, -⟩ | ⟨-, hsettled⟩)
      · exact absurd hzero hpos.ne'
      · exact absurd hlt (hzero ▸ Nat.not_lt_zero _)
      · exact fun id e he => hsettled id (entryRecord e) (hJ.recordAt_eq_some.2 he)
  rcases Nat.lt_or_ge J.head K.head with hlt | hle
  · rw [hts.continues_of_ahead hlt]
    constructor
    · intro h
      exact .ahead hlt fun id c hc hle => hJ.recordAt_eq_some.2 (h id _ (hK.recordAt_eq_some.1 hc) hle)
    · rintro (⟨-, hle⟩ | ⟨-, hkept⟩ | ⟨hzero, -⟩)
      · exact absurd hle (Nat.not_le.2 hlt)
      · exact fun id e he hle => hJ.recordAt_eq_some.1 (hkept id (entryRecord e) (hK.recordAt_eq_some.2 he) hle)
      · exact absurd hzero (Nat.ne_of_gt hpos)
  · exact iff_of_true (hts.continues_of_rebased hpos hle) (.rebased hpos hle)

end Restored

theorem follows_restore_iff_of_older_version :
    Follows Civil Sample.twoVersionsStore
        (Sample.restored Sample.nine Sample.oneNoteStore.db Sample.twoVersionsStore) ↔
      ClientsFollow (Sample.restoreEnv Sample.nine).restoreTime Sample.twoVersionsStore.db
        Sample.oneNoteStore.db 2 1 := by
  have hm : currentRevision Sample.twoVersionsStore.db = .ok 2 := by decide +kernel
  have hr : currentRevision Sample.oneNoteStore.db = .ok 1 := by decide +kernel
  exact follows_restore_iff Sample.reachable_twoVersions Sample.reachable_oneNote (Sample.exec_backupTo _)
    (Sample.exec_restoreFrom (by decide +kernel)) Sample.restoreEnv_inRange
    (.of_eq hm hr (by decide +kernel)) hm hr

/-- The restore of an empty backup gives its only tombstone the revision that the client has already. After
the restore of a file of other notes with a higher revision, the client misses those up to its own. -/
theorem not_follows_restore :
    Reachable Civil Sample.oneNoteStore ∧
    (Reachable Civil .created ∧
      (SyncStore.backupTo none).exec .created = (.ok (.database SyncStore.created.db), .created) ∧
      (SyncStore.restoreFrom (Sample.restoreEnv Sample.nine) (.database SyncStore.created.db)).exec
          Sample.oneNoteStore =
        (.ok (), Sample.restored Sample.nine SyncStore.created.db Sample.oneNoteStore) ∧
      ¬ Follows Civil Sample.oneNoteStore
        (Sample.restored Sample.nine SyncStore.created.db Sample.oneNoteStore)) ∧
    (Reachable Civil Sample.otherNotesStore ∧
      (SyncStore.backupTo none).exec Sample.otherNotesStore =
        (.ok (.database Sample.otherNotesStore.db), Sample.otherNotesStore) ∧
      (SyncStore.restoreFrom (Sample.restoreEnv Sample.nine) (.database Sample.otherNotesStore.db)).exec
          Sample.oneNoteStore =
        (.ok (), Sample.restored Sample.nine Sample.otherNotesStore.db Sample.oneNoteStore) ∧
      ¬ Follows Civil Sample.oneNoteStore
        (Sample.restored Sample.nine Sample.otherNotesStore.db Sample.oneNoteStore)) := by
  have hone : currentRevision Sample.oneNoteStore.db = .ok 1 := by decide +kernel
  refine ⟨Sample.reachable_oneNote,
    ⟨.created, Sample.exec_backupTo _, Sample.exec_restoreFrom (by decide +kernel), ?_⟩,
    Sample.reachable_otherNotes, Sample.exec_backupTo _, Sample.exec_restoreFrom (by decide +kernel), ?_⟩
  · rintro ⟨cursor, response, hcursor, hpoll, hreplica, -⟩
    rw [hone] at hcursor
    obtain rfl := Except.ok.inj hcursor
    -- nothing is above the cursor
    have hnothing : changesSince (Sample.restored Sample.nine SyncStore.created.db Sample.oneNoteStore).db 1 =
        .ok (⟨1, []⟩ : ChangesResponse Civil) := by decide +kernel
    rw [hnothing] at hpoll
    obtain rfl := Except.ok.inj hpoll
    exact absurd (congrFun hreplica "n1") (by decide +kernel)
  · rintro ⟨cursor, response, hcursor, hpoll, hreplica, -⟩
    rw [hone] at hcursor
    obtain rfl := Except.ok.inj hcursor
    -- the first of the other notes is at the cursor
    have hsecond : changesSince (Sample.restored Sample.nine Sample.otherNotesStore.db Sample.oneNoteStore).db 1 =
        .ok (⟨3, [⟨2, fillDevice "laptop" (Sample.note "n3" "list" Sample.eight)⟩,
          ⟨3, tombstone Sample.nine (Sample.stored "n1" "note" Sample.eight)⟩]⟩ : ChangesResponse Civil) := by
      decide +kernel
    rw [hsecond] at hpoll
    obtain rfl := Except.ok.inj hpoll
    exact absurd (congrFun hreplica "n2") (by decide +kernel)

end FloralSync

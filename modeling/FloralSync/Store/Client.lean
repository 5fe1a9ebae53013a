import FloralSync.Store.RestoreResult

/-!
# A client that pulls

A client keeps a replica of the notes and a cursor. Each poll overwrites the records of the replica by
those that the server sends for the cursor, and moves the cursor to the server's revision. Since every
change that the server accepts gets a revision above all others, the server sends all that has changed.
-/

namespace FloralSync

open Replication StoreM
open Rfc3339 (Civil)

variable {τ : Type} [Chrono τ]

structure Client (τ : Type) where
  replica : String → Option (RevisionedChange τ)
  cursor : Nat

def Client.empty : Client τ := ⟨fun _ => none, 0⟩

/-- What a client makes of the answer to a poll. -/
def Client.receive (client : Client τ) (response : ChangesResponse τ) : Client τ :=
  ⟨overlay (·.note.id) client.replica response.changes, response.revision⟩

/-- The records of a database are in step with a replica and its cursor. -/
def InStep (db : Database) (cursor : Nat) (replica : String → Option (RevisionedChange τ)) : Prop :=
  Synced RevisionedChange.revision (recordAt db) cursor replica

section Sends

variable {db : Database} {J : Journal (SyncChange τ)} {since : Nat} {response : ChangesResponse τ}

theorem NoteRow.id_of_record {row : NoteRow} {c : RevisionedChange τ} (h : row.record = some c) :
    c.note.id = row.id :=
  ChangeRow.id_of_decode (NoteRow.record_eq_some.1 h).2.1

theorem id_of_recordAt {id : String} {c : RevisionedChange τ} (h : recordAt db id = some c) :
    c.note.id = id := by
  obtain ⟨row, hrow, hrec⟩ := Option.bind_eq_some_iff.1 h
  obtain ⟨notes, -, hlook⟩ := Option.bind_eq_some_iff.1 hrow
  rw [NoteRow.id_of_record hrec, (Keyed.lookup_eq_some.1 hlook).2]

theorem recordAt_of_mem {notes : NotesTable} (hn : db.notes = some notes) {row : NoteRow}
    (hrow : row ∈ notes.rows) : (recordAt db row.id : Option (RevisionedChange τ)) = row.record := by
  rw [recordAt, noteAt, hn, Option.bind_some, Keyed.lookup_key hrow, Option.bind_some]

/-- The records that the server sends are those above the cursor. -/
theorem changesSince_delta (hpos : ∀ notes ∈ db.notes, ∀ row ∈ notes.rows, 0 ≤ row.revision)
    (h : changesSince db since = .ok response) :
    Delta (·.note.id) RevisionedChange.revision (recordAt db) since response.changes := by
  obtain ⟨notes, hn, -, hchanges, -⟩ := changesSince_eq_ok.1 h
  have hrev : ∀ row ∈ notes.rows, ∀ c : RevisionedChange τ, row.record = some c →
      ((since : Int) < row.revision ↔ since < c.revision) := by
    intro row hrow c hc
    obtain ⟨hi, -, hrev⟩ := NoteRow.record_eq_some.1 hc
    rw [← hrev, ← Int.ofNat_lt, asU64_of_nonneg (hpos notes hn row hrow) hi]
  constructor
  · rw [List.map_eq_of_map_eq_some (k := NoteRow.id) hchanges fun row _ c hc => NoteRow.id_of_record hc]
    exact ((List.perm_insertionSort _ _).map _).nodup_iff.2 (notes.nodup.sublist (List.filter_sublist.map _))
  · intro c
    rw [List.mem_of_map_eq_some hchanges]
    constructor
    · rintro ⟨row, hrow, hc⟩
      obtain ⟨hrow, hlt⟩ := mem_rowsSince.1 hrow
      rw [NoteRow.id_of_record hc, recordAt_of_mem hn hrow]
      exact ⟨hc, (hrev row hrow c hc).1 hlt⟩
    · rintro ⟨hc, hlt⟩
      obtain ⟨row, hnote, hrec⟩ := Option.bind_eq_some_iff.1 hc
      rw [noteAt, hn, Option.bind_some] at hnote
      obtain ⟨hrow, -⟩ := Keyed.lookup_eq_some.1 hnote
      exact ⟨row, mem_rowsSince.2 ⟨hrow, (hrev row hrow c hrec).2 hlt⟩, hrec⟩

theorem Represents.nonneg (h : Represents db J) :
    ∀ notes ∈ db.notes, ∀ row ∈ notes.rows, 0 ≤ row.revision := by
  intro notes hn row hrow
  obtain ⟨e, -, rfl⟩ := (h.mem_notes hn).1 hrow
  exact Int.natCast_nonneg _

/-- A poll brings the replica up to date exactly when it was in step. -/
theorem Represents.receive_eq_iff (h : Represents db J) (hpoll : changesSince db since = .ok response)
    (replica : String → Option (RevisionedChange τ)) :
    (Client.receive ⟨replica, since⟩ response).replica = recordAt db ↔ InStep db since replica :=
  (changesSince_delta h.nonneg hpoll).overlay_eq_iff fun _ _ => id_of_recordAt

variable [LawfulChrono τ]

theorem Represents.healthy (h : Represents db J) : Healthy τ db where
  opened := h.opened
  revisions := fun _ hn _ hrow => h.i64 hn hrow
  notes := by
    intro notes hn row hrow
    obtain ⟨e, he, rfl⟩ := (h.mem_notes hn).1 hrow
    have hmem := (Journal.latest_spec he).1
    exact ⟨e.2, h.decode hmem, h.inRange e hmem⟩
  snapshots := by
    intro snapshots hs row hrow
    obtain ⟨notes, _, rfl⟩ := h.tables
    obtain rfl := Option.some.inj hs
    obtain ⟨e, he, heq⟩ := h.exists_entry hrow
    exact ⟨e.2, (NoteRow.mk.inj heq).1 ▸ h.decode he⟩

omit [LawfulChrono τ] in
theorem Represents.revision_of_poll (h : Represents db J) (hpoll : changesSince db since = .ok response) :
    response.revision = J.head := by
  obtain ⟨_, _, _, _, hrev⟩ := changesSince_eq_ok.1 hpoll
  rw [h.currentRevision_eq] at hrev
  exact (Except.ok.inj hrev).symm

end Sends

/-! ### Pushes and polls -/

/-- Pushes of any devices and polls of one client, in any order. The last component is the database at
the last poll. -/
inductive PullRun : SyncStore → Client τ → Database → Prop
  | start {s : SyncStore} : Reachable τ s → PullRun s .empty s.db
  | push {s s' : SyncStore} {client : Client τ} {polled : Database} {env : PushEnv τ}
      {request : PushRequest τ} {result : Except StoreError PushResponse} : PullRun s client polled →
      (SyncStore.push env request).exec s = (result, s') → env.InRange → request.InRange →
      PushFits s.db s'.db → PullRun s' client polled
  | poll {s : SyncStore} {client : Client τ} {polled : Database} {response : ChangesResponse τ} :
      PullRun s client polled → changesSince s.db client.cursor = .ok response →
      PullRun s (client.receive response) s.db

/-- What a client has, and what it had at its last poll, stays in step with the server. -/
structure PullInvariant (db : Database) (client : Client τ) (polled : Database)
    (J : Journal (SyncChange τ)) : Prop where
  represents : Represents db J
  cursor_le : client.cursor ≤ J.head
  replica : InStep db client.cursor client.replica
  polled : InStep (τ := τ) db client.cursor (recordAt polled)

section Pull

variable [LawfulChrono τ] {db db' : Database} {J : Journal (SyncChange τ)}

theorem Represents.recordAt_eq_view (h : Represents db J) :
    recordAt db = J.view SyncChange.id entryRecord :=
  funext h.recordAt_eq

/-- What a push stores goes above the cursor. -/
theorem PullInvariant.push {client : Client τ} {polled : Database} (h : PullInvariant db client polled J)
    {vs : List (SyncChange τ)} (hdb' : Represents db' (J.offerAll changeTime SyncChange.id vs)) :
    PullInvariant db' client polled (J.offerAll changeTime SyncChange.id vs) := by
  have hstep : ∀ {replica : String → Option (RevisionedChange τ)},
      InStep db client.cursor replica → InStep db' client.cursor replica := by
    intro replica hreplica
    unfold InStep at hreplica ⊢
    rw [h.represents.recordAt_eq_view] at hreplica
    rw [hdb'.recordAt_eq_view]
    have hf : ∀ e : Nat × SyncChange τ, (entryRecord e).revision = e.1 := fun _ => rfl
    exact Journal.synced_offerAll hf hreplica h.cursor_le vs
  exact ⟨hdb', h.cursor_le.trans (J.head_le_offerAll vs), hstep h.replica, hstep h.polled⟩

theorem PullRun.invariant {s : SyncStore} {client : Client τ} {polled : Database}
    (h : PullRun s client polled) : ∃ J, PullInvariant s.db client polled J := by
  induction h with
  | @start s hs =>
    obtain ⟨J, hJ⟩ := hs.represents
    refine ⟨J, hJ, Nat.zero_le _, ⟨fun _ _ => rfl, fun id c hc hle => ?_⟩, Synced.refl _ _⟩
    rw [hJ.recordAt_eq] at hc
    obtain ⟨e, he, rfl⟩ := Option.map_eq_some_iff.1 hc
    exact absurd hle (Nat.not_le.2 (J.positive e (Journal.latest_spec he).1))
  | push _ hpush henv hr hfits ih =>
    obtain ⟨J, h⟩ := ih
    rcases h.represents.push hpush henv hr hfits with rfl | hdb'
    · exact ⟨J, h⟩
    · exact ⟨_, h.push hdb'⟩
  | poll _ hpoll ih =>
    obtain ⟨J, h⟩ := ih
    have hreplica := (h.represents.receive_eq_iff hpoll _).2 h.replica
    exact ⟨J, h.represents, (h.represents.revision_of_poll hpoll).le, hreplica ▸ Synced.refl _ _,
      Synced.refl _ _⟩

/-- What a poll achieves: the replica is the table of the server, the cursor its revision, and what
was at or below the old cursor has not changed since the last poll. -/
structure PollComplete (db polled : Database) (client : Client τ) (response : ChangesResponse τ) : Prop where
  poll : changesSince db client.cursor = .ok response
  replica : (client.receive response).replica = recordAt db
  rows : ∀ id, noteAt db id = none ↔ (client.receive response).replica id = none
  cursor : currentRevision db = .ok (client.receive response).cursor
  unchanged : ∀ id (c : RevisionedChange τ), recordAt db id = some c → c.revision ≤ client.cursor →
    recordAt polled id = some c

theorem exists_pollComplete {s : SyncStore} {client : Client τ} {polled : Database}
    (h : PullRun s client polled) : ∃ response, PollComplete s.db polled client response := by
  obtain ⟨J, hinv⟩ := h.invariant
  obtain ⟨response, hpoll⟩ := hinv.represents.healthy.exists_changesSince
    (Nat.lt_of_le_of_lt hinv.cursor_le hinv.represents.head_lt)
  have hreplica := (hinv.represents.receive_eq_iff hpoll _).2 hinv.replica
  refine ⟨response, hpoll, hreplica, fun id => ?_, ?_, hinv.polled.kept⟩
  · show _ ↔ (Client.receive ⟨client.replica, client.cursor⟩ response).replica id = none
    rw [hreplica, hinv.represents.noteAt_eq_none, hinv.represents.recordAt_eq, Option.map_eq_none_iff]
  · rw [hinv.represents.currentRevision_eq, ← hinv.represents.revision_of_poll hpoll]
    rfl

end Pull

theorem exists_pollComplete_of_one_note : ∃ response : ChangesResponse Civil,
    PollComplete Sample.oneNoteStore.db SyncStore.created.db .empty response := by
  have hrev : currentRevision SyncStore.created.db = .ok 0 := by decide +kernel
  have hpush : (SyncStore.push Sample.pushEnv Sample.oneNote).exec .created =
      (_, Sample.oneNoteStore) := rfl
  exact exists_pollComplete (.push (.start .created) hpush Sample.pushEnv_inRange (by decide)
    (.of_eq hrev (by decide +kernel)))

end FloralSync

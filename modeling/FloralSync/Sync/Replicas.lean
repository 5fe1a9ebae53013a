import FloralSync.Store.Convergence
import FloralSync.Sync.Wait
import FloralSync.Trace

/-!
# Clients of a server that restores its own backups

Any number of clients poll one server, each when it likes, while the server takes pushes, is restarted, makes
backups and restores them. A backup of the server is never ahead of it, so a restore lifts all notes above
every cursor (`Inv.restore`). Only a backup without notes lifts nothing. Where none is restored over
notes, every poll brings its client up to date (`exists_upToDate`), and the wait endpoint keeps exactly those
clients waiting that are up to date (`waits_iff`).
-/

namespace FloralSync

open Replication StoreM Trace
open Rfc3339 (Civil)

variable {τ : Type} [Chrono τ]

/-- A server with the backups that it made, and its clients. -/
structure ReplicaSystem (ι τ : Type) where
  store : SyncStore
  backups : List Database
  clients : ι → Client τ

namespace ReplicaSystem

variable {ι : Type}

def setClient [DecidableEq ι] (s : ReplicaSystem ι τ) (i : ι) (client : Client τ) : ReplicaSystem ι τ :=
  { s with clients := Function.update s.clients i client }

section Clients

variable [DecidableEq ι] {s : ReplicaSystem ι τ} {i j : ι} {client : Client τ}

omit [Chrono τ] in
@[simp] theorem setClient_clients : (s.setClient i client).clients i = client := Function.update_self ..

omit [Chrono τ] in
theorem setClient_clients_of_ne (h : j ≠ i) : (s.setClient i client).clients j = s.clients j :=
  Function.update_of_ne h ..

end Clients

/-- The label is the backup that a step restores. A restore that fails does so before its copy. -/
inductive Step [DecidableEq ι] : ReplicaSystem ι τ → Option Database → ReplicaSystem ι τ → Prop
  | push {env : PushEnv τ} {request result store s}
      (h : (SyncStore.push env request).exec s.store = (result, store)) (henv : env.InRange) (hr : request.InRange)
      (hfits : PushFits s.store.db store.db) : Step s none { s with store }
  | reopen {store s} (h : SyncStore.open (.database s.store.db) = .ok store) : Step s none { s with store }
  | backup {fault content store s} (h : (SyncStore.backupTo fault).exec s.store = (.ok (.database content), store)) :
      Step s none { s with store, backups := content :: s.backups }
  | restore {env : RestoreEnv τ} {content store s} (hcontent : content ∈ s.backups)
      (h : (SyncStore.restoreFrom env (.database content)).exec s.store = (.ok (), store)) (henv : env.InRange)
      (hfits : RestoreFits s.store.db content store.db) : Step s (some content) { s with store }
  | refused {env : RestoreEnv τ} {file e s} (h : (SyncStore.restoreFrom env file).exec s.store = (.error e, s.store)) :
      Step s none s
  | poll {response s} (i : ι) (h : changesSince s.store.db (s.clients i).cursor = .ok response) :
      Step s none (s.setClient i ((s.clients i).receive response))

/-- A server that has just been started, without backups yet, and clients that have never polled. -/
structure Start (s : ReplicaSystem ι τ) : Prop where
  reachable : Reachable τ s.store
  opened : currentRevision s.store.db = .ok s.store.revisionEvents
  backups : s.backups = []
  clients : ∀ i, s.clients i = .empty

/-- A backup without notes is restored over notes. -/
def Empties (s : ReplicaSystem ι τ) (restored : Option Database) : Prop :=
  ∃ content ∈ restored, content.noteIds = [] ∧ s.store.db.noteIds ≠ []

/-- What is known of a client of a server with journal `J`. -/
structure ClientInv (db : Database) (J : Journal (SyncChange τ)) (client : Client τ) : Prop where
  cursor_le : client.cursor ≤ J.head
  replica : InStep db client.cursor client.replica
  below : ∀ id c, client.replica id = some c → c.revision ≤ client.cursor

structure Inv (s : ReplicaSystem ι τ) (J : Journal (SyncChange τ)) : Prop where
  represents : Represents s.store.db J
  channel : s.store.revisionEvents = J.head
  backups : ∀ content ∈ s.backups, ∃ K : Journal (SyncChange τ), Represents content K ∧ K.head ≤ J.head
  clients : ∀ i, ClientInv s.store.db J (s.clients i)

section Journal

variable [LawfulChrono τ] {db db' : Database} {J K : Journal (SyncChange τ)} {client : Client τ}
  {ts : List (SyncChange τ)} {restoreTime : τ}

omit [LawfulChrono τ] in
theorem entries_eq_nil (h : Represents db J) : J.entries = [] ↔ db.noteIds = [] := by
  obtain ⟨notes, snapshots, rfl⟩ := h.tables
  rw [← h.rows_eq_nil rfl]
  exact List.map_eq_nil_iff.symm

namespace ClientInv

theorem empty (h : Represents db J) : ClientInv db J (.empty : Client τ) where
  cursor_le := Nat.zero_le _
  replica := by
    refine ⟨fun _ _ => rfl, fun id c hc hle => ?_⟩
    have hmem := (Journal.latest_spec (h.recordAt_eq_some.1 hc)).1
    exact absurd hle (Nat.not_le.2 (J.positive _ hmem))
  below := nofun

/-- What a push stores goes above the cursor. -/
theorem push (h : ClientInv db J client) (hdb : Represents db J) {vs : List (SyncChange τ)}
    (hdb' : Represents db' (J.offerAll changeTime SyncChange.id vs)) :
    ClientInv db' (J.offerAll changeTime SyncChange.id vs) client where
  cursor_le := h.cursor_le.trans (J.head_le_offerAll vs)
  replica := by
    have hreplica := h.replica
    unfold InStep at hreplica ⊢
    rw [hdb.recordAt_eq_view] at hreplica
    rw [hdb'.recordAt_eq_view]
    have hrevision : ∀ e : Nat × SyncChange τ, (entryRecord e).revision = e.1 := fun _ => rfl
    exact Journal.synced_offerAll hrevision hreplica h.cursor_le vs
  below := h.below

/-- A restore of a backup that is not ahead lifts every note above the cursor. -/
theorem restore (h : ClientInv db J client) (hdb : Represents db J) (hle : K.head ≤ J.head)
    (hempty : K.entries = [] → J.entries = []) (hts : TombstonesOf restoreTime J K ts)
    (hdb' : Represents db' ((K.past J.head).appendAll ts)) :
    ClientInv db' ((K.past J.head).appendAll ts) client where
  cursor_le := by
    rw [Journal.head_appendAll, Journal.head_past]
    by_cases hnil : K.entries = []
    · have hcursor := h.cursor_le
      rw [Journal.head_eq_zero.2 (hempty hnil)] at hcursor
      omega
    · rw [if_pos ⟨hle, hnil⟩]
      have hcursor := h.cursor_le
      omega
  replica := by
    refine h.replica.of_above (fun id hid => ?_) (fun id c hc => ?_)
    · rw [hdb'.recordAt_eq, Option.map_eq_none_iff] at hid
      rw [hdb.recordAt_eq, (hts.latest_eq_none.1 hid).2, Option.map_none]
    · have hlatest := hdb'.recordAt_eq_some.1 hc
      have hne : K.entries ≠ [] := by
        intro hnil
        rw [hts.latest_eq_none.2 ⟨Journal.latest_of_nil hnil, Journal.latest_of_nil (hempty hnil)⟩] at hlatest
        cases hlatest
      have hpos : 0 < K.head := Nat.pos_of_ne_zero (mt Journal.head_eq_zero.1 hne)
      exact h.cursor_le.trans_lt (hts.lt_of_rebased hpos hle hlatest)
  below := h.below

omit [LawfulChrono τ] in
/-- A poll brings the client up to date. -/
theorem receive_replica (h : ClientInv db J client) (hdb : Represents db J) {response : ChangesResponse τ}
    (hpoll : changesSince db client.cursor = .ok response) : (client.receive response).replica = recordAt db :=
  (hdb.receive_eq_iff hpoll _).2 h.replica

theorem receive (h : ClientInv db J client) (hdb : Represents db J) {response : ChangesResponse τ}
    (hpoll : changesSince db client.cursor = .ok response) : ClientInv db J (client.receive response) where
  cursor_le := (hdb.revision_of_poll hpoll).le
  replica := h.receive_replica hdb hpoll ▸ Synced.refl _ _
  below := by
    intro id c hc
    rw [h.receive_replica hdb hpoll] at hc
    show c.revision ≤ response.revision
    rw [hdb.revision_of_poll hpoll]
    exact Journal.le_head (Journal.latest_spec (hdb.recordAt_eq_some.1 hc)).1

/-- The note that was stored last is above the revisions of an older client. -/
theorem replica_eq_iff (h : ClientInv db J client) (hdb : Represents db J) :
    client.replica = recordAt db ↔ J.head ≤ client.cursor := by
  constructor
  · intro heq
    by_contra hlt
    have hne : J.entries ≠ [] := fun hnil => hlt (by rw [Journal.head_eq_zero.2 hnil]; exact Nat.zero_le _)
    obtain ⟨e, hhead, he⟩ := Journal.exists_latest_head SyncChange.id hne
    have hrecord : client.replica e.2.id = some (entryRecord e) := by
      rw [heq]
      exact hdb.recordAt_eq_some.2 he
    have hle : e.1 ≤ client.cursor := h.below _ _ hrecord
    omega
  · intro hle
    funext id
    cases hid : (recordAt db id : Option (RevisionedChange τ)) with
    | none => exact h.replica.absent id hid
    | some c =>
      have hmem := (Journal.latest_spec (hdb.recordAt_eq_some.1 hid)).1
      exact h.replica.kept id c hid ((Journal.le_head hmem).trans hle)

end ClientInv
end Journal

section Runs

variable [DecidableEq ι] [LawfulChrono τ] {s s' s₀ : ReplicaSystem ι τ} {J : Journal (SyncChange τ)}
  {restored : Option Database} {trace : List (ReplicaSystem ι τ × Option Database)}

omit [DecidableEq ι] in
theorem Start.inv (h : s.Start) : ∃ J, s.Inv J := by
  obtain ⟨J, hJ⟩ := h.reachable.represents
  refine ⟨J, hJ, ?_, by simp [h.backups], fun i => by rw [h.clients]; exact .empty hJ⟩
  exact Except.ok.inj (h.opened.symm.trans hJ.currentRevision_eq)

omit [DecidableEq ι] in
theorem Inv.push {env : PushEnv τ} {request : PushRequest τ} {result : Except StoreError PushResponse}
    {store : SyncStore} (h : s.Inv J) (hpush : (SyncStore.push env request).exec s.store = (result, store))
    (henv : env.InRange) (hr : request.InRange) (hfits : PushFits s.store.db store.db) :
    ∃ J', Inv { s with store } J' := by
  rcases result with e | response
  · obtain rfl := exec_push_error hpush
    exact ⟨J, h⟩
  obtain ⟨-, -, startingRevision, hstart, hloop, hrev, hevents⟩ := exec_push_ok.1 hpush
  have hdb' := h.represents.pushChanges hloop henv.now hr (hfits _ h.represents.currentRevision_eq)
  obtain rfl := Except.ok.inj (h.represents.currentRevision_eq.symm.trans hstart)
  have hrevision := Except.ok.inj (hrev.symm.trans hdb'.currentRevision_eq)
  refine ⟨_, hdb', ?_, fun content hcontent => ?_, fun i => (h.clients i).push h.represents hdb'⟩
  · rw [hevents, hrevision, h.channel]
    split_ifs with hlt
    · rfl
    · exact le_antisymm (J.head_le_offerAll _) (Nat.not_lt.1 hlt)
  · obtain ⟨K, hK, hle⟩ := h.backups content hcontent
    exact ⟨K, hK, hle.trans (J.head_le_offerAll _)⟩

omit [DecidableEq ι] in
theorem Inv.restore {env : RestoreEnv τ} {content : Database} {store : SyncStore} (h : s.Inv J)
    (hcontent : content ∈ s.backups) (hempties : ¬ s.Empties (some content))
    (hrestore : (SyncStore.restoreFrom env (.database content)).exec s.store = (.ok (), store)) (henv : env.InRange)
    (hfits : RestoreFits s.store.db content store.db) : ∃ J', Inv { s with store } J' := by
  obtain ⟨K, hK, hle⟩ := h.backups content hcontent
  obtain ⟨ts, hts, hdb'⟩ := h.represents.restoreFrom hK hrestore henv hfits
  have hempty : K.entries = [] → J.entries = [] := by
    intro hnil
    by_contra hne
    exact hempties ⟨content, rfl, (entries_eq_nil hK).1 hnil, mt (entries_eq_nil h.represents).2 hne⟩
  have hmono : J.head ≤ ((K.past J.head).appendAll ts).head := by
    have hclient : ClientInv s.store.db J (⟨recordAt s.store.db, J.head⟩ : Client τ) :=
      ⟨le_rfl, Synced.refl _ _, fun id c hc => Journal.le_head
        (Journal.latest_spec (h.represents.recordAt_eq_some.1 hc)).1⟩
    exact (hclient.restore h.represents hle hempty hts hdb').cursor_le
  obtain ⟨_, -, -, hevents⟩ := exec_restoreFrom_ok hrestore
  refine ⟨_, hdb', Except.ok.inj (hevents.symm.trans hdb'.currentRevision_eq), fun content hcontent => ?_,
    fun i => (h.clients i).restore h.represents hle hempty hts hdb'⟩
  obtain ⟨K', hK', hle'⟩ := h.backups content hcontent
  exact ⟨K', hK', hle'.trans hmono⟩

theorem Inv.step (h : s.Inv J) (hs : Step s restored s') (hempties : ¬ s.Empties restored) : ∃ J', s'.Inv J' := by
  cases hs with
  | push hpush henv hr hfits => exact h.push hpush henv hr hfits
  | reopen hopen =>
    obtain ⟨hdb, hevents⟩ := open_eq_ok.1 hopen
    rw [h.represents.initConnection_eq] at hdb hevents
    refine ⟨J, hdb ▸ h.represents, ?_, h.backups, fun i => hdb ▸ h.clients i⟩
    exact Except.ok.inj (hevents.symm.trans h.represents.currentRevision_eq)
  | backup hbackup =>
    obtain ⟨-, hfile, rfl⟩ := exec_backupTo_ok.1 hbackup
    obtain rfl := SourceFile.database.inj hfile
    exact ⟨J, h.represents, h.channel, List.forall_mem_cons.2 ⟨⟨J, h.represents, le_rfl⟩, h.backups⟩, h.clients⟩
  | restore hcontent hrestore henv hfits => exact h.restore hcontent hempties hrestore henv hfits
  | refused => exact ⟨J, h⟩
  | poll i hpoll =>
    refine ⟨J, h.represents, h.channel, h.backups, fun j => ?_⟩
    rcases eq_or_ne j i with rfl | hne
    · rw [setClient_clients]
      exact (h.clients j).receive h.represents hpoll
    · rw [setClient_clients_of_ne hne]
      exact h.clients j

theorem exists_inv (h : Run Step s₀ trace s) (h₀ : s₀.Start) (hrestored : ∀ x ∈ trace, ¬ x.1.Empties x.2) :
    ∃ J, s.Inv J := by
  induction h with
  | start => exact h₀.inv
  | step _ hs ih =>
    obtain ⟨hempties, hrestored⟩ := List.forall_mem_cons.1 hrestored
    obtain ⟨J, hJ⟩ := ih hrestored
    exact hJ.step hs hempties

/-- Whenever a client polls, the server answers, and the client then has the notes and the revision of the
server. -/
theorem exists_upToDate (h : Run Step s₀ trace s) (h₀ : s₀.Start) (hrestored : ∀ x ∈ trace, ¬ x.1.Empties x.2)
    (i : ι) : ∃ response, changesSince s.store.db (s.clients i).cursor = .ok response ∧
      ((s.clients i).receive response).replica = recordAt s.store.db ∧
      currentRevision s.store.db = .ok ((s.clients i).receive response).cursor := by
  obtain ⟨J, hJ⟩ := exists_inv h h₀ hrestored
  have hlt := (hJ.clients i).cursor_le.trans_lt hJ.represents.head_lt
  obtain ⟨response, hpoll⟩ := hJ.represents.healthy.exists_changesSince hlt
  refine ⟨response, hpoll, (hJ.clients i).receive_replica hJ.represents hpoll, ?_⟩
  rw [hJ.represents.currentRevision_eq, ← hJ.represents.revision_of_poll hpoll]
  rfl

/-- The wait endpoint lets a client wait if and only if the client has the notes of the server. -/
theorem waits_iff (h : Run Step s₀ trace s) (h₀ : s₀.Start) (hrestored : ∀ x ∈ trace, ¬ x.1.Empties x.2) (i : ι) :
    waitImmediately s.store.revisionEvents (s.clients i).cursor = none ↔
      (s.clients i).replica = recordAt s.store.db := by
  obtain ⟨J, hJ⟩ := exists_inv h h₀ hrestored
  rw [waitImmediately_eq_none, hJ.channel, (hJ.clients i).replica_eq_iff hJ.represents]

end Runs

def sampleStart : ReplicaSystem Unit Civil := ⟨.created, [], fun _ => .empty⟩

theorem start_sample : sampleStart.Start := ⟨.created, by decide +kernel, rfl, fun _ => rfl⟩

/-- One note, and a backup. -/
def sampleBackedUp : ReplicaSystem Unit Civil := ⟨Sample.oneNoteStore, [Sample.oneNoteStore.db], fun _ => .empty⟩

/-- The note has new versions. -/
def newVersionsStore : SyncStore := Sample.pushed Sample.twoVersions Sample.oneNoteStore

theorem run_sampleBackedUp : ∃ (trace : List (ReplicaSystem Unit Civil × Option Database)),
    Run Step sampleStart trace sampleBackedUp ∧ ∀ x ∈ trace, x.2 = none := by
  have hrev : currentRevision SyncStore.created.db = .ok 0 := by decide +kernel
  have hpush : (SyncStore.push Sample.pushEnv Sample.oneNote).exec .created = (_, Sample.oneNoteStore) := rfl
  have hstep : Step sampleStart none ⟨Sample.oneNoteStore, [], fun _ => .empty⟩ :=
    .push hpush Sample.pushEnv_inRange (by decide) (.of_eq hrev (by decide +kernel))
  exact ⟨_, (Run.start.step hstep).step (.backup (Sample.exec_backupTo _)), by simp⟩

theorem run_sample : ∃ (trace : List (ReplicaSystem Unit Civil × Option Database)) (s : ReplicaSystem Unit Civil),
    Run Step sampleStart trace s ∧ (∀ x ∈ trace, ¬ x.1.Empties x.2) ∧ (s.clients ()).cursor = 1 ∧
    s.store = Sample.restored Sample.nine Sample.oneNoteStore.db newVersionsStore := by
  obtain ⟨J, hJ⟩ := Sample.reachable_oneNote.represents
  obtain ⟨response, hpoll⟩ : ∃ response : ChangesResponse Civil, changesSince Sample.oneNoteStore.db 0 = .ok response :=
    hJ.healthy.exists_changesSince (by decide)
  have hone : currentRevision Sample.oneNoteStore.db = .ok 1 := by decide +kernel
  have hlive : currentRevision newVersionsStore.db = .ok 3 := by decide +kernel
  have hpush : (SyncStore.push Sample.pushEnv Sample.twoVersions).exec Sample.oneNoteStore = (_, newVersionsStore) := rfl
  have hrestore : (SyncStore.restoreFrom (Sample.restoreEnv Sample.nine) (.database Sample.oneNoteStore.db)).exec
      newVersionsStore = (.ok (), Sample.restored Sample.nine Sample.oneNoteStore.db newVersionsStore) :=
    Sample.exec_restoreFrom (by decide +kernel)
  have hpushFits : PushFits Sample.oneNoteStore.db newVersionsStore.db := .of_eq hone (by decide +kernel)
  have hrestoreFits : RestoreFits newVersionsStore.db Sample.oneNoteStore.db
      (Sample.restored Sample.nine Sample.oneNoteStore.db newVersionsStore).db := .of_eq hlive hone (by decide +kernel)
  obtain ⟨trace, hstart, hlabels⟩ := run_sampleBackedUp
  have hpolled : Step sampleBackedUp none (sampleBackedUp.setClient () (Client.receive .empty response)) :=
    .poll () hpoll
  have hpushed := (hstart.step hpolled).step (.push hpush Sample.pushEnv_inRange (by decide) hpushFits)
  have hrun := hpushed.step (.restore List.mem_cons_self hrestore Sample.restoreEnv_inRange hrestoreFits)
  refine ⟨_, _, hrun, ?_, ?_, rfl⟩
  · have hnotes : Sample.oneNoteStore.db.noteIds ≠ [] := by decide +kernel
    have hbefore : ∀ x ∈ trace, ¬ x.1.Empties x.2 := fun x hx => by simp [Empties, hlabels x hx]
    simp only [List.forall_mem_cons]
    exact ⟨by simp [Empties, hnotes], by simp [Empties], by simp [Empties], hbefore⟩
  · show ((sampleBackedUp.setClient () (Client.receive .empty response)).clients ()).cursor = 1
    obtain ⟨_, -, -, -, hrev⟩ := changesSince_eq_ok.1 hpoll
    rw [setClient_clients]
    exact Except.ok.inj (hrev.symm.trans hone)

theorem exists_upToDate_sample : ∃ (s : ReplicaSystem Unit Civil) (response : ChangesResponse Civil),
    currentRevision s.store.db = .ok 4 ∧ changesSince s.store.db (s.clients ()).cursor = .ok response ∧
    ((s.clients ()).receive response).replica = recordAt s.store.db := by
  obtain ⟨trace, s, hrun, hrestored, -, hstore⟩ := run_sample
  obtain ⟨response, hpoll, hreplica, -⟩ := exists_upToDate hrun start_sample hrestored ()
  exact ⟨s, response, by rw [hstore]; decide +kernel, hpoll, hreplica⟩

/-- The client is told at once that there is something new. -/
theorem waits_iff_sample : ∃ s : ReplicaSystem Unit Civil, (s.clients ()).cursor = 1 ∧
    waitImmediately s.store.revisionEvents (s.clients ()).cursor ≠ none ∧
    (s.clients ()).replica ≠ recordAt s.store.db := by
  obtain ⟨trace, s, hrun, hrestored, hcursor, hstore⟩ := run_sample
  have hwait : waitImmediately s.store.revisionEvents (s.clients ()).cursor ≠ none := by
    rw [hcursor, hstore]
    decide +kernel
  exact ⟨s, hcursor, hwait, mt (waits_iff hrun start_sample hrestored ()).2 hwait⟩

end ReplicaSystem
end FloralSync

import FloralSync.Store.LastWriteWins

/-!
# The order of deliveries

The same changes may reach the server in another order, in other requests and some of them repeatedly. What the
notes are in the end does not depend on it, unless two different changes for a note share its highest change
time (`order_irrelevant_iff`).
-/

namespace FloralSync

open Replication StoreM
open Rfc3339 (Civil)

variable {τ : Type} [Chrono τ]

/-- The requests `rs'` bring the changes that the requests `rs` bring. -/
def SameChanges (rs rs' : List (PushRequest τ)) : Prop := ∀ c, c ∈ arrivals rs ↔ c ∈ arrivals rs'

/-- No two changes of the requests that are different share the highest change time of a note. -/
def Undisputed (db : Database) (rs : List (PushRequest τ)) : Prop :=
  ∀ a ∈ arrivals rs, ∀ b ∈ arrivals rs, a.id = b.id → changeTime a = changeTime b →
    (∀ c ∈ offered db rs a.id, changeTime c ≤ changeTime a) → a = b

variable (τ) in
/-- The records that the database gives back for every id are the same. -/
def SameRecords (db db' : Database) : Prop :=
  ∀ id, (existingChange db id : Except StoreError (Option (SyncChange τ))) = existingChange db' id

section Records

variable {db db' : Database} {id : String} {rs : List (PushRequest τ)}

theorem existingChange_eq_cell (hdb : Opened db) (hread : (cellAt db id : Cell (SyncChange τ)) ≠ .unreadable) :
    (existingChange db id : Except StoreError (Option (SyncChange τ))) = .ok (recordOf db id) := by
  unfold recordOf
  cases hcell : (cellAt db id : Cell (SyncChange τ)) with
  | absent => exact hdb.existingChange_eq_none.2 hcell
  | unreadable => exact absurd hcell hread
  | holds c => exact existingChange_eq_some.2 hcell

theorem Undisputed.unique (h : Undisputed db rs) {a b : SyncChange τ} (ha : a ∈ (arrivals rs).filter (·.id = id))
    (hb : b ∈ (arrivals rs).filter (·.id = id)) (htime : changeTime a = changeTime b)
    (hmax : ∀ c ∈ offered db rs id, changeTime c ≤ changeTime a) : a = b := by
  simp only [List.mem_filter, decide_eq_true_eq] at ha hb
  refine h a ha.1 b hb.1 (ha.2.trans hb.2.symm) htime ?_
  rwa [ha.2]

/-- A request for each change by itself, from the device of the change. -/
def oneByOne (changes : List (SyncChange τ)) : List (PushRequest τ) := changes.map fun c => ⟨c.deviceId, [c]⟩

omit [Chrono τ] in
theorem fillDevice_self (c : SyncChange τ) : fillDevice c.deviceId c = c := by
  unfold fillDevice
  split_ifs <;> rfl

omit [Chrono τ] in
theorem arrivals_oneByOne (changes : List (SyncChange τ)) : arrivals (oneByOne changes) = changes := by
  have hfilled : ∀ c : SyncChange τ, PushRequest.filled ⟨c.deviceId, [c]⟩ = [c] := fun c => by
    rw [PushRequest.filled, List.map_singleton, fillDevice_self]
  simp [arrivals, oneByOne, List.flatMap_map, hfilled]

theorem SameChanges.inRange {rs' : List (PushRequest τ)} (h : SameChanges rs rs') (hr : ∀ r ∈ rs, r.InRange) :
    ∀ r ∈ rs', r.InRange := by
  intro r hrmem c hc
  have hfilled : fillDevice r.deviceId c ∈ r.filled := List.mem_map_of_mem hc
  exact SyncChange.inRange_fillDevice.1 (inRange_arrivals hr _ ((h _).2 (List.mem_flatMap.2 ⟨r, hrmem, hfilled⟩)))

end Records

section Delivery

variable [LawfulChrono τ] {s₀ s s' : SyncStore} {rs rs' : List (PushRequest τ)} {id : String}

omit [LawfulChrono τ] in
theorem Healthy.inRange_of_recordOf {db : Database} (h : Healthy τ db) {w : SyncChange τ}
    (hw : recordOf db id = some w) : w.InRange := by
  have hcell := h.cell_eq id
  rw [hw] at hcell
  have hholds : cellAt db id = .holds w := by
    unfold recordOf at hw
    split at hw
    · exact Option.some.inj hw ▸ ‹_›
    · cases hw
  exact (Cell.of_eq_holds.1 (hcell.symm.trans hholds)).2

theorem PushRun.readable (h : PushRun s₀ rs s) (hs₀ : Healthy τ s₀.db) (hr : ∀ r ∈ rs, r.InRange) (id : String) :
    (cellAt s.db id : Cell (SyncChange τ)) ≠ .unreadable := by
  intro hcell
  obtain ⟨w, hw, hrange⟩ := (h.cell_eq_unreadable hs₀).1 hcell
  rcases List.mem_append.1 hw.mem with hw | hw
  · exact hrange (hs₀.inRange_of_recordOf (Option.mem_toList.1 hw))
  · exact hrange (inRange_arrivals hr w (List.mem_of_mem_filter hw))

theorem exists_pushRun (hs₀ : Healthy τ s₀.db) (now : Nat → τ) (hr : ∀ r ∈ rs, r.InRange) : ∃ s, PushRun s₀ rs s := by
  induction rs using List.reverseRecOn with
  | nil => exact ⟨s₀, .start⟩
  | append_singleton rs request ih =>
    rw [List.forall_mem_append, List.forall_mem_singleton] at hr
    obtain ⟨s, h⟩ := ih hr.1
    have hoffers : ∀ id, ∃ c, Cell.offerAll changeTime SyncChange.InRange (cellAt s.db id)
        (request.filled.filter (·.id = id)) = some c := by
      intro id
      obtain ⟨c, hc, -⟩ := Cell.exists_offerAll_of_readable changeTime (h.readable hs₀ hr.1 id)
        fun v hv => hr.2.filled v (List.mem_of_mem_filter hv)
      exact ⟨c, hc⟩
    obtain ⟨response, s', hpush⟩ : ∃ response s', (SyncStore.push ⟨fun _ => none, now⟩ request).exec s =
        (.ok response, s') := exists_exec_push (h.opened hs₀.opened) rfl rfl hoffers
    exact ⟨s', .processed h hpush⟩

/-- The record of an id is what its register settles on. -/
theorem PushRun.recordOf_eq (h : PushRun s₀ rs s) (hs₀ : Healthy τ s₀.db) (hr : ∀ r ∈ rs, r.InRange) (id : String) :
    recordOf s.db id = ((arrivals rs).filter (·.id = id)).foldl (settle changeTime) (recordOf s₀.db id) := by
  have hfold : (offered s₀.db rs id).foldl (settle changeTime) none =
      ((arrivals rs).filter (·.id = id)).foldl (settle changeTime) (recordOf s₀.db id) := by
    rw [offered, List.foldl_append]
    cases recordOf (τ := τ) s₀.db id <;> rfl
  have hcell := h.cell_eq hs₀ id
  have hread := h.readable hs₀ hr id
  rw [hfold] at hcell
  rw [hcell] at hread
  rw [recordOf, hcell]
  cases hkept : ((arrivals rs).filter (·.id = id)).foldl (settle changeTime) (recordOf s₀.db id) with
  | none => rfl
  | some w =>
    rw [hkept] at hread
    have hw : w.InRange := by
      by_contra hrange
      exact hread (Cell.of_eq_unreadable.2 ⟨w, rfl, hrange⟩)
    rw [Cell.of_eq_holds.2 ⟨rfl, hw⟩]

theorem sameRecords_iff (h : PushRun s₀ rs s) (h' : PushRun s₀ rs' s') (hs₀ : Healthy τ s₀.db)
    (hr : ∀ r ∈ rs, r.InRange) (hr' : ∀ r ∈ rs', r.InRange) :
    SameRecords τ s.db s'.db ↔ ∀ id, recordOf (τ := τ) s.db id = recordOf s'.db id := by
  refine forall_congr' fun id => ?_
  rw [existingChange_eq_cell (h.opened hs₀.opened) (h.readable hs₀ hr id),
    existingChange_eq_cell (h'.opened hs₀.opened) (h'.readable hs₀ hr' id), Except.ok.injEq]

/-- If two different changes share the highest time, the one that is delivered last makes the record. -/
theorem exists_delivery (hs₀ : Healthy τ s₀.db) (hr : ∀ r ∈ rs, r.InRange) {a : SyncChange τ} (ha : a ∈ arrivals rs)
    (hmax : ∀ c ∈ offered s₀.db rs a.id, changeTime c ≤ changeTime a) (now : Nat → τ) :
    ∃ rs' s', PushRun s₀ rs' s' ∧ SameChanges rs rs' ∧ recordOf s'.db a.id = some a := by
  have hchanges : arrivals (oneByOne (arrivals rs ++ [a])) = arrivals rs ++ [a] := arrivals_oneByOne _
  have hrange : ∀ r ∈ oneByOne (arrivals rs ++ [a]), r.InRange := by
    intro r hrmem c hc
    obtain ⟨c', hc', rfl⟩ := List.mem_map.1 hrmem
    rw [List.mem_singleton.1 hc]
    rcases List.mem_append.1 hc' with hc' | hc'
    · exact inRange_arrivals hr c' hc'
    · rw [List.mem_singleton.1 hc']
      exact inRange_arrivals hr a ha
  obtain ⟨s', h'⟩ := exists_pushRun hs₀ now hrange
  refine ⟨_, s', h', fun c => ?_, ?_⟩
  · rw [hchanges, List.mem_append, List.mem_singleton]
    exact ⟨.inl, fun hc => hc.elim id fun hc => hc ▸ ha⟩
  · have hlast : LastMax changeTime (offered s₀.db (oneByOne (arrivals rs ++ [a])) a.id) a := by
      have hsplit : offered s₀.db (oneByOne (arrivals rs ++ [a])) a.id = offered s₀.db rs a.id ++ [a] := by
        simp [offered, hchanges]
      rw [hsplit]
      exact .snoc_newer hmax
    have hcell := (h'.cell_eq_holds hs₀).2 ⟨hlast, inRange_arrivals hr a ha⟩
    rw [recordOf, hcell]

/-- The notes after some requests do not depend on the order and the grouping of the changes, nor on
repetitions, if and only if no two different changes share the highest change time of a note. -/
theorem order_irrelevant_iff (h : PushRun s₀ rs s) (hs₀ : Healthy τ s₀.db) (hr : ∀ r ∈ rs, r.InRange) (now : Nat → τ) :
    (∀ rs' s', PushRun s₀ rs' s' → SameChanges rs rs' → SameRecords τ s.db s'.db) ↔ Undisputed s₀.db rs := by
  constructor
  · intro hsame a ha b hb hid htime hmax
    obtain ⟨rsa, sa, hruna, hsamea, hreca⟩ := exists_delivery hs₀ hr ha hmax now
    obtain ⟨rsb, sb, hrunb, hsameb, hrecb⟩ := exists_delivery hs₀ hr hb (by rwa [← hid, ← htime]) now
    have heqa := (sameRecords_iff h hruna hs₀ hr (hsamea.inRange hr)).1 (hsame _ _ hruna hsamea) a.id
    have heqb := (sameRecords_iff h hrunb hs₀ hr (hsameb.inRange hr)).1 (hsame _ _ hrunb hsameb) b.id
    rw [hreca] at heqa
    rw [hrecb, ← hid] at heqb
    exact Option.some.inj (heqa.symm.trans heqb)
  · intro hundisputed rs' s' h' hsame
    have hr' := hsame.inRange hr
    refine (sameRecords_iff h h' hs₀ hr hr').2 fun id => ?_
    rw [h.recordOf_eq hs₀ hr, h'.recordOf_eq hs₀ hr']
    refine foldl_settle_congr (fun c => ?_) fun a ha b hb => hundisputed.unique ha hb
    rw [List.mem_filter, List.mem_filter, hsame c]

end Delivery

/-- A note and a new version of it. -/
theorem order_irrelevant_two_versions : Undisputed (τ := Civil) SyncStore.created.db [Sample.twoVersions] ∧
    ∀ rs' s', PushRun .created rs' s' → SameChanges [Sample.twoVersions] rs' →
      SameRecords Civil Sample.twoVersionsStore.db s'.db := by
  have hundisputed : Undisputed (τ := Civil) SyncStore.created.db [Sample.twoVersions] := by
    unfold Undisputed
    decide +kernel
  have hpush : (SyncStore.push Sample.pushEnv Sample.twoVersions).exec .created =
      (.ok ⟨2⟩, Sample.twoVersionsStore) := by decide +kernel
  have hrange : ∀ r ∈ [Sample.twoVersions], r.InRange := by
    rw [List.forall_mem_singleton]
    decide
  exact ⟨hundisputed, (order_irrelevant_iff (.processed .start hpush) healthy_created hrange
    fun _ => Sample.eight).2 hundisputed⟩

end FloralSync

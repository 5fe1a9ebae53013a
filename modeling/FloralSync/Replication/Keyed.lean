import Mathlib.Data.List.Nodup

/-!
# Tables with a primary key

A table is the list of its rows, in the order in which they were inserted, whose keys are
pairwise distinct. Everything a statement can ask of one key goes through `lookup`; `upsert`
is `INSERT ... ON CONFLICT (key) DO UPDATE`.
-/

namespace Replication

/-- Rows with pairwise distinct keys. -/
@[ext] structure Keyed {ρ κ : Type*} (key : ρ → κ) where
  rows : List ρ
  nodup : (rows.map key).Nodup

namespace Keyed

variable {ρ κ : Type*} {key : ρ → κ}

def empty : Keyed key := ⟨[], List.nodup_nil⟩

instance [DecidableEq ρ] : DecidableEq (Keyed key) := fun t u =>
  decidable_of_iff (t.rows = u.rows) Keyed.ext_iff.symm

theorem eq_of_key_eq (t : Keyed key) {x y : ρ} (hx : x ∈ t.rows) (hy : y ∈ t.rows)
    (h : key x = key y) : x = y :=
  List.inj_on_of_nodup_map t.nodup hx hy h

/-- Rewriting every row in place without touching its key. -/
def map (t : Keyed key) (f : ρ → ρ) (hf : ∀ r, key (f r) = key r) : Keyed key :=
  ⟨t.rows.map f, by
    rw [List.map_map, show key ∘ f = key from funext hf]; exact t.nodup⟩

@[simp] theorem rows_map (t : Keyed key) (f : ρ → ρ) (hf) : (t.map f hf).rows = t.rows.map f := rfl

/-- Appending a row whose key is not in use. -/
def insert (t : Keyed key) (r : ρ) (hr : key r ∉ t.rows.map key) : Keyed key :=
  ⟨t.rows ++ [r], by
    rw [List.map_append, List.map_singleton, List.nodup_append_comm, List.singleton_append]
    exact List.nodup_cons.2 ⟨hr, t.nodup⟩⟩

@[simp] theorem rows_insert (t : Keyed key) (r : ρ) (hr) : (t.insert r hr).rows = t.rows ++ [r] := rfl

variable [DecidableEq κ]

def lookup (t : Keyed key) (k : κ) : Option ρ :=
  t.rows.find? fun r => key r = k

theorem lookup_eq_some {t : Keyed key} {k : κ} {r : ρ} :
    t.lookup k = some r ↔ r ∈ t.rows ∧ key r = k := by
  constructor
  · intro h
    exact ⟨List.mem_of_find?_eq_some h, by simpa using List.find?_some h⟩
  · rintro ⟨hr, rfl⟩
    have hsome : (t.lookup (key r)).isSome := List.find?_isSome.2 ⟨r, hr, by simp⟩
    obtain ⟨x, hx⟩ := Option.isSome_iff_exists.1 hsome
    have hkey : key x = key r := by simpa using List.find?_some hx
    rw [hx, t.eq_of_key_eq (List.mem_of_find?_eq_some hx) hr hkey]

theorem lookup_eq_none {t : Keyed key} {k : κ} : t.lookup k = none ↔ ∀ r ∈ t.rows, key r ≠ k := by
  simp [lookup]

theorem lookup_key {t : Keyed key} {r : ρ} (hr : r ∈ t.rows) : t.lookup (key r) = some r :=
  lookup_eq_some.2 ⟨hr, rfl⟩

theorem lookup_map (t : Keyed key) (f : ρ → ρ) (hf) (k : κ) :
    (t.map f hf).lookup k = (t.lookup k).map f := by
  ext r
  simp only [lookup_eq_some, rows_map, List.mem_map, Option.map_eq_some_iff]
  constructor
  · rintro ⟨⟨x, hx, rfl⟩, hk⟩
    exact ⟨x, ⟨hx, (hf x).symm.trans hk⟩, rfl⟩
  · rintro ⟨x, ⟨hx, hk⟩, rfl⟩
    exact ⟨⟨x, hx, rfl⟩, (hf x).trans hk⟩

/-- The row takes the place of the one with its key, or comes last if there is none. -/
def upsert (t : Keyed key) (r : ρ) : Keyed key :=
  if hr : key r ∈ t.rows.map key then
    ⟨t.rows.map fun x => if key x = key r then r else x, by
      have hkey : (t.rows.map fun x => if key x = key r then r else x).map key = t.rows.map key := by
        rw [List.map_map]
        refine List.map_congr_left fun x _ => ?_
        show key (if key x = key r then r else x) = key x
        split_ifs with h
        · exact h.symm
        · rfl
      rw [hkey]; exact t.nodup⟩
  else t.insert r hr

theorem mem_upsert {t : Keyed key} {r x : ρ} :
    x ∈ (t.upsert r).rows ↔ x = r ∨ x ∈ t.rows ∧ key x ≠ key r := by
  unfold upsert
  split_ifs with hr
  · simp only [List.mem_map]
    constructor
    · rintro ⟨y, hy, rfl⟩
      split_ifs with h
      · exact .inl rfl
      · exact .inr ⟨hy, h⟩
    · rintro (rfl | ⟨hx, hne⟩)
      · obtain ⟨y, hy, hkey⟩ := List.mem_map.1 hr
        exact ⟨y, hy, if_pos hkey⟩
      · exact ⟨x, hx, if_neg hne⟩
  · have hne : ∀ y ∈ t.rows, key y ≠ key r := fun y hy h => hr (h ▸ List.mem_map_of_mem hy)
    simp only [rows_insert, List.mem_append, List.mem_singleton]
    constructor
    · rintro (hx | rfl)
      · exact .inr ⟨hx, hne x hx⟩
      · exact .inl rfl
    · rintro (rfl | ⟨hx, -⟩)
      · exact .inr rfl
      · exact .inl hx

theorem length_upsert (t : Keyed key) (r : ρ) :
    (t.upsert r).rows.length = t.rows.length + if key r ∈ t.rows.map key then 0 else 1 := by
  unfold upsert
  split_ifs <;> simp

theorem lookup_upsert (t : Keyed key) (r : ρ) (k : κ) :
    (t.upsert r).lookup k = if key r = k then some r else t.lookup k := by
  ext x
  rw [lookup_eq_some, mem_upsert]
  split_ifs with h
  · subst h
    simp only [Option.some.injEq]
    constructor
    · rintro ⟨rfl | ⟨-, hne⟩, hk⟩
      · rfl
      · exact absurd hk hne
    · rintro rfl
      exact ⟨.inl rfl, rfl⟩
  · rw [lookup_eq_some]
    constructor
    · rintro ⟨rfl | ⟨hx, -⟩, hk⟩
      · exact absurd hk h
      · exact ⟨hx, hk⟩
    · rintro ⟨hx, rfl⟩
      exact ⟨.inr ⟨hx, Ne.symm h⟩, rfl⟩

end Keyed
end Replication

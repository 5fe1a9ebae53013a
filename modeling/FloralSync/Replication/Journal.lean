import FloralSync.Replication.Register
import Mathlib.Data.List.Nodup
import Mathlib.Order.Nat

/-!
# Journals

A journal is a list of values under strictly increasing positive revisions. The current value of a
key is the one under its highest revision (`latest`), and a value that is added gets the revision
above all others (`append`). `shift` moves a journal past another one.
-/

namespace Replication

@[ext] structure Journal (ν : Type*) where
  entries : List (Nat × ν)
  increasing : entries.Pairwise fun e e' => e.1 < e'.1
  positive : ∀ e ∈ entries, 0 < e.1

/-- The values of `vs` under consecutive revisions from `n` on. -/
def number {ν : Type*} : Nat → List ν → List (Nat × ν)
  | _, [] => []
  | n, v :: vs => (n, v) :: number (n + 1) vs

section Number

variable {ν : Type*} {n : Nat} {vs : List ν} {e : Nat × ν}

theorem mem_number (h : e ∈ number n vs) : e.2 ∈ vs ∧ n ≤ e.1 ∧ e.1 < n + vs.length := by
  induction vs generalizing n with
  | nil => cases h
  | cons v vs ih =>
    rw [List.length_cons]
    rcases List.mem_cons.1 h with rfl | h
    · exact ⟨List.mem_cons_self .., Nat.le_refl n, by show n < _; omega⟩
    · obtain ⟨hv, h₁, h₂⟩ := ih h
      exact ⟨List.mem_cons_of_mem _ hv, by omega, by omega⟩

theorem exists_mem_number {v : ν} (hv : v ∈ vs) : ∃ r, (r, v) ∈ number n vs := by
  induction vs generalizing n with
  | nil => cases hv
  | cons w vs ih =>
    rcases List.mem_cons.1 hv with rfl | hv
    · exact ⟨n, List.mem_cons_self ..⟩
    · obtain ⟨r, hr⟩ := ih (n := n + 1) hv
      exact ⟨r, List.mem_cons_of_mem _ hr⟩

theorem number_pairwise {R : ν → ν → Prop} (h : vs.Pairwise R) :
    (number n vs).Pairwise fun e e' => e.1 < e'.1 ∧ R e.2 e'.2 := by
  induction vs generalizing n with
  | nil => exact List.Pairwise.nil
  | cons v vs ih =>
    obtain ⟨hv, hvs⟩ := List.pairwise_cons.1 h
    refine List.pairwise_cons.2 ⟨fun e he => ?_, ih hvs⟩
    obtain ⟨h₁, h₂, -⟩ := mem_number he
    exact ⟨h₂, hv _ h₁⟩

theorem number_append (vs ws : List ν) :
    number n (vs ++ ws) = number n vs ++ number (n + vs.length) ws := by
  induction vs generalizing n with
  | nil => rfl
  | cons v vs ih =>
    rw [List.cons_append, number, number, ih, List.length_cons, List.cons_append,
      show n + 1 + vs.length = n + (vs.length + 1) by omega]

@[simp] theorem map_fst_number (n : Nat) (vs : List ν) : (number n vs).map Prod.fst = List.range' n vs.length := by
  induction vs generalizing n with
  | nil => rfl
  | cons v vs ih => rw [number, List.map_cons, ih, List.length_cons, List.range'_succ]

/-- In a list sorted by `key`, the revision says how many keys come before. -/
theorem revision_of_mem_number {κ : Type*} [LinearOrder κ] {key : ν → κ} (hvs : (vs.map key).Pairwise (· < ·))
    (he : e ∈ number n vs) : e.1 = n + (vs.map key).countP (· < key e.2) := by
  induction vs generalizing n with
  | nil => cases he
  | cons v vs ih =>
    rw [List.map_cons] at hvs ⊢
    obtain ⟨hv, hvs⟩ := List.pairwise_cons.1 hvs
    rcases List.mem_cons.1 he with rfl | he
    · have hnone : (vs.map key).countP (· < key v) = 0 :=
        List.countP_eq_zero.2 fun k hk => by simpa using (hv k hk).le
      rw [List.countP_cons_of_neg (by simp), hnone]
      rfl
    · have hlt : key v < key e.2 := hv _ (List.mem_map_of_mem (mem_number he).1)
      rw [List.countP_cons_of_pos (by simpa using hlt), ih hvs he]
      omega

end Number

namespace Journal

variable {ν κ : Type*} {J : Journal ν} {e e' : Nat × ν}

def empty : Journal ν := ⟨[], List.Pairwise.nil, by simp⟩

/-- The highest revision, 0 if there is none. -/
def head (J : Journal ν) : Nat := (J.entries.getLast?.map Prod.fst).getD 0

theorem le_head (h : e ∈ J.entries) : e.1 ≤ J.head := by
  have hinc := J.increasing
  unfold head
  cases hl : J.entries.getLast? with
  | none => rw [List.getLast?_eq_none_iff.1 hl] at h; cases h
  | some last =>
    obtain ⟨l, hl⟩ := List.getLast?_eq_some_iff.1 hl
    rw [hl] at h hinc
    rcases List.mem_append.1 h with h | h
    · exact ((List.pairwise_append.1 hinc).2.2 e h last (by simp)).le
    · rw [List.mem_singleton.1 h]; exact Nat.le_refl _

theorem exists_head (h : J.entries ≠ []) : ∃ e ∈ J.entries, e.1 = J.head := by
  unfold head
  rw [List.getLast?_eq_some_getLast h]
  exact ⟨_, List.getLast_mem h, rfl⟩

theorem head_eq_zero : J.head = 0 ↔ J.entries = [] := by
  constructor
  · intro h
    by_contra hne
    obtain ⟨e, he, h'⟩ := exists_head hne
    have := J.positive e he
    omega
  · intro h; rw [head, h]; rfl

theorem eq_of_revision_eq (he : e ∈ J.entries) (he' : e' ∈ J.entries) (h : e.1 = e'.1) : e = e' :=
  List.inj_on_of_nodup_map (f := Prod.fst) (List.pairwise_map.2 (J.increasing.imp Nat.ne_of_lt)) he he' h

/-- Adding values under the next free revisions. -/
def appendAll (J : Journal ν) (vs : List ν) : Journal ν where
  entries := J.entries ++ number (J.head + 1) vs
  increasing := List.pairwise_append.2 ⟨J.increasing,
    (number_pairwise (R := fun _ _ => True) (List.pairwise_of_forall fun _ _ => trivial)).imp And.left,
    fun _ he _ he' => Nat.lt_of_lt_of_le (Nat.lt_succ_of_le (le_head he)) (mem_number he').2.1⟩
  positive := fun e he => by
    rcases List.mem_append.1 he with he | he
    · exact J.positive e he
    · have := (mem_number he).2.1; omega

def append (J : Journal ν) (v : ν) : Journal ν := J.appendAll [v]

@[simp] theorem entries_append (J : Journal ν) (v : ν) :
    (J.append v).entries = J.entries ++ [(J.head + 1, v)] := rfl

theorem head_of_concat {l : List (Nat × ν)} (h : J.entries = l ++ [e]) : J.head = e.1 := by
  rw [head, h, List.getLast?_concat]; rfl

theorem head_appendAll (J : Journal ν) (vs : List ν) : (J.appendAll vs).head = J.head + vs.length := by
  induction vs using List.reverseRecOn with
  | nil => simp [head, appendAll, number]
  | append_singleton vs v _ =>
    have hlast : (J.appendAll (vs ++ [v])).entries =
        J.entries ++ number (J.head + 1) vs ++ [(J.head + 1 + vs.length, v)] := by
      rw [List.append_assoc]
      exact congrArg (J.entries ++ ·) (number_append vs [v])
    rw [head_of_concat hlast, List.length_append, List.length_singleton]
    omega

theorem head_empty_appendAll (vs : List ν) : (empty.appendAll vs).head = vs.length :=
  (empty.head_appendAll vs).trans (Nat.zero_add _)

@[simp] theorem head_append (J : Journal ν) (v : ν) : (J.append v).head = J.head + 1 :=
  J.head_appendAll [v]

def shift (J : Journal ν) (n : Nat) : Journal ν where
  entries := J.entries.map fun e => (e.1 + n, e.2)
  increasing := List.pairwise_map.2 (J.increasing.imp fun h => Nat.add_lt_add_right h n)
  positive := fun e he => by
    obtain ⟨e', he', rfl⟩ := List.mem_map.1 he
    exact Nat.add_pos_left (J.positive e' he') n

theorem head_shift (n : Nat) (h : J.entries ≠ []) : (J.shift n).head = J.head + n := by
  have hl := List.getLast?_eq_some_getLast h
  simp [head, shift, List.getLast?_map, hl]

theorem shift_zero (J : Journal ν) : J.shift 0 = J := Journal.ext (List.map_id' _)

theorem appendAll_nil (J : Journal ν) : J.appendAll [] = J := Journal.ext (List.append_nil _)

theorem appendAll_concat (J : Journal ν) (vs : List ν) (v : ν) :
    J.appendAll (vs ++ [v]) = (J.appendAll vs).append v := by
  refine Journal.ext ?_
  rw [entries_append, head_appendAll]
  show J.entries ++ number (J.head + 1) (vs ++ [v]) = J.entries ++ number (J.head + 1) vs ++ _
  rw [number_append, List.append_assoc, show J.head + 1 + vs.length = J.head + vs.length + 1 by omega]
  rfl

/-- A journal moved past revision `n`, if it is not past it already. -/
def past (J : Journal ν) (n : Nat) : Journal ν := J.shift (if J.head ≤ n then n else 0)

theorem head_past (n : Nat) :
    (J.past n).head = if J.head ≤ n ∧ J.entries ≠ [] then J.head + n else J.head := by
  unfold past
  by_cases hle : J.head ≤ n
  · rw [if_pos hle]
    by_cases hnil : J.entries = []
    · rw [if_neg fun h => h.2 hnil, head_eq_zero.2 hnil, head_eq_zero]
      show J.entries.map _ = []
      rw [hnil]; rfl
    · rw [if_pos ⟨hle, hnil⟩]
      exact head_shift n hnil
  · rw [if_neg hle, if_neg fun h => hle h.1, shift_zero]

section Latest

variable [DecidableEq κ] (key : ν → κ)

def latest (J : Journal ν) (k : κ) : Option (Nat × ν) :=
  J.entries.reverse.find? fun e => key e.2 = k

variable {key} {k : κ}

theorem latest_spec (h : J.latest key k = some e) :
    e ∈ J.entries ∧ key e.2 = k ∧ ∀ e' ∈ J.entries, key e'.2 = k → e'.1 ≤ e.1 := by
  obtain ⟨hk, as, bs, hrev, has⟩ := List.find?_eq_some_iff_append.1 h
  have hinc : J.entries.reverse.Pairwise fun e e' => e'.1 < e.1 :=
    List.pairwise_reverse.2 J.increasing
  refine ⟨List.mem_reverse.1 (List.mem_of_find?_eq_some h), by simpa using hk, fun e' he' hk' => ?_⟩
  rw [← List.mem_reverse, hrev] at he'
  rw [hrev] at hinc
  rcases List.mem_append.1 he' with he' | he'
  · have := has e' he'; simp [hk'] at this
  · rcases List.mem_cons.1 he' with rfl | he'
    · exact Nat.le_refl _
    · exact Nat.le_of_lt ((List.pairwise_cons.1 (List.pairwise_append.1 hinc).2.1).1 e' he')

theorem exists_latest (he : e ∈ J.entries) : ∃ e', J.latest key (key e.2) = some e' := by
  refine Option.isSome_iff_exists.1 (List.find?_isSome.2 ⟨e, List.mem_reverse.2 he, ?_⟩)
  simp

theorem latest_eq_some : J.latest key k = some e ↔
    e ∈ J.entries ∧ key e.2 = k ∧ ∀ e' ∈ J.entries, key e'.2 = k → e'.1 ≤ e.1 := by
  refine ⟨latest_spec, ?_⟩
  rintro ⟨he, rfl, hmax⟩
  obtain ⟨e', he'⟩ : ∃ e', J.latest key (key e.2) = some e' := exists_latest he
  obtain ⟨hmem, hkey, hmax'⟩ := latest_spec he'
  rw [he', eq_of_revision_eq hmem he (Nat.le_antisymm (hmax e' hmem hkey) (hmax' e he rfl))]

theorem latest_of_nil (h : J.entries = []) : J.latest key k = none := by
  rw [latest, h]; rfl

/-- The highest revision is the latest one of its key. -/
theorem exists_latest_head (key : ν → κ) (h : J.entries ≠ []) :
    ∃ e, e.1 = J.head ∧ J.latest key (key e.2) = some e := by
  obtain ⟨e, he, hhead⟩ := exists_head h
  exact ⟨e, hhead, latest_eq_some.2 ⟨he, rfl, fun e' he' _ => hhead ▸ le_head he'⟩⟩

theorem latest_append (J : Journal ν) (v : ν) :
    (J.append v).latest key k = if key v = k then some (J.head + 1, v) else J.latest key k := by
  rw [latest, entries_append, List.reverse_concat, List.find?_cons]
  by_cases h : key v = k <;> simp [h, latest]

theorem latest_shift (J : Journal ν) (n : Nat) :
    (J.shift n).latest key k = (J.latest key k).map fun e => (e.1 + n, e.2) := by
  simp only [latest, shift, ← List.map_reverse, List.find?_map]
  rfl

theorem latest_appendAll_of_ne {vs : List ν} (h : ∀ v ∈ vs, key v ≠ k) :
    (J.appendAll vs).latest key k = J.latest key k := by
  ext e
  simp only [latest_eq_some, appendAll, List.mem_append]
  constructor
  · rintro ⟨he | he, hk, hmax⟩
    · exact ⟨he, hk, fun e' he' => hmax e' (.inl he')⟩
    · exact absurd hk (h _ (mem_number he).1)
  · rintro ⟨he, hk, hmax⟩
    refine ⟨.inl he, hk, fun e' he' hk' => ?_⟩
    rcases he' with he' | he'
    · exact hmax e' he' hk'
    · exact absurd hk' (h _ (mem_number he').1)

theorem latest_appendAll_of_mem {vs : List ν} {v : ν} (hvs : (vs.map key).Nodup) (hv : v ∈ vs) :
    ∃ r, (r, v) ∈ number (J.head + 1) vs ∧ (J.appendAll vs).latest key (key v) = some (r, v) := by
  obtain ⟨r, hr⟩ := exists_mem_number (n := J.head + 1) hv
  refine ⟨r, hr, latest_eq_some.2 ⟨List.mem_append_right _ hr, rfl, fun e he hk => ?_⟩⟩
  rcases List.mem_append.1 he with he | he
  · exact Nat.le_of_lt (Nat.lt_of_lt_of_le (Nat.lt_succ_of_le (le_head he)) (mem_number hr).2.1)
  · have hnd : ((number (J.head + 1) vs).map fun e => key e.2).Nodup :=
      List.pairwise_map.2 ((number_pairwise (List.pairwise_map.1 hvs)).imp And.right)
    rw [List.inj_on_of_nodup_map hnd he hr hk]

variable (key) in
/-- The latest entry of each key, in the order of their revisions. -/
def current (J : Journal ν) : List (Nat × ν) :=
  J.entries.filter fun e => (J.latest key (key e.2)).any fun e' => e'.1 = e.1

theorem mem_current : e ∈ J.current key ↔ J.latest key (key e.2) = some e := by
  rw [current, List.mem_filter]
  constructor
  · rintro ⟨he, hlatest⟩
    simp only [Option.any_eq_true, decide_eq_true_eq] at hlatest
    obtain ⟨e', he', heq⟩ := hlatest
    rw [he', eq_of_revision_eq (latest_spec he').1 he heq]
  · intro h
    exact ⟨(latest_spec h).1, by simp [h]⟩

theorem current_pairwise : (J.current key).Pairwise fun e e' => e.1 < e'.1 := J.increasing.filter _

end Latest

/-! ### Offers -/

section Offer

variable {τ : Type*} [LinearOrder τ] [DecidableEq ν] [DecidableEq κ] (time : ν → τ) (key : ν → κ)

/-- Last write wins on top of a journal: `v` is added unless the register of its key skips it. -/
def offer (J : Journal ν) (v : ν) : Journal ν :=
  if (J.latest key (key v)).any fun e => Skips time e.2 v then J else J.append v

def offerAll (J : Journal ν) (vs : List ν) : Journal ν := vs.foldl (offer time key) J

variable {time key}

theorem offerAll_concat (J : Journal ν) (vs : List ν) (v : ν) :
    J.offerAll time key (vs ++ [v]) = (J.offerAll time key vs).offer time key v := by
  rw [offerAll, List.foldl_append]; rfl

theorem head_le_offer (J : Journal ν) (v : ν) : J.head ≤ (J.offer time key v).head := by
  unfold offer
  split_ifs
  · exact Nat.le_refl _
  · rw [head_append]; exact Nat.le_succ _

theorem head_le_offerAll (J : Journal ν) (vs : List ν) : J.head ≤ (J.offerAll time key vs).head := by
  induction vs generalizing J with
  | nil => exact Nat.le_refl _
  | cons v vs ih => exact Nat.le_trans (J.head_le_offer v) (ih _)

end Offer

end Journal
end Replication

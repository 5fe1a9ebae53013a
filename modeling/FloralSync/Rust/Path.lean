import FloralSync.Result
import Mathlib.Data.List.Basic
import Mathlib.Data.Setoid.Basic

/-!
# Paths (`std::path` on Unix)

A path is a text, read as a sequence of components: repeated slashes and `.` components do not count,
except for a `.` at the start. Two paths are equal when their components are. `stripPrefix` undoes `join`
up to this equality (`join_stripPrefix`).
-/

namespace Rust

/-- `PathBuf`, of a path that is valid UTF-8. -/
structure PathBuf where
  text : String
deriving DecidableEq

inductive Component
  | rootDir
  | curDir
  | parentDir
  | normal (name : List Char)
deriving DecidableEq

/-- A segment between two slashes that is no component: an empty one, or a `.` -/
def ignorable (segment : List Char) : Bool := segment = [] ∨ segment = ['.']

def ofSegment (segment : List Char) : Option Component :=
  if ignorable segment then none
  else if segment = ['.', '.'] then some .parentDir
  else some (.normal segment)

/-- The components of segments that do not start the path. -/
def names (segments : List (List Char)) : List Component := segments.filterMap ofSegment

/-- The text of segments, separated by slashes. -/
def ofSegments (segments : List (List Char)) : String := String.ofList (['/'].intercalate segments)

namespace PathBuf

def segments (p : PathBuf) : List (List Char) := p.text.toList.splitOn '/'

def isAbsolute (p : PathBuf) : Bool := p.text.toList.head? = some '/'

/-- The root directory, or a `.` at the start. -/
def front (p : PathBuf) : List Component :=
  if p.isAbsolute then [.rootDir] else if p.segments.head? = some ['.'] then [.curDir] else []

def components (p : PathBuf) : List Component := p.front ++ names p.segments

/-- `PathBuf: PartialEq` -/
instance : Setoid PathBuf where
  r p q := p.components = q.components
  iseqv := ⟨fun _ => rfl, Eq.symm, Eq.trans⟩

instance (p q : PathBuf) : Decidable (p ≈ q) := inferInstanceAs (Decidable (_ = _))

/-- The segments after the front. -/
def body (p : PathBuf) : List (List Char) := if p.front = [] then p.segments else p.segments.tail

/-- The path with a given front and the given segments after it. -/
def ofBody (front : List Component) (body : List (List Char)) : PathBuf :=
  if front = [.rootDir] then ⟨ofSegments ([] :: (if body = [] then [[]] else body))⟩
  else if front = [.curDir] then ⟨ofSegments (['.'] :: body)⟩
  else ⟨ofSegments body⟩

def parent (p : PathBuf) : Option PathBuf :=
  match p.body.rdropWhile ignorable with
  | [] => if p.front = [.curDir] then some ⟨""⟩ else none
  | s :: segments => some (ofBody p.front ((s :: segments).dropLast.rdropWhile ignorable))

def join (base p : PathBuf) : PathBuf :=
  if p.isAbsolute then p
  else if base.text = "" ∨ base.text.toList.getLast? = some '/' then ⟨base.text ++ p.text⟩
  else ⟨base.text ++ "/" ++ p.text⟩

def fileName (p : PathBuf) : Option String :=
  match p.components.getLast? with
  | some (.normal name) => some (String.ofList name)
  | _ => none

def withFileName (p : PathBuf) (name : String) : PathBuf :=
  (if p.fileName.isSome then p.parent.getD p else p).join ⟨name⟩

/-- The segments after the first `n` components. -/
def skip : Nat → List (List Char) → List (List Char)
  | 0, segments => segments
  | _ + 1, [] => []
  | n + 1, s :: segments => if ignorable s then skip (n + 1) segments else skip n segments

def stripPrefix (p base : PathBuf) : Option PathBuf :=
  if base.components <+: p.components then
    if base.components = [] then some (ofBody p.front (p.body.rdropWhile ignorable))
    else some ⟨ofSegments (((skip (names base.segments).length p.segments).dropWhile ignorable).rdropWhile
      ignorable)⟩
  else none

variable {p q b : PathBuf} {S T : List (List Char)}

theorem names_append (S T : List (List Char)) : names (S ++ T) = names S ++ names T := List.filterMap_append

theorem ofSegment_eq_none {s : List Char} : ofSegment s = none ↔ ignorable s = true := by
  unfold ofSegment
  split_ifs <;> simp_all

theorem names_eq_nil : names S = [] ↔ ∀ s ∈ S, ignorable s = true := by
  simp [names, ofSegment_eq_none]

theorem names_cons_of_ignorable {s : List Char} (h : ignorable s = true) : names (s :: S) = names S := by
  simp [names, ofSegment_eq_none.2 h]

theorem names_dropWhile (S : List (List Char)) : names (S.dropWhile ignorable) = names S := by
  have h := names_append (S.takeWhile ignorable) (S.dropWhile ignorable)
  rw [List.takeWhile_append_dropWhile, names_eq_nil.2 fun s hs => List.mem_takeWhile_imp hs] at h
  exact h.symm

theorem names_rdropWhile (S : List (List Char)) : names (S.rdropWhile ignorable) = names S := by
  have h := names_append (S.rdropWhile ignorable) (S.rtakeWhile ignorable)
  rw [List.rdropWhile_append_rtakeWhile, names_eq_nil.2 fun s hs => List.mem_rtakeWhile_imp hs,
    List.append_nil] at h
  exact h.symm

theorem names_skip (n : Nat) (S : List (List Char)) : names (skip n S) = (names S).drop n := by
  fun_induction skip n S with
  | case1 => rfl
  | case2 => rfl
  | case3 n s S h ih => simpa [names, ofSegment_eq_none.2 h] using ih
  | case4 n s S h ih =>
    obtain ⟨c, hc⟩ := Option.ne_none_iff_exists'.1 (mt ofSegment_eq_none.1 h)
    simpa [names, hc] using ih

theorem mem_skip {n : Nat} {s : List Char} (h : s ∈ skip n S) : s ∈ S := by
  fun_induction skip n S with
  | case1 => exact h
  | case2 => exact h
  | case3 n t S _ ih => exact List.mem_cons_of_mem _ (ih h)
  | case4 n t S _ ih => exact List.mem_cons_of_mem _ (ih h)

theorem notMem_of_mem_splitOn {c : Char} : ∀ {cs s : List Char}, s ∈ cs.splitOn c → c ∉ s
  | [], s, h => by simp at h; simp [h]
  | d :: cs, s, h => by
    rw [List.splitOn_cons_eq_if_modifyHead] at h
    split at h
    · rcases List.mem_cons.1 h with rfl | h
      · simp
      · exact notMem_of_mem_splitOn h
    · rename_i hd
      obtain ⟨t, ts, ht⟩ := List.exists_cons_of_ne_nil (List.splitOn_ne_nil c cs)
      rw [ht, List.modifyHead_cons] at h
      rcases List.mem_cons.1 h with rfl | h
      · have hct : c ∉ t := notMem_of_mem_splitOn (ht ▸ List.mem_cons_self ..)
        rw [List.mem_cons, not_or]
        exact ⟨fun hcd => hd (by simp [hcd]), hct⟩
      · exact notMem_of_mem_splitOn (ht ▸ List.mem_cons_of_mem _ h)

theorem mem_intercalate {c : Char} {sep s : List Char} {L : List (List Char)} (hs : s ∈ L) (hc : c ∈ s) :
    c ∈ sep.intercalate L := by
  induction L with
  | nil => cases hs
  | cons t L ih =>
    by_cases hL : L = []
    · subst hL
      rw [List.intercalate_singleton, ← List.mem_singleton.1 hs]
      exact hc
    · rw [List.intercalate_cons_of_ne_nil hL]
      rcases List.mem_cons.1 hs with rfl | hs
      · simp [hc]
      · simp [ih hs]

theorem notMem_of_mem_segments {s : List Char} (h : s ∈ p.segments) : '/' ∉ s := notMem_of_mem_splitOn h

theorem segments_ofSegments (hS : ∀ s ∈ S, '/' ∉ s) (hne : S ≠ []) :
    (PathBuf.mk (ofSegments S)).segments = S := by
  rw [segments, ofSegments, String.toList_ofList, List.splitOn_intercalate _ hS hne]

theorem segments_ne_nil (p : PathBuf) : p.segments ≠ [] := List.splitOn_ne_nil _ _

/-- The front of a path with the given segments. -/
def frontOf : List (List Char) → List Component
  | [] :: _ :: _ => [.rootDir]
  | ['.'] :: _ => [.curDir]
  | _ => []

theorem front_eq (p : PathBuf) : p.front = frontOf p.segments := by
  unfold front isAbsolute segments
  cases p.text.toList with
  | nil => rfl
  | cons c cs =>
    obtain ⟨t, ts, ht⟩ := List.exists_cons_of_ne_nil (List.splitOn_ne_nil '/' cs)
    rw [List.splitOn_cons_eq_if_modifyHead, ht]
    by_cases hc : c = '/'
    · simp [hc, frontOf]
    · by_cases hdot : c :: t = ['.']
      · simp_all [frontOf]
      · simp [hc, hdot, frontOf]

theorem components_ofSegments (hS : ∀ s ∈ S, '/' ∉ s) (hne : S ≠ []) :
    (PathBuf.mk (ofSegments S)).components = frontOf S ++ names S := by
  rw [components, front_eq, segments_ofSegments hS hne]

theorem frontOf_cons_of_not_ignorable {s : List Char} (h : ignorable s = false) : frontOf (s :: S) = [] := by
  unfold frontOf
  split <;> simp_all [ignorable]

theorem frontOf_append (hne : S ≠ []) (hS : S ≠ [[]]) (T : List (List Char)) : frontOf (S ++ T) = frontOf S := by
  obtain ⟨s, S, rfl⟩ := List.exists_cons_of_ne_nil hne
  cases S with
  | nil =>
    by_cases hdot : s = ['.']
    · rw [hdot]; rfl
    · have hs : ignorable s = false := by simp_all [ignorable]
      rw [List.singleton_append, frontOf_cons_of_not_ignorable hs, frontOf_cons_of_not_ignorable hs]
  | cons t S => unfold frontOf; split <;> simp_all

theorem text_eq (p : PathBuf) : p.text = ofSegments p.segments := by simp [ofSegments, segments]

theorem components_eq_nil : p.components = [] ↔ p.text = "" := by
  constructor
  · intro h
    rw [components, front_eq] at h
    obtain ⟨hfront, hnames⟩ := List.append_eq_nil_iff.1 h
    obtain ⟨s, S, hS⟩ := List.exists_cons_of_ne_nil p.segments_ne_nil
    rw [hS] at hfront hnames
    have hs : s = [] ∨ s = ['.'] := by simpa [ignorable] using names_eq_nil.1 hnames s (List.mem_cons_self ..)
    rw [text_eq, hS]
    rcases hs with rfl | rfl <;> cases S <;> simp_all [ofSegments, frontOf]
  · intro h
    obtain ⟨text⟩ := p
    obtain rfl : text = "" := h
    decide

/-! ### Joining -/

theorem join_of_isAbsolute (h : p.isAbsolute = true) : b.join p = p := if_pos h

theorem join_of_empty (h : b.text = "") : b.join p = p := by
  unfold join
  split_ifs <;> simp_all

/-- The segments of a relative path come after those of the base, of which a last one that is empty is
lost. -/
theorem segments_join (hp : p.isAbsolute = false) (hb : b.text ≠ "") :
    ∃ S, S ≠ [] ∧ (b.join p).segments = S ++ p.segments ∧ (b.segments = S ∨ b.segments = S ++ [[]]) := by
  unfold join
  rw [if_neg (by simp [hp])]
  split_ifs with h
  · obtain ⟨cs, hcs⟩ := List.getLast?_eq_some_iff.1 (h.resolve_left hb)
    refine ⟨cs.splitOn '/', List.splitOn_ne_nil _ _, ?_, .inr ?_⟩
    · rw [segments, String.toList_append, hcs, List.append_assoc, List.singleton_append,
        List.splitOn_append_cons_self]
      rfl
    · rw [segments, hcs, List.splitOn_append_cons_self]
      simp
  · refine ⟨b.segments, b.segments_ne_nil, ?_, .inl rfl⟩
    have htext : (b.text ++ "/" ++ p.text).toList = b.text.toList ++ '/' :: p.text.toList := by simp
    rw [segments, htext, List.splitOn_append_cons_self]
    rfl

theorem components_join (hp : p.isAbsolute = false) (hb : b.text ≠ "") :
    (b.join p).components = b.components ++ names p.segments := by
  obtain ⟨S, hS, hjoin, hbase⟩ := segments_join hp hb
  have hnames : names b.segments = names S := by
    rcases hbase with h | h <;> simp [h, names, ofSegment, ignorable]
  have hfront : frontOf (S ++ p.segments) = frontOf b.segments := by
    by_cases hS' : S = [[]]
    · obtain ⟨t, T, hT⟩ := List.exists_cons_of_ne_nil p.segments_ne_nil
      rcases hbase with h | h
      · rw [components_eq_nil.symm.ne, components, front_eq, h, hS'] at hb
        exact absurd rfl hb
      · rw [hS', hT, h, hS']
        rfl
    · rw [frontOf_append hS hS']
      rcases hbase with h | h
      · rw [h]
      · rw [h, frontOf_append hS hS']
  rw [components, components, front_eq, front_eq, hjoin, hfront, hnames, names_append, List.append_assoc]

/-- A text that names an entry of a directory. -/
structure IsName (name : String) : Prop where
  no_slash : '/' ∉ name.toList
  not_ignorable : ignorable name.toList = false
  not_parent : name.toList ≠ ['.', '.']

namespace IsName

variable {name : String}

theorem segments (h : IsName name) : (PathBuf.mk name).segments = [name.toList] :=
  List.splitOn_eq_singleton h.no_slash

theorem isAbsolute (h : IsName name) : (PathBuf.mk name).isAbsolute = false := by
  refine Bool.eq_false_iff.2 fun habs => h.no_slash ?_
  exact List.mem_of_mem_head? (by simpa [PathBuf.isAbsolute] using habs)

theorem names (h : IsName name) : names (PathBuf.mk name).segments = [.normal name.toList] := by
  rw [h.segments]
  simp [Rust.names, ofSegment, h.not_ignorable, h.not_parent]

theorem components (h : IsName name) : (PathBuf.mk name).components = [.normal name.toList] := by
  rw [PathBuf.components, front_eq, h.segments, frontOf_cons_of_not_ignorable h.not_ignorable, List.nil_append,
    ← h.segments, h.names]

theorem components_join (h : IsName name) (b : PathBuf) :
    (b.join ⟨name⟩).components = b.components ++ [.normal name.toList] := by
  by_cases hb : b.text = ""
  · rw [join_of_empty hb, components_eq_nil.2 hb, h.components, List.nil_append]
  · rw [PathBuf.components_join h.isAbsolute hb, h.names]

end IsName

theorem isAbsolute_eq_front (p : PathBuf) : p.isAbsolute = true ↔ p.front = [.rootDir] := by
  unfold front
  split_ifs <;> simp_all

theorem isAbsolute_of_components {name : List Char} (h : p.components = [.normal name]) : p.isAbsolute = false := by
  rw [Bool.eq_false_iff]
  intro habs
  rw [components, (isAbsolute_eq_front p).1 habs] at h
  cases h

theorem text_of_join_eq {t u : String} (ht : (mk t).isAbsolute = false) (hu : (mk u).isAbsolute = false)
    (h : b.join ⟨t⟩ = b.join ⟨u⟩) : t = u := by
  rw [join, join, ht, hu] at h
  split_ifs at h <;> simpa [← String.toList_inj] using h

theorem components_mk_empty : (PathBuf.mk "").components = [] := by decide

theorem front_cases (p : PathBuf) : p.front = [.rootDir] ∨ p.front = [.curDir] ∨ p.front = [] := by
  unfold front
  split_ifs <;> simp

theorem ne_of_mem_names {c : Component} (h : c ∈ names S) : c ≠ .rootDir ∧ c ≠ .curDir := by
  obtain ⟨s, -, hs⟩ := List.mem_filterMap.1 h
  unfold ofSegment at hs
  split_ifs at hs
  · obtain rfl := Option.some.inj hs
    simp
  · obtain rfl := Option.some.inj hs
    simp

theorem components_of_relative (hS : ∀ s ∈ S, '/' ∉ s) (hhead : ∀ s ∈ S.head?, ignorable s = false) :
    (PathBuf.mk (ofSegments S)).front = [] ∧ (PathBuf.mk (ofSegments S)).components = names S := by
  cases S with
  | nil => exact ⟨rfl, components_mk_empty⟩
  | cons s S =>
    have hfront : frontOf (s :: S) = [] := frontOf_cons_of_not_ignorable (hhead s rfl)
    refine ⟨by rw [front_eq, segments_ofSegments hS (by simp), hfront], ?_⟩
    rw [components_ofSegments hS (by simp), hfront, List.nil_append]

theorem front_of_isPrefix (h : b.components <+: p.components) (hb : b.text ≠ "") : b.front = p.front := by
  obtain ⟨t, ht⟩ := h
  have hname : ∀ c S, c ∈ names S → c ≠ .rootDir ∧ c ≠ .curDir := fun c S hc => ne_of_mem_names hc
  rw [components, components, List.append_assoc] at ht
  have hne : b.front ++ names b.segments ≠ [] := mt components_eq_nil.1 hb
  rcases b.front_cases with hbf | hbf | hbf <;> rcases p.front_cases with hpf | hpf | hpf <;>
    simp only [hbf, hpf, List.nil_append, List.singleton_append, List.cons.injEq, reduceCtorEq,
      false_and] at ht hne ⊢
  · exact absurd rfl (hname _ _ (ht ▸ List.mem_cons_self ..)).1
  · exact absurd rfl (hname _ _ (ht ▸ List.mem_cons_self ..)).2
  · obtain ⟨c, cs, hcs⟩ := List.exists_cons_of_ne_nil hne
    rw [hcs] at ht
    exact absurd (List.cons.inj ht).1 (hname c _ (hcs ▸ List.mem_cons_self ..)).1
  · obtain ⟨c, cs, hcs⟩ := List.exists_cons_of_ne_nil hne
    rw [hcs] at ht
    exact absurd (List.cons.inj ht).1 (hname c _ (hcs ▸ List.mem_cons_self ..)).2

theorem names_of_isPrefix (h : b.components <+: p.components) (hb : b.text ≠ "") :
    p.components = b.components ++ (names p.segments).drop (names b.segments).length := by
  have hfront := front_of_isPrefix h hb
  obtain ⟨t, ht⟩ := h
  rw [components, components, hfront, List.append_assoc] at ht
  have hnames : names b.segments ++ t = names p.segments := List.append_cancel_left ht
  rw [components, components, hfront, ← hnames, List.drop_left, List.append_assoc]

/-- What is left of a path after a prefix is relative, and makes it up together with the prefix. -/
theorem stripPrefix_of_ne {r : PathBuf} (h : p.stripPrefix b = some r) (hb : b.text ≠ "") :
    r.front = [] ∧ p.components = b.components ++ r.components := by
  unfold stripPrefix at h
  split_ifs at h with hpre hnil
  · exact absurd (components_eq_nil.1 hnil) hb
  · obtain rfl := Option.some.inj h
    obtain ⟨hrel, hcomp⟩ := components_of_relative
      (S := ((skip (names b.segments).length p.segments).dropWhile ignorable).rdropWhile ignorable)
      (fun s hs => notMem_of_mem_segments (p := p) (mem_skip ((List.dropWhile_sublist _).mem
        ((List.rdropWhile_prefix _ _).mem hs))))
      (fun _ => List.not_of_head?_rdropWhile)
    refine ⟨hrel, ?_⟩
    rw [hcomp, names_rdropWhile, names_dropWhile, names_skip]
    exact names_of_isPrefix hpre hb

theorem eq_of_frontOf_rootDir {s : List Char} (h : frontOf (s :: S) = [.rootDir]) : s = [] := by
  unfold frontOf at h
  split at h <;> simp_all

theorem eq_of_frontOf_curDir {s : List Char} (h : frontOf (s :: S) = [.curDir]) : s = ['.'] := by
  unfold frontOf at h
  split at h <;> simp_all

/-- Without a front the first segment is a component: it is no `.`, and if it were empty, it would be the only one. -/
theorem not_ignorable_of_frontOf {s : List Char} (h : frontOf (s :: S) = []) :
    ∀ r ∈ ((s :: S).rdropWhile ignorable).head?, ignorable r = false := by
  intro r hr
  by_contra hig
  obtain ⟨t, ht⟩ := List.rdropWhile_prefix ignorable (s :: S)
  generalize hR : (s :: S).rdropWhile ignorable = R at hr ht
  cases R with
  | nil => cases hr
  | cons r' R =>
    obtain rfl := Option.some.inj hr
    obtain ⟨rfl, -⟩ := List.cons.inj ht
    have hdot : r' = [] ∨ r' = ['.'] := by simpa [ignorable, or_iff_not_imp_left] using hig
    rcases hdot with rfl | rfl
    · cases S with
      | nil => cases hR
      | cons => cases h
    · cases h

theorem components_ofBody (p : PathBuf) : ofBody p.front (p.body.rdropWhile ignorable) ≈ p := by
  show (ofBody p.front (p.body.rdropWhile ignorable)).components = p.front ++ names p.segments
  have hslash : ∀ s ∈ p.segments, '/' ∉ s := fun s hs => notMem_of_mem_segments hs
  have hfront := front_eq p
  obtain ⟨s, S, hS⟩ := List.exists_cons_of_ne_nil p.segments_ne_nil
  have hdrop : ∀ t ∈ S.rdropWhile ignorable, '/' ∉ t := fun t ht =>
    hslash t (hS ▸ List.mem_cons_of_mem _ ((List.rdropWhile_prefix ignorable S).mem ht))
  rw [hS] at hfront hslash
  rw [body, hS]
  rcases p.front_cases with h | h | h <;> rw [h] at hfront ⊢
  · obtain rfl := eq_of_frontOf_rootDir hfront.symm
    simp only [ofBody, reduceCtorEq, if_true, if_false, List.tail_cons]
    rw [names_cons_of_ignorable rfl, ← names_rdropWhile S]
    generalize S.rdropWhile ignorable = R at hdrop ⊢
    cases R with
    | nil => decide
    | cons t R => rw [if_neg (by simp), components_ofSegments (by simpa using hdrop) (by simp)]; rfl
  · obtain rfl := eq_of_frontOf_curDir hfront.symm
    simp only [ofBody, reduceCtorEq, List.cons.injEq, false_and, if_true, if_false, List.tail_cons]
    rw [components_ofSegments (by simpa using hdrop) (by simp), names_cons_of_ignorable rfl,
      names_rdropWhile, names_cons_of_ignorable rfl]
    rfl
  · simp only [ofBody, List.ne_cons_self, if_true, if_false, List.nil_append]
    rw [← names_rdropWhile (s :: S)]
    exact (components_of_relative (fun r hr => hslash r ((List.rdropWhile_prefix _ _).mem hr))
      (not_ignorable_of_frontOf hfront.symm)).2

theorem isAbsolute_of_front (h : p.front = []) : p.isAbsolute = false :=
  Bool.eq_false_iff.2 fun habs => by simp [isAbsolute_eq_front, h] at habs

theorem stripPrefix_of_empty {r : PathBuf} (h : p.stripPrefix b = some r) (hb : b.text = "") : r ≈ p := by
  unfold stripPrefix at h
  rw [components_eq_nil.2 hb, if_pos List.nil_prefix, if_pos rfl] at h
  exact Option.some.inj h ▸ components_ofBody p

theorem components_stripPrefix {r : PathBuf} (h : p.stripPrefix b = some r) :
    p.components = b.components ++ r.components := by
  by_cases hb : b.text = ""
  · rw [components_eq_nil.2 hb, List.nil_append]
    exact (stripPrefix_of_empty h hb).symm
  · exact (stripPrefix_of_ne h hb).2

theorem join_stripPrefix {r : PathBuf} (h : p.stripPrefix b = some r) : b.join r ≈ p := by
  by_cases hb : b.text = ""
  · rw [join_of_empty hb]
    exact stripPrefix_of_empty h hb
  · obtain ⟨hfront, hcomp⟩ := stripPrefix_of_ne h hb
    show (b.join r).components = p.components
    rw [components_join (isAbsolute_of_front hfront) hb, hcomp, components.eq_def r, hfront, List.nil_append]

theorem stripPrefix_isSome : (p.stripPrefix b).isSome ↔ b.components <+: p.components := by
  unfold stripPrefix
  split_ifs <;> simp_all

theorem join_equiv_self (hp : p.isAbsolute = false) (hb : b.text ≠ "") : b.join p ≈ p ↔ b.components = p.front := by
  show (b.join p).components = p.components ↔ _
  rw [components_join hp hb, components.eq_def p, List.append_left_inj]

theorem mem_segments_of_normal {name : List Char} (h : .normal name ∈ p.components) : name ∈ p.segments := by
  obtain ⟨s, hs, hname⟩ : ∃ s ∈ p.segments, ofSegment s = some (.normal name) := by
    rcases List.mem_append.1 h with h | h
    · rcases p.front_cases with hf | hf | hf <;> simp [hf] at h
    · exact List.mem_filterMap.1 h
  obtain rfl : s = name := by
    unfold ofSegment at hname
    split_ifs at hname
    · cases hname
    · exact Component.normal.inj (Option.some.inj hname)
  exact hs

theorem mem_text_of_normal {name : List Char} {c : Char} (h : .normal name ∈ p.components) (hc : c ∈ name) :
    c ∈ p.text.toList := by
  rw [text_eq, ofSegments, String.toList_ofList]
  exact mem_intercalate (mem_segments_of_normal h) hc

theorem fileName_eq_some {name : String} :
    p.fileName = some name ↔ p.components.getLast? = some (.normal name.toList) := by
  unfold fileName
  split
  · rename_i last hlast
    rw [hlast, Option.some.injEq, Option.some.injEq, Component.normal.injEq]
    exact ⟨fun h => by rw [← h, String.toList_ofList], fun h => by rw [h, String.ofList_toList]⟩
  · rename_i hlast
    exact iff_of_false nofun fun h => hlast _ h

end PathBuf
end Rust

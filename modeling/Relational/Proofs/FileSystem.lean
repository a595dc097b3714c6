import Mathlib.Data.List.Induction
import Relational.Proofs.Results
import Relational.Storage.FileTree

/-!
# What a file system promises

A path stands for a file, and other paths may stand for the same one. A file reads back what was
last written to it, and writing a file changes no other. The file tree keeps these promises: its
paths stand for the same file if they lead to the same location.
-/
namespace Relational

variable {σ : Type}

namespace FileStore

def content? (store : FileStore σ) (files : σ) (path : String) : Option Bytes :=
  (store.read files path).toOption

/-- The store keeps files apart unless their paths stand for the same file. -/
structure Lawful (store : FileStore σ) (same : String → String → Prop) : Prop where
  read_write : ∀ {files after path content}, store.write files path content = .ok after →
    store.read after path = .ok content
  write_frame : ∀ {files after path content}, store.write files path content = .ok after →
    ∀ other, ¬ same path other → store.content? after other = store.content? files other

end FileStore

namespace FileTree

variable {t u : FileTree} {k l : Location} {path : String} {content : Bytes}

/-- Where a path leads, whether there is anything or not. -/
def location (path : String) : Location :=
  (components path).2.foldl Location.child (components path).1

theorem follow_eq_foldl {names : List String} (h : t.follow k names = .ok l) :
    l = names.foldl Location.child k := by
  induction names generalizing k with
  | nil =>
    cases h
    rfl
  | cons name rest ih =>
    unfold follow at h
    split at h
    · cases h
    · cases h
    · exact ih h

theorem follow_congr (same : ∀ k, t.find? k = some .directory ↔ u.find? k = some .directory)
    {names : List String} (h : t.follow k names = .ok l) : u.follow k names = .ok l := by
  induction names generalizing k with
  | nil => exact h
  | cons name rest ih =>
    unfold follow at h
    split at h
    · cases h
    · cases h
    · next hdir =>
      unfold follow
      rw [(same k).1 hdir]
      exact ih h

theorem foldl_child_trimmed (names : List String) (l : Location) :
    (names.reverse.dropWhile (· == "")).reverse.foldl Location.child l =
      names.foldl Location.child l := by
  induction names using List.reverseRecOn with
  | nil => rfl
  | append_singleton names name ih =>
    rw [List.reverse_append, List.reverse_singleton, List.singleton_append, List.dropWhile_cons]
    split
    · next empty =>
      rw [ih, List.foldl_append, beq_iff_eq.1 empty]
      simp [Location.child]
    · rw [List.reverse_cons, List.reverse_reverse]

theorem trimmed_of_length {names : List String}
    (h : ¬ (names.reverse.dropWhile (· == "")).reverse.length < names.length) :
    (names.reverse.dropWhile (· == "")).reverse = names := by
  have suffix := List.dropWhile_suffix (l := names.reverse) (· == "")
  have kept : names.reverse.dropWhile (· == "") = names.reverse := by
    apply suffix.eq_of_length
    have := suffix.length_le
    rw [List.length_reverse] at h this
    rw [List.length_reverse]
    omega
  rw [kept, List.reverse_reverse]

/-- Writing puts a file at the location of the path, where no directory is. -/
theorem write_eq_ok (h : t.write path content = .ok u) :
    t.follow (components path).1 (components path).2 = .ok (location path) ∧
      t.find? (location path) ≠ some .directory ∧ (location path).isOutermost = false ∧
      u = t.set (location path) (.file content) := by
  unfold location
  unfold write at h
  generalize components path = way at h ⊢
  obtain ⟨start, names⟩ := way
  obtain ⟨l, hl, h⟩ := bind_eq_ok.1 h
  obtain rfl : l = names.foldl Location.child start := by
    rw [follow_eq_foldl hl, foldl_child_trimmed]
  by_cases length : (names.reverse.dropWhile (· == "")).reverse.length < names.length
  · rw [if_pos length] at h
    cases h
  · rw [if_neg length] at h
    rw [trimmed_of_length length] at hl
    cases outermost : (names.foldl Location.child start).isOutermost with
    | true =>
      simp only [find?, outermost, if_true] at h
      cases h
    | false =>
      split at h
      · cases h
      · next found =>
        cases h
        exact ⟨hl, found, rfl, rfl⟩

theorem find?_write (h : t.write path content = .ok u) (k : Location) :
    u.find? k = if k = location path then some (.file content) else t.find? k := by
  obtain ⟨-, -, inner, rfl⟩ := write_eq_ok h
  exact find?_set t (.file content) k inner

theorem directory_write (h : t.write path content = .ok u) (k : Location) :
    t.find? k = some .directory ↔ u.find? k = some .directory := by
  rw [find?_write h]
  split
  · next here =>
    have found := (write_eq_ok h).2.1
    simp [here, found]
  · exact Iff.rfl

theorem read_eq_ok : t.read path = .ok content ↔
    t.follow (components path).1 (components path).2 = .ok (location path) ∧
      t.find? (location path) = some (.file content) := by
  constructor
  · intro h
    obtain ⟨l, hl, h⟩ := bind_eq_ok.1 h
    have at_location : l = location path := follow_eq_foldl hl
    rw [at_location] at hl h
    split at h
    · cases h
    · cases h
    · next found =>
      cases h
      exact ⟨hl, found⟩
  · rintro ⟨hl, found⟩
    refine bind_eq_ok.2 ⟨_, hl, ?_⟩
    rw [found]
    rfl

theorem read_write (h : t.write path content = .ok u) : u.read path = .ok content := by
  obtain ⟨hl, -, -, -⟩ := write_eq_ok h
  refine read_eq_ok.2 ⟨follow_congr (directory_write h) hl, ?_⟩
  rw [find?_write h, if_pos rfl]

theorem read_write_of_ne (h : t.write path content = .ok u) {other : String}
    (ne : location path ≠ location other) (c : Bytes) :
    u.read other = .ok c ↔ t.read other = .ok c := by
  have dirs := directory_write h
  rw [read_eq_ok, read_eq_ok, find?_write h, if_neg (Ne.symm ne)]
  constructor
  · exact fun ⟨hl, found⟩ => ⟨follow_congr (fun k => (dirs k).symm) hl, found⟩
  · exact fun ⟨hl, found⟩ => ⟨follow_congr dirs hl, found⟩

/-- The file tree keeps the promises. -/
theorem lawful_store : store.Lawful fun p q => location p = location q where
  read_write := read_write
  write_frame := by
    intro files after path content h other ne
    have toOption_eq_some : ∀ (x : Except FileFault Bytes) c, x.toOption = some c ↔ x = .ok c := by
      intro x c
      cases x <;> simp [Except.toOption]
    ext1 c
    rw [FileStore.content?, FileStore.content?, toOption_eq_some, toOption_eq_some]
    exact read_write_of_ne h ne c

end FileTree
end Relational

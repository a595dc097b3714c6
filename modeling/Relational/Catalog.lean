import Relational.Table.Basic

/-!
# Catalogs

A catalog binds names to tables. Its entries are in the order of the names and no name comes twice, so
that two catalogs with the same bindings are the same.
-/
namespace Relational

structure Catalog where
  entries : List (String × Table)
  sorted : (entries.map Prod.fst).Pairwise (· < ·)

namespace Catalog

def empty : Catalog := ⟨[], List.Pairwise.nil⟩

def names (c : Catalog) : List String := c.entries.map Prod.fst

/-- The table in the first entry of a name. -/
def lookup (name : String) : List (String × Table) → Option Table
  | [] => none
  | e :: es => if e.1 = name then some e.2 else lookup name es

def get? (c : Catalog) (name : String) : Option Table := lookup name c.entries

/-- Puts an entry in its place among sorted entries, instead of one of the same name. -/
def insertEntry (name : String) (t : Table) : List (String × Table) → List (String × Table)
  | [] => [(name, t)]
  | e :: es =>
    if name < e.1 then (name, t) :: e :: es
    else if name = e.1 then (name, t) :: es
    else e :: insertEntry name t es

private theorem mem_insertEntry {name n : String} {t : Table} {es : List (String × Table)}
    (h : n ∈ (insertEntry name t es).map Prod.fst) : n = name ∨ n ∈ es.map Prod.fst := by
  induction es with
  | nil => simpa [insertEntry] using h
  | cons e es ih =>
    unfold insertEntry at h
    split at h
    · simpa using h
    · split at h
      · next he => simp only [List.map_cons, List.mem_cons] at h ⊢; exact h.imp_right Or.inr
      · simp only [List.map_cons, List.mem_cons] at h ⊢
        rcases h with h | h
        · exact Or.inr (Or.inl h)
        · exact (ih h).imp_right Or.inr

private theorem lt_of_not_lt_of_ne {a b : String} (h : ¬a < b) (hne : a ≠ b) : b < a :=
  String.not_le.1 fun hle => hne (String.le_antisymm hle (String.not_lt.1 h))

theorem sorted_insertEntry (name : String) (t : Table) {es : List (String × Table)}
    (h : (es.map Prod.fst).Pairwise (· < ·)) :
    ((insertEntry name t es).map Prod.fst).Pairwise (· < ·) := by
  induction es with
  | nil => simp [insertEntry]
  | cons e es ih =>
    simp only [List.map_cons, List.pairwise_cons] at h
    unfold insertEntry
    split
    · next hlt =>
      simp only [List.map_cons, List.pairwise_cons, List.mem_cons]
      refine ⟨?_, h.1, h.2⟩
      rintro n (rfl | hn)
      · exact hlt
      · exact String.lt_trans hlt (h.1 n hn)
    · next hlt =>
      split
      · next heq =>
        simp only [List.map_cons, List.pairwise_cons]
        exact ⟨heq ▸ h.1, h.2⟩
      · next hne =>
        simp only [List.map_cons, List.pairwise_cons]
        refine ⟨?_, ih h.2⟩
        intro n hn
        rcases mem_insertEntry hn with rfl | hn
        · exact lt_of_not_lt_of_ne hlt hne
        · exact h.1 n hn

private theorem lookup_insertEntry (name n : String) (t : Table) (es : List (String × Table)) :
    lookup n (insertEntry name t es) = if n = name then some t else lookup n es := by
  induction es with
  | nil => simp [insertEntry, lookup, eq_comm]
  | cons e es ih =>
    unfold insertEntry
    split
    · simp only [lookup, eq_comm]
    · split
      · next he =>
        subst he
        simp only [lookup, eq_comm]
        split <;> rfl
      · next hne =>
        simp only [lookup, ih]
        split
        · next he => rw [if_neg (fun h => hne (h.symm.trans he.symm))]
        · rfl

private theorem lookup_filter (name n : String) (es : List (String × Table)) :
    lookup n (es.filter fun e => e.1 != name) = if n = name then none else lookup n es := by
  induction es with
  | nil => simp [lookup]
  | cons e es ih =>
    rw [List.filter_cons]
    split
    · next he =>
      simp only [lookup, ih]
      split
      · next hn => rw [if_neg (by simpa [← hn] using he)]
      · rfl
    · next he =>
      have he : e.1 = name := by simpa using he
      simp only [ih, lookup]
      split
      · rfl
      · next hn => rw [if_neg (fun h => hn (h.symm.trans he))]

private theorem lookup_eq_none {n : String} {es : List (String × Table)}
    (h : n ∉ es.map Prod.fst) : lookup n es = none := by
  induction es with
  | nil => rfl
  | cons e es ih =>
    simp only [List.map_cons, List.mem_cons, not_or] at h
    rw [lookup, if_neg (Ne.symm h.1), ih h.2]

/-- Sorted entries are determined by what they bind. -/
private theorem entries_eq {es fs : List (String × Table)}
    (hes : (es.map Prod.fst).Pairwise (· < ·)) (hfs : (fs.map Prod.fst).Pairwise (· < ·))
    (h : ∀ n, lookup n es = lookup n fs) : es = fs := by
  induction es generalizing fs with
  | nil =>
    cases fs with
    | nil => rfl
    | cons f fs => have := h f.1; simp [lookup] at this
  | cons e es ih =>
    cases fs with
    | nil => have := h e.1; simp [lookup] at this
    | cons f fs =>
      simp only [List.map_cons, List.pairwise_cons] at hes hfs
      have smallest : ∀ {a b : String × Table} {as bs : List (String × Table)},
          (∀ n ∈ bs.map Prod.fst, b.1 < n) →
          (∀ n, lookup n (a :: as) = lookup n (b :: bs)) → ¬a.1 < b.1 := by
        intro a b as bs hb same hlt
        have absent : lookup a.1 (b :: bs) = none := by
          apply lookup_eq_none
          simp only [List.map_cons, List.mem_cons, not_or]
          constructor
          · intro he
            exact String.lt_irrefl b.1 (he ▸ hlt)
          · intro hm
            exact String.lt_irrefl b.1 (String.lt_trans (hb _ hm) hlt)
        rw [← same] at absent
        simp [lookup] at absent
      have name : e.1 = f.1 := by
        by_cases hne : e.1 = f.1
        · exact hne
        · exact absurd (lt_of_not_lt_of_ne (smallest hfs.1 h) hne)
            (smallest hes.1 fun n => (h n).symm)
      have bound := h e.1
      simp only [lookup, name, if_true] at bound
      have head : e = f := Prod.ext name (Option.some.inj bound)
      subst head
      congr 1
      apply ih hes.2 hfs.2
      intro n
      by_cases hn : e.1 = n
      · subst hn
        rw [lookup_eq_none fun hm => String.lt_irrefl _ (hes.1 _ hm),
          lookup_eq_none fun hm => String.lt_irrefl _ (hfs.1 _ hm)]
      · simpa [lookup, hn] using h n

/-- Binds a table to a name, whatever was bound to it before. -/
def insert (c : Catalog) (name : String) (t : Table) : Catalog :=
  ⟨insertEntry name t c.entries, sorted_insertEntry name t c.sorted⟩

def erase (c : Catalog) (name : String) : Catalog where
  entries := c.entries.filter fun e => e.1 != name
  sorted := c.sorted.sublist (List.filter_sublist.map Prod.fst)

@[simp] theorem get?_empty (name : String) : empty.get? name = none := rfl

theorem get?_insert (c : Catalog) (name n : String) (t : Table) :
    (c.insert name t).get? n = if n = name then some t else c.get? n :=
  lookup_insertEntry name n t c.entries

theorem get?_erase (c : Catalog) (name n : String) :
    (c.erase name).get? n = if n = name then none else c.get? n :=
  lookup_filter name n c.entries

theorem ext {c d : Catalog} (h : ∀ name, c.get? name = d.get? name) : c = d := by
  obtain ⟨es, hes⟩ := c
  obtain ⟨fs, hfs⟩ := d
  have same : es = fs := entries_eq hes hfs h
  subst same
  rfl

theorem insert_of_bound {c : Catalog} {name : String} {t : Table} (bound : c.get? name = some t) :
    c.insert name t = c := by
  apply ext
  intro n
  rw [get?_insert]
  split
  · next here => rw [here, bound]
  · rfl

theorem erase_of_free {c : Catalog} {name : String} (free : c.get? name = none) :
    c.erase name = c := by
  apply ext
  intro n
  rw [get?_erase]
  split
  · next here => rw [here, free]
  · rfl

end Catalog
end Relational

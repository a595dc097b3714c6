import Relational.Proofs.Spelling
import Relational.Proofs.StoredCells

/-!
# Answers that are marked as errors

An answer is a text in the end, and an error is told from a table by how its text begins. This works
since every table that is ever printed has a column, and the name of the first one is a name: it is
followed by a blank, where the mark of an error has a colon.
-/
namespace Relational

open Query (IsName IsWord Statement isNamePart)

def Marked (s : String) : Prop := ∃ rest : String, s = "ERROR: " ++ rest

theorem marked_error (e : Error) : Marked (Answer.text (.error e)) := ⟨e.message, rfl⟩

theorem not_marked_empty : ¬ Marked "" := by
  rintro ⟨rest, h⟩
  have chars := congrArg String.toList h
  rw [String.toList_append] at chars
  cases chars

/-- A name ends where a blank comes, and the word of the mark ends where a colon comes. -/
theorem not_marked_of_name {name : String} (h : IsName name.toList) (rest : String) :
    ¬ Marked (name ++ (" " ++ rest)) := by
  rintro ⟨more, same⟩
  have chars := congrArg (fun s => s.toList.dropWhile isNamePart) same
  have blank : isNamePart ' ' = false := by decide +kernel
  have word : IsWord "ERROR".toList := by decide +kernel
  have colon : isNamePart ':' = false := by decide +kernel
  have left : (name ++ (" " ++ rest)).toList = name.toList ++ ' ' :: rest.toList := by simp
  have right : ("ERROR: " ++ more).toList = "ERROR".toList ++ ':' :: ' ' :: more.toList := by simp
  simp only [left, right, List.dropWhile_append_of_pos h.part,
    List.dropWhile_append_of_pos word.part, List.dropWhile_cons, blank, colon] at chars
  cases chars

theorem Table.exists_text_eq {t : Table} (h : t.schema.Named) :
    ∃ name rest : String, IsName name.toList ∧ t.text = name ++ (" " ++ rest) := by
  obtain ⟨nonempty, named⟩ := h
  cases attributes : t.schema.attributes with
  | nil => exact absurd attributes nonempty
  | cons a as =>
    let header := String.intercalate "," (a.type.name :: as.map Attribute.text)
    let rest := String.intercalate "\n" (header :: t.rows.map Row.text)
    have first : IsName a.name.toList := named a (attributes ▸ List.mem_cons_self)
    refine ⟨a.name, rest, first, ?_⟩
    simp [text, lines, Schema.text, attributes, Attribute.text, String.append_assoc, rest, header]

theorem Table.not_marked_text {t : Table} (h : t.schema.Named) : ¬ Marked t.text := by
  obtain ⟨name, rest, hname, same⟩ := t.exists_text_eq h
  rw [same]
  exact not_marked_of_name hname rest

namespace Database

variable {db : Database}

/-- A statement that succeeds answers nothing or a table that can be written and read again. -/
theorem Effect.output_cases {found : Except FileFault Bytes} {statement : Statement}
    {output : String} {after : Database} (h : db.Every Table.Storable)
    (written : statement.Written fun _ => True) (effect : db.Effect found statement output after) :
    output = "" ∨ ∃ t : Table, t.Storable ∧ output = t.text := by
  cases effect with
  | print ht => exact .inr ⟨_, h _ _ ht, rfl⟩
  | select ht => exact .inr ⟨_, h.storable_select written ht, rfl⟩
  | _ => exact .inl rfl

theorem Every.marked_respond_iff (h : db.Every Table.Storable) (e : Event) :
    Marked (db.respond e).1.text ↔ ∃ why, (db.respond e).1 = .error why := by
  constructor
  · intro marked
    rcases db.respond_cases e with ⟨why, failed⟩ | ⟨statement, output, after, hs, done, effect⟩
    · exact ⟨why, by rw [failed]⟩
    · rw [done] at marked
      rcases effect.output_cases h (Statement.written_of_ofText hs) with rfl | ⟨t, ht, rfl⟩
      · exact absurd marked not_marked_empty
      · exact absurd marked (Table.not_marked_text ht.named)
  · rintro ⟨why, failed⟩
    rw [failed]
    exact marked_error why

/-- In any run, the answer to a text has the mark of an error if and only if the text fails. Every
table of a run has a column, and column names that are read as the identifiers that they are. -/
theorem run_marked_iff (directory : DataDirectory) (es : List Event) :
    (∀ e, Marked (((fresh directory).run es).respond e).1.text ↔
      ∃ why, (((fresh directory).run es).respond e).1 = .error why) ∧
    ((fresh directory).run es).Every fun t => t.schema.attributes ≠ [] ∧
      ∀ a ∈ t.schema.attributes, Query.scan a.name.toList = .ok [.identifier a.name, .finish] := by
  have storable := storable_run directory es
  constructor
  · exact storable.marked_respond_iff
  · intro name t bound
    obtain ⟨nonempty, named⟩ := (storable name t bound).named
    exact ⟨nonempty, fun a ha => (Query.spells_identifier (named a ha)).scan_eq⟩

end Database
end Relational

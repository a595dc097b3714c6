import Relational.Proofs.StoreLoad

/-!
# A written table is the normal form of the file that it was read from

The same table can be written in many ways: with blanks, with carriage returns or without a last line
feed, with types in capital letters, with a sign apart from its digits, with more decimal places, and
with anything at all after a blank line. Once such a file is read and written, reading and writing
change nothing more. The one exception is a float that is too large.
-/
namespace Relational

instance (v : Value) (type : ColumnType) : Decidable (v.Overflows type) :=
  decidable_of_iff (type = .float ∧ (v.float? = some (.infinite true) ∨
    v.float? = some (.infinite false))) (by simp [Value.Overflows, or_comm])

instance (s : Schema) (values : List Value) : Decidable (s.Overflows values) :=
  inferInstanceAs (Decidable (∃ x ∈ s.attributes.zip values, x.2.Overflows x.1.type))

namespace Table

/-- Among the literals of the file that are read, one is too large for its float column. -/
def FileOverflows (content : Bytes) : Prop :=
  ∃ s, readHeader content.lines = .ok s ∧
    ∃ values ∈ literalRows content.lines.tail, s.Overflows values

instance (content : Bytes) : Decidable (FileOverflows content) :=
  match h : readHeader content.lines with
  | .ok s => decidable_of_iff (∃ values ∈ literalRows content.lines.tail, s.Overflows values)
      (by simp [FileOverflows, h])
  | .error _ => isFalse (by simp [FileOverflows, h])

variable {t : Table} {content : Bytes}

theorem plain_iff_of_ofBytes (h : ofBytes content = .ok t) : t.Plain ↔ ¬ FileOverflows content := by
  rw [plain_iff_typed_of_ofBytes h, typed_ofBytes_iff h]
  simp [FileOverflows]

/-- What is written of a table from a file is read as the same table, and written in the same way.
If a float in the file was too large, it is not read at all. -/
theorem ofBytes_toBytes_of_ofBytes (h : ofBytes content = .ok t) :
    (¬ FileOverflows content →
      ofBytes t.toBytes = .ok t ∧ ∀ u, ofBytes t.toBytes = .ok u → u.toBytes = t.toBytes) ∧
    (FileOverflows content → ∃ e, ofBytes t.toBytes = .error e) := by
  obtain ⟨read, refused⟩ := ofBytes_toBytes (storable_ofBytes h)
  constructor
  · intro finite
    have same := read ((plain_iff_of_ofBytes h).2 finite)
    refine ⟨same, fun u hu => ?_⟩
    cases same.symm.trans hu
    rfl
  · intro overflows
    exact refused fun plain => (plain_iff_of_ofBytes h).1 plain overflows

theorem ofBytes_toBytes_of_loose_file :
    ∃ t, ofBytes (Bytes.ofText
        "a INT ,  a Float,s string\r\n- 5, 2., 'x,y'\n7,NOVALUE,''\r\n \n?") = .ok t ∧
      t.toBytes = Bytes.ofText "a int,a float,s string\n-5,2.000,'x,y'\n7,NOVALUE,''\n" ∧
      ofBytes t.toBytes = .ok t := by
  have read : ofBytes (Bytes.ofText
      "a INT ,  a Float,s string\r\n- 5, 2., 'x,y'\n7,NOVALUE,''\r\n \n?") =
      .ok ⟨⟨[⟨"a", .int⟩, ⟨"a", .float⟩, ⟨"s", .string⟩]⟩,
        [⟨[.literal "-5", .literal "2.000", .literal "'x,y'"]⟩,
          ⟨[.literal "7", .noValue, .literal "''"]⟩]⟩ := by decide +kernel
  refine ⟨_, read, by decide +kernel, ((ofBytes_toBytes_of_ofBytes read).1 ?_).1⟩
  decide +kernel

end Table
end Relational

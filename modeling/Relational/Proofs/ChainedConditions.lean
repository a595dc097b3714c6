import Relational.Proofs.RowByRow
import Relational.Proofs.Selections
import Relational.Proofs.StarProjection

/-!
# Chains of conditions

Each condition of a query is asked of what the one before it has left and projected. If the select
list only keeps columns, a name that is still there finds in a projected row what it found in the row
itself, and projecting once more changes nothing. So all conditions may as well be asked of the rows
themselves, and one projection at the end is enough.
-/
namespace Relational

/-- A select list that takes columns as they are: all of them, or some by their names. -/
inductive KeepsColumns : List Projection → Prop
  | star : KeepsColumns [.star]
  | columns {names : List String} : names ≠ [] →
    KeepsColumns (names.map fun name => .expr (.column name) none)

namespace Output

variable {s : Schema} {o : Output} {outs : List Output} {r q : Row} {v : Value} {k : Nat}

theorem cell_eq_ok : o.cell r = .ok v ↔ o.source.value r = .ok v ∧ v.HasType o.header.type := by
  rw [cell, bind_eq_ok]
  constructor
  · rintro ⟨w, hw, h⟩
    split at h
    · next typed =>
      cases h
      exact ⟨hw, typed⟩
    · cases h
  · rintro ⟨hv, typed⟩
    exact ⟨v, hv, if_pos typed⟩

theorem read_of_row (h : row outs r = .ok q) (ho : outs[k]? = some o) :
    q.read k = o.source.value r := by
  have pairs := row_eq_ok.1 h
  obtain ⟨hk, rfl⟩ := List.getElem?_eq_some_iff.1 ho
  have bound : k < q.length := Nat.lt_of_lt_of_eq hk pairs.length_eq
  exact (Row.read_of_lt bound).trans (cell_eq_ok.1 (pairs.get hk bound)).1.symm

def schemaOf (outs : List Output) : Schema := ⟨outs.map Output.header⟩

theorem resolve_schemaOf {name : String} {type : ColumnType}
    (h : (schemaOf outs).resolve name = .ok (k, type)) :
    ∃ o, outs[k]? = some o ∧ o.header = ⟨name, type⟩ := by
  obtain ⟨a, ha, rfl, rfl⟩ := Schema.resolve_eq_ok h
  rw [schemaOf, List.getElem?_map] at ha
  obtain ⟨o, ho, rfl⟩ := Option.map_eq_some_iff.1 ha
  exact ⟨o, ho, rfl⟩

theorem ofName_eq_ok {name : String} (h : ofName s name none = .ok o) :
    ∃ i type, s.resolve name = .ok (i, type) ∧ o = ⟨⟨name, type⟩, .copied i⟩ := by
  obtain ⟨⟨i, type⟩, hi, h⟩ := bind_eq_ok.1 h
  cases h
  exact ⟨i, type, hi, rfl⟩

/-- The other column takes, under the same header, a column that is copied from the same place. -/
def IsCopyOf (outs : List Output) (o other : Output) : Prop :=
  other.header = o.header ∧
    ∃ k copy, other.source = .copied k ∧ outs[k]? = some copy ∧ copy.source = o.source

/-- Columns that are kept from the schema `s` by the select list `ps`. The list can be applied
again, and then takes each column from one that is a copy of the same column. -/
structure Kept (s : Schema) (ps : List Projection) (outs : List Output) : Prop where
  copied : ∀ o ∈ outs, ∃ i a, o.source = .copied i ∧ s.attributes[i]? = some a ∧
    a.type = o.header.type
  found : ∀ name k type, (schemaOf outs).resolve name = .ok (k, type) →
    ∃ i o, s.resolve name = .ok (i, type) ∧ outs[k]? = some o ∧ o.source = .copied i
  again : ∃ others : List Output,
    ps.flatMap (Projection.outputs (schemaOf outs)) = others.map .ok ∧
      List.Forall₂ (IsCopyOf outs) outs others

theorem map_ok_injective :
    Function.Injective (List.map (Except.ok : Output → Except Error Output)) :=
  List.map_injective_iff.2 fun _ _ => Except.ok.inj

theorem kept_star (h : [Projection.star].flatMap (Projection.outputs s) = outs.map .ok) :
    Kept s [.star] outs := by
  have outputs : outs = s.attributes.zipIdx.map fun x => ⟨x.1, .copied x.2⟩ := by
    apply map_ok_injective
    rw [← h]
    simp [Projection.outputs]
  have same : schemaOf outs = s := by
    have headers : outs.map Output.header = s.attributes := by
      rw [outputs, List.map_map]
      exact List.zipIdx_map_fst 0 s.attributes
    rw [schemaOf, headers]
  have place : ∀ (k : Nat) (o : Output), outs[k]? = some o → o.source = .copied k ∧
      s.attributes[k]? = some o.header := by
    intro k o ho
    rw [outputs, List.getElem?_map, List.getElem?_zipIdx] at ho
    cases ha : s.attributes[k]? with
    | none => simp [ha] at ho
    | some a =>
      simp only [ha, Option.map_some, Option.some.injEq, Nat.zero_add] at ho
      subst ho
      exact ⟨rfl, rfl⟩
  refine ⟨fun o ho => ?_, fun name k type found => ?_, outs, ?_, List.forall₂_same.2 fun o ho => ?_⟩
  · obtain ⟨k, hk⟩ := List.getElem?_of_mem ho
    obtain ⟨source, header⟩ := place k o hk
    exact ⟨k, o.header, source, header, rfl⟩
  · obtain ⟨o, ho, -⟩ := resolve_schemaOf found
    exact ⟨k, o, same ▸ found, ho, (place k o ho).1⟩
  · rw [same, h]
  · obtain ⟨k, hk⟩ := List.getElem?_of_mem ho
    exact ⟨rfl, k, o, (place k o hk).1, hk, rfl⟩

theorem flatMap_columns (s : Schema) (names : List String) :
    (names.map fun name => Projection.expr (.column name) none).flatMap (Projection.outputs s) =
      names.map fun name => ofName s name none := by
  induction names with
  | nil => rfl
  | cons name names ih =>
    rw [List.map_cons, List.flatMap_cons, ih]
    rfl

theorem exists_again {names : List String} {part : List Output}
    (named : List.Forall₂ (fun name o => ofName s name none = .ok o) names part)
    (inside : ∀ o ∈ part, o ∈ outs)
    (found : ∀ name k type, (schemaOf outs).resolve name = .ok (k, type) →
      ∃ i o, s.resolve name = .ok (i, type) ∧ outs[k]? = some o ∧ o.source = .copied i) :
    ∃ others : List Output,
      (names.map fun name => ofName (schemaOf outs) name none) = others.map .ok ∧
        List.Forall₂ (IsCopyOf outs) part others := by
  induction named with
  | nil => exact ⟨[], rfl, .nil⟩
  | @cons name o names part made _ ih =>
    obtain ⟨others, resolved, copies⟩ := ih fun o ho => inside o (List.mem_cons_of_mem _ ho)
    obtain ⟨j, type, hj, rfl⟩ := ofName_eq_ok made
    have header := List.mem_map_of_mem (f := Output.header) (inside _ List.mem_cons_self)
    obtain ⟨k, other, hk⟩ : ∃ k other, (schemaOf outs).resolve name = .ok (k, other) :=
      Schema.exists_resolve (List.mem_map_of_mem header)
    obtain ⟨i, copy, hi, hcopy, source⟩ := found name k other hk
    cases hi.symm.trans hj
    have copied : IsCopyOf outs ⟨⟨name, type⟩, .copied j⟩ ⟨⟨name, type⟩, .copied k⟩ :=
      ⟨rfl, k, copy, rfl, hcopy, source⟩
    refine ⟨⟨⟨name, type⟩, .copied k⟩ :: others, ?_, .cons copied copies⟩
    rw [List.map_cons, List.map_cons, ← resolved]
    exact congrArg (· :: _) (bind_eq_ok.2 ⟨_, hk, rfl⟩)

theorem kept_columns {names : List String} (h : (names.map fun name =>
      Projection.expr (.column name) none).flatMap (Projection.outputs s) = outs.map .ok) :
    Kept s (names.map fun name => .expr (.column name) none) outs := by
  have named : List.Forall₂ (fun name o => ofName s name none = .ok o) names outs := by
    rw [flatMap_columns] at h
    rw [← List.forall₂_map_left_iff (f := fun name => ofName s name none)
      (R := fun x o => x = .ok o), h, List.forall₂_map_left_iff]
    exact List.forall₂_same.2 fun _ _ => rfl
  have found : ∀ name k type, (schemaOf outs).resolve name = .ok (k, type) →
      ∃ i o, s.resolve name = .ok (i, type) ∧ outs[k]? = some o ∧ o.source = .copied i := by
    intro name k type resolved
    obtain ⟨o, ho, header⟩ := resolve_schemaOf resolved
    obtain ⟨other, -, made⟩ := exists_of_mem_right named (List.mem_of_getElem? ho)
    obtain ⟨i, _, hi, rfl⟩ := ofName_eq_ok made
    cases header
    exact ⟨i, _, hi, ho, rfl⟩
  refine ⟨fun o ho => ?_, found, ?_⟩
  · obtain ⟨name, -, made⟩ := exists_of_mem_right named ho
    obtain ⟨i, type, hi, rfl⟩ := ofName_eq_ok made
    obtain ⟨a, ha, -, rfl⟩ := Schema.resolve_eq_ok hi
    exact ⟨i, a, rfl, ha, rfl⟩
  · rw [flatMap_columns]
    exact exists_again named (fun _ ho => ho) found

theorem kept_of_keepsColumns {ps : List Projection} (keeps : KeepsColumns ps)
    (h : ps.flatMap (Projection.outputs s) = outs.map .ok) : Kept s ps outs := by
  cases keeps with
  | star => exact kept_star h
  | columns _ => exact kept_columns h

namespace Kept

variable {ps : List Projection} {t : Table} {e : Expr} {c : Condition}

theorem exists_cell (kept : Kept t.schema ps outs) (h : t.Typed) (ho : o ∈ outs) (hr : r ∈ t.rows) :
    ∃ v, o.cell r = .ok v := by
  obtain ⟨i, a, source, ha, type⟩ := kept.copied o ho
  obtain ⟨v, found, typed⟩ := h.exists_read ha hr
  exact ⟨v, cell_eq_ok.2 ⟨by rw [source]; exact found, type ▸ typed⟩⟩

theorem row_again {others : List Output} (copies : List.Forall₂ (IsCopyOf outs) outs others)
    (hq : row outs r = .ok q) : row others q = .ok q := by
  refine row_eq_ok.2 (List.forall₂_iff_get.2 ⟨?_, fun i hi hi' => ?_⟩)
  · rw [← copies.length_eq, (row_eq_ok.1 hq).length_eq]
  · have inside : i < outs.length := copies.length_eq ▸ hi
    obtain ⟨header, k, copy, source, hcopy, same⟩ := copies.get inside hi
    have cell := (row_eq_ok.1 hq).get inside hi'
    obtain ⟨value, typed⟩ := cell_eq_ok.1 cell
    refine cell_eq_ok.2 ⟨?_, header ▸ typed⟩
    rw [source]
    exact ((read_of_row hq hcopy).trans (congrArg _ same)).trans value

theorem operand (kept : Kept s ps outs) {operand : Test.Operand} {type? : Option ColumnType}
    (h : Test.Operand.resolve (schemaOf outs) e = .ok (operand, type?)) :
    ∃ original, Test.Operand.resolve s e = .ok (original, type?) ∧
      ∀ r q, row outs r = .ok q → operand.value q = original.value r := by
  cases e with
  | column name =>
    obtain ⟨⟨k, type⟩, hk, h⟩ := bind_eq_ok.1 h
    cases h
    obtain ⟨i, o, hi, ho, source⟩ := kept.found name k type hk
    refine ⟨.column i, bind_eq_ok.2 ⟨_, hi, rfl⟩, fun r q hq => ?_⟩
    have read := read_of_row hq ho
    rwa [source] at read
  | literal v =>
    cases h
    exact ⟨.literal v, rfl, fun _ _ _ => rfl⟩
  | binary left operation right => cases h

/-- What a condition finds among the columns that were kept, it finds in the table too, and a row
passes it if the projected row does. -/
theorem resolve (kept : Kept s ps outs) {test : Test}
    (h : Test.resolve (schemaOf outs) c = .ok test) :
    ∃ original, Test.resolve s c = .ok original ∧
      ∀ r q, row outs r = .ok q → test.passes q = original.passes r := by
  obtain ⟨k, type, operand, type?, left, right, same, rfl⟩ := Test.resolve_eq_ok.1 h
  obtain ⟨i, o, hi, ho, source⟩ := kept.found _ k type left
  obtain ⟨original, hright, value⟩ := kept.operand right
  refine ⟨_, Test.resolve_eq_ok.2 ⟨i, type, original, type?, hi, hright, same, rfl⟩, ?_⟩
  intro r q hq
  have read := read_of_row hq ho
  rw [source] at read
  simp only [Test.passes, read, value r q hq]
  rfl

theorem selects (kept : Kept s ps outs) (h : ∃ test, Test.resolve (schemaOf outs) c = .ok test)
    (hq : row outs r = .ok q) : c.selects s r = c.selects (schemaOf outs) q := by
  obtain ⟨test, ht⟩ := h
  obtain ⟨original, ho, same⟩ := kept.resolve ht
  simp only [Condition.selects, ht, ho, same r q hq]

end Kept
end Output

namespace Table

open Output (schemaOf Kept)

variable {t u w : Table} {ps : List Projection} {outs : List Output} {c : Condition}

def keeping (t : Table) (cs : List Condition) : Table :=
  ⟨t.schema, t.rows.filter fun r => cs.all fun c => c.selects t.schema r⟩

@[simp] theorem keeping_nil (t : Table) : t.keeping [] = t := by
  simp [keeping]

theorem keeping_cons (t : Table) (c : Condition) (cs : List Condition) :
    t.keeping (c :: cs) = (t.keeping [c]).keeping cs := by
  simp only [keeping, List.filter_filter, List.all_cons, List.all_nil, Bool.and_true]
  exact congrArg (Table.mk t.schema) (List.filter_congr fun r _ => Bool.and_comm _ _)

theorem Typed.keeping (h : t.Typed) (cs : List Condition) : (t.keeping cs).Typed :=
  h.filter_rows _

theorem project_eq_ok_iff (h : ps.flatMap (Projection.outputs t.schema) = outs.map .ok) :
    t.project ps = .ok w ↔ w.schema = schemaOf outs ∧
      List.Forall₂ (fun r q => Output.row outs r = .ok q) t.rows w.rows := by
  rw [project_eq_ok, ← mapM_eq_ok]
  constructor
  · rintro ⟨others, resolved, headers, rows⟩
    cases Output.map_ok_injective (h.symm.trans resolved)
    exact ⟨congrArg Schema.mk headers, rows⟩
  · rintro ⟨schema, rows⟩
    exact ⟨outs, h, congrArg Schema.attributes schema, rows⟩

theorem exists_project (h : t.Typed) (keeps : KeepsColumns ps)
    (resolved : ps.flatMap (Projection.outputs t.schema) = outs.map .ok) :
    ∃ w, t.project ps = .ok w := by
  have kept := Output.kept_of_keepsColumns keeps resolved
  obtain ⟨qs, rows⟩ := Output.exists_rows_iff.2 fun o ho r hr => kept.exists_cell h ho hr
  exact ⟨⟨schemaOf outs, qs⟩, project_eq_ok.2 ⟨outs, resolved, rfl, rows⟩⟩

theorem Typed.project (h : t.Typed) (hw : t.project ps = .ok w) : w.Typed :=
  (Cells.project h (fun _ _ _ typed => typed)
    (fun _ _ _ _ _ _ _ _ _ _ _ _ typed => typed) hw).1

/-- Keeping columns of what was kept changes nothing. -/
theorem project_again (keeps : KeepsColumns ps) (hw : t.project ps = .ok w) :
    w.project ps = .ok w := by
  obtain ⟨outs, resolved, -⟩ := project_eq_ok.1 hw
  obtain ⟨schema, rows⟩ := (project_eq_ok_iff resolved).1 hw
  obtain ⟨others, again, copies⟩ := (Output.kept_of_keepsColumns keeps resolved).again
  have headers : schemaOf others = schemaOf outs := by
    have same : List.Forall₂ (fun a b => a = b) (others.map Output.header)
        (outs.map Output.header) := by
      rw [List.forall₂_map_left_iff, List.forall₂_map_right_iff]
      exact copies.flip.imp fun _ _ copy => copy.1
    rw [List.forall₂_eq_eq_eq] at same
    rw [schemaOf, schemaOf, same]
  rw [← schema] at again
  refine (project_eq_ok_iff again).2 ⟨schema.trans headers.symm, List.forall₂_same.2 fun q hq => ?_⟩
  obtain ⟨r, -, made⟩ := exists_of_mem_right rows hq
  exact Kept.row_again copies made

/-- The rows that satisfy a condition after the projection are the projections of those that do. -/
theorem keeping_project (keeps : KeepsColumns ps) (hw : t.project ps = .ok w)
    (checks : ∃ test, Test.resolve w.schema c = .ok test) :
    (t.keeping [c]).project ps = .ok (w.keeping [c]) := by
  obtain ⟨outs, resolved, -⟩ := project_eq_ok.1 hw
  obtain ⟨schema, rows⟩ := (project_eq_ok_iff resolved).1 hw
  have kept := Output.kept_of_keepsColumns keeps resolved
  rw [schema] at checks
  refine (project_eq_ok_iff (t := t.keeping [c]) resolved).2 ⟨schema, ?_⟩
  simp only [keeping, List.all_cons, List.all_nil, Bool.and_true, schema]
  exact List.rel_filter (fun r q hq => Bool.eq_iff_iff.1 (kept.selects checks hq)) rows

theorem select_eq_ok (h : t.Typed) : t.select ps (some c) = .ok u ↔
    (∃ test, Test.resolve t.schema c = .ok test) ∧ (t.keeping [c]).project ps = .ok u := by
  rw [select, bind_eq_ok]
  simp only [h.filter_eq_ok, and_assoc, exists_and_left, exists_eq_left, keeping, List.all_cons,
    List.all_nil, Bool.and_true]

/-- One more condition, asked of the kept columns, is one more condition on the rows. -/
theorem select_project (h : t.Typed) (keeps : KeepsColumns ps) (hw : t.project ps = .ok w) :
    w.select ps (some c) = .ok u ↔
      (∃ test, Test.resolve w.schema c = .ok test) ∧ (t.keeping [c]).project ps = .ok u := by
  rw [select_eq_ok (h.project hw)]
  refine and_congr_right fun checks => ?_
  have found := keeping_project keeps hw checks
  rw [found, project_again keeps found]

theorem exists_project_of_schema {v : Table} (hv : v.Typed) (same : v.schema = t.schema)
    (keeps : KeepsColumns ps) (hw : t.project ps = .ok w) :
    ∃ v', v.project ps = .ok v' ∧ v'.schema = w.schema := by
  obtain ⟨outs, resolved, -⟩ := project_eq_ok.1 hw
  have there : ps.flatMap (Projection.outputs v.schema) = outs.map .ok := same ▸ resolved
  obtain ⟨v', hv'⟩ := exists_project hv keeps there
  have schema := ((project_eq_ok_iff there).1 hv').1
  exact ⟨v', hv', schema.trans ((project_eq_ok_iff resolved).1 hw).1.symm⟩

/-- Any number of conditions, each of them asked of what the one before it gave, are so many
conditions on the rows. -/
theorem foldlM_select (h : t.Typed) (keeps : KeepsColumns ps) (hw : t.project ps = .ok w)
    (cs : List Condition) :
    cs.foldlM (fun v c => v.select ps (some c)) w = .ok u ↔
      (∀ c ∈ cs, ∃ test, Test.resolve w.schema c = .ok test) ∧
        (t.keeping cs).project ps = .ok u := by
  -- with each condition fewer rows are left in the table, and it keeps its columns
  induction cs generalizing t w with
  | nil =>
    rw [List.foldlM_nil, keeping_nil, hw]
    simp [pure, Except.pure]
  | cons c cs ih =>
    obtain ⟨v, hv, schema⟩ := exists_project_of_schema (t := t) (h.keeping [c]) rfl keeps hw
    have step : ∀ v', w.select ps (some c) = .ok v' ↔
        (∃ test, Test.resolve w.schema c = .ok test) ∧ v' = v := by
      intro v'
      rw [select_project h keeps hw, hv, Except.ok.injEq, eq_comm (a := v)]
    have rest := ih (h.keeping [c]) hv
    rw [schema] at rest
    rw [foldlM_cons_eq_ok, List.forall_mem_cons, keeping_cons, and_assoc, ← rest]
    simp only [step, and_assoc, exists_and_left, exists_eq_left]

theorem evaluate_eq_ok (h : t.Typed) (keeps : KeepsColumns ps)
    (hw : (empty t.schema).project ps = .ok w) (cs : List Condition) :
    t.evaluate ps cs = .ok u ↔
      (∀ c ∈ cs.head?, ∃ test, Test.resolve t.schema c = .ok test) ∧
      (∀ c ∈ cs.tail, ∃ test, Test.resolve w.schema c = .ok test) ∧
      (t.keeping cs).project ps = .ok u := by
  cases cs with
  | nil => simp [evaluate, select, filter, bind, Except.bind]
  | cons c cs =>
    obtain ⟨v, hv, schema⟩ :=
      exists_project_of_schema (t := empty t.schema) (h.keeping [c]) rfl keeps hw
    have first : ∀ v', t.select ps (some c) = .ok v' ↔
        (∃ test, Test.resolve t.schema c = .ok test) ∧ v' = v := by
      intro v'
      rw [select_eq_ok h, hv, Except.ok.injEq, eq_comm (a := v)]
    have rest := foldlM_select (h.keeping [c]) keeps hv cs (u := u)
    rw [schema] at rest
    rw [evaluate, bind_eq_ok, keeping_cons]
    simp only [first, and_assoc, exists_and_left, exists_eq_left, rest]
    simp

theorem resolve_of_project (keeps : KeepsColumns ps) (hw : t.project ps = .ok w)
    (checks : ∃ test, Test.resolve w.schema c = .ok test) :
    ∃ test, Test.resolve t.schema c = .ok test := by
  obtain ⟨outs, resolved, -⟩ := project_eq_ok.1 hw
  obtain ⟨test, ht⟩ := checks
  rw [((project_eq_ok_iff resolved).1 hw).1] at ht
  obtain ⟨original, found, -⟩ := (Output.kept_of_keepsColumns keeps resolved).resolve ht
  exact ⟨original, found⟩

/-- If all columns are kept, there is no difference between the first condition and the others. -/
theorem evaluate_star_eq_ok (h : t.Typed) (cs : List Condition) :
    t.evaluate [.star] cs = .ok u ↔
      (∀ c ∈ cs, ∃ test, Test.resolve t.schema c = .ok test) ∧ t.keeping cs = u := by
  have whole : (empty t.schema).project [.star] = .ok (empty t.schema) :=
    project_star (typed_empty t.schema)
  rw [evaluate_eq_ok h .star whole, project_star (h.keeping cs), Except.ok.injEq, ← and_assoc]
  refine and_congr_left fun _ => ?_
  cases cs <;> simp

theorem keeping_perm {cs ds : List Condition} (perm : cs.Perm ds) :
    t.keeping cs = t.keeping ds := by
  simp only [keeping, perm.all_eq]

theorem exists_project_of_evaluate (h : t.Typed) (keeps : KeepsColumns ps) {cs : List Condition}
    (hu : t.evaluate ps cs = .ok u) : ∃ w, (empty t.schema).project ps = .ok w := by
  obtain ⟨v, same, w, hw⟩ : ∃ v : Table, v.schema = t.schema ∧ ∃ w, v.project ps = .ok w := by
    cases cs with
    | nil => exact ⟨t, rfl, u, hu⟩
    | cons c cs =>
      obtain ⟨w, hw, -⟩ := bind_eq_ok.1 hu
      exact ⟨t.keeping [c], rfl, w, ((select_eq_ok h).1 hw).2⟩
  obtain ⟨w', hw', -⟩ := exists_project_of_schema (typed_empty t.schema) same.symm keeps hw
  exact ⟨w', hw'⟩

/-- A query that only keeps columns is checked once, without rows: its first condition against the
table, and the others against the columns that are kept. Then it gives the projection of the rows
that satisfy all conditions. If all columns are kept, the order of the conditions does not matter. -/
theorem evaluate_conjunction (h : t.Typed) (keeps : KeepsColumns ps) (cs : List Condition) :
    ((∃ u, t.evaluate ps cs = .ok u) ↔ ∃ w, (empty t.schema).project ps = .ok w ∧
      (∀ c ∈ cs.head?, ∃ test, Test.resolve t.schema c = .ok test) ∧
      ∀ c ∈ cs.tail, ∃ test, Test.resolve w.schema c = .ok test) ∧
    (∀ u, t.evaluate ps cs = .ok u →
      (∀ c ∈ cs, ∃ test, Test.resolve t.schema c = .ok test) ∧
        (t.keeping cs).project ps = .ok u) ∧
    ∀ ds, cs.Perm ds → ∀ u, t.evaluate [.star] cs = .ok u ↔ t.evaluate [.star] ds = .ok u := by
  refine ⟨⟨?_, ?_⟩, fun u hu => ?_, fun ds perm u => ?_⟩
  · rintro ⟨u, hu⟩
    obtain ⟨w, hw⟩ := exists_project_of_evaluate h keeps hu
    obtain ⟨first, others, -⟩ := (evaluate_eq_ok h keeps hw cs).1 hu
    exact ⟨w, hw, first, others⟩
  · rintro ⟨w, hw, first, others⟩
    obtain ⟨u, hu, -⟩ :=
      exists_project_of_schema (t := empty t.schema) (h.keeping cs) rfl keeps hw
    exact ⟨u, (evaluate_eq_ok h keeps hw cs).2 ⟨first, others, hu⟩⟩
  · obtain ⟨w, hw⟩ := exists_project_of_evaluate h keeps hu
    obtain ⟨first, others, found⟩ := (evaluate_eq_ok h keeps hw cs).1 hu
    refine ⟨fun c hc => ?_, found⟩
    cases cs with
    | nil => cases hc
    | cons d ds =>
      rcases List.mem_cons.1 hc with rfl | hc
      · exact first c rfl
      · exact resolve_of_project (t := empty t.schema) keeps hw (others c hc)
  · rw [evaluate_star_eq_ok h, evaluate_star_eq_ok h, keeping_perm perm]
    simp only [perm.mem_iff]

/-- A column that is kept twice is found at its first place, and the table has it at another. -/
theorem evaluate_conjunction_of_repeated_columns :
    let rows : List Row := [⟨[.literal "'b'", .literal "1", .literal "0.500"]⟩,
      ⟨[.literal "'a'", .literal "2", .literal "0.250"]⟩, ⟨[.literal "'b'", .noValue, .noValue]⟩,
      ⟨[.literal "'b'", .literal "4", .literal "9.000"]⟩]
    let t : Table := ⟨⟨[⟨"s", .string⟩, ⟨"n", .int⟩, ⟨"x", .float⟩]⟩, rows⟩
    let ps : List Projection := ["n", "s", "n"].map fun name => .expr (.column name) none
    let cs : List Condition := [⟨"x", .lt, .literal (.literal "8")⟩,
      ⟨"n", .ge, .literal (.literal "1")⟩, ⟨"s", .eq, .literal (.literal "'b'")⟩]
    t.Typed ∧ KeepsColumns ps ∧
      (∃ u, t.evaluate ps cs = .ok u ∧
        u.rows = [⟨[.literal "1", .literal "'b'", .literal "1"]⟩]) ∧
      t.evaluate [.star] cs.reverse = .ok ⟨t.schema, [rows[0]]⟩ := by
  intro rows t ps cs
  have typed : t.Typed := by unfold Typed Cells; decide +kernel
  have keeps : KeepsColumns ps := .columns (by decide)
  obtain ⟨success, kept, permuted⟩ := evaluate_conjunction typed keeps cs
  have projected : (empty t.schema).project ps =
      .ok ⟨⟨[⟨"n", .int⟩, ⟨"s", .string⟩, ⟨"n", .int⟩]⟩, []⟩ := by decide +kernel
  have first : ∀ c ∈ cs.head?, ∃ test, Test.resolve t.schema c = .ok test := by
    rintro c ⟨⟩
    exact ⟨⟨2, .lt, .literal (.literal "8"), false⟩, by decide +kernel⟩
  have others : ∀ c ∈ cs.tail, ∃ test, Test.resolve
      ⟨[⟨"n", .int⟩, ⟨"s", .string⟩, ⟨"n", .int⟩]⟩ c = .ok test := by
    rintro c (_ | ⟨_, _ | ⟨_, ⟨⟩⟩⟩)
    · exact ⟨⟨0, .ge, .literal (.literal "1"), false⟩, by decide +kernel⟩
    · exact ⟨⟨1, .eq, .literal (.literal "'b'"), true⟩, by decide +kernel⟩
  obtain ⟨u, hu⟩ := success.2 ⟨_, projected, first, others⟩
  have found : (t.keeping cs).project ps = .ok ⟨⟨[⟨"n", .int⟩, ⟨"s", .string⟩, ⟨"n", .int⟩]⟩,
      [⟨[.literal "1", .literal "'b'", .literal "1"]⟩]⟩ := by decide +kernel
  cases found.symm.trans (kept u hu).2
  exact ⟨typed, keeps, ⟨_, hu, rfl⟩,
    (permuted _ (List.reverse_perm cs).symm _).1 (by decide +kernel)⟩

end Table
end Relational

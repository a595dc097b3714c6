import Relational.Proofs.Productions
import Relational.Query.Statement

/-!
# The rules of the commands read their productions

What a command is shows in its first tokens, so there is one case for each keyword that begins one.
-/
namespace Relational.Query

open Rule

variable {ts rest : List Token}

theorem sound_selection : Sound selection IsSelection := by
  intro ts s rest h
  obtain ⟨_, _, hselect, afterSelect⟩ := bind_apply_eq_ok.1 h
  obtain ⟨ps, _, hps, afterProjections⟩ := bind_apply_eq_ok.1 afterSelect
  obtain ⟨_, _, hfrom, afterFrom⟩ := bind_apply_eq_ok.1 afterProjections
  obtain ⟨names, _, hnames, afterNames⟩ := bind_apply_eq_ok.1 afterFrom
  obtain ⟨restricted, _, hwhere, afterWhere⟩ := bind_apply_eq_ok.1 afterNames
  cases (expect_eq_ok (by decide)).1 hselect
  obtain ⟨us, rfl, hus⟩ := sound_projections _ _ _ hps
  cases (expect_eq_ok (by decide)).1 hfrom
  obtain ⟨vs, rfl, hvs⟩ := sound_separated (by decide) sound_identifier _ _ _ hnames
  rcases (accept_eq_ok (by decide)).1 hwhere with ⟨rfl, rfl⟩ | ⟨rfl, -, rfl⟩
  · obtain ⟨cs, _, hcs, hselected⟩ := bind_apply_eq_ok.1 afterWhere
    cases hselected
    obtain ⟨ws, rfl, hws⟩ := sound_conditions _ _ _ hcs
    exact ⟨_, by simp, .restricted hus hvs hws⟩
  · cases afterWhere
    exact ⟨_, by simp, .all hus hvs⟩

theorem complete_selection : Complete selection IsSelection
    [.symbol .comma, .keyword .whereRows, .keyword .andAlso] := by
  intro us s h rest ends
  simp only [List.mem_cons, List.not_mem_nil, or_false, not_or] at ends
  obtain ⟨noComma, noWhere, noAnd⟩ := ends
  have names {ns names} (h : IsCommaSeparated IsIdentifier ns names) (after : List Token)
      (ends : next after ≠ .symbol .comma) :
      commaSeparated identifier (ns ++ after) = .ok (names, after) :=
    complete_separated complete_identifier (by decide) ns names h after (by simpa using ends)
  cases h with
  | @all ps projections ns _ hps hns =>
    rw [List.cons_append, List.append_assoc]
    refine (bind_of_ok (expect_cons _ _)).trans ?_
    refine (bind_of_ok (complete_projections _ _ hps (_ :: _) (by rw [next_cons]; decide))).trans ?_
    refine (bind_of_ok (expect_cons _ _)).trans ?_
    refine (bind_of_ok (names hns rest noComma)).trans ?_
    exact bind_of_ok (accept_of_ne noWhere)
  | @restricted ps projections ns _ cs conditions hps hns hcs =>
    simp only [List.cons_append, List.append_assoc]
    refine (bind_of_ok (expect_cons _ _)).trans ?_
    refine (bind_of_ok (complete_projections _ _ hps (_ :: _) (by rw [next_cons]; decide))).trans ?_
    refine (bind_of_ok (expect_cons _ _)).trans ?_
    refine (bind_of_ok (names hns (.keyword .whereRows :: (cs ++ rest)) nofun)).trans ?_
    refine (bind_of_ok (accept_cons _ _)).trans ?_
    exact bind_of_ok (complete_conditions _ _ hcs rest (by simpa using noAnd))

theorem creation_leftParen (name : String) (ts : List Token) :
    creation (.identifier name :: .symbol .leftParen :: ts) =
      (columnDefinitions >>= fun columns => expect (.symbol .rightParen) >>= fun _ =>
        pure (.createTable name columns)) ts := rfl

theorem creation_asName (name : String) (ts : List Token) :
    creation (.identifier name :: .keyword .asName :: ts) =
      (selection >>= fun select => pure (.createTableAs name select)) ts := rfl

theorem sound_creation {s : Statement} (h : creation ts = .ok (s, rest)) :
    ∃ us, ts = us ++ rest ∧ IsCommand (.keyword .create :: .keyword .table :: us) s := by
  obtain ⟨name, middle, hname, hread⟩ := bind_apply_eq_ok.1 h
  obtain ⟨_, rfl, ⟨name⟩⟩ := sound_identifier _ _ _ hname
  cases middle with
  | nil => cases hread
  | cons t ts =>
    cases t with
    | symbol s =>
      cases s with
      | leftParen =>
        rw [List.singleton_append, creation_leftParen] at h
        obtain ⟨columns, _, hcolumns, hclose⟩ := bind_apply_eq_ok.1 h
        obtain ⟨_, _, hexpect, hpure⟩ := bind_apply_eq_ok.1 hclose
        cases hpure
        obtain ⟨us, rfl, hus⟩ := sound_columnDefinitions _ _ _ hcolumns
        cases (expect_eq_ok (by decide)).1 hexpect
        exact ⟨_, by simp, .createTable name hus⟩
      | _ => cases hread
    | keyword k =>
      cases k with
      | asName =>
        rw [List.singleton_append, creation_asName] at h
        obtain ⟨select, _, hselect, hpure⟩ := bind_apply_eq_ok.1 h
        cases hpure
        obtain ⟨us, rfl, hus⟩ := sound_selection _ _ _ hselect
        exact ⟨_, by simp, .createTableAs name hus⟩
      | _ => cases hread
    | _ => cases hread

theorem sound_insertion {s : Statement} (h : insertion ts = .ok (s, rest)) :
    ∃ us, ts = us ++ rest ∧ IsCommand (.keyword .insert :: .keyword .into :: us) s := by
  obtain ⟨table, _, htable, afterTable⟩ := bind_apply_eq_ok.1 h
  obtain ⟨_, _, hvalues, afterValues⟩ := bind_apply_eq_ok.1 afterTable
  obtain ⟨enclosed, _, hopen, afterOpen⟩ := bind_apply_eq_ok.1 afterValues
  obtain ⟨_, rfl, ⟨table⟩⟩ := sound_identifier _ _ _ htable
  cases (expect_eq_ok (by decide)).1 hvalues
  rcases (accept_eq_ok (by decide)).1 hopen with ⟨rfl, rfl⟩ | ⟨rfl, -, rfl⟩
  · obtain ⟨values, _, hliterals, hclose⟩ := bind_apply_eq_ok.1 afterOpen
    obtain ⟨_, _, hexpect, hpure⟩ := bind_apply_eq_ok.1 hclose
    cases hpure
    obtain ⟨us, rfl, hus⟩ := sound_literals _ _ _ hliterals
    cases (expect_eq_ok (by decide)).1 hexpect
    exact ⟨_, by simp, .insertEnclosed table hus⟩
  · obtain ⟨values, _, hliterals, hpure⟩ := bind_apply_eq_ok.1 afterOpen
    cases hpure
    obtain ⟨us, rfl, hus⟩ := sound_literals _ _ _ hliterals
    exact ⟨_, by simp, .insert table hus⟩

theorem sound_naming (named : String → Statement) {s : Statement}
    (h : (identifier >>= fun name => pure (named name)) ts = .ok (s, rest)) :
    ∃ name, ts = .identifier name :: rest ∧ s = named name := by
  obtain ⟨name, _, hname, hpure⟩ := bind_apply_eq_ok.1 h
  cases hpure
  obtain ⟨_, rfl, ⟨name⟩⟩ := sound_identifier _ _ _ hname
  exact ⟨name, rfl, rfl⟩

theorem command_create (ts : List Token) : command (.keyword .create :: ts) =
    (expect (.keyword .table) >>= fun _ => creation) ts := rfl

theorem command_drop (ts : List Token) : command (.keyword .drop :: ts) =
    (expect (.keyword .table) >>= fun _ => identifier >>= fun name => pure (.dropTable name)) ts :=
  rfl

theorem command_insert (ts : List Token) : command (.keyword .insert :: ts) =
    (expect (.keyword .into) >>= fun _ => insertion) ts := rfl

theorem command_select (ts : List Token) : command (.keyword .select :: ts) =
    (selection >>= fun select => pure (.select select)) (.keyword .select :: ts) := rfl

theorem sound_command : Sound command IsCommand := by
  intro ts s rest h
  cases ts with
  | nil => cases h
  | cons t ts =>
    cases t with
    | keyword k =>
      cases k with
      | create =>
        rw [command_create] at h
        obtain ⟨_, _, hexpect, hread⟩ := bind_apply_eq_ok.1 h
        cases (expect_eq_ok (by decide)).1 hexpect
        obtain ⟨us, rfl, hus⟩ := sound_creation hread
        exact ⟨_, rfl, hus⟩
      | load =>
        obtain ⟨name, rfl, rfl⟩ := sound_naming .load h
        exact ⟨_, rfl, .load name⟩
      | store =>
        obtain ⟨name, rfl, rfl⟩ := sound_naming .store h
        exact ⟨_, rfl, .store name⟩
      | drop =>
        rw [command_drop] at h
        obtain ⟨_, _, hexpect, hread⟩ := bind_apply_eq_ok.1 h
        cases (expect_eq_ok (by decide)).1 hexpect
        obtain ⟨name, rfl, rfl⟩ := sound_naming .dropTable hread
        exact ⟨_, rfl, .dropTable name⟩
      | insert =>
        rw [command_insert] at h
        obtain ⟨_, _, hexpect, hread⟩ := bind_apply_eq_ok.1 h
        cases (expect_eq_ok (by decide)).1 hexpect
        obtain ⟨us, rfl, hus⟩ := sound_insertion hread
        exact ⟨_, rfl, hus⟩
      | print =>
        obtain ⟨name, rfl, rfl⟩ := sound_naming .print h
        exact ⟨_, rfl, .print name⟩
      | select =>
        rw [command_select] at h
        obtain ⟨select, _, hselect, hpure⟩ := bind_apply_eq_ok.1 h
        cases hpure
        obtain ⟨us, hts, hus⟩ := sound_selection _ _ _ hselect
        exact ⟨us, hts, .select hus⟩
      | _ => cases h
    | _ => cases h

theorem IsLiteral.next_ne_leftParen {us : List Token} {values : List Value}
    (h : IsCommaSeparated IsLiteral us values) (rest : List Token) :
    next (us ++ rest) ≠ .symbol .leftParen := by
  cases h with
  | one h => cases h <;> nofun
  | more h _ => cases h <;> nofun

theorem complete_command : Complete command IsCommand
    [.symbol .comma, .keyword .whereRows, .keyword .andAlso] := by
  intro us s h rest ends
  have noComma : next rest ∉ [Token.symbol .comma] :=
    fun inside => ends (List.mem_cons.2 (.inl (List.mem_singleton.1 inside)))
  cases h with
  | @createTable name us attributes hus =>
    simp only [List.cons_append, List.append_assoc]
    rw [command_create, bind_of_ok (expect_cons _ _), creation_leftParen]
    refine (bind_of_ok (complete_columnDefinitions _ _ hus (_ :: rest) ?_)).trans ?_
    · rw [next_cons]
      decide
    · exact bind_of_ok (expect_cons _ rest)
  | @createTableAs name us select hus =>
    simp only [List.cons_append]
    rw [command_create, bind_of_ok (expect_cons _ _), creation_asName]
    exact bind_of_ok (complete_selection _ _ hus rest ends)
  | load name => rfl
  | store name => rfl
  | dropTable name => rfl
  | @insert table us values hus =>
    simp only [List.cons_append]
    rw [command_insert, bind_of_ok (expect_cons _ _)]
    refine (bind_of_ok (complete_identifier [_] _ (.identifier table) _ (by simp))).trans ?_
    refine (bind_of_ok (expect_cons _ _)).trans ?_
    refine (bind_of_ok (accept_of_ne (IsLiteral.next_ne_leftParen hus rest))).trans ?_
    exact bind_of_ok (complete_literals _ _ hus rest noComma)
  | @insertEnclosed table us values hus =>
    simp only [List.cons_append, List.append_assoc]
    rw [command_insert, bind_of_ok (expect_cons _ _)]
    refine (bind_of_ok (complete_identifier [_] _ (.identifier table) _ (by simp))).trans ?_
    refine (bind_of_ok (expect_cons _ _)).trans ?_
    refine (bind_of_ok (accept_cons _ _)).trans ?_
    refine (bind_of_ok (complete_literals _ _ hus (_ :: rest) ?_)).trans ?_
    · rw [next_cons]
      decide
    · exact bind_of_ok (expect_cons _ rest)
  | print name => rfl
  | select hus =>
    have hread := complete_selection _ _ hus rest ends
    cases hus <;> exact (command_select _).trans (bind_of_ok hread)

end Relational.Query

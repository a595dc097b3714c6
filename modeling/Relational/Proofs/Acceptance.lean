import Mathlib.Data.List.Basic
import Relational.Database
import Relational.Proofs.Commands
import Relational.Proofs.EndOfText

/-!
# The statements of the language are those of the grammar

A text is read as a statement if its tokens make up that statement, and in no other case.
-/
namespace Relational.Query

open Rule

def Statement.ofTokens : List Token → Except Malformation Statement := statement.readAll

theorem Statement.ofText_of_scan {text : String} {ts : List Token} (h : scan text.toList = .ok ts) :
    Statement.ofText text = Statement.ofTokens ts :=
  runOn_of_scan h

theorem Statement.ofTokens_of_isStatement {ts : List Token} {s : Statement} (h : IsStatement ts s) :
    Statement.ofTokens ts = .ok s := by
  refine readAll_eq_ok.2 ⟨[.finish], ?_, rfl⟩
  cases h with
  | plain h =>
    refine (bind_of_ok (complete_command _ _ h [.finish] (by decide))).trans ?_
    exact bind_of_ok (accept_of_ne nofun)
  | closed h =>
    refine (bind_of_ok (complete_command _ _ h [.symbol .semicolon, .finish] (by decide))).trans ?_
    exact bind_of_ok (accept_cons _ _)

theorem Ended.eq_of_next {ts : List Token} (h : Ended ts) (ends : next ts = .finish) :
    ts = [.finish] := by
  cases h with
  | finish => rfl
  | cons ht _ => exact absurd ends ht

theorem Statement.isStatement_of_ofTokens {ts : List Token} {s : Statement} (ended : Ended ts)
    (h : Statement.ofTokens ts = .ok s) : IsStatement ts s := by
  obtain ⟨rest, hread, ends⟩ := readAll_eq_ok.1 h
  -- What is left begins with `finish`, and the text has no token after that one.
  have agrees : AgreesAt [] statement statement ts := agrees_statement ts ended (Nat.le_refl _)
  have left : Ended rest := (agrees.2 s rest hread).1
  cases left.eq_of_next ends
  obtain ⟨s, middle, hs, hclose⟩ := bind_apply_eq_ok.1 hread
  obtain ⟨closed, last, haccept, hpure⟩ := bind_apply_eq_ok.1 hclose
  cases hpure
  obtain ⟨us, rfl, hus⟩ := sound_command _ _ _ hs
  rcases (accept_eq_ok (by decide)).1 haccept with ⟨rfl, rfl⟩ | ⟨rfl, -, rfl⟩
  · exact .closed hus
  · exact .plain hus

/-- What is read past the end of the text changes nothing, neither a statement nor an error. -/
theorem Statement.ofTokens_append {ts : List Token} (ended : Ended ts) (past : List Token) :
    Statement.ofTokens (ts ++ past) = Statement.ofTokens ts := by
  have agrees : AgreesAt past statement statement ts := agrees_statement ts ended (Nat.le_refl _)
  obtain ⟨same, stops⟩ := agrees
  cases hread : statement ts with
  | error e =>
    rw [hread] at same
    show (statement (ts ++ past) >>= _) = (statement ts >>= _)
    rw [same, hread]
    rfl
  | ok result =>
    rw [hread] at same
    have left := (stops _ _ hread).1
    show statement.readAll (ts ++ past) = statement.readAll ts
    rw [readAll_of_ok same, readAll_of_ok hread, left.next_append past]

/-- Of the texts that have tokens, those of the grammar are read, each as the one statement that it
is, and the others are malformed. Nothing after the end of the text plays a part. -/
theorem Statement.read_iff_isStatement {text : String} {ts : List Token}
    (h : scan text.toList = .ok ts) :
    Statement.ofText text = Statement.ofTokens ts ∧
    (∀ s, Statement.ofTokens ts = .ok s ↔ IsStatement ts s) ∧
    (∀ s s', IsStatement ts s → IsStatement ts s' → s = s') ∧
    ((∀ s, ¬ IsStatement ts s) → ∃ why, Statement.ofTokens ts = .error why ∧
      ∀ db : Database, db.execute text = db.answers (.error (.malformed why))) ∧
    ∀ past, Statement.ofTokens (ts ++ past) = Statement.ofTokens ts := by
  have ended := ended_scan h
  have reads := Statement.ofText_of_scan h
  refine ⟨reads, fun s => ⟨isStatement_of_ofTokens ended, ofTokens_of_isStatement⟩, ?_, ?_,
    ofTokens_append ended⟩
  · intro s s' hs hs'
    exact Except.ok.inj ((ofTokens_of_isStatement hs).symm.trans (ofTokens_of_isStatement hs'))
  · intro unread
    cases hread : Statement.ofTokens ts with
    | ok s => exact absurd (isStatement_of_ofTokens ended hread) (unread s)
    | error why =>
      refine ⟨why, rfl, fun db => ?_⟩
      unfold Database.execute
      rw [reads, hread]

theorem Statement.read_of_signs :
    IsStatement [.keyword .select, .symbol .leftParen, .identifier "a", .symbol .rightParen,
        .symbol .comma, .number "1", .symbol .minus, .symbol .minus, .number "2", .symbol .star,
        .identifier "b", .keyword .asName, .identifier "c", .keyword .fromTables, .identifier "t",
        .symbol .semicolon, .finish]
      (.select ⟨[.expr (.column "a") none,
        .expr (.binary (.literal (.literal "1")) .sub
          (.binary (.literal (.literal "-2")) .mul (.column "b"))) (some "c")], ["t"], []⟩) :=
  have scanned : scan "select (a), 1 - - 2*b as c from t;".toList = .ok _ := by decide +kernel
  ((Statement.read_iff_isStatement scanned).2.1 _).1 (by decide +kernel)

end Relational.Query

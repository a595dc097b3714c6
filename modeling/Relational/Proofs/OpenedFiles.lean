import Relational.Proofs.Independence

/-!
# The files that statements open

A statement opens one file at most, and only a statement that loads or stores a table does. Nothing
but the way in which names are read keeps that file where it belongs: a name has no slash in it and
begins with no point, so the file is an entry of the data directory itself, wherever that is.
-/
namespace Relational

open Query (IsName Statement)

/-- The path is that of an entry of the directory: it is the directory joined with a single name,
and leads to where the directory leads and then to the name. -/
structure DataDirectory.IsInside (d : DataDirectory) (path file : String) : Prop where
  joined : path = join d.path file
  noSlash : '/' ∉ file.toList
  proper : FileTree.IsProper file
  location : FileTree.location path = FileTree.location d.path ++ [file]

theorem DataDirectory.isInside_tablePath (d : DataDirectory) (h : '/' ∉ d.extension.toList)
    {name : String} (hname : IsName name.toList) :
    d.IsInside (d.tablePath name) (d.fileName name) where
  joined := rfl
  noSlash := FileTree.slash_notMem_fileName d h hname
  proper := FileTree.isProper_fileName d hname
  location := by
    rw [tablePath, FileTree.location_join d.path (FileTree.slash_notMem_fileName d h hname),
      FileTree.child_of_isProper _ (FileTree.isProper_fileName d hname)]

def Query.MovesTable (s name : String) : Prop :=
  Statement.ofText s = .ok (.load name) ∨ Statement.ofText s = .ok (.store name)

theorem Query.MovesTable.isName {s name : String} (h : MovesTable s name) : IsName name.toList := by
  rcases h with h | h
  · exact Statement.isName_of_ofText h name List.mem_cons_self
  · exact Statement.isName_of_ofText h name List.mem_cons_self

theorem Query.MovesTable.unique {s name other : String} (h : MovesTable s name)
    (h' : MovesTable s other) : name = other := by
  rcases h with h | h <;> rcases h' with h' | h' <;> rw [h] at h' <;> cases h' <;> rfl

namespace Database

open Query (MovesTable)

/-- A text asks for no file unless it moves a table, and then for the file of that table. -/
theorem request_execute_within (db : Database) (s : String) :
    (db.execute s).request.Within fun path =>
      ∃ name, MovesTable s name ∧ path = db.directory.tablePath name := by
  unfold execute
  cases hs : Statement.ofText s with
  | error why => trivial
  | ok statement =>
    rcases db.request_perform_cases statement with
      nothing | ⟨name, rfl, read⟩ | ⟨name, t, rfl, -, write⟩
    · dsimp only
      rw [nothing]
      trivial
    · dsimp only
      rw [read]
      exact ⟨name, .inl hs, rfl⟩
    · dsimp only
      rw [write]
      exact ⟨name, .inr hs, rfl⟩

/-- The file that a text opens, if it opens any, is the entry of the data directory that belongs to
the table, so nothing outside plays a part. Different tables have different entries. -/
theorem execute_stays_inside (db : Database) (noSlash : '/' ∉ db.directory.extension.toList)
    (s : String) :
    ((db.execute s).request.Within fun path => ∃ name, MovesTable s name ∧
      path = db.directory.tablePath name ∧
      db.directory.IsInside path (db.directory.fileName name)) ∧
    (∀ (σ : Type) (store other : FileStore σ) (files : σ),
      (∀ path file, db.directory.IsInside path file →
        store.read files path = other.read files path ∧
          ∀ content, store.write files path content = other.write files path content) →
      (db.execute s).run store files = (db.execute s).run other files) ∧
    ∀ t name other, MovesTable s name → MovesTable t other → name ≠ other →
      db.directory.tablePath name ≠ db.directory.tablePath other ∧
        FileTree.location (db.directory.tablePath name) ≠
          FileTree.location (db.directory.tablePath other) := by
  have within := db.request_execute_within s
  have inside {s name : String} (moves : MovesTable s name) :=
    db.directory.isInside_tablePath noSlash moves.isName
  refine ⟨within.mono ?_, ?_, ?_⟩
  · rintro path ⟨name, moves, rfl⟩
    exact ⟨name, moves, rfl, inside moves⟩
  · intro σ store other files same
    apply within.run_congr
    rintro path ⟨name, moves, rfl⟩
    exact same _ _ (inside moves)
  · intro t name other moves moves' ne
    have apart : FileTree.location (db.directory.tablePath name) ≠
        FileTree.location (db.directory.tablePath other) := by
      rw [(inside moves).location, (inside moves').location]
      intro same
      have file := List.singleton_inj.1 (List.append_cancel_left same)
      exact ne (db.directory.fileName_injective file)
    exact ⟨fun same => apart (congrArg FileTree.location same), apart⟩

theorem execute_stays_inside_of_parent :
    let db := fresh ⟨"..", "tbl"⟩
    (db.execute "load u_1;").request.Within
      (fun path => path = "../u_1.tbl" ∧ FileTree.location path = ["..", "u_1.tbl"]) ∧
    db.directory.tablePath "u_1" ≠ db.directory.tablePath "étés" := by
  intro db
  have loads : MovesTable "load u_1;" "u_1" := .inl (by decide +kernel)
  have stores : MovesTable "Store étés" "étés" := .inr (by decide +kernel)
  obtain ⟨within, -, apart⟩ := execute_stays_inside db (by decide) "load u_1;"
  refine ⟨within.mono ?_, (apart _ _ _ loads stores (by decide)).1⟩
  rintro path ⟨name, moves, rfl, inside⟩
  obtain rfl := moves.unique loads
  exact ⟨by decide +kernel, inside.location.trans (by decide +kernel)⟩

end Database
end Relational

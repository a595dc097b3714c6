import Relational.Proofs.FileSystem
import Relational.Proofs.Tokens
import Relational.Storage.DataDirectory

/-!
# The files of tables

Tables with different names have different paths. Statements on different tables keep out of each
other's way if these paths are different files as well, with room of their own, which a store of
files has to see to. The file tree does, whatever directory the tables are kept in.
-/
namespace Relational

open Query (IsName)

variable {σ : Type}

namespace FileStore

/-- Why the file at a path cannot be written, if it cannot. -/
def fault? (store : FileStore σ) (files : σ) (path : String) (content : Bytes) : Option FileFault :=
  match store.write files path content with
  | .ok _ => none
  | .error why => some why

/-- The files at the paths are independent of each other. Distinct paths are distinct files: a file
reads back what was written to it, and the others read as they did. Nor do the files share any room:
whether and why a file cannot be written is not changed by writing another one. -/
structure Separates (store : FileStore σ) (paths : String → Prop) : Prop where
  read_write : ∀ {files after path content}, store.write files path content = .ok after →
    store.read after path = .ok content
  read_other : ∀ {files after path content}, store.write files path content = .ok after →
    paths path → ∀ other, paths other → other ≠ path →
      store.read after other = store.read files other
  fault_write : ∀ {files after path content}, store.write files path content = .ok after →
    paths path → ∀ other, paths other → ∀ more,
      store.fault? after other more = store.fault? files other more

theorem Separates.mono {store : FileStore σ} {paths fewer : String → Prop}
    (h : store.Separates paths) (among : ∀ path, fewer path → paths path) :
    store.Separates fewer where
  read_write := h.read_write
  read_other written here other there := h.read_other written (among _ here) other (among _ there)
  fault_write written here other there := h.fault_write written (among _ here) other (among _ there)

end FileStore

section Names
variable {name : String}

theorem Query.IsName.head?_toList (h : IsName name.toList) :
    ∃ c rest, name.toList = c :: rest ∧ c ≠ '/' ∧ c ≠ '.' := by
  cases hname : name.toList with
  | nil => exact absurd hname h.nonempty
  | cons c rest =>
    obtain ⟨-, single, -, notPoint, -⟩ := h.start c (by rw [hname]; rfl)
    have notSlash : c ≠ '/' := by
      rintro rfl
      cases single
    exact ⟨c, rest, rfl, notSlash, notPoint⟩

theorem Query.IsName.slash_not_mem (h : IsName name.toList) : '/' ∉ name.toList := by
  intro inside
  have part := h.part '/' inside
  revert part
  decide +kernel

end Names

namespace DataDirectory

theorem toList_fileName (d : DataDirectory) (name : String) :
    (d.fileName name).toList = name.toList ++ '.' :: d.extension.toList := by
  simp [fileName]

theorem fileName_injective (d : DataDirectory) {name other : String}
    (h : d.fileName name = d.fileName other) : name = other := by
  have chars := congrArg String.toList h
  rw [toList_fileName, toList_fileName] at chars
  exact String.toList_inj.1 (List.append_cancel_right chars)

theorem exists_tablePath_eq (d : DataDirectory) :
    ∃ front : String, (front = "" ∨ front.toList.getLast? = some '/') ∧
      ∀ name, IsName name.toList → d.tablePath name = front ++ d.fileName name := by
  by_cases empty : d.path = ""
  · refine ⟨"", .inl rfl, fun name _ => ?_⟩
    rw [tablePath, join, if_pos (.inr empty), String.empty_append]
  · have relative {name : String} (h : IsName name.toList) :
        ¬ ((d.fileName name).toList.head? = some '/' ∨ d.path = "") := by
      obtain ⟨c, rest, hname, notSlash, -⟩ := h.head?_toList
      simp [toList_fileName, hname, notSlash, empty]
    by_cases slash : d.path.toList.getLast? = some '/'
    · refine ⟨d.path, .inr slash, fun name h => ?_⟩
      rw [tablePath, join, if_neg (relative h), if_pos slash]
    · refine ⟨d.path ++ "/", .inr ?_, fun name h => ?_⟩
      · simp
      · rw [tablePath, join, if_neg (relative h), if_neg slash]

theorem tablePath_injective (d : DataDirectory) {name other : String} (h : IsName name.toList)
    (h' : IsName other.toList) (same : d.tablePath name = d.tablePath other) : name = other := by
  obtain ⟨front, -, eq⟩ := d.exists_tablePath_eq
  rw [eq name h, eq other h'] at same
  exact d.fileName_injective (String.append_right_inj front |>.1 same)

end DataDirectory

namespace FileTree

variable {t u : FileTree} {k l : Location} {path file : String} {content : Bytes}

theorem follow_append (t : FileTree) (k : Location) (names others : List String) :
    t.follow k (names ++ others) = t.follow k names >>= fun l => t.follow l others := by
  induction names generalizing k with
  | nil => rfl
  | cons name rest ih =>
    rw [List.cons_append, follow, follow]
    split
    · rfl
    · rfl
    · exact ih (k.child name)

/-- A name that stands for an entry of the directory that it is in. -/
def IsProper (file : String) : Prop := file ≠ "" ∧ file ≠ "." ∧ file ≠ ".."

theorem child_of_isProper (l : Location) (h : IsProper file) : l.child file = l ++ [file] := by
  rw [Location.child, if_neg (not_or.2 ⟨h.1, h.2.1⟩), if_neg h.2.2]

/-- If a path can be followed to a file then the way there has directories only, and leads to every
other file of the same directory. -/
theorem follow_sibling {names : List String} (h : t.follow k (names ++ [file]) = .ok l) :
    ∃ base, ∀ other, t.follow k (names ++ [other]) = .ok (Location.child base other) := by
  rw [follow_append] at h
  obtain ⟨base, hbase, h⟩ := bind_eq_ok.1 h
  refine ⟨base, fun other => ?_⟩
  rw [follow_append]
  refine bind_eq_ok.2 ⟨base, hbase, ?_⟩
  rw [follow] at h ⊢
  split at h
  · cases h
  · cases h
  · rfl

/-- A path that leads to a file through a directory. -/
structure IsFileIn (directory : Location × List String) (path file : String) : Prop where
  components : components path = (directory.1, directory.2 ++ [file])
  proper : IsProper file

namespace IsFileIn

variable {directory : Location × List String} {other otherFile : String}

theorem location_eq (h : IsFileIn directory path file) :
    location path = directory.2.foldl Location.child directory.1 ++ [file] := by
  rw [location, h.components, List.foldl_append, List.foldl_cons, List.foldl_nil,
    child_of_isProper _ h.proper]

theorem follow_of_write (h : IsFileIn directory path file)
    (h' : IsFileIn directory other otherFile) (written : t.write path content = .ok u) :
    t.follow (FileTree.components other).1 (FileTree.components other).2 =
      .ok (location other) := by
  have here := (write_eq_ok written).1
  rw [h.components] at here
  obtain ⟨base, follows⟩ := follow_sibling here
  have there := follows otherFile
  rw [follow_eq_foldl there] at there
  rw [location, h'.components]
  exact there

theorem fault?_eq (h : IsFileIn directory path file) (content : Bytes)
    (follows : t.follow (FileTree.components path).1 (FileTree.components path).2 =
      .ok (location path)) :
    store.fault? t path content =
      if t.find? (location path) = some .directory then some .isADirectory else none := by
  have last : (file == "") = false := beq_eq_false_iff_ne.2 h.proper.1
  have named : ((directory.2 ++ [file]).reverse.dropWhile (· == "")).reverse =
      directory.2 ++ [file] := by
    simp [last]
  rw [h.components] at follows
  simp only [FileStore.fault?, store, write, h.components, named, follows, bind, Except.bind,
    lt_irrefl, if_false]
  generalize t.find? (location path) = found
  rcases found with _ | _ | _ <;> rfl

end IsFileIn

theorem components_injective {path other : String} (h : components path = components other) :
    path = other := by
  have names : (path.toList.splitOn '/').map String.ofList =
      (other.toList.splitOn '/').map String.ofList := by
    have second := congrArg Prod.snd h
    unfold components at second
    split at second <;> split at second <;> exact second
  have split := List.map_injective_iff.2 (fun _ _ => String.ofList_inj.1) names
  have whole (s : String) : ['/'].intercalate (s.toList.splitOn '/') = s.toList :=
    List.intercalate_splitOn '/'
  rw [← String.toList_inj, ← whole path, split, whole other]

/-- The files of one directory are told apart by their paths. -/
theorem separates_files (directory : Location × List String) :
    store.Separates fun path => ∃ file, IsFileIn directory path file where
  read_write := read_write
  read_other := by
    rintro t u path content written ⟨file, h⟩ other ⟨otherFile, h'⟩ ne
    have follows := h.follow_of_write h' written
    have follows' := follow_congr (directory_write written) follows
    have apart : location other ≠ location path := by
      intro same
      rw [h.location_eq, h'.location_eq] at same
      have file_eq : otherFile = file := List.singleton_inj.1 (List.append_cancel_left same)
      exact ne (components_injective (by rw [h.components, h'.components, file_eq]))
    have found : u.find? (location other) = t.find? (location other) := by
      rw [find?_write written, if_neg apart]
    simp only [store, read, follows, follows', found, bind, Except.bind]
  fault_write := by
    rintro t u path content written ⟨file, h⟩ other ⟨otherFile, h'⟩ more
    have follows := h.follow_of_write h' written
    have follows' := follow_congr (directory_write written) follows
    have same := directory_write written (location other)
    rw [h'.fault?_eq more follows, h'.fault?_eq more follows']
    simp only [same]

theorem exists_eq_append_slash {front : String} (h : front.toList.getLast? = some '/') :
    ∃ way : String, front = way ++ "/" := by
  obtain ⟨way, chars⟩ := List.getLast?_eq_some_iff.1 h
  refine ⟨String.ofList way, String.toList_injective ?_⟩
  rw [chars, String.toList_append, String.toList_ofList]
  rfl

/-- The names on a path with a slash before its last one. -/
theorem components_slash (way : String) {file : String} (plain : '/' ∉ file.toList) :
    components (way ++ "/" ++ file) =
      (if (way.toList ++ ['/']).head? = some '/' then ["/"] else [],
        (way.toList.splitOn '/').map String.ofList ++ [file]) := by
  have chars : (way ++ "/" ++ file).toList = way.toList ++ '/' :: file.toList := by simp
  have starts : (way.toList ++ '/' :: file.toList).head? = (way.toList ++ ['/']).head? := by
    cases way.toList <;> rfl
  have names : (way.toList ++ '/' :: file.toList).splitOn '/' =
      way.toList.splitOn '/' ++ [file.toList] := by
    rw [List.splitOn_append_cons_self, List.splitOn_eq_singleton plain]
  rw [components, chars, starts, names]
  split <;> simp

theorem location_slash (way : String) {file : String} (plain : '/' ∉ file.toList) :
    location (way ++ "/" ++ file) = (location (way ++ "/")).child file := by
  have ended : location (way ++ "/") = location (way ++ "/" ++ "") := by rw [String.append_empty]
  have plainEnd : '/' ∉ "".toList := by simp
  rw [ended, location, location, components_slash way plain, components_slash way plainEnd]
  simp [Location.child]

/-- A slash at the end of a path does not matter, but the path of the root is not empty. -/
theorem location_append_slash {path : String} (h : path ≠ "") :
    location (path ++ "/") = location path := by
  have plain : '/' ∉ "".toList := by simp
  have ended := components_slash path plain
  rw [String.append_empty] at ended
  have starts : (path.toList ++ ['/']).head? = path.toList.head? := by
    cases chars : path.toList with
    | nil => exact absurd (String.toList_inj.1 chars) h
    | cons c cs => rfl
  rw [location, location, ended, starts, components]
  split <;> simp [Location.child]

theorem location_join (directory : String) {file : String} (plain : '/' ∉ file.toList) :
    location (DataDirectory.join directory file) = (location directory).child file := by
  have relative : file.toList.head? ≠ some '/' := fun starts => plain (List.mem_of_mem_head? starts)
  by_cases empty : directory = ""
  · subst empty
    rw [DataDirectory.join, if_pos (.inr rfl), location, components, if_neg relative,
      List.splitOn_eq_singleton plain]
    simp [location, components, Location.child]
  · rw [DataDirectory.join, if_neg (not_or.2 ⟨relative, empty⟩)]
    by_cases slash : directory.toList.getLast? = some '/'
    · obtain ⟨way, rfl⟩ := exists_eq_append_slash slash
      rw [if_pos slash, location_slash way plain]
    · rw [if_neg slash, location_slash _ plain, location_append_slash empty]

theorem exists_isFileIn {front : String} (h : front = "" ∨ front.toList.getLast? = some '/') :
    ∃ directory, ∀ file, IsProper file → '/' ∉ file.toList →
      IsFileIn directory (front ++ file) file := by
  rcases h with rfl | slash
  · refine ⟨([], []), fun file proper plain => ⟨?_, proper⟩⟩
    have relative : file.toList.head? ≠ some '/' := by
      intro starts
      exact plain (List.mem_of_mem_head? starts)
    rw [String.empty_append, components, if_neg relative, List.splitOn_eq_singleton plain]
    simp
  · obtain ⟨way, rfl⟩ := exists_eq_append_slash slash
    exact ⟨(_, _), fun file proper plain => ⟨components_slash way plain, proper⟩⟩

theorem isProper_fileName (d : DataDirectory) {name : String} (h : IsName name.toList) :
    IsProper (d.fileName name) := by
  obtain ⟨c, rest, hname, -, notPoint⟩ := h.head?_toList
  have starts : (d.fileName name).toList = c :: (rest ++ '.' :: d.extension.toList) := by
    rw [d.toList_fileName, hname, List.cons_append]
  refine ⟨?_, ?_, ?_⟩ <;> intro same <;> rw [same] at starts
  · cases starts
  · exact notPoint (List.cons.inj starts).1.symm
  · exact notPoint (List.cons.inj starts).1.symm

theorem slash_notMem_fileName (d : DataDirectory) (h : '/' ∉ d.extension.toList) {name : String}
    (hname : IsName name.toList) : '/' ∉ (d.fileName name).toList := by
  have inName := hname.slash_not_mem
  simp [d.toList_fileName, inName, h]

/-- Tables of different names have files that keep apart, in any directory. -/
theorem separates_tablePaths (d : DataDirectory) (h : '/' ∉ d.extension.toList) :
    store.Separates fun path => ∃ name, IsName name.toList ∧ path = d.tablePath name := by
  obtain ⟨front, ends, eq⟩ := d.exists_tablePath_eq
  obtain ⟨directory, isFileIn⟩ := exists_isFileIn ends
  apply (separates_files directory).mono
  rintro _ ⟨name, hname, rfl⟩
  refine ⟨d.fileName name, ?_⟩
  rw [eq name hname]
  exact isFileIn _ (isProper_fileName d hname) (slash_notMem_fileName d h hname)

end FileTree
end Relational

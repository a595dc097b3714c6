import Relational.Proofs.Runs
import Relational.Proofs.TableFiles

/-!
# What steps ask of the files

A step makes one request at most, and how it comes out depends on the answer to that request alone.
Requests that do not meet in a file can be made in either order.
-/
namespace Relational

variable {σ : Type} {store : FileStore σ}

/-- What a step asks of the files. -/
inductive Request where
  | nothing
  | read (path : String)
  | write (path : String) (content : Bytes)

def Step.request : Step → Request
  | .done _ _ => .nothing
  | .reading path _ => .read path
  | .writing path content _ => .write path content

namespace Request

def found (store : FileStore σ) (files : σ) : Request → Except FileFault Bytes
  | .read path => store.read files path
  | _ => .error .noSuchFile

def written (store : FileStore σ) (files : σ) : Request → Except FileFault Unit
  | .write path content =>
    match store.fault? files path content with
    | some why => .error why
    | none => .ok ()
  | _ => .ok ()

def after (store : FileStore σ) (files : σ) : Request → σ
  | .write path content =>
    match store.write files path content with
    | .ok files => files
    | .error _ => files
  | _ => files

end Request

/-- A step comes out as its request is answered. -/
theorem Step.run_eq_settle (s : Step) (files : σ) :
    s.run store files =
      ((s.settle (s.request.found store files) (s.request.written store files)).1,
        (s.settle (s.request.found store files) (s.request.written store files)).2,
        s.request.after store files) := by
  cases s with
  | done answer db => rfl
  | reading path next => rfl
  | writing path content next =>
    simp only [Step.run, Step.request, Step.settle, Request.written, Request.after,
      FileStore.fault?]
    cases store.write files path content <;> rfl

namespace Request

/-- A request for a path among `paths`, if for any. -/
def Within (paths : String → Prop) : Request → Prop
  | .nothing => True
  | .read path | .write path _ => paths path

/-- Neither request reads a file that the other one writes, and both do not write different things
to one file. -/
def Apart : Request → Request → Prop
  | .write path _, .read other | .read path, .write other _ => path ≠ other
  | .write path content, .write other more => path = other → content = more
  | _, _ => True

theorem Apart.symm {r q : Request} (h : r.Apart q) : q.Apart r := by
  cases r <;> cases q <;> simp only [Apart] at h ⊢
  · exact h.symm
  · exact h.symm
  · exact fun same => (h same.symm).symm

variable {paths : String → Prop} {r q : Request} {files : σ} {path : String} {content : Bytes}

theorem Within.mono {more : String → Prop} (h : r.Within paths)
    (among : ∀ path, paths path → more path) : r.Within more := by
  cases r with
  | nothing => trivial
  | read path => exact among path h
  | write path _ => exact among path h

/-- A step comes out alike in stores that are the same at the path that it asks for. -/
theorem Within.run_congr {s : Step} {other : FileStore σ} (h : s.request.Within paths)
    (same : ∀ path, paths path → store.read files path = other.read files path ∧
      ∀ content, store.write files path content = other.write files path content) :
    s.run store files = s.run other files := by
  cases s with
  | done answer db => rfl
  | reading path next => simp only [Step.run, (same path h).1]
  | writing path content next => simp only [Step.run, (same path h).2 content]

theorem after_write_of_ok {now : σ} (h : store.write files path content = .ok now) :
    (write path content).after store files = now := by
  simp only [after, h]

theorem after_write_of_error {why : FileFault} (h : store.write files path content = .error why) :
    (write path content).after store files = files := by
  simp only [after, h]

theorem fault?_after (keeps : store.Separates paths) (within : r.Within paths) (h : paths path)
    (content : Bytes) :
    store.fault? (r.after store files) path content = store.fault? files path content := by
  cases r with
  | nothing => rfl
  | read _ => rfl
  | write other more =>
    cases hwrite : store.write files other more with
    | error why => rw [after_write_of_error hwrite]
    | ok now => rw [after_write_of_ok hwrite, keeps.fault_write hwrite within path h content]

theorem written_after (keeps : store.Separates paths) (hr : r.Within paths) (hq : q.Within paths) :
    q.written store (r.after store files) = q.written store files := by
  cases q with
  | nothing => rfl
  | read _ => rfl
  | write path content => simp only [written, fault?_after keeps hr hq]

theorem found_after (keeps : store.Separates paths) (hr : r.Within paths) (hq : q.Within paths)
    (apart : r.Apart q) : q.found store (r.after store files) = q.found store files := by
  cases q with
  | nothing => rfl
  | write _ _ => rfl
  | read path =>
    cases r with
    | nothing => rfl
    | read _ => rfl
    | write other content =>
      cases hwrite : store.write files other content with
      | error why => rw [after_write_of_error hwrite]
      | ok now =>
        rw [after_write_of_ok hwrite]
        exact keeps.read_other hwrite hr path hq (Ne.symm apart)

theorem read_after_write (keeps : store.Separates paths) {other : String} (hpath : paths path)
    (hother : paths other) :
    store.read ((write path content).after store files) other =
      if other = path ∧ store.fault? files path content = none then .ok content
      else store.read files other := by
  cases hwrite : store.write files path content with
  | error why => simp [after_write_of_error hwrite, FileStore.fault?, hwrite]
  | ok now =>
    rw [after_write_of_ok hwrite]
    by_cases same : other = path
    · subst same
      simp [keeps.read_write hwrite, FileStore.fault?, hwrite]
    · simp [same, keeps.read_other hwrite hpath other hother same]

/-- Requests that are apart leave the same files in either order. -/
theorem read_after_comm (keeps : store.Separates paths) (hr : r.Within paths) (hq : q.Within paths)
    (apart : r.Apart q) (h : paths path) :
    store.read (q.after store (r.after store files)) path =
      store.read (r.after store (q.after store files)) path := by
  cases r with
  | nothing => rfl
  | read _ => rfl
  | write first content =>
    cases q with
    | nothing => rfl
    | read _ => rfl
    | write second more =>
      rw [read_after_write keeps hq h, read_after_write keeps hr h, read_after_write keeps hr h,
        read_after_write keeps hq h, fault?_after keeps hr hq, fault?_after keeps hq hr]
      by_cases same : first = second
      · obtain rfl : content = more := apart same
        rw [same]
      · by_cases there : path = second
        · have elsewhere : path ≠ first := fun here => same (here.symm.trans there)
          simp [elsewhere]
        · simp [there]

end Request
end Relational

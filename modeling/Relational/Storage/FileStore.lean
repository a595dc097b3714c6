import Relational.Error
import Relational.Storage.Lines

/-!
# File stores

What the database asks of a place that keeps files: to read the file at a path, and to write one. A
fault leaves all files as they are.
-/
namespace Relational

structure FileStore (σ : Type) where
  read : σ → String → Except FileFault Bytes
  write : σ → String → Bytes → Except FileFault σ

end Relational

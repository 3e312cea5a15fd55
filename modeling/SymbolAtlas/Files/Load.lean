import SymbolAtlas.Files.Host
import SymbolAtlas.Source.FileSet

set_option autoImplicit false

/-! # Loading files -/

namespace SymbolAtlas.FileSet

/-- Reads the file at a path into a file set. A file that cannot be read leaves the set as it is. -/
def load {m : Type → Type} [Monad m] [Host m] (fs : FileSet) (path : String) :
    m (Except FileError UInt32 × FileSet) := do
  match ← Host.readFile path with
  | .error e => return (.error e, fs)
  | .ok bytes =>
    let (id, fs) := fs.addRead path bytes
    return (.ok id, fs)

end SymbolAtlas.FileSet

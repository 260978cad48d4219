import GhciRelay.Diagnostic.Basic
import GhciRelay.OrderedMap

/-!
# The index of diagnostics

The diagnostics of every tracked file, files and diagnostics both in the order in which they were
first seen. A diagnostic is never taken back alone: the compiler only says that it compiles a file
again, and then the whole file is cleared. A cleared file is still tracked, and keeps its place,
until it is evicted.
-/

namespace GhciRelay

/-- **The live diagnostics** of each tracked file, known by its URI. -/
structure Index where
  files : OrderedMap String (OrderedMap Key Diagnostic)

namespace Index

/-- The index that tracks nothing. -/
def empty : Index := ⟨.empty⟩

/-- The diagnostics of a file, with their keys. -/
def diagnosticsOf (i : Index) (uri : String) : OrderedMap Key Diagnostic :=
  (i.files.get? uri).getD .empty

/-- **A diagnostic comes**, new or in place of the one with its key. -/
def upsert (i : Index) (uri : String) (key : Key) (d : Diagnostic) : Index :=
  ⟨i.files.insert uri ((i.diagnosticsOf uri).insert key d)⟩

/-- **A file is cleared**, and tracked from now on. -/
def clear (i : Index) (uri : String) : Index := ⟨i.files.insert uri .empty⟩

/-- **A file is forgotten.** -/
def evict (i : Index) (uri : String) : Index := ⟨i.files.erase uri⟩

/-- The tracked files, in order. -/
def tracked (i : Index) : List String := i.files.keys

/-- The number of tracked files. -/
def size (i : Index) : Nat := i.files.size

/-- The file is tracked. -/
def contains (i : Index) (uri : String) : Bool := i.files.contains uri

/-- The diagnostics of a file, in order; none for a file that is not tracked. -/
def snapshot (i : Index) (uri : String) : List Diagnostic := (i.diagnosticsOf uri).values

/-- The file has no diagnostics. -/
def isEmptyFile (i : Index) (uri : String) : Bool := (i.diagnosticsOf uri).isEmpty

/-- Every tracked file with its diagnostics, in order. -/
def snapshots (i : Index) : List (String × List Diagnostic) :=
  i.files.entries.map fun e => (e.1, e.2.values)

/-- The files that have diagnostics. -/
def prune (i : Index) : Index := ⟨i.files.filter fun _ ds => !ds.isEmpty⟩

/-- Every tracked file is cleared. -/
def clearAll (i : Index) : Index := i.tracked.foldl clear i

end Index

end GhciRelay

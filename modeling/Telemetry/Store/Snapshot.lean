import Telemetry.FileTree
import Telemetry.Metric.Document

/-!
# Snapshot files

A snapshot is a file with the list of all metrics. It is replaced as a whole: the new
list is written beside it and then renamed over it. A file that is missing or empty
holds no metrics, and a metric that is not valid is passed over.
-/

namespace Telemetry.Snapshot

/-- The metrics in a snapshot file. -/
def load (files : FileTree) (path : String) : Except Fault (List Metric) :=
  if !files.exists? path then .ok []
  else
    match files.read path with
    | .error cause => .error (.file cause)
    | .ok [] => .ok []
    | .ok content =>
      (Metric.parseList content).map fun ms => ms.filter fun m => m.violation?.isNone

/-- Where a new snapshot is written before it takes its place. -/
def draftPath (path : String) : String := path ++ ".tmp"

/-- The changes that put a snapshot into its place. -/
def changes (files : FileTree) (path : String) (metrics : List Metric) :
    List FileTree.Change :=
  let directories :=
    match FileTree.parent? path with
    | some parent =>
      if files.exists? parent then [] else [FileTree.Change.createDirectories parent]
    | none => []
  directories ++
    [.write (draftPath path) (Metric.listDocumentBytes metrics), .rename (draftPath path) path]

/-- The files after a snapshot is saved, and whether it was. -/
def save (files : FileTree) (path : String) (metrics : List Metric) :
    FileTree × Except Fault Unit :=
  let (files, result) := files.applyAll (changes files path metrics)
  (files, result.mapError .file)

/-- The changes that bring a snapshot file from what it was to what it is. -/
def difference (path : String) (before after : FileTree) : List FileTree.Change :=
  let content (files : FileTree) : Option Bytes := (files.read path).toOption
  match content after with
  | none => []
  | some bytes =>
    if content before = some bytes then []
    else
      (FileTree.parent? path).toList.map FileTree.Change.createDirectories ++
        [.write (draftPath path) bytes, .rename (draftPath path) path]

end Telemetry.Snapshot

import Telemetry.Proofs.Fallible
import Telemetry.Proofs.Lookup
import Telemetry.Store.Snapshot

/-!
# What a snapshot file holds

A file that was written reads as what was written, and a file that was renamed as what it was
under its old name (`FileTree.read_of_write`, `FileTree.read_of_rename`). So the changes that save
a snapshot, if all of them are made, leave a file that reads as the snapshot, whatever was made
beside and before (`Snapshot.Stage.apply`).
-/

namespace Telemetry

open Fallible (bind_eq_ok_iff)

namespace FileTree

/-! ## Places before and after a change -/

theorem node?_nil (t : FileTree) : t.node? [] = some .directory := rfl

theorem node?_of_ne_nil {p : Place} (h : p ≠ []) (t : FileTree) :
    t.node? p = t.nodes.lookup p := by
  unfold node?
  rw [if_neg (by simpa using h)]

theorem node?_put_self {p : Place} (h : p ≠ []) (t : FileTree) (n : FileNode) :
    (t.put p n).node? p = some n := by
  rw [node?_of_ne_nil h]
  unfold put
  rw [List.lookup_cons_self]

theorem node?_put_of_ne {p q : Place} (h : p ≠ q) (t : FileTree) (n : FileNode) :
    (t.put q n).node? p = t.node? p := by
  unfold node? put
  dsimp only
  rw [List.lookup_cons, beq_false_of_ne h, lookup_filter (p := (· ≠ q)) (by simpa using h)]

theorem node?_erase_of_ne {p q : Place} (h : p ≠ q) (t : FileTree) :
    (t.erase q).node? p = t.node? p := by
  unfold node? erase
  dsimp only
  rw [lookup_filter (p := (· ≠ q)) (by simpa using h)]

theorem node?_erase_self {p : Place} (h : p ≠ []) (t : FileTree) : (t.erase p).node? p = none := by
  rw [node?_of_ne_nil h]
  unfold erase
  exact lookup_filter_eq_none (p := (· ≠ p)) (by simp) t.nodes

/-- A path leads to the same place as long as the directories are there. -/
theorem walk_of_directories {t t' : FileTree}
    (h : ∀ p, t.node? p = some .directory → t'.node? p = some .directory) {ps : List String}
    {here p : Place} (hwalk : t.walk here ps = .ok p) : t'.walk here ps = .ok p := by
  induction ps generalizing here with
  | nil => exact hwalk
  | cons s rest ih =>
    unfold walk at hwalk ⊢
    cases hhere : t.node? here with
    | none =>
      rw [hhere] at hwalk
      cases hwalk
    | some n =>
      cases n with
      | file content =>
        rw [hhere] at hwalk
        cases hwalk
      | directory =>
        rw [hhere] at hwalk
        rw [h here hhere]
        exact ih hwalk

theorem locate_eq_ok_iff {t : FileTree} {path : String} {p : Place} :
    t.locate path = .ok p ↔
      path ≠ "" ∧ t.walk [] (parts path) = .ok p ∧
        (asksDirectory path = true → ∀ content, t.node? p ≠ some (.file content)) := by
  unfold locate
  split
  next hempty => exact ⟨nofun, fun h => absurd hempty h.1⟩
  next hempty =>
    rw [bind_eq_ok_iff]
    constructor
    · rintro ⟨q, hq, h⟩
      split at h
      next hfile =>
        split at h
        next => cases h
        next hasks =>
          cases h
          exact ⟨hempty, hq, fun hdirectory => absurd hdirectory hasks⟩
      next hnone =>
        cases h
        exact ⟨hempty, hq, fun _ content => hnone content⟩
    · rintro ⟨-, hp, hnone⟩
      refine ⟨p, hp, ?_⟩
      split
      next content hfile =>
        rw [if_neg fun hasks => hnone hasks content hfile]
        rfl
      next => rfl

/-- So it is with a path that can name a file. -/
theorem locate_of_directories {t t' : FileTree}
    (h : ∀ p, t.node? p = some .directory → t'.node? p = some .directory) {path : String}
    {p : Place} (hasks : asksDirectory path = false) (hlocate : t.locate path = .ok p) :
    t'.locate path = .ok p := by
  obtain ⟨hempty, hwalk, -⟩ := locate_eq_ok_iff.mp hlocate
  refine locate_eq_ok_iff.mpr ⟨hempty, walk_of_directories h hwalk, fun hdirectory => ?_⟩
  rw [hasks] at hdirectory
  cases hdirectory

/-! ## Files before and after a change -/

theorem read_eq_ok_iff {t : FileTree} {path : String} {content : Bytes} :
    t.read path = .ok content ↔
      ∃ p, t.locate path = .ok p ∧ t.node? p = some (.file content) := by
  unfold read
  rw [bind_eq_ok_iff]
  refine exists_congr fun p => and_congr_right fun _ => ?_
  rcases t.node? p with _ | _ | content'
  · exact ⟨nofun, nofun⟩
  · exact ⟨fun h => by cases h; rfl, fun h => by cases h; rfl⟩
  · exact ⟨nofun, nofun⟩

example : (FileTree.empty.put ["m.json"] (.file [])).read "m.json/" = .error .notDirectory := by
  decide

/-- A file is written where no directory is, and nothing else changes. -/
theorem exists_put_of_write {t t' : FileTree} {path : String} {content : Bytes}
    (h : t.apply (.write path content) = .ok t') :
    asksDirectory path = false ∧
      ∃ p, t.locate path = .ok p ∧ t.node? p ≠ some .directory ∧ t' = t.put p (.file content) := by
  obtain ⟨p, hp, h⟩ := bind_eq_ok_iff.mp h
  split at h
  next => cases h
  next hasks =>
    have hplace : t.node? p ≠ some .directory := by
      intro hdirectory
      rw [hdirectory] at h
      cases h
    refine ⟨Bool.eq_false_iff.mpr hasks, p, hp, hplace, ?_⟩
    split at h
    next => cases h
    next => exact (Except.ok.inj h).symm

/-- Where a file is put in the place of none or of another one, all directories stay. -/
theorem directory_put {t : FileTree} {p d : Place} (hplace : t.node? p ≠ some .directory)
    (hd : t.node? d = some .directory) (n : FileNode) :
    (t.put p n).node? d = some .directory := by
  rw [node?_put_of_ne _ t]
  · exact hd
  · rintro rfl
    exact hplace hd

/-- A file that was written reads as what was written. -/
theorem read_of_write {t t' : FileTree} {path : String} {content : Bytes}
    (h : t.apply (.write path content) = .ok t') : t'.read path = .ok content := by
  obtain ⟨hasks, p, hp, hplace, rfl⟩ := exists_put_of_write h
  have hnil : p ≠ [] := by
    rintro rfl
    exact hplace (node?_nil t)
  refine read_eq_ok_iff.mpr ⟨p, ?_, node?_put_self hnil t _⟩
  exact locate_of_directories (fun d hd => directory_put hplace hd _) hasks hp

/-- A file is renamed to where no directory is, and nothing else changes. -/
theorem exists_put_of_rename {t t' : FileTree} {source target : String} {content : Bytes}
    (hread : t.read source = .ok content) (h : t.apply (.rename source target) = .ok t') :
    asksDirectory target = false ∧ ∃ p q, t.node? p = some (.file content) ∧
      t.locate target = .ok q ∧ t.node? q ≠ some .directory ∧
      t' = (t.erase p).put q (.file content) := by
  obtain ⟨p, hp, hfile⟩ := read_eq_ok_iff.mp hread
  obtain ⟨p', hp', h⟩ := bind_eq_ok_iff.mp h
  rw [hp] at hp'
  cases hp'
  obtain ⟨q, hq, h⟩ := bind_eq_ok_iff.mp h
  rw [hfile] at h
  dsimp only at h
  split_ifs at h with _ hasks hplace
  exact ⟨Bool.eq_false_iff.mpr hasks, p, q, hfile, hq, hplace, (Except.ok.inj h).symm⟩

/-- Where a file takes the place of none or of another one, all directories stay. -/
theorem directory_erase_put {t : FileTree} {p q d : Place} {content : Bytes}
    (hfile : t.node? p = some (.file content)) (hplace : t.node? q ≠ some .directory)
    (hd : t.node? d = some .directory) (n : FileNode) :
    ((t.erase p).put q n).node? d = some .directory := by
  rw [node?_put_of_ne, node?_erase_of_ne]
  · exact hd
  · rintro rfl
    rw [hfile] at hd
    cases hd
  · rintro rfl
    exact hplace hd

/-- A file that was renamed reads as it did under its old name. -/
theorem read_of_rename {t t' : FileTree} {source target : String} {content : Bytes}
    (hread : t.read source = .ok content) (h : t.apply (.rename source target) = .ok t') :
    t'.read target = .ok content := by
  obtain ⟨hasks, p, q, hfile, hq, hplace, rfl⟩ := exists_put_of_rename hread h
  have hnil : q ≠ [] := by
    rintro rfl
    exact hplace (node?_nil t)
  refine read_eq_ok_iff.mpr ⟨q, ?_, node?_put_self hnil _ _⟩
  exact locate_of_directories (fun d hd => directory_erase_put hfile hplace hd _) hasks hq

end FileTree

namespace Snapshot

/-- How far the saving of a snapshot has come that reads as some bytes, by the changes that are
still to be made. -/
inductive Stage (files : FileTree) (path : String) (bytes : Bytes) : List FileTree.Change → Prop
  | directories (parent : String) :
    Stage files path bytes [.createDirectories parent, .write (draftPath path) bytes,
      .rename (draftPath path) path]
  | write : Stage files path bytes [.write (draftPath path) bytes, .rename (draftPath path) path]
  | rename (h : files.read (draftPath path) = .ok bytes) :
    Stage files path bytes [.rename (draftPath path) path]
  | done (h : files.read path = .ok bytes) : Stage files path bytes []

namespace Stage

variable {files files' : FileTree} {path : String} {bytes : Bytes}

theorem changes (files : FileTree) (path : String) (metrics : List Metric) :
    Stage files path (Metric.listDocumentBytes metrics) (Snapshot.changes files path metrics) := by
  unfold Snapshot.changes
  dsimp only
  split
  next parent _ =>
    split
    · exact .write
    · exact .directories parent
  next => exact .write

/-- A change that is made brings the saving on. -/
theorem apply {change : FileTree.Change} {rest : List FileTree.Change}
    (h : Stage files path bytes (change :: rest)) (happly : files.apply change = .ok files') :
    Stage files' path bytes rest := by
  cases h with
  | directories parent => exact .write
  | write => exact .rename (FileTree.read_of_write happly)
  | rename hread => exact .done (FileTree.read_of_rename hread happly)

end Stage

end Snapshot

end Telemetry

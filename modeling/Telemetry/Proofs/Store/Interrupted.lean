import Telemetry.Proofs.Store.Directories
import Telemetry.Proofs.Store.Restart

/-!
# A snapshot whose saving is broken off

A change to a tree of files may be broken off when part of it is done: some of the directories are
made, or a file has the beginning of its content (`FileTree.Partly`). A list of changes is broken
off within one of them (`FileTree.Stopped`). However far the saving of a snapshot has come, the file
is what it was until the last change is made, and then it is the new snapshot
(`Snapshot.save_all_or_nothing`).

A path that leads up from a directory that is missing is an exception. It is one of no file at
first, and may be one of another file once the directory is made
(`Snapshot.save_reveals_other_file`).
-/

namespace Telemetry

namespace FileTree

/-! ## Changes that are broken off -/

/-- What a change that is broken off has made of a tree. -/
inductive Partly (t : FileTree) : Change → FileTree → Prop
  /-- nothing is done yet, as always with a file that is renamed -/
  | unbegun (c : Change) : Partly t c t
  /-- the first ones of some directories are made -/
  | directories {path : String} {k : Nat} {t' : FileTree}
    (h : t.createAlong [] ((parts path).take k) = .ok t') : Partly t (.createDirectories path) t'
  /-- a file has the beginning of its content, which may be nothing -/
  | write {path : String} {content : Bytes} {k : Nat} {t' : FileTree}
    (h : t.apply (.write path (content.take k)) = .ok t') : Partly t (.write path content) t'

/-- What changes that are broken off have made of a tree, and which of them are not done. -/
inductive Stopped : FileTree → List Change → List Change → FileTree → Prop
  | within {t t' : FileTree} {c : Change} (rest : List Change) (h : t.Partly c t') :
    Stopped t (c :: rest) (c :: rest) t'
  | after {t t₁ t' : FileTree} {c : Change} {rest left : List Change} (h : t.apply c = .ok t₁)
    (hrest : Stopped t₁ rest left t') : Stopped t (c :: rest) left t'
  | done (t : FileTree) : Stopped t [] [] t

/-- Changes that end, well or not, are among those that are broken off. -/
theorem exists_stopped_applyAll (t : FileTree) (changes : List Change) :
    ∃ left, t.Stopped changes left (t.applyAll changes).1 ∧
      ((t.applyAll changes).2 = .ok () ↔ left = []) := by
  induction changes generalizing t with
  | nil => exact ⟨[], .done t, iff_of_true rfl rfl⟩
  | cons c rest ih =>
    unfold applyAll
    cases h : t.apply c with
    | error cause =>
      refine ⟨c :: rest, .within rest (.unbegun c), iff_of_false ?_ (List.cons_ne_nil c rest)⟩
      intro hok
      cases hok
    | ok t₁ =>
      obtain ⟨left, hleft, hok⟩ := ih t₁
      exact ⟨left, .after h hleft, hok⟩

/-- When none is left they are all made. -/
theorem applyAll_of_stopped {t t' : FileTree} {changes : List Change}
    (h : t.Stopped changes [] t') : t.applyAll changes = (t', .ok ()) := by
  generalize hleft : ([] : List Change) = left at h
  induction h with
  | within rest h => cases hleft
  | after h hrest ih =>
    unfold applyAll
    rw [h]
    exact ih hleft
  | done t => rfl

end FileTree

namespace Snapshot

open FileTree

/-! ## What is loaded -/

/-- What is loaded from what is found at a path. -/
def loaded : Option FileNode → Except Fault (List Metric)
  | none => .ok []
  | some .directory => .error (.file .isDirectory)
  | some (.file []) => .ok []
  | some (.file content) =>
    (Metric.parseList content).map fun ms => ms.filter fun m => m.violation?.isNone

theorem load_eq_loaded (files : FileTree) (path : String) :
    load files path = loaded (files.nodeAt? path) := by
  unfold load exists? FileTree.read nodeAt?
  cases files.locate path with
  | error cause => rfl
  | ok p =>
    rcases hnode : files.node? p with _ | (_ | ⟨b, bs⟩) | _ <;>
      simp only [bind, Except.bind, Except.toOption, Option.bind, hnode] <;> rfl

/-! ## How far a saving has come -/

/-- Whether what is found at the path of a snapshot is what was found there, if the path does not
lead up from a directory that was missing. -/
structure AsBefore (files files' : FileTree) (path : String) : Prop where
  connected : files'.Connected
  node : files.Straight [] (parts path) → files'.nodeAt? path = files.nodeAt? path

section

variable {files files₁ files' : FileTree} {path : String} {bytes : Bytes}
  {left : List FileTree.Change}

/-- The directories above a snapshot are made, or some of them. -/
theorem asBefore_of_directories (hfiles : files.Connected) {parent : String}
    (hparent : parent? path = some parent)
    (h : files.Partly (.createDirectories parent) files') : AsBefore files files' path := by
  cases h with
  | unbegun => exact ⟨hfiles, fun _ => rfl⟩
  | @directories _ k _ h =>
    refine ⟨hfiles.createAlong files.parent_root h, fun hpath => ?_⟩
    rw [parts_parent hparent] at h
    by_cases hnil : parts path = []
    · -- the root is always there
      rw [hnil, List.dropLast_nil, List.take_nil] at h
      cases h
      rfl
    · refine nodeAt?_congr ?_
      have htaken : (parts path).dropLast.take k <+: (parts path).dropLast := List.take_prefix _ _
      refine found?_createAlong hfiles files.parent_root hpath
        (htaken.trans (List.dropLast_prefix _)) (fun heq => ?_) h
      -- the last part of the path is not among the directories
      have hlength := heq ▸ htaken.length_le
      rw [List.length_dropLast] at hlength
      have hpos := List.length_pos_of_ne_nil hnil
      omega

/-- The draft is written, or some of it. -/
theorem AsBefore.write (h : AsBefore files files₁ path)
    (hwrite : files₁.apply (.write (draftPath path) bytes) = .ok files') :
    AsBefore files files' path := by
  obtain ⟨-, q, hq, hplace, hput⟩ := exists_put_of_write hwrite
  refine ⟨?_, fun hpath => ?_⟩
  · rw [hput]
    have hwalk := (locate_eq_ok_iff.mp hq).2.1
    exact h.connected.put hplace (h.connected.parent_walk files₁.parent_root hwalk) _
  · rw [← h.node hpath]
    unfold nodeAt?
    rcases locate_of_write_draft hwrite with rfl | ⟨p, hp, hp', hnode⟩
    · rw [locate_empty, locate_empty]
      rfl
    · rw [hp, hp']
      exact hnode

theorem AsBefore.partly_write (h : AsBefore files files₁ path)
    (hwrite : files₁.Partly (.write (draftPath path) bytes) files') :
    AsBefore files files' path := by
  cases hwrite with
  | unbegun => exact h
  | write hwrite => exact h.write hwrite

/-- A tree stays connected when a file is renamed in it. -/
theorem connected_of_rename (hfiles : files.Connected) {source target : String}
    (hread : files.read source = .ok bytes)
    (h : files.apply (.rename source target) = .ok files') : files'.Connected := by
  obtain ⟨-, p, q, hfile, hq, hplace, rfl⟩ := exists_put_of_rename hread h
  intro r n hr
  refine directory_erase_put hfile hplace ?_ _
  by_cases hrq : r = q
  · rw [hrq]
    exact hfiles.parent_walk files.parent_root (locate_eq_ok_iff.mp hq).2.1
  · rw [node?_put_of_ne hrq] at hr
    by_cases hrp : r = p
    · have hnil : p ≠ [] := by
        rintro rfl
        cases hfile
      rw [hrp, node?_erase_self hnil] at hr
      cases hr
    · rw [node?_erase_of_ne hrp] at hr
      exact hfiles r n hr

/-- Whether the file is what it was as long as some change is left, and the new snapshot then. -/
structure AllOrNothing (files files' : FileTree) (path : String) (bytes : Bytes)
    (left : List FileTree.Change) : Prop where
  connected : files'.Connected
  before : left ≠ [] → files.Straight [] (parts path) → files'.nodeAt? path = files.nodeAt? path
  after : left = [] → files'.nodeAt? path = some (.file bytes)

theorem AsBefore.allOrNothing (h : AsBefore files files' path) (hleft : left ≠ []) :
    AllOrNothing files files' path bytes left :=
  ⟨h.connected, fun _ => h.node, fun hnil => absurd hnil hleft⟩

/-- The draft is written and renamed, as far as it goes. -/
theorem AsBefore.stopped (h : AsBefore files files₁ path)
    (hstopped : files₁.Stopped
      [.write (draftPath path) bytes, .rename (draftPath path) path] left files') :
    AllOrNothing files files' path bytes left := by
  cases hstopped with
  | within rest hpartly => exact (h.partly_write hpartly).allOrNothing (List.cons_ne_nil _ _)
  | after hwrite hrest =>
    have hwritten := h.write hwrite
    have hdraft := read_of_write hwrite
    cases hrest with
    | within rest hpartly =>
      cases hpartly with
      | unbegun => exact hwritten.allOrNothing (List.cons_ne_nil _ _)
    | after hrename hdone =>
      cases hdone with
      | done =>
        refine ⟨connected_of_rename hwritten.connected hdraft hrename, fun hne => absurd rfl hne,
          fun _ => ?_⟩
        exact read_eq_ok_iff_nodeAt.mp (read_of_rename hdraft hrename)

/-- A saving that is broken off, in whatever state it is. -/
theorem allOrNothing_of_stopped (hfiles : files.Connected) {metrics : List Metric}
    (h : files.Stopped (changes files path metrics) left files') :
    AllOrNothing files files' path (Metric.listDocumentBytes metrics) left := by
  have hrefl : AsBefore files files path := ⟨hfiles, fun _ => rfl⟩
  unfold changes at h
  dsimp only at h
  split at h
  next parent hparent =>
    split at h
    · exact hrefl.stopped h
    · cases h with
      | within rest hpartly =>
        exact (asBefore_of_directories hfiles hparent hpartly).allOrNothing (List.cons_ne_nil _ _)
      | after hmade hrest =>
        refine (asBefore_of_directories hfiles hparent ?_).stopped hrest
        exact .directories (k := (parts parent).length) (by rw [List.take_length]; exact hmade)
  next => exact hrefl.stopped h

end

/-- **Saving a snapshot is all or nothing.** Wherever the changes that put it into its place are
broken off, before one of them, within it or behind the last one, there is at the path what was
there before, and the same is loaded from it, as long as a change is left, unless nothing was there
and the path leads up from a directory that was missing. When none is left there is the new
snapshot, and what is loaded are those of its metrics that are valid when they are read back. Saving
ends in one of these ways, and with success exactly if no change is left. -/
theorem save_all_or_nothing {files : FileTree} (hfiles : files.Connected) (path : String)
    (metrics : List Metric) :
    (∀ left files', files.Stopped (changes files path metrics) left files' →
      files'.Connected ∧
      (left ≠ [] → files.nodeAt? path ≠ none ∨ files.Straight [] (parts path) →
        files'.nodeAt? path = files.nodeAt? path ∧ load files' path = load files path) ∧
      (left = [] →
        save files path metrics = (files', .ok ()) ∧
        files'.nodeAt? path = some (.file (Metric.listDocumentBytes metrics)) ∧
        load files' path =
          .ok ((metrics.map Metric.recorded).filter fun m => m.violation?.isNone))) ∧
    ∃ left, files.Stopped (changes files path metrics) left (save files path metrics).1 ∧
      ((save files path metrics).2 = .ok () ↔ left = []) := by
  constructor
  · intro left files' h
    obtain ⟨hconnected, hbefore, hafter⟩ := allOrNothing_of_stopped hfiles h
    refine ⟨hconnected, fun hleft hpath => ?_, fun hleft => ⟨?_, hafter hleft, ?_⟩⟩
    · have hsame := hbefore hleft (hpath.elim straight_of_nodeAt? id)
      exact ⟨hsame, by rw [load_eq_loaded, load_eq_loaded, hsame]⟩
    · subst hleft
      exact (save_of_applyAll (applyAll_of_stopped h)).1
    · exact load_of_read_recorded (read_eq_ok_iff_nodeAt.mpr (hafter hleft))
  · obtain ⟨left, hleft, hok⟩ := files.exists_stopped_applyAll (changes files path metrics)
    refine ⟨left, hleft, Iff.trans ?_ hok⟩
    show (files.applyAll (changes files path metrics)).2.mapError Fault.file = .ok () ↔ _
    cases (files.applyAll (changes files path metrics)).2 with
    | error cause => exact iff_of_false nofun nofun
    | ok => exact iff_of_true rfl rfl

/-- A draft left over is replaced, and the snapshot beside it loads as before when the new draft is
broken off. -/
theorem save_all_or_nothing_of_half_draft :
    let files : FileTree :=
      ⟨[(["data"], .directory),
        (["data", "m.json"], .file (Metric.listDocumentBytes [.counter "hits" 7])),
        (["data", "m.json.tmp"], .file [0x5b])]⟩
    let path := "data/m.json"
    let metrics := [Metric.counter "hits" 12, .gauge "load" .zero]
    let half := (Metric.listDocumentBytes metrics).take 9
    let files' := files.put ["data", "m.json.tmp"] (.file half)
    files.Connected ∧ files.Straight [] (parts path) ∧
      files.Stopped (changes files path metrics) (changes files path metrics) files' ∧
      load files' path = load files path := by
  intro files path metrics half files'
  have hfiles : files.Connected := .of_nodes (by decide)
  have hpath : files.Straight [] (parts path) := straight_of_not_mem (by decide) _ _
  have hchanges : changes files path metrics =
      [.write (draftPath path) (Metric.listDocumentBytes metrics),
        .rename (draftPath path) path] := by
    decide +kernel
  have hstopped :
      files.Stopped (changes files path metrics) (changes files path metrics) files' := by
    rw [hchanges]
    exact .within _ (.write (k := 9) (by decide +kernel))
  have hleft : changes files path metrics ≠ [] := hchanges ▸ List.cons_ne_nil _ _
  obtain ⟨-, hbefore, -⟩ := (save_all_or_nothing hfiles path metrics).1 _ _ hstopped
  exact ⟨hfiles, hpath, hstopped, (hbefore hleft (.inr hpath)).2⟩

/-- A path may lead up from a directory that is missing. Then it is the path of no file, and when
the directory is made, though nothing is saved, it becomes the path of another one. -/
theorem save_reveals_other_file :
    let files : FileTree :=
      ⟨[(["m.json"], .file (Metric.listDocumentBytes [.counter "hits" 7])),
        (["m.json.tmp"], .directory)]⟩
    let path := "a/../m.json"
    let metrics := [Metric.counter "hits" 5]
    files.Connected ∧ files.nodeAt? path = none ∧ load files path = .ok [] ∧
      (save files path metrics).2 = .error (.file .isDirectory) ∧
      (save files path metrics).1.nodeAt? path =
        some (.file (Metric.listDocumentBytes [.counter "hits" 7])) ∧
      load (save files path metrics).1 path = .ok [.counter "hits" 7] := by
  intro files path metrics
  have hbefore : files.nodeAt? path = none := by decide
  have hafter : (save files path metrics).1.nodeAt? path =
      some (.file (Metric.listDocumentBytes [.counter "hits" 7])) := by decide +kernel
  refine ⟨.of_nodes (by decide), hbefore, ?_, by decide +kernel, hafter, ?_⟩
  · rw [load_eq_loaded, hbefore]
    rfl
  · exact load_of_read (read_eq_ok_iff_nodeAt.mpr hafter) (by decide)

end Snapshot

end Telemetry

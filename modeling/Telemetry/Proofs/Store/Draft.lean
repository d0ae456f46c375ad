import Telemetry.Proofs.Store.Snapshot

/-!
# What saving a snapshot leaves alone

A new snapshot is written beside the old one, and until it is renamed over it the old one is what it
was (`FileTree.Untouched`): directories that are made take no file away, and the draft stands in
another place than the snapshot (`FileTree.locate_draft`).
-/

namespace Telemetry

open Fallible (bind_eq_ok_iff)

/-- What is added to a text that has no separator goes to the last of its pieces. -/
theorem Text.splitChars_append {separator : Char} {tail : List Char} (h : separator ∉ tail)
    (cs : List Char) :
    ∃ pieces last, splitChars separator cs = pieces ++ [last] ∧
      splitChars separator (cs ++ tail) = pieces ++ [last ++ tail] := by
  induction cs with
  | nil =>
    refine ⟨[], [], rfl, ?_⟩
    induction tail with
    | nil => rfl
    | cons c tail ih =>
      rw [List.mem_cons, not_or] at h
      rw [List.nil_append, splitChars, show splitChars separator tail = [tail] from ih h.2]
      exact if_neg fun heq => h.1 heq.symm
  | cons c cs ih =>
    obtain ⟨pieces, last, hcs, htail⟩ := ih
    rw [List.cons_append, splitChars, splitChars, hcs, htail]
    cases pieces with
    | nil =>
      by_cases hc : c = separator
      · exact ⟨[[]], last, by simp [hc], by simp [hc]⟩
      · exact ⟨[], c :: last, by simp [hc], by simp [hc]⟩
    | cons piece pieces =>
      by_cases hc : c = separator
      · exact ⟨[] :: piece :: pieces, last, by simp [hc], by simp [hc]⟩
      · exact ⟨(c :: piece) :: pieces, last, by simp [hc], by simp [hc]⟩

namespace FileTree

theorem walk_append (t : FileTree) (here : Place) (ps qs : List String) :
    t.walk here (ps ++ qs) = t.walk here ps >>= fun p => t.walk p qs := by
  induction ps generalizing here with
  | nil => rfl
  | cons s ps ih =>
    rw [List.cons_append, walk, walk]
    rcases t.node? here with _ | _ | _
    · rfl
    · rfl
    · exact ih _

/-- What ends in this way is no part with a meaning of its own. -/
theorem append_tmp_ne {s other : String} (h : other.length < 4) : s ++ ".tmp" ≠ other := by
  rintro rfl
  rw [String.length_append] at h
  have htmp : ".tmp".length = 4 := rfl
  omega

/-- The parts of a path and of its draft: they differ in the last one at most. Where the last one is
missing from the path, only a directory can be there. -/
theorem parts_draft (path : String) :
    ∃ ps last, parts path = ps ++ (if last ≠ "" ∧ last ≠ "." then [last] else []) ∧
      parts (Snapshot.draftPath path) = ps ++ [last ++ ".tmp"] ∧
      asksDirectory path = decide (last = "" ∨ last = ".") := by
  have htail : '/' ∉ ".tmp".toList := by decide
  obtain ⟨pieces, last, hpath, hdraft⟩ := Text.splitChars_append htail path.toList
  have hlast : String.ofList (last ++ ".tmp".toList) = String.ofList last ++ ".tmp" := by
    rw [String.ofList_append, String.ofList_toList]
  have hmeant : String.ofList last ++ ".tmp" ≠ "" ∧ String.ofList last ++ ".tmp" ≠ "." :=
    ⟨append_tmp_ne (by decide), append_tmp_ne (by decide)⟩
  have hsplit : Text.split '/' path = pieces.map String.ofList ++ [String.ofList last] := by
    unfold Text.split
    rw [hpath, List.map_append, List.map_singleton]
  have hsplit' : Text.split '/' (Snapshot.draftPath path) =
      pieces.map String.ofList ++ [String.ofList last ++ ".tmp"] := by
    unfold Text.split Snapshot.draftPath
    rw [String.toList_append, hdraft, List.map_append, List.map_singleton, hlast]
  refine ⟨(pieces.map String.ofList).filter fun s => s ≠ "" ∧ s ≠ ".", String.ofList last,
    ?_, ?_, ?_⟩
  · unfold parts
    rw [hsplit, List.filter_append]
    simp [List.filter_cons]
  · unfold parts
    rw [hsplit', List.filter_append, List.filter_singleton, decide_eq_true hmeant]
    rfl
  · unfold asksDirectory
    rw [hsplit, List.getLast?_concat]

/-- A draft that has a place has another one than its snapshot, and the snapshot has one, unless its
path is empty. -/
theorem locate_draft {t : FileTree} {path : String} {q : Place}
    (h : t.locate (Snapshot.draftPath path) = .ok q) :
    ∃ p, t.walk [] (parts path) = .ok p ∧ p ≠ q ∧ (path ≠ "" → t.locate path = .ok p) := by
  obtain ⟨ps, last, hpath, hdraft, hasks⟩ := parts_draft path
  obtain ⟨-, h, -⟩ := locate_eq_ok_iff.mp h
  rw [hdraft, walk_append, bind_eq_ok_iff] at h
  obtain ⟨d, hd, hlast⟩ := h
  -- the draft stands in this directory
  have hplace : t.node? d = some .directory ∧ q = d ++ [last ++ ".tmp"] := by
    unfold walk at hlast
    rw [if_neg (append_tmp_ne (by decide))] at hlast
    rcases hnode : t.node? d with _ | _ | _
    · rw [hnode] at hlast
      cases hlast
    · rw [hnode] at hlast
      cases hlast
    · rw [hnode] at hlast
      exact ⟨rfl, (Except.ok.inj hlast).symm⟩
  obtain ⟨hdirectory, rfl⟩ := hplace
  have hlength : (d ++ [last ++ ".tmp"]).length = d.length + 1 := by simp
  by_cases hmeant : last ≠ "" ∧ last ≠ "."
  · have hwalk : t.walk [] (parts path) =
        .ok (if last = ".." then d.dropLast else d ++ [last]) := by
      rw [hpath, walk_append, hd, if_pos hmeant]
      show t.walk d [last] = _
      unfold walk
      rw [hdirectory]
      rfl
    refine ⟨_, hwalk, ?_, fun hempty => locate_eq_ok_iff.mpr ⟨hempty, hwalk, fun hends => ?_⟩⟩
    · split
      · -- the path leads upwards
        intro heq
        have hup : d.dropLast.length ≤ d.length := by simp
        rw [heq, hlength] at hup
        omega
      · intro heq
        have hsame : last = last ++ ".tmp" := by simpa using heq
        have hlonger := congrArg String.length hsame
        rw [String.length_append] at hlonger
        have htmp : ".tmp".length = 4 := rfl
        omega
    · -- a path with a last part does not end so
      rw [hasks, decide_eq_true_eq] at hends
      exact absurd hmeant (by rw [← not_or, not_not]; exact hends)
  · have hwalk : t.walk [] (parts path) = .ok d := by
      rw [hpath, walk_append, hd, if_neg hmeant]
      rfl
    refine ⟨d, hwalk, fun heq => ?_,
      fun hempty => locate_eq_ok_iff.mpr ⟨hempty, hwalk, fun _ content hfile => ?_⟩⟩
    · rw [← heq] at hlength
      omega
    · rw [hdirectory] at hfile
      cases hfile

/-- Where a draft and its snapshot have places, these are different. -/
theorem ne_of_locate_draft {t : FileTree} {path : String} {p q : Place}
    (hp : t.locate path = .ok p) (hq : t.locate (Snapshot.draftPath path) = .ok q) : p ≠ q := by
  obtain ⟨p', hp', hne, -⟩ := locate_draft hq
  rw [(locate_eq_ok_iff.mp hp).2.1] at hp'
  rwa [Except.ok.inj hp']

theorem locate_empty (t : FileTree) : t.locate "" = .error .notFound := if_pos rfl

/-- A draft that is written changes nothing about what is at the path of the snapshot. -/
theorem locate_of_write_draft {t t' : FileTree} {path : String} {content : Bytes}
    (h : t.apply (.write (Snapshot.draftPath path) content) = .ok t') :
    path = "" ∨ ∃ p, t.locate path = .ok p ∧ t'.locate path = .ok p ∧ t'.node? p = t.node? p := by
  by_cases hempty : path = ""
  · exact Or.inl hempty
  · obtain ⟨-, q, hq, hplace, rfl⟩ := exists_put_of_write h
    obtain ⟨p, hp, hne, hpath⟩ := locate_draft hq
    have hnode := node?_put_of_ne hne t (.file content)
    refine Or.inr ⟨p, hpath hempty, locate_eq_ok_iff.mpr ⟨hempty, ?_, ?_⟩, hnode⟩
    · exact walk_of_directories (fun d hd => directory_put hplace hd _) hp
    · rw [hnode]
      exact (locate_eq_ok_iff.mp (hpath hempty)).2.2

/-- The snapshot reads as before when its draft is written. -/
theorem read_of_write_draft {t t' : FileTree} {path : String} {content : Bytes}
    (h : t.apply (.write (Snapshot.draftPath path) content) = .ok t') :
    t'.read path = t.read path := by
  unfold read
  rcases locate_of_write_draft h with rfl | ⟨p, hp, hp', hnode⟩
  · rw [locate_empty, locate_empty]
    rfl
  · rw [hp, hp']
    dsimp only [bind, Except.bind]
    rw [hnode]

/-- A directory is made where nothing was. -/
theorem node?_put_directory {t : FileTree} {here : Place} (h : t.node? here = none) (p : Place) :
    (t.put here .directory).node? p = t.node? p ∨
      (t.node? p = none ∧ (t.put here .directory).node? p = some .directory) := by
  by_cases hp : p = here
  · subst hp
    have hnil : p ≠ [] := by
      rintro rfl
      cases h
    exact Or.inr ⟨h, node?_put_self hnil t _⟩
  · exact Or.inl (node?_put_of_ne hp t _)

/-- So are the directories along a path. -/
theorem node?_createAlong {t t' : FileTree} {here : Place} {ps : List String}
    (h : t.createAlong here ps = .ok t') (p : Place) :
    t'.node? p = t.node? p ∨ (t.node? p = none ∧ t'.node? p = some .directory) := by
  induction ps generalizing t here with
  | nil =>
    unfold createAlong at h
    rcases hhere : t.node? here with _ | _ | _
    · rw [hhere] at h
      cases h
      exact node?_put_directory hhere p
    · rw [hhere] at h
      cases h
    · rw [hhere] at h
      cases h
      exact Or.inl rfl
  | cons s ps ih =>
    unfold createAlong at h
    rcases hhere : t.node? here with _ | _ | _
    · rw [hhere] at h
      rcases ih h with hsame | ⟨hnone, hmade⟩
      · rw [hsame]
        exact node?_put_directory hhere p
      · rcases node?_put_directory hhere p with hbefore | ⟨-, hthere⟩
        · exact Or.inr ⟨hbefore.symm.trans hnone, hmade⟩
        · rw [hthere] at hnone
          cases hnone
    · rw [hhere] at h
      cases h
    · rw [hhere] at h
      exact ih h

/-- Directories that are made take nothing away, -/
theorem node?_of_createAlong {t t' : FileTree} {here p : Place} {ps : List String} {n : FileNode}
    (h : t.createAlong here ps = .ok t') (hp : t.node? p = some n) : t'.node? p = some n := by
  rcases node?_createAlong h p with hsame | ⟨hnone, -⟩
  · rw [hsame, hp]
  · rw [hp] at hnone
    cases hnone

section CreateDirectories

variable {t t' : FileTree} {parent path : String}

theorem node?_of_createDirectories (h : t.apply (.createDirectories parent) = .ok t') {p : Place}
    {n : FileNode} (hp : t.node? p = some n) : t'.node? p = some n :=
  node?_of_createAlong h hp

theorem locate_of_createDirectories (h : t.apply (.createDirectories parent) = .ok t') {p : Place}
    (hp : t.locate path = .ok p) : t'.locate path = .ok p := by
  obtain ⟨hempty, hwalk, hends⟩ := locate_eq_ok_iff.mp hp
  refine locate_eq_ok_iff.mpr
    ⟨hempty, walk_of_directories (fun _ hd => node?_of_createDirectories h hd) hwalk, ?_⟩
  intro hasks content hfile
  rcases node?_createAlong h p with hsame | ⟨-, hmade⟩
  · exact hends hasks content (hsame.symm.trans hfile)
  · rw [hmade] at hfile
    cases hfile

/-- so what could be read is read as before. -/
theorem read_of_createDirectories (h : t.apply (.createDirectories parent) = .ok t')
    {content : Bytes} (hread : t.read path = .ok content) : t'.read path = .ok content := by
  obtain ⟨p, hp, hfile⟩ := read_eq_ok_iff.mp hread
  exact read_eq_ok_iff.mpr
    ⟨p, locate_of_createDirectories h hp, node?_of_createDirectories h hfile⟩

end CreateDirectories

end FileTree

/-- Whether some files have become others by the saving of a snapshot that is not in its place yet:
what there was to read is still there, and there is no other file but the draft. -/
structure FileTree.Untouched (files files' : FileTree) (path : String) : Prop where
  kept : ∀ content, files.read path = .ok content → files'.read path = .ok content
  found : ∀ p content, files'.node? p = some (.file content) →
    files.node? p = some (.file content) ∨ files'.locate (Snapshot.draftPath path) = .ok p

namespace FileTree.Untouched

variable {files files' files'' : FileTree} {path : String}

theorem refl (files : FileTree) (path : String) : files.Untouched files path :=
  ⟨fun _ h => h, fun _ _ h => Or.inl h⟩

/-- What is read of the snapshot was there before. -/
theorem exists_of_read (h : files.Untouched files' path) {content : Bytes}
    (hread : files'.read path = .ok content) : ∃ p, files.node? p = some (.file content) := by
  obtain ⟨p, hp, hfile⟩ := read_eq_ok_iff.mp hread
  rcases h.found p content hfile with hbefore | hdraft
  · exact ⟨p, hbefore⟩
  · exact absurd rfl (ne_of_locate_draft hp hdraft)

theorem createDirectories (h : files.Untouched files' path) {parent : String}
    (happly : files'.apply (.createDirectories parent) = .ok files'') :
    files.Untouched files'' path := by
  refine ⟨fun content hread => read_of_createDirectories happly (h.kept content hread),
    fun p content hp => ?_⟩
  have hp' : files'.node? p = some (.file content) := by
    rcases node?_createAlong happly p with hsame | ⟨-, hmade⟩
    · exact hsame.symm.trans hp
    · rw [hmade] at hp
      cases hp
  exact (h.found p content hp').imp_right (locate_of_createDirectories happly)

theorem writeDraft (h : files.Untouched files' path) {bytes : Bytes}
    (happly : files'.apply (.write (Snapshot.draftPath path) bytes) = .ok files'') :
    files.Untouched files'' path := by
  refine ⟨fun content hread => ?_, fun p content hp => ?_⟩
  · rw [read_of_write_draft happly]
    exact h.kept content hread
  · obtain ⟨hasks, q, hq, hplace, rfl⟩ := exists_put_of_write happly
    by_cases hpq : p = q
    · subst hpq
      exact Or.inr (locate_of_directories (fun d hd => directory_put hplace hd _) hasks hq)
    · rw [node?_put_of_ne hpq] at hp
      rcases h.found p content hp with hbefore | hdraft
      · exact Or.inl hbefore
      · exact absurd (Except.ok.inj (hdraft.symm.trans hq)) hpq

end FileTree.Untouched

end Telemetry

import Telemetry.Proofs.Store.Draft

/-!
# Directories that are made for a path

In a tree of files as there is one, whatever is somewhere is in a directory (`FileTree.Connected`),
so nothing is below a place where nothing is. Directories that are made for a path, all of them or
only the first ones, then change nothing about what is found at the path
(`FileTree.found?_createAlong`): the path ends further down than they do. The exception are paths
that lead into a directory that is missing and out of it again. Once it is made, such a path may
lead to a file that was there before, at another place (`FileTree.Straight`).
-/

namespace Telemetry

/-! ## The parts of a path -/

namespace Text

theorem splitChars_eq_splitOn (separator : Char) (cs : List Char) :
    splitChars separator cs = cs.splitOn separator := by
  induction cs with
  | nil => rfl
  | cons c cs ih =>
    rw [splitChars, ih]
    unfold List.splitOn
    rw [List.splitOnP_cons_eq_if_modifyHead]
    cases hpieces : List.splitOnP (· == separator) cs with
    | nil => exact absurd hpieces (List.splitOnP_ne_nil _ cs)
    | cons piece pieces =>
      dsimp only [List.modifyHead]
      simp only [beq_iff_eq]

/-- No piece has the separator in it. -/
theorem not_mem_of_mem_splitChars {separator : Char} {cs piece : List Char}
    (h : piece ∈ splitChars separator cs) : separator ∉ piece := by
  induction cs generalizing piece with
  | nil =>
    rw [List.mem_singleton.mp h]
    exact List.not_mem_nil
  | cons c cs ih =>
    rw [splitChars] at h
    cases hpieces : splitChars separator cs with
    | nil => exact absurd (splitChars_eq_splitOn separator cs ▸ hpieces) (List.splitOnP_ne_nil _ cs)
    | cons first pieces =>
      rw [hpieces] at h ih
      dsimp only at h
      split at h
      next =>
        rcases List.mem_cons.mp h with rfl | hmem
        · exact List.not_mem_nil
        · exact ih hmem
      next hne =>
        rcases List.mem_cons.mp h with rfl | hmem
        · intro hc
          rcases List.mem_cons.mp hc with heq | hfirst
          · exact hne heq.symm
          · exact ih List.mem_cons_self hfirst
        · exact ih (List.mem_cons_of_mem _ hmem)

/-- Texts with slashes between them are the pieces of what they make. -/
theorem split_intercalate {ps : List String} (hne : ps ≠ []) (h : ∀ s ∈ ps, '/' ∉ s.toList) :
    split '/' ("/".intercalate ps) = ps := by
  unfold split
  rw [String.toList_intercalate, splitChars_eq_splitOn, show "/".toList = ['/'] from rfl,
    List.splitOn_intercalate]
  · rw [List.map_map]
    exact (List.map_congr_left fun s _ => String.ofList_toList).trans (List.map_id ps)
  · intro cs hcs
    obtain ⟨s, hs, rfl⟩ := List.mem_map.mp hcs
    exact h s hs
  · exact fun hnil => hne (List.map_eq_nil_iff.mp hnil)

end Text

namespace FileTree

/-- Whether a text can be a part of a path. -/
def IsPart (s : String) : Prop := '/' ∉ s.toList ∧ s ≠ "" ∧ s ≠ "."

theorem isPart_of_mem_parts {path s : String} (h : s ∈ parts path) : IsPart s := by
  obtain ⟨hmem, hmeant⟩ := List.mem_filter.mp h
  obtain ⟨piece, hpiece, rfl⟩ := List.mem_map.mp hmem
  refine ⟨?_, of_decide_eq_true hmeant⟩
  rw [String.toList_ofList]
  exact Text.not_mem_of_mem_splitChars hpiece

/-- A slash in front of a path is no part of it. -/
theorem parts_slash_append (path : String) : parts ("/" ++ path) = parts path := by
  unfold parts Text.split
  rw [String.toList_append, show "/".toList = ['/'] from rfl, List.singleton_append]
  rw [Text.splitChars]
  cases hpieces : Text.splitChars '/' path.toList with
  | nil =>
    rw [Text.splitChars_eq_splitOn] at hpieces
    exact absurd hpieces (List.splitOnP_ne_nil _ _)
  | cons piece pieces =>
    dsimp only
    rw [if_pos rfl, List.map_cons, List.filter_cons_of_neg (by decide)]

/-- Parts with slashes between them are the parts of what they make. -/
theorem parts_intercalate {ps : List String} (hne : ps ≠ []) (h : ∀ s ∈ ps, IsPart s) :
    parts ("/".intercalate ps) = ps := by
  unfold parts
  rw [Text.split_intercalate hne fun s hs => (h s hs).1]
  exact List.filter_eq_self.mpr fun s hs => decide_eq_true (h s hs).2

/-- The path of the directory has all parts but the last. -/
theorem parts_parent {path parent : String} (h : parent? path = some parent) :
    parts parent = (parts path).dropLast := by
  unfold parent? at h
  split at h
  next hnil =>
    split at h
    · rw [← Option.some.inj h, hnil]
      decide
    · cases h
  next hne =>
    have hparts : parts ("/".intercalate (parts path).dropLast) = (parts path).dropLast :=
      parts_intercalate hne fun s hs => isPart_of_mem_parts (List.dropLast_subset _ hs)
    rw [← Option.some.inj h]
    split
    · rw [parts_slash_append, hparts]
    · rw [String.empty_append, hparts]

/-! ## What is found at a path -/

variable {t t' : FileTree} {here p : Place} {s : String} {ps qs rest : List String}

/-- The place that a part of a path leads to. -/
def next (here : Place) (s : String) : Place := if s = ".." then here.dropLast else here ++ [s]

theorem next_of_ne (h : s ≠ "..") (here : Place) : next here s = here ++ [s] := if_neg h

theorem walk_cons_of_none (h : t.node? here = none) (s : String) (rest : List String) :
    t.walk here (s :: rest) = .error .notFound := by
  rw [walk, h]

theorem walk_cons_of_directory (h : t.node? here = some .directory) (s : String)
    (rest : List String) : t.walk here (s :: rest) = t.walk (next here s) rest := by
  rw [walk, h]
  rfl

/-- What is found where the parts of a path lead from a place. -/
def found? (t : FileTree) (here : Place) (ps : List String) : Option FileNode :=
  (t.walk here ps).toOption.bind t.node?

/-- What is found at a path. -/
def nodeAt? (t : FileTree) (path : String) : Option FileNode :=
  (t.locate path).toOption.bind t.node?

/-- Whether what a path leads to is what it may name. -/
def admits (path : String) (n : FileNode) : Bool :=
  path ≠ "" && (n = .directory || !asksDirectory path)

theorem bind_node?_eq_some_iff {x : Except FileFault Place} {n : FileNode} :
    x.toOption.bind t.node? = some n ↔ ∃ p, x = .ok p ∧ t.node? p = some n := by
  cases x with
  | error cause => exact ⟨nofun, nofun⟩
  | ok p =>
    constructor
    · exact fun hn => ⟨p, rfl, hn⟩
    · rintro ⟨q, hq, hn⟩
      cases hq
      exact hn

theorem admits_iff {path : String} {n : FileNode} :
    admits path n = true ↔ path ≠ "" ∧ (asksDirectory path = true → n = .directory) := by
  unfold admits
  cases asksDirectory path <;> simp

theorem nodeAt?_eq (t : FileTree) (path : String) :
    t.nodeAt? path = (t.found? [] (parts path)).filter (admits path) := by
  refine Option.ext fun n => ?_
  unfold nodeAt? found?
  rw [Option.filter_eq_some_iff, bind_node?_eq_some_iff, bind_node?_eq_some_iff, admits_iff]
  constructor
  · rintro ⟨p, hp, hn⟩
    obtain ⟨hempty, hwalk, hfile⟩ := locate_eq_ok_iff.mp hp
    refine ⟨⟨p, hwalk, hn⟩, hempty, fun hasks => ?_⟩
    cases n with
    | directory => rfl
    | file content => exact absurd hn (hfile hasks content)
  · rintro ⟨⟨p, hwalk, hn⟩, hempty, hdirectory⟩
    refine ⟨p, locate_eq_ok_iff.mpr ⟨hempty, hwalk, fun hasks content hfile => ?_⟩, hn⟩
    rw [hdirectory hasks, hfile] at hn
    cases hn

/-- What is found at a path stays the same if what its parts lead to does. -/
theorem nodeAt?_congr {t t' : FileTree} {path : String}
    (h : t'.found? [] (parts path) = t.found? [] (parts path)) : t'.nodeAt? path = t.nodeAt? path := by
  rw [nodeAt?_eq, nodeAt?_eq, h]

theorem found?_of_none (h : t.node? here = none) (ps : List String) : t.found? here ps = none := by
  unfold found?
  cases ps with
  | nil => exact h
  | cons s rest =>
    rw [walk_cons_of_none h]
    rfl

theorem found?_cons_of_directory (h : t.node? here = some .directory) (s : String)
    (rest : List String) : t.found? here (s :: rest) = t.found? (next here s) rest := by
  unfold found?
  rw [walk_cons_of_directory h]

theorem read_eq_ok_iff_nodeAt {path : String} {content : Bytes} :
    t.read path = .ok content ↔ t.nodeAt? path = some (.file content) :=
  read_eq_ok_iff.trans bind_node?_eq_some_iff.symm

/-! ## Connected trees -/

/-- Whether all that is in a tree is in a directory. -/
def Connected (t : FileTree) : Prop :=
  ∀ p n, t.node? p = some n → t.node? p.dropLast = some .directory

/-- The root stands for the directory that it is in. -/
theorem parent_root (t : FileTree) : t.node? ([] : Place).dropLast = some .directory := rfl

namespace Connected

theorem of_nodes (h : ∀ e ∈ t.nodes, t.node? e.1.dropLast = some .directory) : t.Connected := by
  intro p n hp
  by_cases hnil : p = []
  · rw [hnil]
    exact node?_nil t
  · rw [node?_of_ne_nil hnil] at hp
    obtain ⟨before, after, hnodes, -⟩ := List.lookup_eq_some_iff.mp hp
    exact h (p, n) (hnodes ▸ List.mem_append_right before List.mem_cons_self)

/-- Nothing is below a place where nothing is. -/
theorem node?_below (ht : t.Connected) (h : t.node? here = none) (s : String) :
    t.node? (here ++ [s]) = none := by
  cases hbelow : t.node? (here ++ [s]) with
  | none => rfl
  | some n =>
    have hparent := ht _ n hbelow
    rw [List.dropLast_concat, h] at hparent
    cases hparent

/-- A part of a path leads from a directory to a place in a directory, -/
theorem parent_next (ht : t.Connected) (h : t.node? here = some .directory) (s : String) :
    t.node? (next here s).dropLast = some .directory := by
  unfold next
  split
  · exact ht _ _ (ht _ _ h)
  · rw [List.dropLast_concat]
    exact h

/-- and so do some of them. -/
theorem parent_walk (ht : t.Connected) (hhere : t.node? here.dropLast = some .directory)
    (h : t.walk here ps = .ok p) : t.node? p.dropLast = some .directory := by
  induction ps generalizing here with
  | nil =>
    cases h
    exact hhere
  | cons s rest ih =>
    unfold walk at h
    cases hnode : t.node? here with
    | none =>
      rw [hnode] at h
      cases h
    | some n =>
      cases n with
      | file content =>
        rw [hnode] at h
        cases h
      | directory =>
        rw [hnode] at h
        exact ih (ht.parent_next hnode s) h

/-- A tree stays connected when something is put into a directory where no directory was. -/
theorem put (ht : t.Connected) (hplace : t.node? p ≠ some .directory)
    (hparent : t.node? p.dropLast = some .directory) (n : FileNode) : (t.put p n).Connected := by
  intro q m hq
  by_cases hqp : q = p
  · subst hqp
    exact directory_put hplace hparent n
  · rw [node?_put_of_ne hqp] at hq
    exact directory_put hplace (ht q m hq) n

/-- A directory that is made where nothing was is empty. -/
theorem putMissing (ht : t.Connected) (hnode : t.node? here = none)
    (hparent : t.node? here.dropLast = some .directory) :
    (t.put here .directory).Connected ∧ (t.put here .directory).node? here = some .directory ∧
      ∀ s, (t.put here .directory).node? (here ++ [s]) = none := by
  have hnil : here ≠ [] := by
    rintro rfl
    cases hnode
  refine ⟨ht.put (hnode ▸ nofun) hparent _, node?_put_self hnil t _, fun s => ?_⟩
  rw [node?_put_of_ne (by simp)]
  exact ht.node?_below hnode s

end Connected

/-! ## Directories made one after another -/

/-- A directory that is missing is made first. -/
theorem createAlong_of_none (h : t.node? here = none) (ps : List String) :
    t.createAlong here ps = (t.put here .directory).createAlong here ps := by
  have hnil : here ≠ [] := by
    rintro rfl
    cases h
  have hmade := node?_put_self hnil t .directory
  cases ps with
  | nil =>
    unfold createAlong
    rw [h, hmade]
  | cons s rest =>
    unfold createAlong
    rw [h, hmade]

theorem createAlong_cons_of_directory (h : t.node? here = some .directory) (s : String)
    (rest : List String) : t.createAlong here (s :: rest) = t.createAlong (next here s) rest := by
  rw [createAlong, h]
  rfl

theorem createAlong_of_file {content : Bytes} (h : t.node? here = some (.file content))
    (ps : List String) : t.createAlong here ps = .error .notDirectory := by
  cases ps with
  | nil => rw [createAlong, h]
  | cons s rest =>
    rw [createAlong, h]
    rfl

/-- A tree stays connected when directories are made in it. -/
theorem Connected.createAlong (ht : t.Connected) (hhere : t.node? here.dropLast = some .directory)
    (h : t.createAlong here ps = .ok t') : t'.Connected := by
  induction ps generalizing t here with
  | nil =>
    unfold FileTree.createAlong at h
    rcases hnode : t.node? here with _ | _ | _
    · rw [hnode] at h
      cases h
      exact (ht.putMissing hnode hhere).1
    · rw [hnode] at h
      cases h
    · rw [hnode] at h
      cases h
      exact ht
  | cons s rest ih =>
    rcases hnode : t.node? here with _ | _ | _
    · obtain ⟨hput, hmade, -⟩ := ht.putMissing hnode hhere
      rw [createAlong_of_none hnode, createAlong_cons_of_directory hmade] at h
      exact ih hput (hput.parent_next hmade s) h
    · rw [createAlong_of_file hnode] at h
      cases h
    · rw [createAlong_cons_of_directory hnode] at h
      exact ih ht (ht.parent_next hnode s) h

/-- Whether a path never leads up from a directory that is missing. -/
def Straight (t : FileTree) (here : Place) (ps : List String) : Prop :=
  ∀ front rest, ps = front ++ ".." :: rest → t.walk here (front ++ [".."]) ≠ .error .notFound

theorem straight_of_not_mem (h : ".." ∉ ps) (t : FileTree) (here : Place) :
    t.Straight here ps := by
  rintro front rest rfl
  exact absurd (List.mem_append_right front List.mem_cons_self) h

/-- So it is with a path where something is found. -/
theorem straight_of_found? (h : t.found? here ps ≠ none) : t.Straight here ps := by
  rintro front rest rfl hmissing
  refine h ?_
  unfold found?
  rw [List.append_cons, walk_append, hmissing]
  rfl

theorem straight_of_nodeAt? {path : String} (h : t.nodeAt? path ≠ none) :
    t.Straight [] (parts path) := by
  refine straight_of_found? fun hnone => h ?_
  rw [nodeAt?_eq, hnone]
  rfl

theorem Straight.tail (h : t.Straight here (s :: ps)) (hnode : t.node? here = some .directory) :
    t.Straight (next here s) ps := by
  rintro front rest rfl
  have hup := h (s :: front) rest rfl
  rw [List.cons_append, walk_cons_of_directory hnode] at hup
  exact hup

theorem Straight.not_mem (h : t.Straight here ps) (hnode : t.node? here = none) : ".." ∉ ps := by
  intro hmem
  obtain ⟨front, rest, rfl⟩ := List.append_of_mem hmem
  refine h front rest rfl ?_
  cases front with
  | nil => exact walk_cons_of_none hnode _ _
  | cons s front => exact walk_cons_of_none hnode _ _

/-- Directories that are made where nothing is lead nowhere at their end. -/
theorem found?_createAlong_of_none (ht : t.Connected)
    (hhere : t.node? here.dropLast = some .directory) (hnode : t.node? here = none)
    (hup : ".." ∉ ps) (hqs : qs <+: ps) (hne : qs ≠ ps) (h : t.createAlong here qs = .ok t') :
    t'.found? here ps = none := by
  induction qs generalizing t here ps with
  | nil =>
    obtain ⟨s, rest, rfl⟩ := List.exists_cons_of_ne_nil hne.symm
    obtain ⟨-, hmade, hbelow⟩ := ht.putMissing hnode hhere
    rw [createAlong_of_none hnode, createAlong, hmade] at h
    cases h
    rw [found?_cons_of_directory hmade, next_of_ne (fun hs => hup (hs ▸ List.mem_cons_self))]
    exact found?_of_none (hbelow s) rest
  | cons s qs ih =>
    obtain ⟨rest, rfl⟩ := hqs
    rw [List.cons_append, List.mem_cons, not_or] at hup
    obtain ⟨hput, hmade, hbelow⟩ := ht.putMissing hnode hhere
    have hnext : next here s = here ++ [s] := next_of_ne (fun hs => hup.1 hs.symm) here
    rw [createAlong_of_none hnode, createAlong_cons_of_directory hmade, hnext] at h
    have hparent : (t.put here .directory).node? (here ++ [s]).dropLast = some .directory := by
      rw [List.dropLast_concat]
      exact hmade
    rw [List.cons_append, found?_cons_of_directory (node?_of_createAlong h hmade), hnext]
    exact ih hput hparent (hbelow s) hup.2 (List.prefix_append qs rest)
      (fun heq => hne (congrArg (List.cons s) heq)) h

/-- Where no directory is, either all is made anew or a file is in the way. -/
theorem found?_createAlong_of_ne (ht : t.Connected)
    (hhere : t.node? here.dropLast = some .directory) (hnode : t.node? here ≠ some .directory)
    (hstraight : t.Straight here ps) (hqs : qs <+: ps) (hne : qs ≠ ps)
    (h : t.createAlong here qs = .ok t') : t'.found? here ps = t.found? here ps := by
  cases hcase : t.node? here with
  | none =>
    rw [found?_of_none hcase]
    exact found?_createAlong_of_none ht hhere hcase (hstraight.not_mem hcase) hqs hne h
  | some n =>
    cases n with
    | file content =>
      rw [createAlong_of_file hcase] at h
      cases h
    | directory => exact absurd hcase hnode

/-- **What is found at a path stays the same when directories are made for it**, as many as one
likes of those above its last part. -/
theorem found?_createAlong (ht : t.Connected) (hhere : t.node? here.dropLast = some .directory)
    (hstraight : t.Straight here ps) (hqs : qs <+: ps) (hne : qs ≠ ps)
    (h : t.createAlong here qs = .ok t') : t'.found? here ps = t.found? here ps := by
  induction qs generalizing t here ps with
  | nil =>
    by_cases hnode : t.node? here = some .directory
    · rw [createAlong, hnode] at h
      cases h
      rfl
    · exact found?_createAlong_of_ne ht hhere hnode hstraight hqs hne h
  | cons s qs ih =>
    by_cases hnode : t.node? here = some .directory
    · obtain ⟨rest, rfl⟩ := hqs
      rw [createAlong_cons_of_directory hnode] at h
      rw [List.cons_append, found?_cons_of_directory (node?_of_createAlong h hnode),
        found?_cons_of_directory hnode]
      exact ih ht (ht.parent_next hnode s) (hstraight.tail hnode) (List.prefix_append qs rest)
        (fun heq => hne (congrArg (List.cons s) heq)) h
    · exact found?_createAlong_of_ne ht hhere hnode hstraight hqs hne h

end FileTree

end Telemetry

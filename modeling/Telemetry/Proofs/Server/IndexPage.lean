import Telemetry.Http.IndexPage
import Telemetry.Proofs.Metric.ValueText
import Telemetry.Proofs.Store.Directories

/-!
# Names in the index page

The escape of a text has no character in it that ends a cell or starts a tag, whatever the text is,
and every ampersand in it starts an entity (`entity_of_ampersand`), so it is read back
(`unescape_escape`). A page is read as its tags with the texts behind them (`markup?`). As no name,
kind or value brings a tag of its own, that reading finds the tags that the page is made of and no
other (`markup?_of_spelled`), and with them one row for every metric (`rows_layout`).
-/

namespace Telemetry.Http.IndexPage

/-! ## Entities -/

/-- The characters that are escaped, with what stands for them. -/
def entities : List (Char × List Char) :=
  [('&', "&amp;".toList), ('<', "&lt;".toList), ('>', "&gt;".toList), ('"', "&quot;".toList),
    ('\'', "&#39;".toList)]

/-- The characters that cannot stand in a cell as they are, apart from the ampersand. -/
def isMarkup (c : Char) : Bool := c = '<' || c = '>' || c = '"' || c = '\''

theorem escapeChar_cases (c : Char) :
    (c, escapeChar c) ∈ entities ∨ escapeChar c = [c] ∧ c ≠ '&' ∧ isMarkup c = false := by
  have htable : entities.all fun e => (e.1, escapeChar e.1) ∈ entities := by decide
  by_cases h : c ∈ entities.map Prod.fst
  · obtain ⟨e, he, rfl⟩ := List.mem_map.mp h
    exact Or.inl (of_decide_eq_true (List.all_eq_true.mp htable e he))
  · simp only [entities, List.map_cons, List.map_nil, List.mem_cons, List.not_mem_nil, or_false,
      not_or] at h
    obtain ⟨hamp, hlt, hgt, hquot, hapos⟩ := h
    exact Or.inr ⟨by simp [escapeChar, hamp, hlt, hgt, hquot, hapos], hamp,
      by simp [isMarkup, hlt, hgt, hquot, hapos]⟩

/-- An entity starts with an ampersand, and has neither another one nor markup behind it. -/
theorem exists_cons_of_entity {c : Char} {entity : List Char} (h : (c, entity) ∈ entities) :
    ∃ tail, entity = '&' :: tail ∧ '&' ∉ tail ∧ ∀ c' ∈ tail, isMarkup c' = false := by
  have htable : entities.all fun e => e.2.head? = some '&' && e.2.tail.all fun c' =>
      c' != '&' && !isMarkup c' := by decide
  have hentity := List.all_eq_true.mp htable _ h
  cases entity with
  | nil => cases hentity
  | cons first tail =>
    simp only [Bool.and_eq_true, decide_eq_true_eq, List.head?_cons, Option.some.injEq,
      List.tail_cons, List.all_eq_true, bne_iff_ne, Bool.not_eq_true'] at hentity
    obtain ⟨rfl, htail⟩ := hentity
    exact ⟨tail, rfl, fun hmem => (htail _ hmem).1 rfl, fun c' hc' => (htail c' hc').2⟩

theorem toList_escape (s : String) : (escape s).toList = s.toList.flatMap escapeChar :=
  String.toList_ofList

/-- No markup is left in an escape. -/
theorem isMarkup_of_mem_escape {s : String} {c : Char} (h : c ∈ (escape s).toList) :
    isMarkup c = false := by
  rw [toList_escape] at h
  obtain ⟨c', -, hc⟩ := List.mem_flatMap.mp h
  obtain hentity | ⟨hself, -, hplain⟩ := escapeChar_cases c'
  · obtain ⟨tail, hform, -, htail⟩ := exists_cons_of_entity hentity
    rw [hform, List.mem_cons] at hc
    obtain rfl | hc := hc
    · decide
    · exact htail c hc
  · rw [hself, List.mem_singleton] at hc
    rw [hc]
    exact hplain

/-- What stands for a character has no ampersand behind its first one, and is an entity if it starts
with an ampersand. -/
theorem exists_cons_of_escapeChar (c : Char) :
    ∃ first tail, escapeChar c = first :: tail ∧ '&' ∉ tail ∧
      (first = '&' → (c, escapeChar c) ∈ entities) := by
  obtain hentity | ⟨hself, hamp, -⟩ := escapeChar_cases c
  · obtain ⟨tail, hform, htail, -⟩ := exists_cons_of_entity hentity
    exact ⟨'&', tail, hform, htail, fun _ => hentity⟩
  · exact ⟨c, [], hself, List.not_mem_nil, fun h => absurd h hamp⟩

/-- What is not in the front of a list is in the rest. -/
theorem exists_of_append_eq {α : Type} {front rest before after : List α} {a : α}
    (h : front ++ rest = before ++ a :: after) (ha : a ∉ front) :
    ∃ mid, rest = mid ++ a :: after := by
  obtain ⟨mid, -, hmid⟩ | ⟨mid, hfront, hmid⟩ := List.append_eq_append_iff.mp h
  · exact ⟨mid, hmid⟩
  · cases mid with
    | nil => exact ⟨[], hmid.symm⟩
    | cons first mid =>
      obtain ⟨rfl, -⟩ := List.cons_eq_cons.mp hmid
      exact absurd (by rw [hfront]; simp) ha

/-- Every ampersand in escaped characters starts an entity. -/
theorem entity_of_ampersand {cs before after : List Char}
    (h : cs.flatMap escapeChar = before ++ '&' :: after) :
    ∃ e ∈ entities, e.2 <+: '&' :: after := by
  induction cs generalizing before with
  | nil => exact absurd h (by simp)
  | cons c cs ih =>
    obtain ⟨first, tail, hform, htail, hentity⟩ := exists_cons_of_escapeChar c
    rw [List.flatMap_cons, hform, List.cons_append] at h
    cases before with
    | nil =>
      -- it is the first character of all
      obtain ⟨rfl, hafter⟩ := List.cons_eq_cons.mp h
      refine ⟨_, hentity rfl, cs.flatMap escapeChar, ?_⟩
      rw [hform, List.cons_append, hafter]
    | cons first' before =>
      obtain ⟨-, h⟩ := List.cons_eq_cons.mp h
      obtain ⟨mid, hmid⟩ := exists_of_append_eq h htail
      exact ih hmid

/-! ## Reading an escape -/

/-- A text with its entities read. An ampersand that starts none of them stands for itself. -/
def unescapeChars : List Char → List Char
  | [] => []
  | '&' :: 'a' :: 'm' :: 'p' :: ';' :: rest => '&' :: unescapeChars rest
  | '&' :: 'l' :: 't' :: ';' :: rest => '<' :: unescapeChars rest
  | '&' :: 'g' :: 't' :: ';' :: rest => '>' :: unescapeChars rest
  | '&' :: 'q' :: 'u' :: 'o' :: 't' :: ';' :: rest => '"' :: unescapeChars rest
  | '&' :: '#' :: '3' :: '9' :: ';' :: rest => '\'' :: unescapeChars rest
  | c :: rest => c :: unescapeChars rest

def unescape (s : String) : String := String.ofList (unescapeChars s.toList)

theorem unescapeChars_cons {c : Char} (h : c ≠ '&') (rest : List Char) :
    unescapeChars (c :: rest) = c :: unescapeChars rest := by
  conv_lhs => unfold unescapeChars
  split <;> simp_all

theorem unescapeChars_entity {c : Char} {entity : List Char} (h : (c, entity) ∈ entities)
    (rest : List Char) : unescapeChars (entity ++ rest) = c :: unescapeChars rest := by
  simp only [entities, List.mem_cons, Prod.mk.injEq, List.not_mem_nil, or_false] at h
  obtain ⟨rfl, rfl⟩ | ⟨rfl, rfl⟩ | ⟨rfl, rfl⟩ | ⟨rfl, rfl⟩ | ⟨rfl, rfl⟩ := h <;> rfl

theorem unescapeChars_escapeChars (cs : List Char) :
    unescapeChars (cs.flatMap escapeChar) = cs := by
  induction cs with
  | nil => rfl
  | cons c cs ih =>
    rw [List.flatMap_cons]
    obtain hentity | ⟨hself, hamp, -⟩ := escapeChar_cases c
    · rw [unescapeChars_entity hentity, ih]
    · rw [hself, List.singleton_append, unescapeChars_cons hamp, ih]

/-- **An escape is read back**, whatever the text is. -/
theorem unescape_escape (s : String) : unescape (escape s) = s := by
  unfold unescape
  rw [toList_escape, unescapeChars_escapeChars, String.ofList_toList]

theorem escape_injective : Function.Injective escape :=
  Function.LeftInverse.injective unescape_escape

/-- A text of the characters of values is read as it is. -/
theorem unescape_of_isValueChar {s : String} (h : ∀ c ∈ s.toList, isValueChar c = true) :
    unescape s = s := by
  have hself : ∀ cs : List Char, (∀ c ∈ cs, isValueChar c = true) → unescapeChars cs = cs := by
    intro cs hcs
    induction cs with
    | nil => rfl
    | cons c cs ih =>
      have hamp : c ≠ '&' := ne_of_isValueChar (hcs c List.mem_cons_self) (by decide)
      rw [unescapeChars_cons hamp, ih fun c' hc' => hcs c' (List.mem_cons_of_mem c hc')]
  unfold unescape
  rw [hself s.toList h, String.ofList_toList]

/-! ## Tags -/

/-- A tag and the text between it and the next one. -/
structure Piece where
  tag : String
  text : String
deriving DecidableEq

namespace Piece

/-- What is written of a piece behind the sign that starts the tag. -/
def chars (p : Piece) : List Char := p.tag.toList ++ '>' :: p.text.toList

def read? (cs : List Char) : Option Piece :=
  match cs.dropWhile (· ≠ '>') with
  | _ :: text => some ⟨String.ofList (cs.takeWhile (· ≠ '>')), String.ofList text⟩
  | [] => none

/-- Whether no tag starts or ends inside the tag, and none starts in the text. -/
def isWellFormed (p : Piece) : Bool :=
  p.tag.toList.all (fun c => c != '<' && c != '>') && p.text.toList.all (· != '<')

variable {p : Piece}

theorem isWellFormed_iff :
    p.isWellFormed = true ↔
      (∀ c ∈ p.tag.toList, c ≠ '<' ∧ c ≠ '>') ∧ ∀ c ∈ p.text.toList, c ≠ '<' := by
  simp [isWellFormed]

theorem not_mem_chars (h : p.isWellFormed = true) : '<' ∉ p.chars := by
  obtain ⟨htag, htext⟩ := isWellFormed_iff.mp h
  intro hmem
  unfold chars at hmem
  rw [List.mem_append, List.mem_cons] at hmem
  obtain hmem | hsign | hmem := hmem
  · exact (htag _ hmem).1 rfl
  · cases hsign
  · exact htext _ hmem rfl

theorem read?_chars (h : p.isWellFormed = true) : read? p.chars = some p := by
  obtain ⟨htag, -⟩ := isWellFormed_iff.mp h
  have hends : ∀ c ∈ p.tag.toList, decide (c ≠ '>') = true :=
    fun c hc => decide_eq_true (htag c hc).2
  unfold read? chars
  rw [List.takeWhile_append_of_pos hends, List.dropWhile_append_of_pos hends]
  simp

end Piece

/-- What a page consists of: its tags, each with the text behind it. -/
def markup? (page : String) : Option (List Piece) :=
  match Text.splitChars '<' page.toList with
  | [] :: pieces => pieces.mapM Piece.read?
  | _ => none

/-- The pieces as they are written. -/
def spelled (ps : List Piece) : List Char := ps.flatMap fun p => '<' :: p.chars

theorem append_spelled (cs : List Char) (ps : List Piece) :
    cs ++ spelled ps = ['<'].intercalate (cs :: ps.map Piece.chars) := by
  induction ps generalizing cs with
  | nil => simp [spelled]
  | cons p ps ih =>
    rw [List.map_cons, List.intercalate_cons_cons, ← ih]
    simp [spelled]

/-- **Well-formed pieces are found again.** -/
theorem markup?_of_spelled {page : String} {ps : List Piece} (h : page.toList = spelled ps)
    (hps : ∀ p ∈ ps, p.isWellFormed = true) : markup? page = some ps := by
  have hsplit : Text.splitChars '<' page.toList = [] :: ps.map Piece.chars := by
    rw [h, ← List.nil_append (spelled ps), append_spelled, Text.splitChars_eq_splitOn,
      List.splitOn_intercalate]
    · intro cs hcs
      rw [List.mem_cons, List.mem_map] at hcs
      obtain rfl | ⟨p, hp, rfl⟩ := hcs
      · exact List.not_mem_nil
      · exact Piece.not_mem_chars (hps p hp)
    · exact List.cons_ne_nil _ _
  unfold markup?
  rw [hsplit]
  dsimp only
  clear h hsplit
  induction ps with
  | nil => rfl
  | cons p ps ih =>
    rw [List.map_cons, List.mapM_cons, Piece.read?_chars (hps p List.mem_cons_self),
      ih fun q hq => hps q (List.mem_cons_of_mem p hq)]
    rfl

/-! ## Rows -/

/-- Reading a page from its last piece on: the cells up to the next row, and the rows from there
on, with a piece in front of them. -/
def rowStep (p : Piece) (read : List String × List (List String)) :
    List String × List (List String) :=
  if p.tag = "tr" then ([], read.1 :: read.2)
  else if p.tag = "td" ∨ p.tag = "th" then (unescape p.text :: read.1, read.2)
  else read

/-- The rows of a page with the texts of their cells. -/
def rows (ps : List Piece) : List (List String) := (ps.foldr rowStep ([], [])).2

/-- The pieces of cells with the same tag. -/
def cellPieces (cell : String) (texts : List String) : List Piece :=
  texts.flatMap fun text => [⟨cell, text⟩, ⟨"/" ++ cell, ""⟩]

def rowPieces (cell : String) (texts : List String) : List Piece :=
  ⟨"tr", ""⟩ :: cellPieces cell texts ++ [⟨"/tr", "\n"⟩]

theorem foldr_rowStep_cellPieces {cell : String} (h : cell = "td" ∨ cell = "th")
    (texts : List String) (read : List String × List (List String)) :
    (cellPieces cell texts).foldr rowStep read = (texts.map unescape ++ read.1, read.2) := by
  induction texts with
  | nil => rfl
  | cons text texts ih =>
    unfold cellPieces at ih ⊢
    rw [List.flatMap_cons, List.foldr_append, ih]
    obtain rfl | rfl := h
    · simp [rowStep]
    · simp [rowStep]

/-- In front of a page that starts with no cells, the pieces of a row are one row more. -/
theorem foldr_rowStep_rowPieces {cell : String} (h : cell = "td" ∨ cell = "th")
    (texts : List String) (rest : List (List String)) :
    (rowPieces cell texts).foldr rowStep ([], rest) = ([], texts.map unescape :: rest) := by
  have hend : rowStep ⟨"/tr", "\n"⟩ ([], rest) = ([], rest) := by simp [rowStep]
  unfold rowPieces
  simp only [List.foldr_append, List.foldr_cons, List.foldr_nil]
  rw [hend, foldr_rowStep_cellPieces h]
  simp [rowStep]

/-! ## The page -/

/-- The texts of a metric in its row, as they are written. -/
def cellTexts (m : Metric) : List String := [escape m.name, m.kind.text, m.valueText]

/-- The pieces in front of the rows of the metrics. -/
def headPieces : List Piece :=
  [⟨"!DOCTYPE html", "\n"⟩, ⟨"html", ""⟩, ⟨"head", ""⟩, ⟨"meta charset=\"utf-8\"", ""⟩,
    ⟨"title", "PULSE"⟩, ⟨"/title", ""⟩, ⟨"/head", ""⟩, ⟨"body", "\n"⟩, ⟨"table", "\n"⟩] ++
  rowPieces "th" ["name", "type", "value"]

def footPieces : List Piece := [⟨"/table", "\n"⟩, ⟨"/body", ""⟩, ⟨"/html", "\n"⟩]

/-- The pieces of the page of some metrics. -/
def layout (ms : List Metric) : List Piece :=
  headPieces ++ (ms.flatMap fun m => rowPieces "td" (cellTexts m)) ++ footPieces

theorem toList_row (m : Metric) : (row m).toList = spelled (rowPieces "td" (cellTexts m)) := by
  unfold row
  simp [spelled, rowPieces, cellTexts, cellPieces, Piece.chars]

theorem toList_page (ms : List Metric) : (page ms).toList = spelled (layout ms) := by
  have hhead : header.toList = spelled headPieces := by decide +kernel
  have hfoot : footer.toList = spelled footPieces := by decide +kernel
  have hrows : (String.join (ms.map row)).toList =
      spelled (ms.flatMap fun m => rowPieces "td" (cellTexts m)) := by
    rw [String.toList_join, List.flatMap_map, spelled, List.flatMap_assoc]
    exact List.flatMap_congr fun m _ => toList_row m
  unfold page layout
  rw [String.toList_append, String.toList_append, hhead, hfoot, hrows]
  unfold spelled
  rw [List.flatMap_append, List.flatMap_append]

theorem lt_not_mem_cellTexts {m : Metric} {text : String} (h : text ∈ cellTexts m) :
    ∀ c ∈ text.toList, c ≠ '<' := by
  intro c hc
  simp only [cellTexts, List.mem_cons, List.not_mem_nil, or_false] at h
  obtain rfl | rfl | rfl := h
  · intro hlt
    have hmarkup := isMarkup_of_mem_escape hc
    rw [hlt] at hmarkup
    cases hmarkup
  · exact ne_of_isValueChar (m.kind.mem_text hc) (by decide)
  · exact ne_of_isValueChar (m.mem_valueText hc) (by decide)

theorem isWellFormed_of_mem_rowPieces {m : Metric} {p : Piece}
    (h : p ∈ rowPieces "td" (cellTexts m)) : p.isWellFormed = true := by
  have hfixed : Piece.isWellFormed ⟨"tr", ""⟩ = true ∧ Piece.isWellFormed ⟨"/tr", "\n"⟩ = true ∧
      Piece.isWellFormed ⟨"td", ""⟩ = true ∧ Piece.isWellFormed ⟨"/td", ""⟩ = true := by decide
  obtain ⟨hrow, hend, hcell, hcellEnd⟩ := hfixed
  unfold rowPieces cellPieces at h
  rw [List.mem_append, List.mem_cons, List.mem_singleton] at h
  obtain (rfl | h) | rfl := h
  · exact hrow
  · obtain ⟨text, htext, h⟩ := List.mem_flatMap.mp h
    simp only [List.mem_cons, List.not_mem_nil, or_false] at h
    obtain rfl | rfl := h
    · obtain ⟨htag, -⟩ := Piece.isWellFormed_iff.mp hcell
      exact Piece.isWellFormed_iff.mpr ⟨htag, lt_not_mem_cellTexts htext⟩
    · exact hcellEnd
  · exact hend

theorem isWellFormed_of_mem_layout {ms : List Metric} {p : Piece} (h : p ∈ layout ms) :
    p.isWellFormed = true := by
  have hhead : headPieces.all Piece.isWellFormed = true := by decide +kernel
  have hfoot : footPieces.all Piece.isWellFormed = true := by decide +kernel
  unfold layout at h
  rw [List.mem_append, List.mem_append] at h
  obtain (h | h) | h := h
  · exact List.all_eq_true.mp hhead p h
  · obtain ⟨m, -, h⟩ := List.mem_flatMap.mp h
    exact isWellFormed_of_mem_rowPieces h
  · exact List.all_eq_true.mp hfoot p h

/-- What a reader has of a metric: its name, its kind and its value. -/
theorem unescape_cellTexts (m : Metric) :
    (cellTexts m).map unescape = [m.name, m.kind.text, m.valueText] := by
  have hkind := unescape_of_isValueChar fun _ hc => m.kind.mem_text hc
  have hvalue := unescape_of_isValueChar fun _ hc => m.mem_valueText hc
  unfold cellTexts
  rw [List.map_cons, List.map_cons, List.map_cons, List.map_nil, unescape_escape, hkind, hvalue]

theorem rows_layout (ms : List Metric) :
    rows (layout ms) =
      ["name", "type", "value"] :: ms.map fun m => [m.name, m.kind.text, m.valueText] := by
  have hfoot : footPieces.foldr rowStep ([], []) = ([], []) := by simp [footPieces, rowStep]
  have hrows : (ms.flatMap fun m => rowPieces "td" (cellTexts m)).foldr rowStep ([], []) =
      ([], ms.map fun m => [m.name, m.kind.text, m.valueText]) := by
    induction ms with
    | nil => rfl
    | cons m ms ih =>
      rw [List.flatMap_cons, List.foldr_append, ih, foldr_rowStep_rowPieces (Or.inl rfl),
        unescape_cellTexts, List.map_cons]
  have htitles : ["name", "type", "value"].map unescape = ["name", "type", "value"] := by
    decide +kernel
  unfold rows layout headPieces
  rw [List.foldr_append, List.foldr_append, hfoot, hrows, List.foldr_append,
    foldr_rowStep_rowPieces (Or.inr rfl), htitles]
  simp [rowStep]

/-- **Names cannot bring markup into the page.** The escape of a text, whatever it is, has no
character of markup in it and no ampersand but those of its entities, and it is read back, so
different texts have different escapes. So a page of metrics has the tags of its fixed parts and
those of one row for each metric, in their order, and no other; and what is read in the row is the
name, the kind and the value of the metric. -/
theorem page_is_read_back :
    (∀ s : String, (∀ c ∈ (escape s).toList, c ≠ '<' ∧ c ≠ '>' ∧ c ≠ '"' ∧ c ≠ '\'') ∧
      (∀ before after, (escape s).toList = before ++ '&' :: after →
        ∃ e ∈ entities, e.2 <+: '&' :: after) ∧
      unescape (escape s) = s) ∧
    Function.Injective escape ∧
    ∀ ms : List Metric, ∃ ps, markup? (page ms) = some ps ∧
      ps = headPieces ++ (ms.flatMap fun m => rowPieces "td" (cellTexts m)) ++ footPieces ∧
      rows ps =
        ["name", "type", "value"] :: ms.map fun m => [m.name, m.kind.text, m.valueText] := by
  refine ⟨fun s => ⟨?_, ?_, unescape_escape s⟩, escape_injective, fun ms => ?_⟩
  · intro c hc
    have hmarkup := isMarkup_of_mem_escape hc
    simpa [isMarkup, and_assoc] using hmarkup
  · intro before after h
    rw [toList_escape] at h
    exact entity_of_ampersand h
  · exact ⟨layout ms, markup?_of_spelled (toList_page ms) fun p hp => isWellFormed_of_mem_layout hp,
      rfl, rows_layout ms⟩

/-- A name that looks like a cell of its own, with an entity in it that it does not mean. -/
theorem page_is_read_back_of_cell_in_name :
    let m : Metric := .counter "</td><td>&lt;'" 3
    ∃ ps, markup? (page [m]) = some ps ∧
      rows ps = [["name", "type", "value"], ["</td><td>&lt;'", "counter", "3"]] ∧
      escape m.name = "&lt;/td&gt;&lt;td&gt;&amp;lt;&#39;" ∧ unescape (escape m.name) = m.name := by
  intro m
  obtain ⟨hescape, -, hpage⟩ := page_is_read_back
  obtain ⟨ps, hread, -, hrows⟩ := hpage [m]
  exact ⟨ps, hread, hrows, by decide +kernel, (hescape m.name).2.2⟩

end Telemetry.Http.IndexPage

import Mathlib.Data.List.TakeWhile
import Telemetry.Proofs.Metric.ValueText
import Telemetry.Proofs.Server.Requests
import Telemetry.Proofs.Store.Directories

/-!
# Values in paths

A name can be any text, and any name can be spelled in a path, byte by byte if need be
(`Text.percentDecode_percentEncode`). The text of a value needs no such spelling: nothing in it ends
a part of a path. So what is shown at the path of a metric can be put into the path of an update as
it is, and spells the metric there (`value_text_reads_back`).
-/

namespace Telemetry

/-! ## Spelling a name -/

namespace Text

theorem percentDecode_digits {a b x y : UInt8} (ha : hexValue a = some x) (hb : hexValue b = some y)
    (rest : Bytes) :
    percentDecode (0x25 :: a :: b :: rest) = (x * 16 + y) :: percentDecode rest := by
  rw [percentDecode.eq_def]
  simp [ha, hb]

theorem percentDecode_cons_of_ne {x : UInt8} (h : x ≠ 0x25) (rest : Bytes) :
    percentDecode (x :: rest) = x :: percentDecode rest := by
  rw [percentDecode]
  intro a b rest' heq
  exact absurd heq h

/-- Bytes without a percent sign stand for themselves. -/
theorem percentDecode_of_not_mem {b : Bytes} (h : 0x25 ∉ b) : percentDecode b = b := by
  induction b with
  | nil => rfl
  | cons x b ih =>
    rw [List.mem_cons, not_or] at h
    rw [percentDecode_cons_of_ne (Ne.symm h.1), ih h.2]

/-- Every byte as a percent sign and two digits. -/
def percentEncode (b : Bytes) : List Char :=
  b.flatMap fun x => ['%', Nat.digitChar (x.toNat / 16), Nat.digitChar (x.toNat % 16)]

theorem percentEncode_cons (x : UInt8) (b : Bytes) :
    percentEncode (x :: b) =
      '%' :: Nat.digitChar (x.toNat / 16) :: Nat.digitChar (x.toNat % 16) :: percentEncode b := rfl

/-- **Spelled byte by byte, all bytes are read back.** -/
theorem percentDecode_percentEncode (b : Bytes) :
    percentDecode (Json.Reader.ascii (percentEncode b)) = b := by
  have hdigit : ∀ n < 16, hexValue (Bytes.ofChar (Nat.digitChar n)) = some n.toUInt8 := by decide
  induction b with
  | nil => rfl
  | cons x b ih =>
    have hx := x.toNat_lt
    have hbyte : (x.toNat / 16).toUInt8 * 16 + (x.toNat % 16).toUInt8 = x := by
      apply UInt8.toNat_inj.mp
      simp
      omega
    rw [percentEncode_cons]
    refine (percentDecode_digits (hdigit _ (by omega)) (hdigit _ (by omega)) _).trans ?_
    rw [hbyte]
    exact congrArg (x :: ·) ih

end Text

namespace Http

/-! ## The parts of a path -/

/-- Whether a character can stand in a part of a path without ending it. -/
def isPathChar (c : Char) : Bool := c ≠ '/' && c ≠ '?' && c ≠ '#'

/-- Whether a part of a path spells a name. -/
structure Spells (part name : String) : Prop where
  chars : part.toList.all isPathChar = true
  decoded : Bytes.toText? (Text.percentDecode (Bytes.ofText part)) = some name

theorem Spells.isPathChar {part name : String} (h : Spells part name) {c : Char}
    (hc : c ∈ part.toList) : isPathChar c = true := List.all_eq_true.mp h.chars c hc

theorem Spells.not_mem_slash {part name : String} (h : Spells part name) : '/' ∉ part.toList := by
  intro hslash
  cases h.isPathChar hslash

/-- **Every name can be spelled.** -/
theorem exists_spells (name : String) : ∃ part, Spells part name := by
  have hdigit : ∀ n < 16, (Nat.digitChar n).toNat < 0x80 ∧ isPathChar (Nat.digitChar n) = true := by
    decide
  have hmem : ∀ c ∈ Text.percentEncode (Bytes.ofText name),
      c.toNat < 0x80 ∧ isPathChar c = true := by
    intro c hc
    obtain ⟨x, -, hc⟩ := List.mem_flatMap.mp hc
    have hx := x.toNat_lt
    simp only [List.mem_cons, List.not_mem_nil, or_false] at hc
    obtain rfl | rfl | rfl := hc
    · decide
    · exact hdigit _ (by omega)
    · exact hdigit _ (by omega)
  refine ⟨String.ofList (Text.percentEncode (Bytes.ofText name)), ?_, ?_⟩
  · rw [String.toList_ofList]
    exact List.all_eq_true.mpr fun c hc => (hmem c hc).2
  · have hascii := Json.Reader.utf8_eq_ascii fun c hc => (hmem c hc).1
    rw [Bytes.ofText_ofList, show List.flatMap _ _ = _ from hascii,
      Text.percentDecode_percentEncode, Bytes.toText?_ofText]

/-- A text made of the characters of values spells itself. -/
theorem spells_self {s : String} (h : s.toList.all isValueChar = true) : Spells s s := by
  have hchar := List.all_eq_true.mp h
  have hascii := Json.Reader.utf8_eq_ascii fun c hc => toNat_lt_of_isValueChar (hchar c hc)
  constructor
  · refine List.all_eq_true.mpr fun c hc => ?_
    have hslash : c ≠ '/' := ne_of_isValueChar (hchar c hc) (by decide)
    have hquery : c ≠ '?' := ne_of_isValueChar (hchar c hc) (by decide)
    have hmark : c ≠ '#' := ne_of_isValueChar (hchar c hc) (by decide)
    simp [isPathChar, hslash, hquery, hmark]
  · -- there is no percent sign in it
    have hnone : 0x25 ∉ Bytes.ofText s := by
      rw [Bytes.ofText_eq, show List.flatMap _ _ = _ from hascii]
      intro hmem
      obtain ⟨c, hc, hbyte⟩ := List.mem_map.mp hmem
      have hlow := toNat_lt_of_isValueChar (hchar c hc)
      have hcode : c.toNat % 256 = '%'.toNat := congrArg UInt8.toNat hbyte
      have hpercent : c ≠ '%' := ne_of_isValueChar (hchar c hc) (by decide)
      exact hpercent (Char.toNat_inj.mp (by omega))
    rw [Text.percentDecode_of_not_mem hnone, Bytes.toText?_ofText]

theorem spells_kind (k : Kind) : Spells k.text k.text :=
  spells_self (List.all_eq_true.mpr fun _ hc => k.mem_text hc)

/-- What is shown of a metric can stand in a path as it is. -/
theorem spells_valueText (m : Metric) : Spells m.valueText m.valueText :=
  spells_self (List.all_eq_true.mpr fun _ hc => m.mem_valueText hc)

theorem Spells.ne_empty {part name : String} (h : Spells part name) (hname : name ≠ "") :
    part ≠ "" := by
  intro hempty
  have hdecoded := h.decoded
  rw [hempty, (@spells_self "" rfl).decoded] at hdecoded
  exact hname (Option.some.inj hdecoded).symm

/-- Whether a text has no query in it, nor what else ends a path. -/
def IsPath (s : String) : Prop := ∀ c ∈ s.toList, c ≠ '?' ∧ c ≠ '#'

theorem IsPath.pathOf_eq {s : String} (h : IsPath s) : Route.pathOf s = s := by
  unfold Route.pathOf
  rw [List.takeWhile_eq_self_iff.mpr, String.ofList_toList]
  intro c hc
  simp [h c hc]

theorem Spells.isPath {part name : String} (h : Spells part name) : IsPath part := by
  intro c hc
  have hchar := h.isPathChar hc
  simp only [Http.isPathChar, ne_eq, decide_not, Bool.and_eq_true, Bool.not_eq_true',
    decide_eq_false_iff_not] at hchar
  exact ⟨hchar.1.2, hchar.2⟩

/-- What stands between separators is one of the pieces or a separator. -/
theorem eq_or_mem_of_mem_intersperse {α : Type} {separator a : α} {l : List α}
    (h : a ∈ l.intersperse separator) : a = separator ∨ a ∈ l := by
  induction l with
  | nil => exact Or.inr h
  | cons x l ih =>
    cases l with
    | nil => exact Or.inr h
    | cons y l =>
      rw [List.intersperse_cons_cons, List.mem_cons, List.mem_cons] at h
      obtain rfl | rfl | h := h
      · exact Or.inr List.mem_cons_self
      · exact Or.inl rfl
      · exact (ih h).imp_right (List.mem_cons_of_mem x)

theorem isPath_intercalate {ps : List String} (h : ∀ s ∈ ps, IsPath s) :
    IsPath ("/".intercalate ps) := by
  intro c hc
  rw [String.toList_intercalate] at hc
  obtain ⟨cs, hcs, hc⟩ := List.mem_flatten.mp hc
  obtain rfl | hcs := eq_or_mem_of_mem_intersperse hcs
  · rw [List.mem_singleton.mp hc]
    decide
  · obtain ⟨s, hs, rfl⟩ := List.mem_map.mp hcs
    exact h s hs c hc

/-- The parts that a path was made of are found in it. -/
theorem split_pathOf {ps : List String} (h : ∀ s ∈ ps, ∃ name, Spells s name) :
    Text.split '/' (Route.pathOf ("/".intercalate ("" :: ps))) = "" :: ps := by
  have hall : ∀ s ∈ "" :: ps, ∃ name, Spells s name :=
    List.forall_mem_cons.mpr ⟨⟨"", spells_self rfl⟩, h⟩
  have hpath : IsPath ("/".intercalate ("" :: ps)) := by
    refine isPath_intercalate fun s hs => ?_
    obtain ⟨name, hspells⟩ := hall s hs
    exact hspells.isPath
  rw [hpath.pathOf_eq]
  refine Text.split_intercalate nofun fun s hs hslash => ?_
  obtain ⟨name, hspells⟩ := hall s hs
  exact hspells.not_mem_slash hslash

/-! ## Reading a value and writing it back -/

/-- Whether a request is let through and has a method and a target. -/
structure Asks (g : Guard) (method target : String) (r : Request) : Prop where
  method : r.method = method
  target : r.target = target
  admitted : (r.admitted? g).isSome = true

section Requests

variable {m : Metric} {part : String} {g : Guard} {r : Request}

/-- At the path of a metric its value is asked for. -/
theorem Asks.find (hpart : Spells part m.name) (hname : m.name ≠ "")
    (h : Asks g "GET" ("/value/" ++ m.kind.text ++ "/" ++ part) r) :
    r.route = .findPath m.kind.text part ∧ r.demand? g = some (.find m.kind m.name) := by
  have hkind := spells_kind m.kind
  have htarget : "/value/" ++ m.kind.text ++ "/" ++ part =
      "/".intercalate ["", "value", m.kind.text, part] := rfl
  have hsplit : Text.split '/' (Route.pathOf r.target) = ["", "value", m.kind.text, part] := by
    rw [h.target, htarget]
    refine split_pathOf ?_
    simp only [List.forall_mem_cons]
    exact ⟨⟨_, spells_self (by decide)⟩, ⟨_, hkind⟩, ⟨_, hpart⟩, nofun⟩
  have hempty : part.isEmpty = false := by simpa using hpart.ne_empty hname
  have hroute : r.route = .findPath m.kind.text part := by
    unfold Request.route Route.ofPath
    rw [hsplit]
    simp [hempty]
  have hquery : spelledQuery? m.kind.text part = some (m.kind, m.name) := by
    simp [spelledQuery?, decodeParts, hkind.decoded, hpart.decoded, Except.map,
      Kind.ofText?_text]
  refine ⟨hroute, ?_⟩
  obtain ⟨body, hbody⟩ := Option.isSome_iff_exists.mp h.admitted
  simp [Request.demand?, hbody, hroute, h.method, Route.allows, Route.isGot, Route.demand?, hquery]

/-- In the path of an update the text of a valid metric has the metric merged. -/
theorem Asks.update (hvalid : m.validate = .ok ()) (hpart : Spells part m.name)
    (hname : m.name ≠ "")
    (h : Asks g "POST" ("/update/" ++ m.kind.text ++ "/" ++ part ++ "/" ++ m.valueText) r) :
    r.route = .updatePath m.kind.text part m.valueText ∧ r.demand? g = some (.merge [m]) := by
  have hkind := spells_kind m.kind
  have htext := spells_valueText m
  have htarget : "/update/" ++ m.kind.text ++ "/" ++ part ++ "/" ++ m.valueText =
      "/".intercalate ["", "update", m.kind.text, part, m.valueText] := rfl
  have hsplit : Text.split '/' (Route.pathOf r.target) =
      ["", "update", m.kind.text, part, m.valueText] := by
    rw [h.target, htarget]
    refine split_pathOf ?_
    simp only [List.forall_mem_cons]
    exact ⟨⟨_, spells_self (by decide)⟩, ⟨_, hkind⟩, ⟨_, hpart⟩, ⟨_, htext⟩, nofun⟩
  have hempty : m.valueText.isEmpty = false := by simpa using Metric.valueText_ne_empty hvalid
  have hroute : r.route = .updatePath m.kind.text part m.valueText := by
    unfold Request.route Route.ofPath
    rw [hsplit]
    simp [hempty]
  have hmetric : spelledMetric? m.kind.text part m.valueText = some m := by
    simp [spelledMetric?, decodeParts, hkind.decoded, hpart.decoded, htext.decoded, Except.map,
      hname, Metric.ofTexts_valueText hvalid, Except.toOption]
  refine ⟨hroute, ?_⟩
  obtain ⟨body, hbody⟩ := Option.isSome_iff_exists.mp h.admitted
  simp [Request.demand?, hbody, hroute, h.method, Route.allows, Route.isGot, Route.demand?, hmetric]

end Requests

end Http

/-! ## What is written back -/

namespace Metric

/-- A gauge that takes its own value stays as it is. -/
theorem absorb_self_of_gauge {m : Metric} (h : m.kind = .gauge) : m.absorb m = m := by
  obtain ⟨name, kind, value, delta⟩ := m
  cases h
  rfl

/-- A counter that takes its own total has it twice. -/
theorem absorb_self_of_counter {m : Metric} (hvalid : m.validate = .ok ())
    (h : m.kind = .counter) :
    m.absorb m = { m with delta := m.delta.map fun d => saturatingAdd d d } := by
  obtain ⟨-, ⟨hgauge, -⟩ | ⟨-, -, d, hd⟩⟩ :=
    violation?_eq_none_iff.mp (validate_eq_ok_iff.mp hvalid)
  · rw [h] at hgauge
    cases hgauge
  · unfold absorb
    rw [h, hd]
    rfl

end Metric

/-- What is stored is merged with itself. -/
theorem mergeBatch_stored {stored : String → Option Metric} {m : Metric}
    (hvalid : m.validate = .ok ()) (h : stored m.name = some m) :
    mergeBatch stored [m] = .ok [m.absorb m] := by
  have hmember : mergeMember stored [] m = .ok [m.absorb m] := by
    rw [mergeMember_of_new (by simp), hvalid, h, foldName_some_singleton,
      Metric.merge_eq_ok rfl rfl]
    rfl
  show (mergeMember stored [] m >>= fun results => pure results) = _
  rw [hmember]
  rfl

/-- A table in which a metric takes its own place is the same map. -/
theorem Table.get?_insert_stored {t : Table} {name : String} {m : Metric}
    (h : t.get? name = some m) (other : String) : (t.insert name m).get? other = t.get? other := by
  by_cases hother : other = name
  · rw [hother, get?_insert_self, h]
  · exact get?_insert_of_ne hother t m

/-- **The text of a value is read back.** Under its kind and name, the text of a valid metric spells
the metric itself, a gauge to the last bit. So it does in paths, in which every name can be spelled:
what is shown at the path of a metric can be written back as it is, and is merged as the metric that
was shown. A gauge then stays as it was, and the total of a counter is added once more. -/
theorem value_text_reads_back {m : Metric} (hvalid : m.validate = .ok ()) :
    Metric.ofTexts m.kind.text m.name m.valueText = .ok m ∧
    (∃ part, Http.Spells part m.name) ∧
    ∀ {σ : Type} {view : σ → Table} {store : Store (StateM σ)}, AnswersAs view store →
      ∀ (g : Guard) (s : σ) (part : String) (read write : Http.Request),
        Http.Spells part m.name → (view s).get? m.name = some m →
        Http.Asks g "GET" ("/value/" ++ m.kind.text ++ "/" ++ part) read →
        Http.Asks g "POST" ("/update/" ++ m.kind.text ++ "/" ++ part ++ "/" ++ m.valueText) write →
        write.demand? g = some (.merge [m]) ∧
        ∃ s' s'' after,
          (Http.respond g store read).run s = (read.dispatched g (.plain 200 m.valueText), s') ∧
          (Http.respond g store write).run s' =
            (write.dispatched g (.plain 200 after.valueText), s'') ∧
          read.Brings (read.dispatched g (.plain 200 m.valueText)) (Bytes.ofText m.valueText) ∧
          write.Brings (write.dispatched g (.plain 200 after.valueText))
            (Bytes.ofText after.valueText) ∧
          view s' = view s ∧ view s'' = (view s).insert m.name after ∧
          (m.kind = .gauge → after = m ∧ ∀ name, (view s'').get? name = (view s).get? name) ∧
          (m.kind = .counter →
            after = { m with delta := m.delta.map fun d => saturatingAdd d d }) := by
  have hname : m.name ≠ "" :=
    (Metric.violation?_eq_none_iff.mp (Metric.validate_eq_ok_iff.mp hvalid)).1
  refine ⟨Metric.ofTexts_valueText hvalid, Http.exists_spells m.name, ?_⟩
  intro σ view store hstore g s part read write hpart hstored hread hwrite
  obtain ⟨hreadRoute, hfind⟩ := hread.find hpart hname
  obtain ⟨hwriteRoute, hmerge⟩ := hwrite.update hvalid hpart hname
  have hfound := Http.respond_find hstore hfind s
  rw [hstored, Option.filter_some, if_pos (decide_eq_true rfl), hreadRoute] at hfound
  have hview := Http.unchanged_of_reading (r := read) (g := g) hstore (by rw [hreadRoute]; rfl) s
  have hmerged := Http.respond_merge hstore hmerge ((Http.respond g store read).run s).2
  rw [hview, mergeBatch_stored hvalid hstored, hwriteRoute] at hmerged
  obtain ⟨hresponse, -, -, hwritten⟩ := hmerged
  have hinsert : (view s).insertAll [m.absorb m] = (view s).insert m.name (m.absorb m) := by
    show (view s).insert (m.absorb m).name (m.absorb m) = _
    rw [Metric.absorb_name]
  rw [hinsert] at hwritten
  refine ⟨hmerge, _, _, m.absorb m, Prod.ext hfound.1 rfl, Prod.ext hresponse rfl,
    read.brings_dispatched g rfl, write.brings_dispatched g rfl, hview, hwritten, ?_,
    Metric.absorb_self_of_counter hvalid⟩
  intro hgauge
  have hself := Metric.absorb_self_of_gauge hgauge
  refine ⟨hself, fun name => ?_⟩
  rw [hwritten, hself]
  exact Table.get?_insert_stored hstored name

/-- The negative zero of a gauge whose name has a slash and a space in it. -/
theorem value_text_reads_back_of_negative_zero :
    let m : Metric := .gauge "cpu/load 1" ⟨0x8000000000000000⟩
    let g : Guard := ⟨none, none, none⟩
    let s : DumpingStore := { DumpingStore.plain .empty with table := ⟨[(m.name, m)]⟩ }
    let read : Http.Request := ⟨"GET", "/value/gauge/cpu%2Fload%201", [], []⟩
    let write : Http.Request := ⟨"POST", "/update/gauge/cpu%2Fload%201/-0", [], []⟩
    Metric.ofTexts "gauge" "cpu/load 1" "-0" = .ok m ∧
      ∃ first second s' s'', (Http.respond g DumpingStore.call read).run s = (first, s') ∧
        (Http.respond g DumpingStore.call write).run s' = (second, s'') ∧
        first.status = 200 ∧ first.body = Bytes.ofText "-0" ∧
        second.status = 200 ∧ second.body = Bytes.ofText "-0" ∧
        s''.table = s.table := by
  intro m g s read write
  have htext : m.valueText = "-0" := by decide +kernel
  have hvalid : m.validate = .ok () := by decide +kernel
  have hpart : Http.Spells "cpu%2Fload%201" m.name := ⟨by decide +kernel, by decide +kernel⟩
  have hread : Http.Asks g "GET" ("/value/" ++ m.kind.text ++ "/" ++ "cpu%2Fload%201") read :=
    ⟨rfl, by decide, by decide⟩
  have hwrite : Http.Asks g "POST"
      ("/update/" ++ m.kind.text ++ "/" ++ "cpu%2Fload%201" ++ "/" ++ m.valueText) write := by
    rw [htext]
    exact ⟨rfl, by decide, by decide⟩
  obtain ⟨hspelled, -, hall⟩ := value_text_reads_back hvalid
  obtain ⟨-, s', s'', after, hfirst, hsecond, -, -, -, hinsert, hgauge, -⟩ :=
    hall DumpingStore.answersAs_call g s "cpu%2Fload%201" read write hpart (by decide) hread hwrite
  obtain ⟨rfl, -⟩ := hgauge rfl
  rw [htext] at hspelled hfirst hsecond
  exact ⟨hspelled, _, _, s', s'', hfirst, hsecond, by decide +kernel, by decide +kernel,
    by decide +kernel, by decide +kernel, hinsert.trans (by decide)⟩

end Telemetry

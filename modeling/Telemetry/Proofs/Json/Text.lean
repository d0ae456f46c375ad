import Telemetry.Json.Reader
import Telemetry.Json.Writer
import Telemetry.Proofs.Utf8

/-!
# Reading back what was written

A reader *takes* some bytes if it takes exactly these off its input whenever a comma, a closing
bracket or nothing follows them (`Reader.Takes`). What a reader takes as a whole document and what
it takes as a part of a larger one is then the same, and readers that are put together take what
is put together of their parts.

The first thing read back is a text: whatever its characters are, the quoted text is taken and
gives it (`Reader.takes_quote`).
-/

namespace Telemetry.Json.Reader

variable {α β : Type}

/-! ## Steps of a reader -/

theorem bind_of_ok {item : Reader α} {next : α → Reader β} {limit : Nat} {input rest : Bytes}
    {a : α} (h : item limit input = .ok (a, rest)) :
    (item >>= next) limit input = next a limit rest := by
  show (item limit input >>= fun p => next p.1 limit p.2) = _
  rw [h]
  rfl

theorem next_of_solid {b : UInt8} (h : isBlank b = false) (limit : Nat) (rest : Bytes) :
    next limit (b :: rest) = .ok (some b, b :: rest) := by
  unfold next
  rw [List.dropWhile_cons_of_neg (by simp [h])]
  rfl

theorem start_of_solid {b : UInt8} (h : isBlank b = false) (limit : Nat) (rest : Bytes) :
    start limit (b :: rest) = .ok (b, b :: rest) := bind_of_ok (next_of_solid h limit rest)

theorem close_self {b : UInt8} (h : isBlank b = false) (limit : Nat) (rest : Bytes) :
    close b limit (b :: rest) = .ok ((), rest) := by
  refine (bind_of_ok (next_of_solid h limit rest)).trans ?_
  dsimp only
  rw [if_pos rfl]
  rfl

/-! ## What a reader takes -/

/-- Whether a value can only end before some input: nothing follows, or a comma or a closing
bracket. -/
def Ends (rest : Bytes) : Prop := ∀ b ∈ rest.head?, b = 0x2c ∨ b = 0x5d ∨ b = 0x7d

theorem ends_nil : Ends [] := by
  intro b hb
  cases hb

theorem ends_cons {b : UInt8} (h : b = 0x2c ∨ b = 0x5d ∨ b = 0x7d) (rest : Bytes) :
    Ends (b :: rest) := by
  intro b' hb'
  cases hb'
  exact h

/-- Whether a reader takes just these bytes and gives this value, if a value can end behind
them. -/
def Takes (item : Reader α) (front : Bytes) (a : α) : Prop :=
  ∀ limit rest, front.length ≤ limit → Ends rest → item limit (front ++ rest) = .ok (a, rest)

/-- Whether the first of some bytes is neither a blank nor that of `null`. -/
def IsPresent (bytes : Bytes) : Prop := ∃ b rest, bytes = b :: rest ∧ isBlank b = false ∧ b ≠ 0x6e

namespace Takes

variable {item : Reader α} {front : Bytes} {a : α}

/-- A document that is taken as a value is read as this value. -/
theorem parse (h : Takes item front a) : Reader.parse item front = .ok a := by
  have hrun := h (front.length + 1) [] (Nat.le_succ _) ends_nil
  rw [List.append_nil] at hrun
  unfold Reader.parse
  rw [hrun]
  rfl

/-- What is done with a value does not matter to what is taken. -/
theorem map (h : Takes item front a) (f : α → β) : Takes (do pure (f (← item))) front (f a) :=
  fun limit rest hlimit hrest => bind_of_ok (h limit rest hlimit hrest)

/-- A value that may be `null` is read as itself if it does not begin like `null`. -/
theorem nullable (h : Takes item front a) (hpresent : IsPresent front) :
    Takes (Reader.nullable item) front (some a) := by
  obtain ⟨b, front, rfl, hsolid, hnull⟩ := hpresent
  intro limit rest hlimit hrest
  refine (bind_of_ok (next_of_solid hsolid limit _)).trans ?_
  refine .trans (congrFun (congrFun (?_ : _ = (do pure (some (← item)) : Reader _)) limit) _)
    (h.map some limit rest hlimit hrest)
  split
  next heq => exact absurd (Option.some.inj heq) hnull
  next => rfl

end Takes

/-- `null` is read as no value. -/
theorem takes_null (item : Reader α) : Takes (nullable item) (Bytes.ofText "null") none := by
  have hnull : Bytes.ofText "null" = [0x6e, 0x75, 0x6c, 0x6c] := (Bytes.ofText_eq "null").trans rfl
  intro limit rest _ _
  rw [hnull]
  refine (bind_of_ok (next_of_solid (b := 0x6e) (by decide) limit _)).trans ?_
  refine bind_of_ok (a := ()) ?_
  unfold word
  rw [hnull]
  rfl

/-! ## Texts -/

/-- Whether a byte inside a quoted text stands for itself. -/
def IsPlain (b : UInt8) : Prop := 0x20 ≤ b.toNat ∧ b ≠ 0x22 ∧ b ≠ 0x5c

theorem isPlain_of_le {b : UInt8} (h : 0x80 ≤ b.toNat) : IsPlain b := by
  refine ⟨by omega, ?_, ?_⟩ <;> rintro rfl <;> exact absurd h (by decide)

/-- A byte that stands for itself is one step. -/
theorem textBytes_cons {b : UInt8} (h : IsPlain b) (fuel : Nat) (soFar rest : Bytes) :
    textBytes (fuel + 1) soFar (b :: rest) = textBytes fuel (b :: soFar) rest := by
  obtain ⟨hprintable, hquote, hslash⟩ := h
  rw [textBytes.eq_def]
  dsimp only
  rw [if_neg hquote, if_neg hslash, if_neg (Nat.not_lt.mpr hprintable)]

/-- A character that is written by its number is one step. -/
theorem textBytes_escaped {input rest : Bytes} {c : Char}
    (h : escapedChar input = some (c, rest)) (fuel : Nat) (soFar : Bytes) :
    textBytes (fuel + 1) soFar (0x5c :: 0x75 :: input) =
      textBytes fuel ((Bytes.ofText c.toString).reverse ++ soFar) rest := by
  rw [textBytes, if_neg (by decide), if_pos rfl, if_pos rfl, h]

theorem textBytes_plain {bytes : Bytes} (h : ∀ b ∈ bytes, IsPlain b) (fuel : Nat)
    (soFar rest : Bytes) :
    textBytes (fuel + bytes.length) soFar (bytes ++ rest) =
      textBytes fuel (bytes.reverse ++ soFar) rest := by
  induction bytes generalizing soFar with
  | nil => rfl
  | cons b bytes ih =>
    rw [List.length_cons, ← Nat.add_assoc, List.cons_append,
      textBytes_cons (h b List.mem_cons_self),
      ih fun b' hb' => h b' (List.mem_cons_of_mem b hb'), List.reverse_cons, List.append_assoc]
    rfl

/-- The bytes of some characters. -/
abbrev utf8 (cs : List Char) : Bytes := cs.flatMap String.utf8EncodeChar

/-- Whether some bytes inside a quoted text stand for some others, however many steps are left
after those it takes to read them. -/
def StandsFor (written bytes : Bytes) : Prop :=
  ∃ steps ≤ written.length, ∀ fuel soFar rest,
    textBytes (fuel + steps) soFar (written ++ rest) = textBytes fuel (bytes.reverse ++ soFar) rest

namespace StandsFor

theorem nil : StandsFor [] [] := ⟨0, Nat.le_refl 0, fun _ _ _ => rfl⟩

theorem append {written written' bytes bytes' : Bytes} (h : StandsFor written bytes)
    (h' : StandsFor written' bytes') : StandsFor (written ++ written') (bytes ++ bytes') := by
  obtain ⟨n, hn, h⟩ := h
  obtain ⟨n', hn', h'⟩ := h'
  refine ⟨n' + n, ?_, fun fuel soFar rest => ?_⟩
  · rw [List.length_append]
    omega
  · rw [← Nat.add_assoc, List.append_assoc, h, h', List.reverse_append, List.append_assoc]

theorem plain {bytes : Bytes} (h : ∀ b ∈ bytes, IsPlain b) : StandsFor bytes bytes :=
  ⟨bytes.length, Nat.le_refl _, textBytes_plain h⟩

/-- An escape is one step. -/
theorem escape {e b : UInt8} (h : shortEscape e = some b) (hu : e ≠ 0x75) :
    StandsFor [0x5c, e] [b] := by
  refine ⟨1, Nat.le_succ 1, fun fuel soFar rest => ?_⟩
  show textBytes (fuel + 1) soFar (0x5c :: e :: rest) = _
  rw [textBytes, if_neg (by decide), if_pos rfl, if_neg hu, h]
  rfl

end StandsFor

/-- The digits of a control character are read as its number. -/
theorem codeUnit_control {n : Nat} (h : n < 0x20) (rest : Bytes) :
    codeUnit (0x30 :: 0x30 :: Bytes.ofChar (Nat.digitChar (n / 16)) ::
      Bytes.ofChar (Nat.digitChar (n % 16)) :: rest) = some (n, rest) := by
  have hdigit : ∀ d < 16, hexDigit (Bytes.ofChar (Nat.digitChar d)) = some d := by decide
  unfold codeUnit
  dsimp only
  rw [show hexDigit 0x30 = some 0 from rfl, hdigit (n / 16) (by omega),
    hdigit (n % 16) (by omega)]
  simp only [Nat.zero_mul, Nat.zero_add, Option.some.injEq, Prod.mk.injEq, and_true]
  omega

/-- A control character that has no short escape is written as its number. -/
theorem standsFor_control {c : Char} (h : c.toNat < 0x20) :
    StandsFor (utf8 ['\\', 'u', '0', '0', Nat.digitChar (c.toNat / 16),
      Nat.digitChar (c.toNat % 16)]) (String.utf8EncodeChar c) := by
  have hdigit : ∀ d < 16, String.utf8EncodeChar (Nat.digitChar d) =
      [Bytes.ofChar (Nat.digitChar d)] := by decide
  have hbytes : utf8 ['\\', 'u', '0', '0', Nat.digitChar (c.toNat / 16),
      Nat.digitChar (c.toNat % 16)] = [0x5c, 0x75, 0x30, 0x30,
        Bytes.ofChar (Nat.digitChar (c.toNat / 16)),
        Bytes.ofChar (Nat.digitChar (c.toNat % 16))] := by
    simp only [utf8, List.flatMap_cons, List.flatMap_nil]
    rw [hdigit (c.toNat / 16) (by omega), hdigit (c.toNat % 16) (by omega)]
    rfl
  refine ⟨1, ?_, fun fuel soFar rest => ?_⟩
  · rw [hbytes]
    exact Nat.succ_le_succ (Nat.zero_le _)
  have hchar : escapedChar (0x30 :: 0x30 :: Bytes.ofChar (Nat.digitChar (c.toNat / 16)) ::
      Bytes.ofChar (Nat.digitChar (c.toNat % 16)) :: rest) = some (c, rest) := by
    unfold escapedChar
    rw [codeUnit_control h]
    dsimp only
    rw [if_neg (by omega), if_neg (by omega), Char.ofNat_toNat]
  have htext : Bytes.ofText c.toString = String.utf8EncodeChar c := by
    rw [Bytes.ofText_eq, Char.toString, String.toList_singleton, List.flatMap_singleton]
  rw [hbytes, ← htext]
  exact textBytes_escaped hchar fuel soFar

/-- What is written for a character stands for its bytes. -/
theorem standsFor_quoteChar (c : Char) :
    StandsFor (utf8 (quoteChar c)) (String.utf8EncodeChar c) := by
  unfold quoteChar
  split
  · exact .escape rfl (by decide)
  · exact .escape rfl (by decide)
  · exact .escape rfl (by decide)
  · exact .escape rfl (by decide)
  · exact .escape rfl (by decide)
  · exact .escape rfl (by decide)
  · exact .escape rfl (by decide)
  next hquote hslash _ _ _ _ _ =>
    -- the character has no short escape: it is written by its number, or as it is
    split
    next h => exact standsFor_control h
    next h =>
      rw [utf8, List.flatMap_singleton]
      refine .plain ?_
      by_cases hascii : c.toNat < 0x80
      · have hbyte : (Bytes.ofChar c).toNat = c.toNat := by
          show c.toNat.toUInt8.toNat = c.toNat
          rw [Nat.toUInt8, UInt8.toNat_ofNat']
          omega
        have hchar : ∀ b : UInt8, Bytes.ofChar c = b → c = Char.ofNat b.toNat := by
          rintro b rfl
          rw [hbyte, Char.ofNat_toNat]
        rw [Bytes.utf8EncodeChar_ascii hascii]
        refine fun b hb => ?_
        rw [List.mem_singleton.mp hb]
        exact ⟨by omega, fun hb => hquote (hchar _ hb), fun hb => hslash (hchar _ hb)⟩
      · -- no byte of another character can be taken for a quote or an escape
        exact fun b hb => isPlain_of_le (Bytes.le_of_mem_utf8EncodeChar hascii b hb)

theorem standsFor_quoteChars (cs : List Char) :
    StandsFor (utf8 (cs.flatMap quoteChar)) (utf8 cs) := by
  induction cs with
  | nil => exact .nil
  | cons c cs ih =>
    rw [List.flatMap_cons, utf8, List.flatMap_append, utf8, List.flatMap_cons]
    exact (standsFor_quoteChar c).append ih

/-- The bytes of a quoted text behind its opening quote. -/
def quotedBytes (s : String) : Bytes := utf8 (s.toList.flatMap quoteChar) ++ [0x22]

theorem ofText_quote (s : String) : Bytes.ofText (quote s) = 0x22 :: quotedBytes s := by
  unfold quote quotedBytes
  rw [Bytes.ofText_ofList, List.flatMap_cons, List.flatMap_append]
  rfl

/-- **A quoted text is read as the text**, whatever its characters are and whatever follows. -/
theorem quotedText_quotedBytes (s : String) {limit : Nat}
    (hlimit : (quotedBytes s).length ≤ limit) (rest : Bytes) :
    quotedText limit (quotedBytes s ++ rest) = .ok (s, rest) := by
  obtain ⟨steps, hsteps, hread⟩ := standsFor_quoteChars s.toList
  unfold quotedBytes at hlimit ⊢
  rw [List.length_append, List.length_singleton] at hlimit
  -- one step is left for the closing quote
  obtain ⟨fuel, rfl⟩ : ∃ fuel, limit = fuel + 1 + steps :=
    ⟨limit - steps - 1, by omega⟩
  have htext : textBytes (fuel + 1 + steps) []
      (utf8 (s.toList.flatMap quoteChar) ++ [0x22] ++ rest) = some (Bytes.ofText s, rest) := by
    rw [List.append_assoc, hread, Bytes.ofText_eq]
    show textBytes (fuel + 1) ((utf8 s.toList).reverse ++ []) (0x22 :: rest) = _
    unfold textBytes
    rw [if_pos rfl, List.append_nil, List.reverse_reverse]
  unfold quotedText
  rw [htext]
  dsimp only
  rw [Bytes.toText?_ofText]

/-- A quoted text is taken where a text is expected. -/
theorem takes_quote (expected s : String) :
    Takes (text expected) (Bytes.ofText (quote s)) s := by
  intro limit rest hlimit hrest
  rw [ofText_quote] at hlimit ⊢
  refine (bind_of_ok (start_of_solid (by decide) limit _)).trans ?_
  rw [if_pos rfl]
  exact quotedText_quotedBytes s (Nat.le_of_succ_le hlimit) rest

/-- A quoted word is taken where a choice of words is expected. -/
theorem takes_choice {known : List String} {pick : String → Option α} {s : String} {a : α}
    (h : pick s = some a) : Takes (choice known pick) (Bytes.ofText (quote s)) a := by
  intro limit rest hlimit hrest
  rw [ofText_quote] at hlimit ⊢
  refine (bind_of_ok (start_of_solid (by decide) limit _)).trans ?_
  rw [if_pos rfl]
  refine (bind_of_ok (show skip limit (0x22 :: quotedBytes s ++ rest) =
    .ok ((), quotedBytes s ++ rest) from rfl)).trans ?_
  refine (bind_of_ok (quotedText_quotedBytes s (Nat.le_of_succ_le hlimit) rest)).trans ?_
  unfold knownWord
  rw [h]
  rfl

end Telemetry.Json.Reader

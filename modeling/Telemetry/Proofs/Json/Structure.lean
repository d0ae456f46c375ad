import Telemetry.Json.Record
import Telemetry.Proofs.Json.Text

/-!
# Reading back objects and lists

An object whose members are taken by the fields of a record one after another is taken by the
record (`Record.takes_object`), and a list whose items are taken is taken (`Reader.takes_array`).
-/

namespace Telemetry.Json

/-- Written values behind the first one, with the commas between them. -/
def tailBytes (items : List String) : Bytes := items.flatMap fun s => 0x2c :: Bytes.ofText s

theorem ofText_intercalate (item : String) (items : List String) :
    Bytes.ofText (",".intercalate (item :: items)) = Bytes.ofText item ++ tailBytes items := by
  induction items generalizing item with
  | nil =>
    rw [String.intercalate_singleton]
    exact (List.append_nil _).symm
  | cons next items ih =>
    rw [String.intercalate_cons_cons, Bytes.ofText_append, Bytes.ofText_append, ih]
    show _ ++ Bytes.ofText "," ++ _ = _ ++ (0x2c :: Bytes.ofText next ++ tailBytes items)
    rw [show Bytes.ofText "," = [0x2c] from (Bytes.ofText_eq _).trans rfl, List.append_assoc]
    rfl

/-- A value ends before those behind it, or before the closing bracket. -/
theorem ends_tailBytes (items : List String) {b : UInt8} (h : b = 0x5d ∨ b = 0x7d) (rest : Bytes) :
    Reader.Ends (tailBytes items ++ b :: rest) := by
  cases items with
  | nil => exact Reader.ends_cons (Or.inr h) rest
  | cons item items => exact Reader.ends_cons (Or.inl rfl) _

namespace Reader

variable {α : Type}

/-! ## Lists -/

/-- Whether some bytes are those of a value in a list: no blank and no closing bracket comes
first. -/
def BeginsItem (bytes : Bytes) : Prop := ∃ b rest, bytes = b :: rest ∧ isBlank b = false ∧ b ≠ 0x5d

theorem moreElements_first {bytes : Bytes} (h : BeginsItem bytes) (limit : Nat) (rest : Bytes) :
    moreElements true limit (bytes ++ rest) = .ok (true, bytes ++ rest) := by
  obtain ⟨b, bytes, rfl, hsolid, hclose⟩ := h
  refine (bind_of_ok (next_of_solid hsolid limit _)).trans ?_
  refine .trans (congrFun (congrFun (?_ : _ = (pure true : Reader Bool)) limit) _) rfl
  split
  next heq => cases heq
  next heq => exact absurd (Option.some.inj heq) hclose
  next => rfl

theorem moreElements_next {bytes : Bytes} (h : BeginsItem bytes) (limit : Nat) (rest : Bytes) :
    moreElements false limit (0x2c :: (bytes ++ rest)) = .ok (true, bytes ++ rest) := by
  obtain ⟨b, bytes, rfl, hsolid, hclose⟩ := h
  refine (bind_of_ok (next_of_solid (b := 0x2c) (by decide) limit _)).trans ?_
  refine (bind_of_ok (show skip limit (0x2c :: (b :: bytes ++ rest)) =
    .ok ((), b :: bytes ++ rest) from rfl)).trans ?_
  refine (bind_of_ok (next_of_solid hsolid limit _)).trans ?_
  refine .trans (congrFun (congrFun (?_ : _ = (pure true : Reader Bool)) limit) _) rfl
  split
  next heq => exact absurd (Option.some.inj heq) hclose
  next => rfl
  next heq => cases heq

theorem moreElements_end (isFirst : Bool) (limit : Nat) (rest : Bytes) :
    moreElements isFirst limit (0x5d :: rest) = .ok (false, 0x5d :: rest) :=
  bind_of_ok (next_of_solid (by decide) limit rest)

variable {item : Reader α} {γ : Type} {write : γ → String} {value : γ → α}

/-- Whether the items of a list are taken as they are written. -/
def TakesItems (item : Reader α) (write : γ → String) (value : γ → α) (xs : List γ) : Prop :=
  ∀ x ∈ xs, Takes item (Bytes.ofText (write x)) (value x) ∧ BeginsItem (Bytes.ofText (write x))

/-- An item is read, and those behind it are left. -/
theorem elements_item {x : γ} (htakes : Takes item (Bytes.ofText (write x)) (value x))
    {isFirst : Bool} (soFar : List α) (fuel : Nat) {limit : Nat} {input rest : Bytes}
    (hmore : moreElements isFirst limit input = .ok (true, Bytes.ofText (write x) ++ rest))
    (hlimit : (Bytes.ofText (write x)).length ≤ limit) (hrest : Ends rest) :
    elements item (fuel + 1) isFirst soFar limit input =
      elements item fuel false (value x :: soFar) limit rest := by
  refine (bind_of_ok hmore).trans ?_
  exact bind_of_ok (htakes limit rest hlimit hrest)

/-- The items behind those that are read already. -/
theorem elements_tail {xs : List γ} (h : TakesItems item write value xs) (soFar : List α)
    {fuel limit : Nat} (hfuel : xs.length < fuel)
    (hlimit : (tailBytes (xs.map write)).length ≤ limit) (rest : Bytes) :
    elements item fuel false soFar limit (tailBytes (xs.map write) ++ 0x5d :: rest) =
      .ok (soFar.reverse ++ xs.map value, 0x5d :: rest) := by
  induction xs generalizing soFar fuel with
  | nil =>
    obtain ⟨fuel, rfl⟩ : ∃ n, fuel = n + 1 := ⟨fuel - 1, by omega⟩
    refine (bind_of_ok (moreElements_end false limit rest)).trans ?_
    show Except.ok (soFar.reverse, _) = _
    rw [List.map_nil, List.append_nil]
  | cons x xs ih =>
    obtain ⟨htakes, hbegins⟩ := h x List.mem_cons_self
    rw [List.length_cons] at hfuel
    obtain ⟨fuel, rfl⟩ : ∃ n, fuel = n + 1 := ⟨fuel - 1, by omega⟩
    have hbytes : tailBytes ((x :: xs).map write) =
        0x2c :: (Bytes.ofText (write x) ++ tailBytes (xs.map write)) := rfl
    rw [hbytes, List.length_cons, List.length_append] at hlimit
    rw [hbytes, List.cons_append, List.append_assoc,
      elements_item htakes soFar fuel (moreElements_next hbegins limit _) (by omega)
        (ends_tailBytes _ (Or.inl rfl) rest),
      ih (fun x' hx' => h x' (List.mem_cons_of_mem x hx')) _ (by omega) (by omega),
      List.reverse_cons, List.append_assoc]
    rfl

theorem length_le_tailBytes (items : List String) : items.length ≤ (tailBytes items).length := by
  induction items with
  | nil => exact Nat.le_refl 0
  | cons item items ih =>
    show items.length + 1 ≤ (0x2c :: Bytes.ofText item ++ tailBytes items).length
    rw [List.length_append, List.length_cons]
    omega

/-- The bytes of a list behind its opening bracket. -/
theorem ofText_array (items : List String) :
    Bytes.ofText (array items) = 0x5b :: (Bytes.ofText (",".intercalate items) ++ [0x5d]) := by
  unfold array
  rw [Bytes.ofText_append, Bytes.ofText_append,
    show Bytes.ofText "[" = [0x5b] from (Bytes.ofText_eq _).trans rfl,
    show Bytes.ofText "]" = [0x5d] from (Bytes.ofText_eq _).trans rfl]
  rfl

/-- **A list is taken if its items are.** -/
theorem takes_array {xs : List γ} (h : TakesItems item write value xs) :
    Takes (list item) (Bytes.ofText (array (xs.map write))) (xs.map value) := by
  intro limit rest hlimit hrest
  rw [ofText_array] at hlimit ⊢
  rw [List.length_cons, List.length_append, List.length_singleton] at hlimit
  refine (bind_of_ok (start_of_solid (b := 0x5b) (by decide) limit _)).trans ?_
  rw [if_pos rfl]
  refine (bind_of_ok (show skip limit _ =
    .ok ((), Bytes.ofText (",".intercalate (xs.map write)) ++ [0x5d] ++ rest) from rfl)).trans ?_
  rw [List.append_assoc]
  -- each item takes a byte at least, so the limit is enough for all of them
  have helements : elements item limit true [] limit
      (Bytes.ofText (",".intercalate (xs.map write)) ++ 0x5d :: rest) =
        .ok (xs.map value, 0x5d :: rest) := by
    cases xs with
    | nil =>
      obtain ⟨limit, rfl⟩ : ∃ n, limit = n + 1 := ⟨limit - 1, by omega⟩
      rw [List.map_nil, String.intercalate_nil,
        show Bytes.ofText "" = [] from (Bytes.ofText_eq _).trans rfl]
      exact (bind_of_ok (moreElements_end true (limit + 1) rest)).trans rfl
    | cons x xs =>
      obtain ⟨htakes, hbegins⟩ := h x List.mem_cons_self
      rw [List.map_cons, ofText_intercalate, List.length_append] at hlimit
      have hcount := length_le_tailBytes (xs.map write)
      rw [List.length_map] at hcount
      obtain ⟨fuel, rfl⟩ : ∃ n, limit = n + 1 := ⟨limit - 1, by omega⟩
      rw [List.map_cons, ofText_intercalate, List.append_assoc,
        elements_item htakes [] fuel (moreElements_first hbegins _ _) (by omega)
          (ends_tailBytes _ (Or.inl rfl) rest)]
      exact elements_tail (fun x' hx' => h x' (List.mem_cons_of_mem x hx')) _ (by omega) (by omega)
        rest
  refine (bind_of_ok (show (read : Reader Nat) limit _ = .ok (limit, _) from rfl)).trans ?_
  refine (bind_of_ok helements).trans ?_
  exact (bind_of_ok (close_self (by decide) limit rest))

end Reader
namespace Record

open Reader

variable {σ : Type} {fields : List (Field σ)}

/-! ## Objects -/

/-- A member of an object as it is written. -/
def memberText (m : String × String) : String := quote m.1 ++ ":" ++ m.2

theorem ofText_memberText (m : String × String) :
    Bytes.ofText (memberText m) = 0x22 :: (quotedBytes m.1 ++ 0x3a :: Bytes.ofText m.2) := by
  unfold memberText
  rw [Bytes.ofText_append, Bytes.ofText_append, ofText_quote,
    show Bytes.ofText ":" = [0x3a] from (Bytes.ofText_eq _).trans rfl, List.append_assoc]
  rfl

/-- Whether the members of an object are taken by fields of a record, one after another, each by
another field, until no field that is needed is left. -/
def Loads (fields : List (Field σ)) : List String → σ → List (String × String) → σ → Prop
  | seen, record, [], result =>
    record = result ∧ fields.find? (fun field => field.required && !seen.contains field.name) = none
  | seen, record, m :: ms, result =>
    ∃ field next, fields.find? (fun field => field.name = m.1) = some field ∧ m.1 ∉ seen ∧
      Takes (field.load record) (Bytes.ofText m.2) next ∧ Loads fields (m.1 :: seen) next ms result

theorem moreKeys_first (limit : Nat) (rest : Bytes) :
    moreKeys true limit (0x22 :: rest) = .ok (true, 0x22 :: rest) :=
  (bind_of_ok (next_of_solid (by decide) limit rest)).trans rfl

theorem moreKeys_next (limit : Nat) (rest : Bytes) :
    moreKeys false limit (0x2c :: 0x22 :: rest) = .ok (true, 0x22 :: rest) := by
  refine (bind_of_ok (next_of_solid (by decide) limit _)).trans ?_
  refine (bind_of_ok (show skip limit (0x2c :: 0x22 :: rest) = .ok ((), 0x22 :: rest) from
    rfl)).trans ?_
  exact (bind_of_ok (next_of_solid (by decide) limit rest)).trans rfl

theorem moreKeys_end (isFirst : Bool) (limit : Nat) (rest : Bytes) :
    moreKeys isFirst limit (0x7d :: rest) = .ok (false, 0x7d :: rest) :=
  (bind_of_ok (next_of_solid (by decide) limit rest)).trans rfl

theorem colon_self (limit : Nat) (rest : Bytes) : colon limit (0x3a :: rest) = .ok ((), rest) :=
  (bind_of_ok (next_of_solid (by decide) limit rest)).trans rfl

/-- A member is read by its field, and those behind it are left. -/
theorem members_member {m : String × String} {field : Field σ} {seen : List String}
    {record next : σ} (hfind : fields.find? (fun field => field.name = m.1) = some field)
    (hseen : m.1 ∉ seen) (htakes : Takes (field.load record) (Bytes.ofText m.2) next)
    {isFirst : Bool} (fuel : Nat) {limit : Nat} {input rest : Bytes}
    (hmore : moreKeys isFirst limit input = .ok (true, Bytes.ofText (memberText m) ++ rest))
    (hlimit : (Bytes.ofText (memberText m)).length ≤ limit) (hrest : Ends rest) :
    members fields (fuel + 1) isFirst seen record limit input =
      members fields fuel false (m.1 :: seen) next limit rest := by
  rw [ofText_memberText] at hmore hlimit
  rw [List.length_cons, List.length_append, List.length_cons] at hlimit
  refine (bind_of_ok hmore).trans ?_
  rw [if_pos rfl]
  refine (bind_of_ok (show skip limit _ =
    .ok ((), quotedBytes m.1 ++ 0x3a :: Bytes.ofText m.2 ++ rest) from rfl)).trans ?_
  rw [List.append_assoc]
  refine (bind_of_ok (quotedText_quotedBytes m.1 (by omega) _)).trans ?_
  rw [hfind]
  dsimp only
  rw [if_neg hseen]
  refine (bind_of_ok (colon_self limit _)).trans ?_
  exact bind_of_ok (htakes limit rest (by omega) hrest)

/-- The members behind those that are read already. -/
theorem members_tail {ms : List (String × String)} {seen : List String} {record result : σ}
    (h : Loads fields seen record ms result) {fuel limit : Nat} (hfuel : ms.length < fuel)
    (hlimit : (tailBytes (ms.map memberText)).length ≤ limit) (rest : Bytes) :
    members fields fuel false seen record limit (tailBytes (ms.map memberText) ++ 0x7d :: rest) =
      .ok (result, 0x7d :: rest) := by
  induction ms generalizing seen record fuel with
  | nil =>
    obtain ⟨rfl, hcomplete⟩ := h
    obtain ⟨fuel, rfl⟩ : ∃ n, fuel = n + 1 := ⟨fuel - 1, by omega⟩
    refine (bind_of_ok (moreKeys_end false limit rest)).trans ?_
    rw [if_neg Bool.false_ne_true, hcomplete]
    rfl
  | cons m ms ih =>
    obtain ⟨field, next, hfind, hseen, htakes, hrest⟩ := h
    rw [List.length_cons] at hfuel
    obtain ⟨fuel, rfl⟩ : ∃ n, fuel = n + 1 := ⟨fuel - 1, by omega⟩
    have hbytes : tailBytes ((m :: ms).map memberText) =
        0x2c :: (Bytes.ofText (memberText m) ++ tailBytes (ms.map memberText)) := rfl
    have hmore : moreKeys false limit (0x2c :: (Bytes.ofText (memberText m) ++
        (tailBytes (ms.map memberText) ++ 0x7d :: rest))) =
          .ok (true, Bytes.ofText (memberText m) ++
            (tailBytes (ms.map memberText) ++ 0x7d :: rest)) := by
      rw [ofText_memberText]
      exact moreKeys_next limit _
    rw [hbytes, List.length_cons, List.length_append] at hlimit
    rw [hbytes, List.cons_append, List.append_assoc,
      members_member hfind hseen htakes fuel hmore (by omega) (ends_tailBytes _ (Or.inr rfl) rest)]
    exact ih hrest (by omega) (by omega)

/-- The bytes of an object behind its opening brace. -/
theorem ofText_object (ms : List (String × String)) :
    Bytes.ofText (object ms) =
      0x7b :: (Bytes.ofText (",".intercalate (ms.map memberText)) ++ [0x7d]) := by
  unfold object
  rw [Bytes.ofText_append, Bytes.ofText_append,
    show Bytes.ofText "\x7b" = [0x7b] from (Bytes.ofText_eq _).trans rfl,
    show Bytes.ofText "\x7d" = [0x7d] from (Bytes.ofText_eq _).trans rfl]
  rfl

/-- **An object is taken by a record if its members are taken by the fields.** -/
theorem takes_object (name : String) {blank result : σ} {m : String × String}
    {ms : List (String × String)} (h : Loads fields [] blank (m :: ms) result) :
    Takes (reader name fields blank) (Bytes.ofText (object (m :: ms))) result := by
  intro limit rest hlimit hrest
  rw [ofText_object, List.map_cons, ofText_intercalate] at hlimit ⊢
  rw [List.length_cons, List.length_append, List.length_append, List.length_singleton] at hlimit
  obtain ⟨field, next, hfind, hseen, htakes, hrest⟩ := h
  have hcount := length_le_tailBytes (ms.map memberText)
  rw [List.length_map] at hcount
  obtain ⟨fuel, rfl⟩ : ∃ n, limit = n + 1 := ⟨limit - 1, by omega⟩
  have hmembers : members fields (fuel + 1) true [] blank (fuel + 1)
      (Bytes.ofText (memberText m) ++ (tailBytes (ms.map memberText) ++ 0x7d :: rest)) =
        .ok (result, 0x7d :: rest) := by
    have hmore : moreKeys true (fuel + 1) (Bytes.ofText (memberText m) ++
        (tailBytes (ms.map memberText) ++ 0x7d :: rest)) =
          .ok (true, Bytes.ofText (memberText m) ++
            (tailBytes (ms.map memberText) ++ 0x7d :: rest)) := by
      rw [ofText_memberText]
      exact moreKeys_first _ _
    rw [members_member hfind hseen htakes fuel hmore (by omega) (ends_tailBytes _ (Or.inr rfl) rest)]
    exact members_tail hrest (by omega) (by omega) rest
  refine (bind_of_ok (start_of_solid (b := 0x7b) (by decide) (fuel + 1) _)).trans ?_
  rw [if_pos rfl]
  refine (bind_of_ok (show skip (fuel + 1) _ = .ok ((), Bytes.ofText (memberText m) ++
    tailBytes (ms.map memberText) ++ [0x7d] ++ rest) from rfl)).trans ?_
  rw [List.append_assoc, List.append_assoc]
  refine (bind_of_ok (show (read : Reader Nat) (fuel + 1) _ = .ok (fuel + 1, _) from rfl)).trans ?_
  refine (bind_of_ok hmembers).trans ?_
  exact bind_of_ok (close_self (by decide) (fuel + 1) rest)

end Record

end Telemetry.Json

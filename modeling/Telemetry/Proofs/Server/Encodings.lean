import Mathlib.Data.List.DropRight
import Telemetry.Proofs.Sender.Replies
import Telemetry.Proofs.Server.Requests
import Telemetry.Proofs.Store.Directories

/-!
# Who gets compressed responses

A client lists the encodings that it takes, each with parameters; one whose weight is zero it does
not take (`Http.TakesGzip`). The server looks only at how each name begins
(`Http.acceptsGzip_iff`). So whoever takes the encoding gets it, but so does a client that declines
it, or that takes another one whose name begins alike (`Http.sealed_as_asked_iff`). A header that
is no text counts as none. Whatever goes out, it is signed as it was made.
-/

namespace Telemetry.Http

/-! ## Texts of headers -/

/-- Whether a character can stand in a header that is read as a text. -/
def IsHeaderChar (c : Char) : Prop := c.toNat = 9 ∨ 0x20 ≤ c.toNat ∧ c.toNat < 0x7f

/-- A byte that can stand in a header is a character of its own. -/
theorem isHeaderChar_of_utf8 {c : Char}
    (h : ∀ b ∈ String.utf8EncodeChar c, isHeaderByte b = true) : IsHeaderChar c := by
  by_cases hascii : c.toNat < 0x80
  · rw [Bytes.utf8EncodeChar_ascii hascii] at h
    have hvalue : (Bytes.ofChar c).toNat = c.toNat := Nat.mod_eq_of_lt (by omega)
    rw [IsHeaderChar, ← hvalue]
    exact isHeaderByte_iff.mp (h _ (List.mem_singleton.mpr rfl))
  · -- it has bytes of 128 and more only, and at least one
    obtain ⟨b, hb⟩ := List.exists_mem_of_ne_nil _ (String.utf8EncodeChar_ne_nil (c := c))
    have hhigh := Bytes.le_of_mem_utf8EncodeChar hascii b hb
    obtain hlow | hlow := isHeaderByte_iff.mp (h b hb) <;> omega

theorem isHeaderChar_of_headerText? {headers : List (String × Bytes)} {name text : String}
    (h : headerText? headers name = some text) : ∀ c ∈ text.toList, IsHeaderChar c := by
  intro c hc
  unfold headerText? at h
  split at h
  next value _ =>
    split at h
    next hall =>
      refine isHeaderChar_of_utf8 fun b hb => List.all_eq_true.mp hall b ?_
      rw [← Bytes.ofText_of_toText? h, Bytes.ofText_eq]
      exact List.mem_flatMap.mpr ⟨c, hc, hb⟩
    next => cases h
  next => cases h

/-- Whether a character is a blank of a header. -/
def isPad (c : Char) : Bool := c = ' ' || c = '\t'

/-- Headers have no other blanks. -/
theorem IsHeaderChar.isBlank_eq {c : Char} (h : IsHeaderChar c) : Text.isBlank c = isPad c := by
  have hall : ∀ n < 0x7f, n = 9 ∨ 0x20 ≤ n →
      Text.isBlank (Char.ofNat n) = isPad (Char.ofNat n) := by decide
  have hlow : c.toNat < 0x7f ∧ (c.toNat = 9 ∨ 0x20 ≤ c.toNat) := by
    unfold IsHeaderChar at h
    omega
  have hchar := hall c.toNat hlow.1 hlow.2
  rwa [Char.ofNat_toNat] at hchar

/-! ## Beginnings of lists -/

section Beginnings

variable {α : Type} {p q : α → Bool} {word l : List α}

theorem dropWhile_eq_of_forall (h : ∀ a ∈ l, p a = q a) : l.dropWhile p = l.dropWhile q := by
  induction l with
  | nil => rfl
  | cons a l ih =>
    rw [List.dropWhile_cons, List.dropWhile_cons, h a List.mem_cons_self,
      ih fun b hb => h b (List.mem_cons_of_mem a hb)]

/-- A word that ends otherwise is not cut off with the end. -/
theorem prefix_rdropWhile_iff (hword : word.rdropWhile p = word) :
    word <+: l.rdropWhile p ↔ word <+: l := by
  refine ⟨fun h => h.trans (List.rdropWhile_prefix p l), fun h => ?_⟩
  induction l using List.reverseRecOn with
  | nil => exact h
  | append_singleton l a ih =>
    by_cases ha : p a = true
    · rw [List.rdropWhile_concat_pos _ _ _ ha]
      obtain rfl | hl := List.prefix_concat_iff.mp h
      · -- the word would end with what is cut off
        rw [List.rdropWhile_concat_pos _ _ _ ha] at hword
        have hlength := (List.rdropWhile_prefix p l).length_le
        rw [hword, List.length_append] at hlength
        simp at hlength
      · exact ih hl
    · rw [List.rdropWhile_concat_neg _ _ _ ha]
      exact h

theorem prefix_takeWhile_iff (hword : ∀ a ∈ word, p a = true) :
    word <+: l.takeWhile p ↔ word <+: l := by
  refine ⟨fun h => h.trans (List.takeWhile_prefix p), ?_⟩
  rintro ⟨rest, rfl⟩
  rw [List.takeWhile_append_of_pos hword]
  exact List.prefix_append _ _

/-- What is dropped from the beginning can be dropped before the end is. -/
theorem dropWhile_takeWhile (h : ∀ a, p a = true → q a = true) :
    (l.takeWhile q).dropWhile p = (l.dropWhile p).takeWhile q := by
  induction l with
  | nil => rfl
  | cons a l ih =>
    by_cases hp : p a = true
    · rw [List.takeWhile_cons_of_pos (h a hp), List.dropWhile_cons_of_pos hp,
        List.dropWhile_cons_of_pos hp, ih]
    · rw [List.dropWhile_cons_of_neg hp]
      by_cases hq : q a = true
      · rw [List.takeWhile_cons_of_pos hq, List.dropWhile_cons_of_neg hp]
      · rw [List.takeWhile_cons_of_neg hq]
        rfl

/-- What a piece has is of the list that was split. -/
theorem mem_of_mem_splitOn [BEq α] {separator a : α} {piece : List α}
    (h : piece ∈ l.splitOn separator) (ha : a ∈ piece) : a ∈ l := by
  induction l generalizing piece with
  | nil =>
    rw [List.splitOn_nil, List.mem_singleton] at h
    exact h ▸ ha
  | cons b l ih =>
    rw [List.splitOn_cons_eq_if_modifyHead] at h
    split at h
    next =>
      obtain rfl | hmem := List.mem_cons.mp h
      · cases ha
      · exact List.mem_cons_of_mem b (ih hmem ha)
    next =>
      cases hpieces : l.splitOn separator with
      | nil => exact absurd hpieces (List.splitOn_ne_nil separator l)
      | cons first pieces =>
        rw [hpieces] at h ih
        obtain rfl | hmem := List.mem_cons.mp h
        · obtain rfl | ha := List.mem_cons.mp ha
          · exact List.mem_cons_self
          · exact List.mem_cons_of_mem b (ih List.mem_cons_self ha)
        · exact List.mem_cons_of_mem b (ih (List.mem_cons_of_mem first hmem) ha)

end Beginnings

/-! ## Lists of encodings -/

/-- A text without the blanks at either end. -/
def unpadded (cs : List Char) : List Char := (cs.dropWhile isPad).rdropWhile isPad

/-- An element of a list of encodings. -/
structure Offer where
  coding : List Char
  parameters : List (List Char)

namespace Offer

/-- The name before any semicolon, and what stands behind each. -/
def ofElement (element : List Char) : Offer :=
  ⟨unpadded (element.takeWhile (· ≠ ';')), (element.splitOn ';').tail.map unpadded⟩

/-- Whether a parameter is a weight of zero: `q=0`, or `q=0.` and zeros behind, with the letter in
either case. -/
def isZeroWeight : List Char → Bool
  | q :: '=' :: '0' :: rest =>
    (q = 'q' || q = 'Q') &&
      match rest with
      | [] => true
      | point :: digits => point = '.' && digits.all (· = '0')
  | _ => false

/-- Whether an encoding is listed as one that is not wanted. -/
def isDeclined (o : Offer) : Bool := o.parameters.any isZeroWeight

end Offer

/-- What stands between the commas of a list of encodings. -/
def offers (list : String) : List Offer := (list.toList.splitOn ',').map Offer.ofElement

/-- Whether a client that sends a list of encodings takes the one that responses can be sent in:
it is listed under its name, and with a weight other than zero. -/
def TakesGzip (list : String) : Prop :=
  ∃ o ∈ offers list, o.coding = Gzip.encoding.toList ∧ o.isDeclined = false

/-- Whether a list has an encoding whose name begins as that of the one that responses can be sent
in, whatever its weight. -/
def MentionsGzip (list : String) : Prop := ∃ o ∈ offers list, Gzip.encoding.toList <+: o.coding

instance (list : String) : Decidable (TakesGzip list) :=
  inferInstanceAs (Decidable (∃ o ∈ offers list, _))

instance (list : String) : Decidable (MentionsGzip list) :=
  inferInstanceAs (Decidable (∃ o ∈ offers list, _))

theorem TakesGzip.mentions {list : String} (h : TakesGzip list) : MentionsGzip list := by
  obtain ⟨o, ho, hcoding, -⟩ := h
  exact ⟨o, ho, hcoding ▸ List.prefix_rfl⟩

/-- An element begins with the name of the encoding, blanks aside, just if its coding does. -/
theorem prefix_trimChars_iff {element : List Char} (h : ∀ c ∈ element, IsHeaderChar c) :
    Gzip.encoding.toList <+: Text.trimChars element ↔
      Gzip.encoding.toList <+: (Offer.ofElement element).coding := by
  have hblank : element.dropWhile Text.isBlank = element.dropWhile isPad :=
    dropWhile_eq_of_forall fun c hc => (h c hc).isBlank_eq
  show _ <+: (element.dropWhile Text.isBlank).rdropWhile Text.isBlank ↔ _ <+: unpadded _
  unfold unpadded
  rw [prefix_rdropWhile_iff (by decide), prefix_rdropWhile_iff (by decide), hblank,
    dropWhile_takeWhile, prefix_takeWhile_iff (List.all_eq_true.mp (by decide))]
  -- a semicolon is no blank
  intro c hc
  simp only [isPad, Bool.or_eq_true, decide_eq_true_eq] at hc
  obtain rfl | rfl := hc <;> decide

/-- **What the server looks for**: an encoding whose name begins as that of its own. -/
theorem acceptsGzip_iff {list : String} (h : ∀ c ∈ list.toList, IsHeaderChar c) :
    acceptsGzip list = true ↔ MentionsGzip list := by
  have helement : ∀ element ∈ list.toList.splitOn ',', ∀ c ∈ element, IsHeaderChar c :=
    fun element hmem c hc => h c (mem_of_mem_splitOn hmem hc)
  unfold acceptsGzip MentionsGzip offers Text.split
  rw [Text.splitChars_eq_splitOn, List.any_map, List.any_eq_true]
  simp only [List.mem_map, exists_exists_and_eq_and]
  refine exists_congr fun element => and_congr_right fun hmem => ?_
  rw [← prefix_trimChars_iff (helement element hmem), Function.comp_apply,
    String.startsWith_string_iff, Text.trim, String.toList_ofList, String.toList_ofList]

/-! ## What goes out -/

/-- A response as it leaves the layer that signs and compresses. -/
def Request.sealed (g : Guard) (r : Request) (response : Response) : Response :=
  wrap g ((r.header? "Accept-Encoding").any acceptsGzip) response

/-- How a response arrives at a client: compressed and said to be so just if that is `wanted`, else
with its body as it was made, and in both cases signed as it was made. -/
structure Reply.SealedFor (wanted : Prop) (g : Guard) (response : Response) (reply : Reply) :
    Prop where
  encoding : reply.header? "Content-Encoding" = some Gzip.encoding ↔ wanted
  compressed : wanted → Gzip.gunzip reply.body = some response.body
  unchanged : ¬wanted →
    reply.header? "Content-Encoding" = none ∧ reply.body = response.body
  signature : reply.header? signatureHeader = g.sign response.body
  status : reply.status = response.status

namespace Reply

variable {wanted other : Prop} {g : Guard} {response : Response} {reply : Reply}

/-- A response goes out in one way only. -/
theorem SealedFor.congr_iff (h : reply.SealedFor wanted g response) :
    reply.SealedFor other g response ↔ (wanted ↔ other) :=
  ⟨fun h' => h.encoding.symm.trans h'.encoding, fun heq => propext heq ▸ h⟩

end Reply

/-- What is sealed is compressed just if that is accepted. -/
theorem sealedFor_wrap (g : Guard) (acceptsCompressed : Bool) {response : Response}
    (hplain : response.IsPlain) (hbody : response.body ≠ []) :
    (Reply.ofResponse (wrap g acceptsCompressed response)).SealedFor (acceptsCompressed = true) g
      response := by
  have hsignature := HttpSender.header?_signature_wrap g acceptsCompressed hbody
  rw [wrap_of_body g acceptsCompressed hbody] at hsignature ⊢
  cases acceptsCompressed with
  | true =>
    have hencoding : (Reply.ofResponse { response with
        encoding := some Gzip.encoding
        signature := g.sign response.body
        body := Gzip.compress response.body }).header? "Content-Encoding" =
          some Gzip.encoding :=
      Reply.header?_encoding fun s hs => Option.some.inj hs ▸ isVisible_encoding
    exact ⟨⟨fun _ => rfl, fun _ => hencoding⟩, fun _ => Gzip.gunzip_compress response.body,
      fun h => absurd rfl h, hsignature, rfl⟩
  | false =>
    have hencoding : (Reply.ofResponse { response with
        signature := g.sign response.body }).header? "Content-Encoding" = none := by
      refine (Reply.header?_encoding fun s hs => ?_).trans hplain
      cases hplain.symm.trans hs
    refine ⟨⟨fun h => ?_, nofun⟩, nofun, fun _ => ⟨hencoding, rfl⟩, hsignature, rfl⟩
    cases hencoding.symm.trans h

/-- What a route answers to an admitted peer, before it is signed and compressed. -/
def respondUnsealed {m : Type → Type} [Monad m] (g : Guard) (store : Store m) (r : Request)
    (route : Route) : m Response :=
  openRequest g r fun body =>
    if route = .unknown then pure (.bare 404)
    else if route.allows r.method then route.handle store body
    else pure (.bare 405)

/-- Whatever is sealed was plain before. -/
theorem answersPlain_respondUnsealed {σ : Type} (g : Guard) (store : Store (StateM σ))
    (r : Request) (route : Route) : AnswersPlain (respondUnsealed g store r route) := by
  have hroute : ∀ body, AnswersPlain (σ := σ) (if route = .unknown then pure (.bare 404)
      else if route.allows r.method then route.handle store body else pure (.bare 405)) := by
    intro body
    split
    · exact .pure rfl
    · split
      · exact isPlain_handle store route body
      · exact .pure rfl
  unfold respondUnsealed openRequest
  split
  · exact .pure rfl
  · split
    · exact hroute []
    · split
      · exact .pure rfl
      · exact hroute _

/-- **Responses are compressed for whoever mentions the encoding.** Let a plain response with a body
go out to a client, signed by whatever key there is. A client whose header for encodings is missing,
or no text, gets it as it was made. One that sends a list gets it compressed just if the name of an
encoding in the list begins as that of the one in use, whatever weight it has. So it is compressed
for those who take the encoding and for nobody else exactly if the list does not mention it, or has
an element that takes it: every client that takes it gets it, and one is misled that declines it or
takes only others whose names begin alike. In all cases the signature is that of the plain body.
What the server answers to an admitted peer is a plain response that goes out in this way. -/
theorem sealed_as_asked_iff (g : Guard) :
    (∀ (r : Request) (response : Response), response.IsPlain → response.body ≠ [] →
      let reply := Reply.ofResponse (r.sealed g response)
      (r.header? "Accept-Encoding" = none → reply.SealedFor False g response) ∧
        ∀ list, r.header? "Accept-Encoding" = some list →
          reply.SealedFor (MentionsGzip list) g response ∧
            (reply.SealedFor (TakesGzip list) g response ↔
              (MentionsGzip list → TakesGzip list))) ∧
    ∀ {σ : Type} (store : Store (StateM σ)) (r : Request) (route : Route),
      AnswersPlain (respondUnsealed g store r route) ∧
        respondAdmitted g store r route =
          respondUnsealed g store r route >>= fun response => pure (r.sealed g response) := by
  refine ⟨fun r response hplain hbody => ⟨fun hnone => ?_, fun list hlist => ?_⟩,
    fun store r route => ⟨answersPlain_respondUnsealed g store r route, rfl⟩⟩
  · have hsealed := sealedFor_wrap g false hplain hbody
    unfold Request.sealed
    rw [hnone]
    exact hsealed.congr_iff.mpr (by simp)
  · have haccept : acceptsGzip list = true ↔ MentionsGzip list :=
      acceptsGzip_iff (isHeaderChar_of_headerText? hlist)
    have hsealed := (sealedFor_wrap g (acceptsGzip list) hplain hbody).congr_iff.mpr haccept
    unfold Request.sealed
    rw [hlist]
    exact ⟨hsealed, hsealed.congr_iff.trans ⟨fun h => h.mp, fun h => ⟨h, TakesGzip.mentions⟩⟩⟩

/-- One client prefers another encoding and takes this one too, and one takes only others. -/
theorem sealed_as_asked_for_second_choice :
    let g : Guard := ⟨some ⟨[0x6b]⟩, none, none⟩
    let response : Response := .plain 200 "OK"
    let r : Request := ⟨"GET", "/ping",
      [("accept-encoding", Bytes.ofText "br;q=1.0,\t gzip ;q=0.05")], []⟩
    let r' : Request := ⟨"GET", "/ping",
      [("Accept-Encoding", Bytes.ofText "x-gzip, *;q=0")], []⟩
    (response.IsPlain ∧ response.body ≠ []) ∧
      (r.header? "Accept-Encoding" = some "br;q=1.0,\t gzip ;q=0.05" ∧
        TakesGzip "br;q=1.0,\t gzip ;q=0.05" ∧
        (Reply.ofResponse (r.sealed g response)).SealedFor True g response) ∧
      r'.header? "Accept-Encoding" = some "x-gzip, *;q=0" ∧ ¬MentionsGzip "x-gzip, *;q=0" ∧
        (Reply.ofResponse (r'.sealed g response)).SealedFor False g response := by
  intro g response r r'
  have hbody : response.body ≠ [] := by decide +kernel
  have hlist : r.header? "Accept-Encoding" = some "br;q=1.0,\t gzip ;q=0.05" := by decide +kernel
  have hlist' : r'.header? "Accept-Encoding" = some "x-gzip, *;q=0" := by decide +kernel
  have htakes : TakesGzip "br;q=1.0,\t gzip ;q=0.05" := by decide +kernel
  have hmentions' : ¬MentionsGzip "x-gzip, *;q=0" := by decide +kernel
  have hsealed := (((sealed_as_asked_iff g).1 r response rfl hbody).2 _ hlist).2.mpr fun _ => htakes
  have hsealed' := (((sealed_as_asked_iff g).1 r' response rfl hbody).2 _ hlist').1
  exact ⟨⟨rfl, hbody⟩, ⟨hlist, htakes, hsealed.congr_iff.mpr (iff_true_intro htakes)⟩, hlist',
    hmentions', hsealed'.congr_iff.mpr (iff_false_intro hmentions')⟩

/-- A client that declines the encoding gets it all the same, and so does one that takes only
another whose name begins alike. -/
theorem declined_encoding_is_used :
    let g : Guard := ⟨none, none, none⟩
    let response : Response := .plain 200 "OK"
    let r : Request := ⟨"GET", "/ping", [("Accept-Encoding", Bytes.ofText "gzip;q=0")], []⟩
    let r' : Request := ⟨"GET", "/ping", [("Accept-Encoding", Bytes.ofText "gzipped")], []⟩
    (r.header? "Accept-Encoding" = some "gzip;q=0" ∧ ¬TakesGzip "gzip;q=0" ∧
        ((respond g DumpingStore.call r).run (.plain .empty)).1 = r.sealed g response ∧
        ¬(Reply.ofResponse (r.sealed g response)).SealedFor (TakesGzip "gzip;q=0") g response) ∧
      r'.header? "Accept-Encoding" = some "gzipped" ∧ ¬TakesGzip "gzipped" ∧
        ((respond g DumpingStore.call r').run (.plain .empty)).1 = r'.sealed g response ∧
        ¬(Reply.ofResponse (r'.sealed g response)).SealedFor (TakesGzip "gzipped") g response := by
  intro g response r r'
  have hdeclined : ¬TakesGzip "gzip;q=0" := by decide +kernel
  have hother : ¬TakesGzip "gzipped" := by decide +kernel
  have hused : (Reply.ofResponse (r.sealed g response)).header? "Content-Encoding" =
      some Gzip.encoding := by decide +kernel
  have hused' : (Reply.ofResponse (r'.sealed g response)).header? "Content-Encoding" =
      some Gzip.encoding := by decide +kernel
  exact ⟨⟨by decide +kernel, hdeclined, by decide +kernel,
      fun h => hdeclined (h.encoding.mp hused)⟩,
    by decide +kernel, hother, by decide +kernel, fun h => hother (h.encoding.mp hused')⟩

end Telemetry.Http

import HackVM.Encoding.Basic
import HackVM.Files.Source
import HackVM.Proofs.WellFormed

/-!
# Encodings

A text can be stored in UTF-8 or in either order of UTF-16 behind a byte order mark, whatever the
encoding of its file is said to be, and in UTF-8 without a mark if it is said to be UTF-8. With a
library of encodings that keeps to the standard (`Codecs.Standard`) all of these are decoded to the
same UTF-8 text, so files with them compile alike (`compileFile_independent_of_encoding`).

What the standard says is given by `decodeUtf8?` and `decodeUtf16?`, which take data apart and give
up at the first error. They undo the encodings (`decodeUtf8?_eq_some_iff`,
`decodeUtf16?_encodeUtf16`). Text in UTF-8 does not begin like a byte order mark, unless it begins
with the character that the mark is (`not_mark_prefix_encodeUtf8`). The encodings at hand keep to
the standard (`Encoding.library_standard`).
-/

namespace HackVM

/-! ## UTF-8 -/

/-- The character of a rune, if it is one. -/
def Rune.char? : Rune → Option Char
  | .scalar c => some c
  | .stray _ => none

/-- The characters of data in UTF-8, if there is no error in it. -/
def decodeUtf8? (data : Text) : Option (List Char) := data.runes.mapM Rune.char?

theorem Rune.mapM_char?_eq_some_iff {rs : List Rune} {cs : List Char} :
    rs.mapM Rune.char? = some cs ↔ rs = cs.map Rune.scalar := by
  induction rs generalizing cs with
  | nil => cases cs <;> simp
  | cons r rs ih =>
    cases r with
    | scalar c => cases cs <;> simp [List.mapM_cons, char?, Option.bind_eq_some_iff, ih, and_comm]
    | stray b => cases cs <;> simp [List.mapM_cons, char?]

theorem runes_encodeUtf8 (cs : List Char) : (encodeUtf8 cs).runes = cs.map Rune.scalar := by
  induction cs with
  | nil => rfl
  | cons c cs ih =>
    rw [encodeUtf8, List.flatMap_cons, Text.runes_utf8EncodeChar_append, List.map_cons, ← ih]
    rfl

/-- Data in UTF-8 without errors is the encoding of its characters. -/
theorem decodeUtf8?_eq_some_iff {data : Text} {cs : List Char} :
    decodeUtf8? data = some cs ↔ data = encodeUtf8 cs := by
  rw [decodeUtf8?, Rune.mapM_char?_eq_some_iff]
  constructor
  · intro h
    rw [← Text.ofRunes_runes data, h, Text.ofRunes, List.flatMap_map]
    rfl
  · rintro rfl
    exact runes_encodeUtf8 cs

/-! ## UTF-16 -/

/-- The characters of data in UTF-16, if there is no error in it: every two bytes are a unit, and
the units that are surrogates come in pairs, with a first and a second half. -/
def decodeUtf16? (o : ByteOrder) : Text → Option (List Char)
  | [] => some []
  | [_] => none
  | a :: b :: rest =>
    if isSurrogate (o.unit a b) then
      match rest with
      | c :: d :: rest =>
        if !isTrailSurrogate (o.unit a b) && isTrailSurrogate (o.unit c d) then
          (decodeUtf16? o rest).map
            (Char.ofNat (0x10000 + (o.unit a b - 0xD800) * 0x400 + (o.unit c d - 0xDC00)) :: ·)
        else none
      | _ => none
    else (decodeUtf16? o rest).map (Char.ofNat (o.unit a b) :: ·)

/-- The two bytes of a UTF-16 unit. -/
def ByteOrder.bytes (o : ByteOrder) (u : Nat) : Text :=
  match o with
  | .little => [UInt8.ofNat u, UInt8.ofNat (u / 256)]
  | .big => [UInt8.ofNat (u / 256), UInt8.ofNat u]

/-- The UTF-16 units of a character: the character itself, or a surrogate pair for its distance from
the first character that does not fit into one unit. -/
def utf16Units (c : Char) : List Nat :=
  if c.toNat < 0x10000 then [c.toNat]
  else [0xD800 + (c.toNat - 0x10000) / 0x400, 0xDC00 + (c.toNat - 0x10000) % 0x400]

/-- The bytes of a list of characters in UTF-16. -/
def encodeUtf16 (o : ByteOrder) (cs : List Char) : Text :=
  cs.flatMap fun c => (utf16Units c).flatMap o.bytes

theorem ByteOrder.exists_bytes_eq (o : ByteOrder) {u : Nat} (hu : u < 0x10000) :
    ∃ a b, o.bytes u = [a, b] ∧ o.unit a b = u := by
  cases o with
  | little =>
    refine ⟨_, _, rfl, ?_⟩
    simp only [unit, UInt8.toNat_ofNat']
    omega
  | big =>
    refine ⟨_, _, rfl, ?_⟩
    simp only [unit, UInt8.toNat_ofNat']
    omega

theorem isSurrogate_iff {u : Nat} : isSurrogate u = true ↔ 0xD800 ≤ u ∧ u < 0xE000 := by
  simp [isSurrogate]

theorem isTrailSurrogate_iff {u : Nat} : isTrailSurrogate u = true ↔ 0xDC00 ≤ u ∧ u < 0xE000 := by
  simp [isTrailSurrogate]

theorem decodeUtf16?_unit {o : ByteOrder} {a b : UInt8} (h : ¬ isSurrogate (o.unit a b) = true)
    (rest : Text) :
    decodeUtf16? o (a :: b :: rest) =
      (decodeUtf16? o rest).map (Char.ofNat (o.unit a b) :: ·) := by
  conv_lhs => unfold decodeUtf16?
  exact if_neg h

theorem decodeUtf16?_pair {o : ByteOrder} {a b c d : UInt8} (h : isSurrogate (o.unit a b) = true)
    (hfirst : ¬ isTrailSurrogate (o.unit a b) = true)
    (hsecond : isTrailSurrogate (o.unit c d) = true) (rest : Text) :
    decodeUtf16? o (a :: b :: c :: d :: rest) = (decodeUtf16? o rest).map
      (Char.ofNat (0x10000 + (o.unit a b - 0xD800) * 0x400 + (o.unit c d - 0xDC00)) :: ·) := by
  simp [decodeUtf16?, h, hfirst, hsecond]

/-- The units of a character are taken for the character, whatever follows them. -/
theorem decodeUtf16?_char_append (o : ByteOrder) (c : Char) (rest : Text) :
    decodeUtf16? o ((utf16Units c).flatMap o.bytes ++ rest) =
      (decodeUtf16? o rest).map (c :: ·) := by
  have hvalid : c.toNat < 0xD800 ∨ 0xDFFF < c.toNat ∧ c.toNat < 0x110000 := c.valid
  by_cases hc : c.toNat < 0x10000
  · obtain ⟨a, b, hbytes, hunit⟩ := o.exists_bytes_eq hc
    have hplain : ¬ isSurrogate (o.unit a b) = true := by
      rw [hunit, isSurrogate_iff]
      omega
    have hchar : (utf16Units c).flatMap o.bytes = [a, b] := by simp [utf16Units, hc, hbytes]
    rw [hchar, List.cons_append, List.singleton_append, decodeUtf16?_unit hplain, hunit,
      Char.ofNat_toNat]
  · -- the halves of the pair are the quotient and the remainder of what has to be written
    obtain ⟨a, b, hbytes, hunit⟩ := o.exists_bytes_eq
      (u := 0xD800 + (c.toNat - 0x10000) / 0x400) (by omega)
    obtain ⟨a', b', hbytes', hunit'⟩ := o.exists_bytes_eq
      (u := 0xDC00 + (c.toNat - 0x10000) % 0x400) (by omega)
    have hsurrogate : isSurrogate (o.unit a b) = true := by
      rw [hunit, isSurrogate_iff]
      omega
    have hfirst : ¬ isTrailSurrogate (o.unit a b) = true := by
      rw [hunit, isTrailSurrogate_iff]
      omega
    have hsecond : isTrailSurrogate (o.unit a' b') = true := by
      rw [hunit', isTrailSurrogate_iff]
      omega
    have hsum : 0x10000 + (o.unit a b - 0xD800) * 0x400 + (o.unit a' b' - 0xDC00) = c.toNat := by
      rw [hunit, hunit']
      omega
    have hchar : (utf16Units c).flatMap o.bytes = [a, b, a', b'] := by
      simp [utf16Units, hc, hbytes, hbytes']
    rw [hchar]
    refine (decodeUtf16?_pair hsurrogate hfirst hsecond rest).trans ?_
    rw [hsum, Char.ofNat_toNat]

theorem decodeUtf16?_encodeUtf16 (o : ByteOrder) (cs : List Char) :
    decodeUtf16? o (encodeUtf16 o cs) = some cs := by
  induction cs with
  | nil => rfl
  | cons c cs ih =>
    rw [encodeUtf16, List.flatMap_cons, decodeUtf16?_char_append]
    exact congrArg (Option.map (c :: ·)) ih

/-! ## Byte order marks -/

/-- The byte order mark of UTF-8. -/
def utf8Mark : Text := [0xEF, 0xBB, 0xBF]

/-- The byte order mark of UTF-16. -/
def ByteOrder.mark : ByteOrder → Text
  | little => [0xFF, 0xFE]
  | big => [0xFE, 0xFF]

theorem isUTF8FirstByte_of_encodeUtf8 {cs : List Char} {b : UInt8} {t : Text}
    (h : encodeUtf8 cs = b :: t) : b.IsUTF8FirstByte := by
  cases cs with
  | nil => cases h
  | cons c cs =>
    obtain ⟨b', t', hc⟩ := List.exists_cons_of_ne_nil (String.utf8EncodeChar_ne_nil (c := c))
    have hfirst := UInt8.isUTF8FirstByte_getElem_zero_utf8EncodeChar (c := c)
    rw [encodeUtf8, List.flatMap_cons, hc] at h
    obtain rfl : b' = b := (List.cons.inj h).1
    simpa [hc] using hfirst

theorem head?_of_encodeUtf8 {cs : List Char} {c : Char} {t : Text}
    (h : encodeUtf8 cs = String.utf8EncodeChar c ++ t) : cs.head? = some c := by
  cases cs with
  | nil => exact absurd (List.append_eq_nil_iff.1 h.symm).1 String.utf8EncodeChar_ne_nil
  | cons c' cs =>
    have hlead := Text.leadChar?_utf8EncodeChar_append c' (encodeUtf8 cs)
    rw [show String.utf8EncodeChar c' ++ encodeUtf8 cs = encodeUtf8 (c' :: cs) from rfl, h,
      Text.leadChar?_utf8EncodeChar_append] at hlead
    exact hlead.symm

/-- Text in UTF-8 begins with no mark of UTF-16, and with the mark of UTF-8 only if the character of
the mark comes first. -/
theorem not_mark_prefix_encodeUtf8 {cs : List Char} (hstart : cs.head? ≠ some '\uFEFF') :
    ¬ utf8Mark <+: encodeUtf8 cs ∧ ∀ o : ByteOrder, ¬ o.mark <+: encodeUtf8 cs := by
  constructor
  · rintro ⟨rest, h⟩
    exact hstart (head?_of_encodeUtf8 (c := '\uFEFF') (t := rest) h.symm)
  · rintro o ⟨rest, h⟩
    cases o with
    | little => exact absurd (isUTF8FirstByte_of_encodeUtf8 h.symm) (by decide)
    | big => exact absurd (isUTF8FirstByte_of_encodeUtf8 h.symm) (by decide)

/-! ## The standard -/

/-- The library keeps to the standard in UTF-8, UTF-16 and byte order marks, as far as the data has
no errors. -/
structure Codecs.Standard (lib : Codecs) : Prop where
  /-- The label of UTF-8 is known, and the encoding goes by it. -/
  get_utf8 : ∃ codec, lib.get (utf8 "utf-8") = .ok codec ∧ lib.name? codec = some (utf8 "utf-8")
  /-- The decoder of UTF-8 decodes UTF-8. -/
  decoder_utf8 {label data : Text} {codec : lib.Codec} {cs : List Char}
    (hget : lib.get label = .ok codec) (hname : lib.name? codec = some (utf8 "utf-8"))
    (hdata : decodeUtf8? data = some cs) : lib.decoder codec data = .ok (encodeUtf8 cs)
  /-- After a mark of UTF-8 the data is in UTF-8, whatever decoder there is for it. -/
  override_utf8 {decoder : Decoder} {data : Text} {cs : List Char}
    (hdata : decodeUtf8? data = some cs) :
    lib.override decoder (utf8Mark ++ data) = .ok (encodeUtf8 cs)
  /-- After a mark of UTF-16 the data is in UTF-16 of this byte order. -/
  override_utf16 {decoder : Decoder} {o : ByteOrder} {data : Text} {cs : List Char}
    (hdata : decodeUtf16? o data = some cs) :
    lib.override decoder (o.mark ++ data) = .ok (encodeUtf8 cs)
  /-- Without a mark the data is left to the decoder. -/
  override_of_unmarked {decoder : Decoder} {data : Text} (hutf8 : ¬ utf8Mark <+: data)
    (hutf16 : ∀ o : ByteOrder, ¬ o.mark <+: data) : lib.override decoder data = decoder data

theorem Loader.get_of_ofLabel {lib : Codecs} {label : Text} {l : Loader lib}
    (hl : ofLabel lib label = .ok l) :
    lib.get (if label = [] then defaultEncodingLabel else label) = .ok l.codec := by
  unfold ofLabel at hl
  generalize (if label = [] then defaultEncodingLabel else label) = key at hl ⊢
  cases hget : lib.get key with
  | error reason => simp [hget] at hl
  | ok codec =>
    simp only [hget, Except.ok.injEq] at hl
    rw [← hl]

/-- A loader for the default label or that of UTF-8 is one for UTF-8. -/
theorem Codecs.Standard.name?_eq {lib : Codecs} (hlib : lib.Standard) {label : Text}
    {l : Loader lib} (hl : Loader.ofLabel lib label = .ok l)
    (hlabel : label = [] ∨ label = utf8 "utf-8") : lib.name? l.codec = some (utf8 "utf-8") := by
  have hget := Loader.get_of_ofLabel hl
  have hutf8 : (if label = [] then defaultEncodingLabel else label) = utf8 "utf-8" := by
    rcases hlabel with rfl | rfl <;> rfl
  obtain ⟨codec, hcodec, hname⟩ := hlib.get_utf8
  rw [hutf8, hcodec] at hget
  obtain rfl := Except.ok.inj hget
  exact hname

/-! ## The encodings at hand -/

namespace Reader

/-- The reader takes the bytes of every character for the character, whatever follows them. -/
def Inverts (next : Reader) (encode : Char → Text) : Prop :=
  ∀ c rest, ∃ b t, encode c = b :: t ∧ next b (t ++ rest) = (c, t.length)

theorem decodeAfter_append (next : Reader) (s t : Text) :
    next.decodeAfter s.length (s ++ t) = next.decode t := by
  induction s with
  | nil => rfl
  | cons b s ih => exact ih

theorem Inverts.decode_flatMap {next : Reader} {encode : Char → Text} (h : next.Inverts encode)
    (cs : List Char) : next.decode (cs.flatMap encode) = cs := by
  induction cs with
  | nil => rfl
  | cons c cs ih =>
    obtain ⟨b, t, hc, hread⟩ := h c (cs.flatMap encode)
    rw [List.flatMap_cons, hc, List.cons_append, decode, decodeAfter, hread, decodeAfter_append, ih]

end Reader

theorem inverts_readUtf8 : Reader.Inverts readUtf8 String.utf8EncodeChar := by
  intro c rest
  obtain ⟨b, t, hc⟩ := List.exists_cons_of_ne_nil (String.utf8EncodeChar_ne_nil (c := c))
  refine ⟨b, t, hc, ?_⟩
  have hlead := Text.leadChar?_utf8EncodeChar_append c rest
  have hlength : t.length + 1 = c.utf8Size := by
    rw [← String.length_utf8EncodeChar, hc, List.length_cons]
  rw [hc, List.cons_append] at hlead
  simp only [readUtf8, hlead]
  rw [← hlength, Nat.add_sub_cancel]

theorem readUtf16_unit {o : ByteOrder} {a b : UInt8} (h : ¬ isSurrogate (o.unit a b) = true)
    (rest : Text) : readUtf16 o a (b :: rest) = (Char.ofNat (o.unit a b), 1) := by
  simp [readUtf16, h]

theorem readUtf16_pair {o : ByteOrder} {a b c d : UInt8} (h : isSurrogate (o.unit a b) = true)
    (hfirst : ¬ isTrailSurrogate (o.unit a b) = true)
    (hsecond : isTrailSurrogate (o.unit c d) = true) (rest : Text) :
    readUtf16 o a (b :: c :: d :: rest) =
      (Char.ofNat (0x10000 + (o.unit a b - 0xD800) * 0x400 + (o.unit c d - 0xDC00)), 3) := by
  simp [readUtf16, pairChar, h, hfirst, hsecond]

/-- Where there is no error, the reader of UTF-16 reads what the standard says. -/
theorem decode_readUtf16 {o : ByteOrder} {data : Text} {cs : List Char}
    (h : decodeUtf16? o data = some cs) : Reader.decode (readUtf16 o) data = cs := by
  induction hn : data.length using Nat.strong_induction_on generalizing data cs with
  | _ n ih =>
    rcases data with _ | ⟨a, _ | ⟨b, rest⟩⟩
    · obtain rfl := Option.some.inj h
      rfl
    · simp [decodeUtf16?] at h
    · rw [List.length_cons, List.length_cons] at hn
      by_cases hu : isSurrogate (o.unit a b) = true
      · -- only a pair has no error here
        rcases rest with _ | ⟨c, _ | ⟨d, rest⟩⟩
        · simp [decodeUtf16?, hu] at h
        · simp [decodeUtf16?, hu] at h
        · cases hpair : !isTrailSurrogate (o.unit a b) && isTrailSurrogate (o.unit c d) with
          | false => simp [decodeUtf16?, hu, hpair] at h
          | true =>
            rw [Bool.and_eq_true, Bool.not_eq_true', ← Bool.not_eq_true] at hpair
            rw [decodeUtf16?_pair hu hpair.1 hpair.2] at h
            obtain ⟨cs, hrest, rfl⟩ := Option.map_eq_some_iff.1 h
            rw [List.length_cons, List.length_cons] at hn
            have hdecode := ih rest.length (by omega) hrest rfl
            simp only [← hdecode, Reader.decode, Reader.decodeAfter,
              readUtf16_pair hu hpair.1 hpair.2]
      · rw [decodeUtf16?_unit hu] at h
        obtain ⟨cs, hrest, rfl⟩ := Option.map_eq_some_iff.1 h
        have hdecode := ih rest.length (by omega) hrest rfl
        simp only [← hdecode, Reader.decode, Reader.decodeAfter, readUtf16_unit hu]

theorem Encoding.scheme_of_name {label : Text} {e : Encoding} (he : ofLabel? label = some e)
    (hname : utf8 e.name = utf8 "utf-8") : e.scheme = .utf8 := by
  have hall : ∀ e ∈ encodings, utf8 e.name = utf8 "utf-8" → e.scheme = .utf8 := by decide +kernel
  unfold ofLabel? at he
  exact hall e (List.mem_of_find?_eq_some he) hname

/-- **The encodings at hand keep to the standard.** -/
theorem Encoding.library_standard : Encoding.library.Standard where
  get_utf8 := ⟨_, rfl, rfl⟩
  decoder_utf8 := by
    intro label data codec cs hget hname hdata
    have hlabel : ofLabel? label = some codec := by
      cases he : ofLabel? label with
      | none => simp [library, he] at hget
      | some e =>
        simp only [library, he] at hget
        exact congrArg some (Except.ok.inj hget)
    have hscheme := scheme_of_name hlabel (Option.some.inj hname)
    change Except.ok (encodeUtf8 (codec.scheme.decode data)) = _
    rw [hscheme, decodeUtf8?_eq_some_iff.1 hdata]
    exact congrArg (Except.ok ∘ encodeUtf8) (inverts_readUtf8.decode_flatMap cs)
  override_utf8 := by
    intro decoder data cs hdata
    rw [← decodeUtf8?_eq_some_iff.1 hdata]
    rfl
  override_utf16 := by
    intro decoder o data cs hdata
    rw [← decode_readUtf16 hdata]
    cases o <;> rfl
  override_of_unmarked := by
    intro decoder data hutf8 hutf16
    change overrideByMark decoder data = _
    unfold overrideByMark
    split
    · next rest => exact absurd (List.prefix_append utf8Mark rest) hutf8
    · next rest => exact absurd (List.prefix_append (ByteOrder.mark .little) rest) (hutf16 .little)
    · next rest => exact absurd (List.prefix_append (ByteOrder.mark .big) rest) (hutf16 .big)
    · rfl

/-! ## Source files -/

theorem FileTree.compileFile_of_readContent {tree : FileTree} {lib : Codecs}
    {refusal : ReadStep → Option SystemError} {label path content text : Text} {l : Loader lib}
    (hl : Loader.ofLabel lib label = .ok l) (hread : tree.readContent refusal path = .ok content)
    (hdecode : l.decode content = .ok text) (opts : CompilationOptions) :
    tree.compileFile lib refusal label path opts =
      compile (Path.lastElement path) (sourceLines text) opts := by
  simp only [compileFile, hl, readSource, hread, hdecode]

/-- **Files with the same text compile alike**, however the text is stored, if the library of
encodings keeps to the standard: under every label of an encoding, a text in UTF-8 or UTF-16 behind
its byte order mark is decoded to its UTF-8, and so is plain UTF-8 under a label of it. So the name
of a file that is read with such content and the lines of the text make up the whole compilation. -/
theorem compileFile_independent_of_encoding {lib : Codecs} (hlib : lib.Standard) {label : Text}
    {l : Loader lib} (hl : Loader.ofLabel lib label = .ok l) {cs : List Char}
    (hstart : cs.head? ≠ some '\uFEFF') {content : Text}
    (hcontent : content = [0xEF, 0xBB, 0xBF] ++ encodeUtf8 cs ∨
      content = [0xFF, 0xFE] ++ encodeUtf16 .little cs ∨
      content = [0xFE, 0xFF] ++ encodeUtf16 .big cs ∨
      (label = [] ∨ label = utf8 "utf-8" ∨ lib.name? l.codec = some (utf8 "utf-8")) ∧
        content = encodeUtf8 cs) :
    l.decode content = .ok (encodeUtf8 cs) ∧
      ∀ (tree : FileTree) (refusal : ReadStep → Option SystemError) (path : Text)
        (opts : CompilationOptions), tree.readContent refusal path = .ok content →
        tree.compileFile lib refusal label path opts =
          compile (Path.lastElement path) (sourceLines (encodeUtf8 cs)) opts := by
  have hutf8 : decodeUtf8? (encodeUtf8 cs) = some cs := decodeUtf8?_eq_some_iff.2 rfl
  have hdecode : l.decode content = .ok (encodeUtf8 cs) := by
    rcases hcontent with rfl | rfl | rfl | ⟨hlabel, rfl⟩
    · exact hlib.override_utf8 hutf8
    · exact hlib.override_utf16 (o := .little) (decodeUtf16?_encodeUtf16 .little cs)
    · exact hlib.override_utf16 (o := .big) (decodeUtf16?_encodeUtf16 .big cs)
    · have hname : lib.name? l.codec = some (utf8 "utf-8") := by
        rcases hlabel with hlabel | hlabel | hname
        · exact hlib.name?_eq hl (.inl hlabel)
        · exact hlib.name?_eq hl (.inr hlabel)
        · exact hname
      obtain ⟨hmark, hmark'⟩ := not_mark_prefix_encodeUtf8 hstart
      rw [Loader.decode, hlib.override_of_unmarked hmark hmark']
      exact hlib.decoder_utf8 (Loader.get_of_ofLabel hl) hname hutf8
  exact ⟨hdecode, fun tree refusal path opts hread =>
    FileTree.compileFile_of_readContent hl hread hdecode opts⟩

/-- A character outside of the first plane and a byte order mark inside of a text, in UTF-16 under
the label of another encoding and in UTF-8. -/
theorem compileFile_independent_of_encoding_surrogate_pair :
    let cs := "//𝄞\uFEFF\r\nneg".toList
    let tree := FileTree.ofFiles []
      [(utf8 "a/F.vm", some ([0xFF, 0xFE] ++ encodeUtf16 .little cs)),
        (utf8 "b/F.vm", some (encodeUtf8 cs))]
    (encodeUtf16 .little cs).take 10 = [0x2F, 0, 0x2F, 0, 0x34, 0xD8, 0x1E, 0xDD, 0xFF, 0xFE] ∧
      ∀ opts,
        tree.compileFile Encoding.library noRefusal (utf8 " Shift_JIS") (utf8 "a/F.vm") opts =
          compile (utf8 "F.vm") (sourceLines (encodeUtf8 cs)) opts ∧
        tree.compileFile Encoding.library noRefusal [] (utf8 "b/F.vm") opts =
          compile (utf8 "F.vm") (sourceLines (encodeUtf8 cs)) opts := by
  intro cs tree
  have hlabel : ∃ l, Loader.ofLabel Encoding.library (utf8 " Shift_JIS") = .ok l := ⟨_, rfl⟩
  have hdefault : ∃ l, Loader.ofLabel Encoding.library [] = .ok l := ⟨_, rfl⟩
  obtain ⟨l, hl⟩ := hlabel
  obtain ⟨l', hl'⟩ := hdefault
  have hstart : cs.head? ≠ some '\uFEFF' := by decide
  refine ⟨by decide +kernel, fun opts => ⟨?_, ?_⟩⟩
  · exact (compileFile_independent_of_encoding Encoding.library_standard hl hstart
      (.inr (.inl rfl))).2 tree noRefusal (utf8 "a/F.vm") opts (by decide +kernel)
  · exact (compileFile_independent_of_encoding Encoding.library_standard hl' hstart
      (.inr (.inr (.inr ⟨.inl rfl, rfl⟩)))).2 tree noRefusal (utf8 "b/F.vm") opts
      (by decide +kernel)

end HackVM
